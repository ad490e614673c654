import AgentRuntime.Lease

/-! Lease fencing. The statements on the job are conditional on the lease, those on the
run are not: a worker whose job was taken over is stopped by its heartbeat alone. The
guard `fenced` names the schedules in which the heartbeat comes in time. -/
namespace AgentRuntime
open Machines Tables

/-- The worker is in its `run_once` for an attempt that is no longer the latest one. -/
def Sys.Displaced (s : Sys) (w : WorkerId) (a : Attempt) : Prop :=
  s.attempt? w = some a ∧
    ∃ row, s.db.jobs.find? a.job.id = some row ∧ a.job.attemptCount < row.attemptCount

/-- The events by which `run_once` reports an outcome of the run. -/
def EventType.outcome : EventType → Bool
  | .runFailed | .llmRetrying => true
  | _ => false

def Database.outcomeEvents (db : Database) (id : RunId) : List EventRow :=
  db.events.filter fun row => row.runId = id && row.type.outcome

/-- Under the schedules of `G`, a displaced worker leaves every run row as it is and
reports no outcome of its run. -/
def LeaseFenced (c : Config) (G : Guard Sys Action) : Prop :=
  ∀ s w a m t, Reachable (system c) G s → s.Displaced w a → G s (.work w m) →
    (system c).step s (.work w m) = some t →
    (∀ id, t.db.runs.find? id = s.db.runs.find? id) ∧
      t.db.outcomeEvents a.job.runId = s.db.outcomeEvents a.job.runId

/-- Phases from which `run_once` reaches no statement on the run unless its handler
ends: the handler is at work, or it returned a status that `run_once` keeps. -/
def Phase.quiet : Phase → Bool
  | .handling (.record _) => false
  | .handling _ => true
  | .handled (.returned status) | .complete status => status ≠ .completed
  | _ => false

/-- The moves by which the handler ends with an outcome, and exceptions. -/
def Attempt.ends (db : Database) (thread : Thread) (a : Attempt) : Move → Bool
  | .raises _ => true
  | .handler move =>
      match a.phase, move with
      | .handling .loadJob, .load _ =>
          (db.runs.find? a.job.runId).all fun run => run.status = .completed
      | .handling (.loadRun _), .load _ => (db.runs.find? a.job.runId).isNone
      | .handling (.graph _ .ready), .checkCancel _ =>
          (db.runs.find? a.job.runId).any fun run => run.status = .cancelled
      | .handling (.graph resume (.gated _ _)), .interrupt =>
          resume.isNone || thread.outstanding.isNone
      | _, .finish _ | _, .throw _ => true
      | _, _ => false
  | _ => false

/-- A job is taken over only while the handler of the earlier attempt is at work, and
this handler does not end before the heartbeat has it cancelled. -/
def fenced : Guard Sys Action := fun s action =>
  (∀ w now id, s.Claims w now id action →
    ∀ v a, s.attempt? v = some a → a.job.id = id → a.phase.quiet = true) ∧
  ∀ w m a, action = .work w m → s.Displaced w a →
    a.ends s.db (s.threads a.job.runId) m = false

section Quiet
variable {c : Config} {s : Sys} {w : WorkerId} {a next : Attempt} {e : Effect}

namespace Attempt

theorem handlerStep_quiet {thread : Thread} {drained : Bool} {phase : HandlerPhase}
    {move : HandlerMove} (at' : a.phase = .handling phase) (quiet : a.phase.quiet = true)
    (goes : a.ends s.db thread (.handler move) = false)
    (stepped : a.handlerStep c.py s.db thread drained phase move = some e)
    (after : e.attempt = some next) : next.phase.quiet = true := by
  cases handlerStep_cases stepped with
  | missing absent at'' =>
      -- a run that is missing ends the handler
      rcases at'' with rfl | ⟨_, rfl⟩ <;> simp [ends, at', absent] at goes
  | ended stored =>
      cases after
      simpa [ends, at', stored, Phase.quiet] using goes
  | cancelled stored status => simp [ends, at', stored, status] at goes
  | paused off => rcases off with off | off <;> simp [ends, at', off] at goes
  | finished | threw => simp [ends, at'] at goes
  | recorded => rw [at'] at quiet; contradiction
  | loaded | waiting | admitted | started | entered | resumed | nodeStarted | emitted | gated
  | answered | nodeCompleted => cases after; rfl

theorem effect_quiet {m : Move} (quiet : a.phase.quiet = true)
    (goes : a.ends s.db (s.threads a.job.runId) m = false) (effected : s.effect c w a m = some e)
    (after : e.attempt = some next) : next.phase.quiet = true := by
  generalize reached : next.phase = phase
  have moved := Sys.effect_phase effected after
  rw [reached] at moved
  cases moved with
  | beat => exact quiet
  | started at' => rw [at'] at quiet; contradiction
  | @joined _ result at' =>
      rw [at'] at quiet
      cases result <;> exact quiet
  | promoted at' => rw [at'] at quiet; contradiction
  | gaveUp at' | reportedGivingUp at' | failed at' | reportedFailure at' =>
      rw [at'] at quiet
      contradiction
  | excepted | escaped => contradiction
  | handler at' stepped same _ => exact handlerStep_quiet at' quiet goes stepped same

end Attempt

theorem Issues.quiet {m : Move} {tx : Tx} (issues : Issues c s w a m tx)
    (quiet : a.phase.quiet = true)
    (db : Database) :
    (∀ id, (tx.apply c.py db).runs.find? id = db.runs.find? id) ∧
      (tx.apply c.py db).events = db.events := by
  have silent {tx : Tx} (runs : ∀ run, tx.onRun db run = run) (new : tx.newRun = none)
      (events : (tx.apply c.py db).events = db.events) :
      (∀ id, (tx.apply c.py db).runs.find? id = db.runs.find? id) ∧
        (tx.apply c.py db).events = db.events := by
    refine ⟨fun id => ?_, events⟩
    rw [Tx.find?_runs, new, rowAfter_none]
    simp [runs]
  cases issues with
  | idle | heartbeat | complete => exact silent (fun _ => rfl) rfl rfl
  | createPending =>
      refine silent (fun _ => rfl) rfl ?_
      simp only [Tx.apply, Database.createPending]
      split <;> rfl
  | updateRun at' | setRunning at' | promote at' | failWithoutRetry at' | setFailed at'
  | emitFailed at' | fail at' | setRetry at' | emitRetry at' => rw [at'] at quiet; contradiction

/-- The handler emits events of its own run, and outcome events never. -/
theorem Attempt.handlerStep_emits {py : Builtins} {db : Database} {thread : Thread}
    {drained : Bool} {phase : HandlerPhase} {move : HandlerMove}
    (stepped : a.handlerStep py db thread drained phase move = some e) :
    ∀ event ∈ e.emitted, event.runId = a.job.runId ∧ event.type.outcome = false := by
  cases handlerStep_cases stepped with
  | started =>
      dsimp only
      split <;> simp [event, EventType.outcome]
  | @emitted _ _ event body =>
      rcases event with ⟨type, _, _, _⟩
      cases type <;> first | contradiction | simp [Attempt.event, EventType.outcome]
  | gated => simp [gate]
  | recorded => simp [updateRun]
  | cancelled | threw => simp [throw, event, EventType.outcome]
  | nodeStarted | paused | nodeCompleted | finished => simp [event, EventType.outcome]
  | missing | ended | loaded | waiting | admitted | entered | resumed | answered => simp

theorem Attempt.advance_emits {w : WorkerId} {now : Time}
    (advanced : Advanced (c.worker w) w now a e) : e.emitted = [] := by
  cases advanced <;> rfl

/-- Outcome events are appended by `run_once` itself, never through an emitter. -/
theorem Sys.effect_emits {m : Move} (effected : s.effect c w a m = some e) :
    ∀ event ∈ e.emitted, event.runId = a.job.runId ∧ event.type.outcome = false := by
  have nothing (silent : e.emitted = []) :
      ∀ event ∈ e.emitted, event.runId = a.job.runId ∧ event.type.outcome = false := by
    simp [silent]
  cases Sys.effect_cases effected with
  | advance advanced => exact nothing (Attempt.advance_emits advanced)
  | handler _ _ stepped => exact Attempt.handlerStep_emits stepped
  | @unwound _ _ inner _ _ stepped => exact Attempt.handlerStep_emits (e := inner) stepped
  | excepted | escaped | abandoned | readClock | renewed | lost | beatRaises | cancelled =>
      exact nothing rfl

def Sys.LanesSilent (s : Sys) : Prop :=
  ∀ w, ∀ lane ∈ (s.workers w).lanes, ∀ event ∈ lane, event.type.outcome = false

end Quiet

namespace Worker

/-- An event of a lane was in a lane before, or has just been emitted. -/
theorem mem_emit {emitted : List RuntimeEvent} {opensLane : Bool}
    {lanes : List (List RuntimeEvent)} {lane : List RuntimeEvent} {event : RuntimeEvent}
    (member : lane ∈ emit emitted opensLane lanes) (among : event ∈ lane) :
    event ∈ emitted ∨ ∃ old ∈ lanes, event ∈ old := by
  unfold emit at member
  split at member
  · rcases List.mem_cons.mp member with rfl | old
    · exact .inl among
    · exact .inr ⟨lane, old, among⟩
  · split at member
    · rw [List.mem_singleton.mp member] at among
      exact .inl among
    next newest rest =>
      rcases List.mem_cons.mp member with rfl | old
      · rcases List.mem_append.mp among with old | new
        · exact .inr ⟨newest, List.mem_cons_self, old⟩
        · exact .inl new
      · exact .inr ⟨lane, List.mem_cons_of_mem _ old, among⟩

theorem emit_silent {emitted : List RuntimeEvent} {opensLane : Bool}
    {lanes : List (List RuntimeEvent)}
    (silent : ∀ event ∈ emitted, event.type.outcome = false)
    (before : ∀ lane ∈ lanes, ∀ event ∈ lane, event.type.outcome = false) :
    ∀ lane ∈ emit emitted opensLane lanes, ∀ event ∈ lane, event.type.outcome = false := by
  intro lane member event among
  rcases mem_emit member among with new | ⟨old, stored, among⟩
  · exact silent event new
  · exact before old stored event among

end Worker

namespace Sys
variable {c : Config} {s s' : Sys} {action : Action}

theorem LanesSilent.update (silent : s.LanesSilent) {w : WorkerId} {worker : Worker}
    (own : ∀ lane ∈ worker.lanes, ∀ event ∈ lane, event.type.outcome = false) :
    ∀ v, ∀ lane ∈ (Function.update s.workers w worker v).lanes,
      ∀ event ∈ lane, event.type.outcome = false := by
  apply (Function.forall_update_iff s.workers fun _ worker =>
    ∀ lane ∈ worker.lanes, ∀ event ∈ lane, event.type.outcome = false).mpr
  exact ⟨own, fun v _ => silent v⟩

theorem LanesSilent.step (silent : s.LanesSilent) (step : Step c s action s') :
    s'.LanesSilent := by
  cases step with
  | tick | request => exact silent
  | @persist w index event rest found =>
      refine silent.update fun lane member => ?_
      rcases List.mem_or_eq_of_mem_set member with old | rfl
      · exact silent w lane old
      · exact fun other among => silent w _ (List.mem_of_getElem? found) other
          (List.mem_cons_of_mem _ among)
  | crash w => exact silent.update (by simp)
  | @poll w | @claimNone w | @claim w => exact silent.update (silent w)
  | @effect w m a e busy effected =>
      exact silent.update (Worker.emit_silent
        (fun event new => (effect_emits effected event new).2) (silent w))

theorem lanesSilent_inductive (c : Config) (G : Guard Sys Action) :
    Inductive (system c) G LanesSilent where
  init s first := by
    obtain ⟨clock, rfl⟩ := first
    intro w lane member
    contradiction
  step _ _ _ silent _ stepped := silent.step (step_sound stepped)

theorem Step.attemptCount (step : Step c s action s') {id : JobId} {row row' : JobRow}
    (before : s.db.jobs.find? id = some row) (after : s'.db.jobs.find? id = some row') :
    row'.attemptCount = row.attemptCount ∨ ∃ w now, s.Claims w now id action := by
  obtain ⟨tx, commits⟩ := step.commits
  have key : row.id = id := Table.key_of_find? before
  subst key
  rw [commits.db, Tx.find?_jobs, before, rowAfter_some, Option.some.injEq] at after
  subst after
  rcases (tx.onJob_step row).attemptCount with kept | ⟨w, l, now, claim, _⟩
  · exact .inl kept
  · exact .inr ⟨w, now, commits.claims claim⟩

theorem not_claims_of_effect {w : WorkerId} {m : Move} {a : Attempt} {e : Effect}
    (effected : s.effect c w a m = some e) {v : WorkerId} {now : Time} {id : JobId} :
    ¬ s.Claims v now id (.work w m) := by
  rintro ⟨locked, _, same, _⟩
  cases same
  contradiction

def QuietDisplaced (s : Sys) : Prop :=
  s.Leased ∧ ∀ w a, s.Displaced w a → a.phase.quiet = true

theorem QuietDisplaced.step (invariant : s.QuietDisplaced) (allowed : fenced s action)
    (step : Step c s action s') : s'.QuietDisplaced := by
  obtain ⟨leased, quiet⟩ := invariant
  refine ⟨leased.step step, ?_⟩
  rintro v b ⟨busy, row', stored', taken⟩
  obtain ⟨tx, commits⟩ := step.commits
  cases commits.after v b busy with
  | kept before =>
      obtain ⟨_, row, stored, _⟩ := leased.bound v b before
      rcases step.attemptCount stored stored' with same | ⟨w, now, claims⟩
      · exact quiet v b ⟨before, row, stored, same ▸ taken⟩
      · exact allowed.1 w now b.job.id claims v b before rfl
  | @stepped m a e before effected after =>
      have job := (effect_lease effected).job after
      rw [job] at stored' taken
      obtain ⟨_, row, stored, _⟩ := leased.bound v a before
      rcases step.attemptCount stored stored' with same | ⟨w, now, claims⟩
      · have displaced : s.Displaced v a := ⟨before, row, stored, same ▸ taken⟩
        exact Attempt.effect_quiet (quiet v a displaced) (allowed.2 v m a rfl displaced) effected
          after
      · exact absurd claims (not_claims_of_effect effected)
  | @claimed now locked job polling found fresh =>
      subst fresh
      obtain ⟨stored, _⟩ := claimCandidate_sound found
      have claimed := (leased.claims_step step ⟨locked, job, rfl, polling, found, rfl⟩ stored).1
      rw [JobRow.claimedBy_id, claimed] at stored'
      cases stored'
      exact absurd taken (Nat.lt_irrefl _)

theorem quietDisplaced_inductive (c : Config) : Inductive (system c) fenced QuietDisplaced where
  init s first := by
    refine ⟨(leased_inductive c).init s first, ?_⟩
    obtain ⟨clock, rfl⟩ := first
    rintro w a ⟨busy, _⟩
    contradiction
  step _ _ _ invariant allowed stepped := invariant.step allowed (step_sound stepped)

end Sys

theorem Database.appendMany_outcomeEvents (py : Builtins) (db : Database) (id run : RunId)
    (events : List RuntimeEvent) (silent : ∀ event ∈ events, event.type.outcome = false) :
    (db.appendMany py id events).outcomeEvents run = db.outcomeEvents run := by
  obtain ⟨kept, whole, sub⟩ :=
    Logs.insertAll_append db.events (eventRows py id events (db.nextSeq id))
  have quiet : kept.filter (fun row => row.runId = run && row.type.outcome) = [] := by
    refine List.filter_eq_nil_iff.mpr fun row member => ?_
    obtain ⟨numbered, found, rfl⟩ := List.mem_map.mp (sub.subset member)
    simp [RuntimeEvent.row, silent numbered.1 (List.fst_mem_of_mem_zipIdx found)]
  rw [outcomeEvents, appendMany, whole, List.filter_append, quiet, List.append_nil, outcomeEvents]

/-- Lease fencing under the schedules in which the heartbeat comes in time. -/
theorem lease_fencing (c : Config) : LeaseFenced c fenced := by
  intro s w a m t reached displaced allowed stepped
  obtain ⟨_, quiet⟩ := (Sys.quietDisplaced_inductive c).reachable reached
  have silent := (Sys.lanesSilent_inductive c fenced).reachable reached
  have step : Sys.Step c s (.work w m) t := Sys.step_sound stepped
  have quiet := quiet w a displaced
  have busy := Sys.attempt?_eq_some.mp displaced.1
  cases step with
  | @persist _ lane event rest found =>
      refine ⟨fun id => ?_, ?_⟩
      · exact congrArg (Table.find? · id)
          (Database.appendMany_tables c.py s.db event.runId [event]).1
      · refine Database.appendMany_outcomeEvents c.py s.db _ _ _ fun other member => ?_
        rw [List.mem_singleton.mp member]
        exact silent w _ (List.mem_of_getElem? found) event List.mem_cons_self
  | crash => exact ⟨fun _ => rfl, rfl⟩
  | poll idle => rw [busy] at idle; contradiction
  | claimNone polling | claim polling => rw [busy] at polling; contradiction
  | effect before effected =>
      rw [displaced.1] at before
      cases before
      obtain ⟨runs, events⟩ := (Sys.effect_issues effected).quiet quiet s.db
      exact ⟨runs, congrArg (List.filter _) events⟩

def fencedCheck (ws : List WorkerId) (s : Sys) (action : Action) : Bool :=
  action.within ws &&
    match action with
    | .work w (.claim locked) =>
        match (s.workers w).activity with
        | .polling now =>
            (s.db.claimCandidate now locked).all fun job =>
              ws.all fun v => (s.attempt? v).all fun a => a.job.id ≠ job.id || a.phase.quiet
        | _ => true
    | .work w m =>
        (s.attempt? w).all fun a =>
          (s.db.jobs.find? a.job.id).all (fun row => row.attemptCount ≤ a.job.attemptCount) ||
            !a.ends s.db (s.threads a.job.runId) m
    | _ => true

theorem fencedCheck_checks (c : Config) (ws : List WorkerId) :
    Checks (system c) fenced (Sys.IdleOutside ws) (fencedCheck ws) where
  sound s action idle checked := by
    simp only [fencedCheck, Bool.and_eq_true] at checked
    obtain ⟨within, checked⟩ := checked
    refine ⟨?_, ?_⟩
    · rintro w now id ⟨locked, job, rfl, polling, found, rfl⟩ v a busy same
      simp only [polling, found, Option.all_some, List.all_eq_true] at checked
      have apart := checked v (idle.mem busy)
      simpa [busy, same] using apart
    · rintro w m a rfl ⟨busy, row, stored, taken⟩
      cases m with
      | claim => rfl
      | _ =>
          simp only [busy, stored, Option.all_some, Bool.or_eq_true, decide_eq_true_eq,
            Bool.not_eq_true'] at checked
          exact checked.resolve_left (Nat.not_le.mpr taken)
  kept s action t idle checked stepped := by
    simp only [fencedCheck, Bool.and_eq_true] at checked
    exact idle.step checked.1 (Sys.step_sound stepped)

/-- A takeover that the heartbeat notices: the displaced worker is told and leaves the
run alone. -/
theorem takeover_noticed_in_time :
    ∃ s t w a, s.Displaced w a ∧ (system sampleConfig).step s (.work w .beat) = some t ∧
      ∀ id, t.db.runs.find? id = s.db.runs.find? id := by
  obtain ⟨s, run, idle, held, taken, checked, beats⟩ :=
    (fencedCheck_checks sampleConfig ["w1", "w2"]).of_test (Sys.idleOutside_start _ 100)
      (sampleClaim "w1" ++
        [.work "w1" .advance, .tick 61, .work "w2" .poll, .work "w2" (.claim fun _ => false),
          .work "w1" .readClock])
      (fun s =>
        (s.attempt? "w1").map (fun a => (a.job.id, a.job.attemptCount)) = some ("job", 1) ∧
          (s.db.jobs.find? "job").map JobRow.attemptCount = some 2 ∧
          fencedCheck ["w1", "w2"] s (.work "w1" .beat) = true ∧
          ((system sampleConfig).step s (.work "w1" .beat)).isSome = true)
      (by decide)
  obtain ⟨a, busy, same⟩ := Option.map_eq_some_iff.mp held
  obtain ⟨row, stored, count⟩ := Option.map_eq_some_iff.mp taken
  obtain ⟨t, stepped⟩ := Option.isSome_iff_exists.mp beats
  obtain ⟨job, first⟩ := Prod.mk.inj same
  have displaced : s.Displaced "w1" a := ⟨busy, row, job ▸ stored, by omega⟩
  refine ⟨s, t, "w1", a, displaced, stepped, ?_⟩
  exact (lease_fencing sampleConfig s "w1" a .beat t ⟨_, _, ⟨100, rfl⟩, run⟩ displaced
    ((fencedCheck_checks sampleConfig _).sound s _ idle checked) stepped).1

/-- The handler of `w1` has ended and its events are stored when `w2` takes the job over;
the update of the run by `w1` is still to come. -/
def takeoverAtUpdate : List Action :=
  sampleClaim "w1" ++
    [.work "w1" .advance, .work "w1" (.handler (.load fun _ => 0)),
      .work "w1" (.handler (.load fun _ => 0)), .work "w1" (.handler .start),
      .work "w1" (.handler .launch), .work "w1" (.handler (.finish "done")),
      .work "w1" (.persist 0), .work "w1" (.persist 0), .tick 61,
      .work "w2" .poll, .work "w2" (.claim fun _ => false)]

/-- The displaced worker then completes the run that another worker is executing. -/
theorem stale_worker_completes_run : ¬ LeaseFenced sampleConfig anyStep := by
  obtain ⟨s, run, held, taken, written⟩ := Run.of_test (M := system sampleConfig)
    (.start 100) takeoverAtUpdate
    (fun s =>
      (s.attempt? "w1").map (fun a => (a.job.id, a.job.attemptCount)) = some ("job", 1) ∧
        (s.db.jobs.find? "job").map JobRow.attemptCount = some 2 ∧
        ((system sampleConfig).step s (.work "w1" (.handler .updateRun))).any (fun t =>
          (t.db.runs.find? sampleRun).map RunRow.status ≠
            (s.db.runs.find? sampleRun).map RunRow.status) = true)
    (by decide)
  obtain ⟨a, busy, same⟩ := Option.map_eq_some_iff.mp held
  obtain ⟨row, stored, count⟩ := Option.map_eq_some_iff.mp taken
  obtain ⟨t, stepped, differs⟩ := (Option.any_eq_true _ _).mp written
  obtain ⟨job, first⟩ := Prod.mk.inj same
  intro fenced
  have displaced : s.Displaced "w1" a := ⟨busy, row, job ▸ stored, by omega⟩
  have kept := (fenced s "w1" a _ t ⟨_, _, ⟨100, rfl⟩, run⟩ displaced trivial stepped).1 sampleRun
  rw [kept] at differs
  simp at differs

end AgentRuntime
