import AgentRuntime.Library.Tokens
import AgentRuntime.Timeline

/-! The event `run.started`. An execution emits it where none is stored, so two that overlap may
both store one. The guard `startsKnown` names the schedules in which none is on its way at the
check. -/
namespace AgentRuntime
open Machines Tables Logs Tokens

def RuntimeEvent.starts (event : RuntimeEvent) (id : RunId) : Bool :=
  event.runId = id && event.type = .runStarted

/-- How many `run.started` of the run are stored. -/
def Database.starts (db : Database) (id : RunId) : Nat :=
  db.events.countP fun row => row.runId = id && row.type = .runStarted

/-- The `run.started` among emitted events. -/
def startsAmong (id : RunId) (events : List RuntimeEvent) : Nat :=
  events.countP fun event => event.starts id

/-- How many `run.started` of the run are waiting in the lanes of the worker. -/
def Worker.starts (worker : Worker) (id : RunId) : Nat :=
  startsAmong id worker.lanes.flatten

/-- Where a `run.started` of the run can be: in the log, or with a worker. -/
def Sys.starts (s : Sys) (id : RunId) : Option WorkerId → Nat
  | none => s.db.starts id
  | some w => (s.workers w).starts id

/-- An execution that finds no `run.started` of its run stored finds none on its way either. -/
def startsKnown : Guard Sys Action := fun s action =>
  ∀ w a, action = .work w (.handler .start) → s.attempt? w = some a →
    s.db.hasEvent a.job.runId .runStarted = false →
    ∀ v, ∀ lane ∈ (s.workers v).lanes, ∀ event ∈ lane, event.starts a.job.runId = false

/-- There is one `run.started` of each run, or none. -/
structure Sys.StartedOnce (s : Sys) : Prop where
  lone : ∀ id, Lone (s.starts id)
  requests : ∀ event ∈ s.apiEvents, event.type ≠ .runStarted

/-- The `run.started` that a transaction stores. -/
def Tx.starts (id : RunId) : Tx → Nat
  | .appendMany run events =>
      if run = id then events.countP fun event => event.type = .runStarted else 0
  | _ => 0

section Log
variable {py : Builtins} {db : Database} {id : RunId}

theorem hasEvent_false : db.hasEvent id .runStarted = false ↔ db.starts id = 0 := by
  simp [Database.hasEvent, Database.starts, List.countP_eq_zero]

theorem countP_eventRows (run : RunId) (events : List RuntimeEvent) (n : Nat) :
    ((eventRows py run events n).countP fun row => row.runId = id && row.type = .runStarted) =
      (Tx.appendMany run events).starts id := by
  induction events generalizing n with
  | nil => simp [eventRows, Tx.starts]
  | cons event rest ih =>
      rw [eventRows_cons, List.countP_cons, ih]
      by_cases own : run = id <;> simp [Tx.starts, own, RuntimeEvent.row, List.countP_cons]

variable (py db id) in
theorem Tx.starts_apply (tx : Tx) : (tx.apply py db).starts id ≤ db.starts id + tx.starts id := by
  rcases tx.events_cases py db with same | ⟨run, events, rfl⟩
  · rw [Database.starts, same]
    exact Nat.le_add_right _ _
  · obtain ⟨kept, whole, sub⟩ :=
      insertAll_append db.events (eventRows py run events (db.nextSeq run))
    have same : (Tx.appendMany run events).apply py db = { db with events := db.events ++ kept } :=
      congrArg (fun log => { db with events := log }) whole
    rw [same, Database.starts, List.countP_append, ← countP_eventRows run events]
    exact Nat.add_le_add_left (sub.countP_le) _

end Log

section Lanes
variable {worker : Worker} {id : RunId}

theorem starts_after (e : Effect) :
    (worker.after e).starts id = worker.starts id + startsAmong id e.emitted := by
  have joined : (Worker.emit e.emitted e.opensLane worker.lanes).flatten.Perm
      (worker.lanes.flatten ++ e.emitted) := by
    unfold Worker.emit
    split
    · exact List.perm_append_comm
    · split
      next lanes => simp [lanes]
      next lane rest lanes =>
        rw [lanes, List.flatten_cons, List.flatten_cons, List.append_assoc, List.append_assoc]
        exact (List.perm_append_comm).append_left lane
  rw [Worker.starts, startsAmong, Worker.after, joined.countP_eq, List.countP_append]
  rfl

theorem startsAmong_set {lanes : List (List RuntimeEvent)} {lane : Nat} {event : RuntimeEvent}
    {rest : List RuntimeEvent} (found : lanes[lane]? = some (event :: rest)) :
    startsAmong id (lanes.set lane rest).flatten + startsAmong id [event] =
      startsAmong id lanes.flatten := by
  induction lanes generalizing lane with
  | nil => contradiction
  | cons first others ih =>
      cases lane with
      | zero =>
          cases found
          simp only [startsAmong, List.set_cons_zero, List.flatten_cons, List.countP_append,
            List.cons_append, List.countP_cons, List.countP_nil]
          omega
      | succ lane =>
          have later := ih found
          simp only [startsAmong, List.set_cons_succ, List.flatten_cons,
            List.countP_append] at later ⊢
          omega

end Lanes

namespace Sys
variable {c : Config} {s t : Sys} {w : WorkerId} {a : Attempt} {m : Move} {e : Effect}

/-- Only the check of an execution emits `run.started`, where it finds none. -/
theorem effect_starts (effected : s.effect c w a m = some e) :
    (m = .handler .start ∧ s.db.hasEvent a.job.runId .runStarted = false ∧
        e.emitted = [a.event .runStarted]) ∨
      ∀ event ∈ e.emitted, event.type ≠ .runStarted := by
  have handled {phase : HandlerPhase} {move : HandlerMove} {inner : Effect}
      (stepped : a.handlerStep c.py s.db (s.threads a.job.runId) (s.workers w).drained phase move =
        some inner) :
      (Move.handler move = .handler .start ∧ s.db.hasEvent a.job.runId .runStarted = false ∧
          inner.emitted = [a.event .runStarted]) ∨
        ∀ event ∈ inner.emitted, event.type ≠ .runStarted := by
    cases Attempt.handlerStep_cases stepped with
    | started =>
        cases known : s.db.hasEvent a.job.runId .runStarted with
        | true => exact .inr (by simp)
        | false => exact .inl ⟨rfl, rfl, by simp⟩
    | @emitted _ _ event body =>
        refine .inr fun other member => ?_
        rw [List.mem_singleton.mp member]
        intro starts
        rw [show event.type = .runStarted from starts] at body
        contradiction
    | _ => exact .inr (by simp [Attempt.event, Attempt.throw, Attempt.gate, Attempt.updateRun])
  cases effect_cases effected with
  | advance advanced => cases advanced <;> exact .inr (by simp)
  | handler _ _ stepped => exact handled stepped
  | @unwound _ _ inner _ _ stepped => exact @handled _ _ inner stepped
  | _ => exact .inr (by simp)

theorem effect_tx_starts (effected : s.effect c w a m = some e) (id : RunId) :
    e.tx.starts id = 0 := by
  have issues := effect_issues effected
  generalize e.tx = tx at issues
  cases issues with
  | emitFailed => simp [Tx.starts, Attempt.runFailedEvent, Attempt.event]
  | emitRetry =>
      simp only [Tx.starts, List.countP_singleton]
      split
      · split <;> simp [Attempt.runFailedEvent, Attempt.retryingEvent, Attempt.event]
      · rfl
  | _ => rfl

theorem StartedOnce.fewer (once : s.StartedOnce) (fewer : ∀ id i, t.starts id i ≤ s.starts id i)
    (requests : ∀ event ∈ t.apiEvents, event.type ≠ .runStarted) : t.StartedOnce :=
  ⟨fun id => (once.lone id).mono (fewer id), requests⟩

theorem tx_starts_of_event {event : RuntimeEvent} (other : event.type ≠ .runStarted)
    (id : RunId) : (Tx.appendMany event.runId [event]).starts id = 0 := by
  simp [Tx.starts, other]

/-- A transaction that stores no `run.started` leaves those of the log. -/
theorem starts_none (py : Builtins) {tx : Tx} (silent : ∀ id, tx.starts id = 0) (id : RunId) :
    (tx.apply py s.db).starts id ≤ s.db.starts id := by
  have stored := tx.starts_apply py s.db id
  rwa [silent id, Nat.add_zero] at stored

theorem startedOnce_serve {r : Request} (once : s.StartedOnce) (served : Served c s r t) :
    t.StartedOnce := by
  have requests := once.requests
  have still (tx : Tx) (silent : ∀ id, tx.starts id = 0) (db : t.db = tx.apply c.py s.db)
      (workers : t.workers = s.workers) (id : RunId) (i : Option WorkerId) :
      t.starts id i ≤ s.starts id i := by
    cases i with
    | none =>
        have stored := s.starts_none c.py silent id
        rwa [← db] at stored
    | some w => exact (congrArg (fun workers => (workers w).starts id) workers).le
  cases served with
  | @createRun new jobId =>
      refine once.fewer (still (.createRun new jobId s.clock) (fun _ => rfl) rfl rfl) ?_
      intro event member
      rcases List.mem_append.mp member with earlier | decided
      · exact requests event earlier
      · rw [List.mem_singleton.mp decided]
        simp
  | @cancelRun run =>
      refine once.fewer (still (.cancelRun run) (fun _ => rfl) rfl rfl) fun event member => ?_
      rcases List.mem_append.mp member with earlier | ended
      · exact requests event earlier
      · rw [List.mem_singleton.mp ended]
        simp
  | resolve => exact once.fewer (still (.resolveAndEnqueue ..) (fun _ => rfl) rfl rfl) requests
  | enqueue => exact once.fewer (still (.enqueue ..) (fun _ => rfl) rfl rfl) requests
  | @append position event found =>
      have other := requests event (List.mem_of_getElem? found)
      refine once.fewer (still (.appendMany event.runId [event]) (tx_starts_of_event other)
        rfl rfl) fun event member => ?_
      exact requests event (List.mem_of_mem_eraseIdx member)
  | abandon =>
      refine once.fewer (still .idle (fun _ => rfl) rfl rfl) fun event member => ?_
      exact requests event (List.mem_of_mem_eraseIdx member)

/-- The oldest event of a lane goes to the log. -/
theorem startedOnce_persist {lane : Nat} {event : RuntimeEvent} {rest : List RuntimeEvent}
    (once : s.StartedOnce) (found : (s.workers w).lanes[lane]? = some (event :: rest))
    (db : t.db = (Tx.appendMany event.runId [event]).apply c.py s.db)
    (workers : t.workers = Function.update s.workers w
      { s.workers w with lanes := (s.workers w).lanes.set lane rest })
    (api : t.apiEvents = s.apiEvents) : t.StartedOnce := by
  refine ⟨fun id => ?_, api ▸ once.requests⟩
  have carried : (Tx.appendMany event.runId [event]).starts id = startsAmong id [event] := by
    by_cases own : event.runId = id <;> simp [Tx.starts, startsAmong, RuntimeEvent.starts, own]
  have given : t.starts id (some w) + startsAmong id [event] = s.starts id (some w) := by
    simp only [starts, workers, Function.update_self]
    exact startsAmong_set found
  have taken : t.starts id none ≤ s.starts id none + startsAmong id [event] := by
    rw [← carried]
    simp only [starts, db]
    exact Tx.starts_apply _ _ _ _
  refine (once.lone id).moved given taken fun i elsewhere => ?_
  cases i with
  | none => contradiction
  | some v =>
      by_cases own : v = w
      · rw [own]
        omega
      · simp only [starts, workers, Function.update_of_ne own]
        exact Nat.le_refl _

/-- An execution emits `run.started`, or something else. -/
theorem startedOnce_effect (once : s.StartedOnce) (guarded : startsKnown s (.work w m))
    (busy : s.attempt? w = some a) (effected : s.effect c w a m = some e) :
    (s.commit c w a.job.runId e).StartedOnce := by
  have logged := fun id => s.starts_none c.py (effect_tx_starts effected) id
  have others (id : RunId) {v : WorkerId} (other : v ≠ w) :
      (s.commit c w a.job.runId e).starts id (some v) = s.starts id (some v) := by
    simp only [starts, commit, Function.update_of_ne other]
  have own (id : RunId) : (s.commit c w a.job.runId e).starts id (some w) =
      s.starts id (some w) + startsAmong id e.emitted := by
    simp only [starts, commit, Function.update_self]
    exact starts_after e
  have fewer (id : RunId) (silent : startsAmong id e.emitted = 0) (i : Option WorkerId) :
      (s.commit c w a.job.runId e).starts id i ≤ s.starts id i := by
    cases i with
    | none => exact logged id
    | some v =>
        by_cases same : v = w
        · rw [same, own id, silent]
          exact Nat.le_refl _
        · exact (others id same).le
  refine ⟨fun id => ?_, once.requests⟩
  rcases effect_starts effected with ⟨rfl, unknown, emitted⟩ | silent
  · by_cases mine : a.job.runId = id
    · subst mine
      have stored := hasEvent_false.mp unknown
      have waiting (v : WorkerId) : s.starts a.job.runId (some v) = 0 := by
        refine List.countP_eq_zero.mpr fun event member => ?_
        obtain ⟨lane, within, member⟩ := List.mem_flatten.mp member
        simp [guarded w a rfl busy unknown v lane within event member]
      have nowhere (i : Option WorkerId) : s.starts a.job.runId i = 0 := by
        cases i with
        | none => exact stored
        | some v => exact waiting v
      have one : (s.commit c w a.job.runId e).starts a.job.runId (some w) ≤ 1 := by
        rw [own, waiting, Nat.zero_add, emitted]
        exact List.countP_le_length
      refine Lone.issued nowhere one fun i elsewhere => ?_
      cases i with
      | none => exact logged _
      | some v => exact (others _ fun same => elsewhere (congrArg some same)).le
    · refine (once.lone id).mono (fewer id ?_)
      rw [emitted]
      simp [startsAmong, RuntimeEvent.starts, Attempt.event, mine]
  · refine (once.lone id).mono (fewer id ?_)
    refine List.countP_eq_zero.mpr fun event member => ?_
    simp [RuntimeEvent.starts, silent event member]

/-- A worker that keeps its lanes, or loses them. -/
theorem startedOnce_worker {worker : Worker} (once : s.StartedOnce)
    (logged : ∀ id, t.db.starts id ≤ s.db.starts id)
    (workers : t.workers = Function.update s.workers w worker)
    (lanes : worker.lanes = (s.workers w).lanes ∨ worker.lanes = [])
    (api : t.apiEvents = s.apiEvents) : t.StartedOnce := by
  refine once.fewer (fun id i => ?_) (api ▸ once.requests)
  cases i with
  | none => exact logged id
  | some v =>
      simp only [starts, workers]
      by_cases same : v = w
      · rw [same, Function.update_self, Worker.starts, Worker.starts]
        rcases lanes with kept | lost
        · rw [kept]
        · rw [lost]
          exact Nat.zero_le _
      · rw [Function.update_of_ne same]

theorem startedOnce_next {action : Action} (once : s.StartedOnce) (guarded : startsKnown s action)
    (stepped : (system c).step s action = some t) : t.StartedOnce := by
  have step : Step c s action t := step_sound stepped
  cases step with
  | tick seconds => exact once.fewer (fun _ _ => Nat.le_refl _) once.requests
  | request r events => exact startedOnce_serve once (serve_cases stepped)
  | persist found => exact startedOnce_persist once found rfl rfl rfl
  | crash w => exact startedOnce_worker once (fun _ => Nat.le_refl _) rfl (.inr rfl) rfl
  | poll => exact startedOnce_worker once (fun _ => Nat.le_refl _) rfl (.inl rfl) rfl
  | claimNone => exact startedOnce_worker once (fun _ => Nat.le_refl _) rfl (.inl rfl) rfl
  | claim => exact startedOnce_worker once (s.starts_none c.py fun _ => rfl) rfl (.inl rfl) rfl
  | effect busy effected => exact startedOnce_effect once guarded busy effected

theorem startedOnce_start (clock : Time) : (Sys.start clock).StartedOnce where
  lone id := ⟨none, Nat.zero_le 1, fun i elsewhere => by
    cases i with
    | none => contradiction
    | some w => rfl⟩
  requests := by simp [Sys.start]

end Sys

/-- Where each execution that finds no `run.started` stored finds none on its way, one is stored
at most of each run. -/
theorem started_once (c : Config) {s : Sys} (reached : Reachable (system c) startsKnown s)
    (id : RunId) : s.db.starts id ≤ 1 := by
  have invariant : Inductive (system c) startsKnown Sys.StartedOnce := by
    refine ⟨fun s first => ?_, fun _ _ _ once guarded stepped =>
      Sys.startedOnce_next once guarded stepped⟩
    obtain ⟨clock, rfl⟩ := first
    exact Sys.startedOnce_start clock
  exact ((invariant.reachable reached).lone id).single none

section Sample

/-- No event waits with a worker outside `ws`. -/
def Sys.StoredOutside (ws : List WorkerId) (s : Sys) : Prop :=
  ∀ w, w ∉ ws → (s.workers w).lanes = []

def startsKnownTest (ws : List WorkerId) (s : Sys) : Action → Bool
  | .work w (.handler .start) =>
      (s.attempt? w).all fun a =>
        ws.all fun v => (s.workers v).lanes.all fun lane =>
          lane.all fun event => !event.starts a.job.runId
  | _ => true

theorem startsKnown_checks (c : Config) (ws : List WorkerId) :
    Checks (system c) startsKnown (Sys.StoredOutside ws)
      (fun s action => action.within ws && startsKnownTest ws s action) where
  sound s action stored checked := by
    intro w a same busy _ v lane within event member
    subst same
    have tested := (Bool.and_eq_true_iff.mp checked).2
    simp only [startsKnownTest, busy, Option.all_some, List.all_eq_true] at tested
    by_cases inside : v ∈ ws
    · simpa using tested v inside lane within event member
    · rw [stored v inside] at within
      contradiction
  kept s action t stored checked stepped := by
    intro v outside
    have within := (Bool.and_eq_true_iff.mp checked).1
    rw [(Sys.step_sound stepped).worker_outside within outside]
    exact stored v outside

/-- The worker takes its attempt to the check of `run.started` and beyond. -/
def sampleStart (w : WorkerId) : List Action :=
  [.work w .advance, .work w (.handler (.load fun _ => 0)),
    .work w (.handler (.load fun _ => 0)), .work w (.handler .start)]

/-- `w2` takes the job over when the lease of `w1` has expired. -/
def sampleTakeover : List Action :=
  [.tick 61, .work "w2" .poll, .work "w2" (.claim fun _ => false)]

/-- The event of `w1` is stored before `w2` executes the run. -/
theorem started_by_first :
    ∃ u, Reachable (system sampleConfig) startsKnown u ∧ u.db.starts sampleRun = 1 ∧
      u.db.starts sampleRun ≤ 1 := by
  obtain ⟨u, run, _, one⟩ := (startsKnown_checks sampleConfig ["w1", "w2"]).of_test
    (s := .start 100) (fun _ _ => rfl)
    (sampleClaim "w1" ++ sampleStart "w1" ++ [.work "w1" (.persist 0)] ++ sampleTakeover ++
      sampleStart "w2")
    (fun u => u.db.starts sampleRun = 1) (by decide)
  have reached : Reachable (system sampleConfig) startsKnown u :=
    Reachable.run (.start ⟨100, rfl⟩) run
  exact ⟨u, reached, one, started_once sampleConfig reached sampleRun⟩

/-- The event of `w1` is on its way while `w2` finds none stored. -/
theorem started_twice :
    ¬ ∀ s, Reachable (system sampleConfig) anyStep s → ∀ id, s.db.starts id ≤ 1 := by
  intro once
  obtain ⟨u, run, two⟩ := Run.of_test (M := system sampleConfig) (.start 100)
    (sampleClaim "w1" ++ sampleStart "w1" ++ sampleTakeover ++ sampleStart "w2" ++
      [.work "w1" (.persist 0), .work "w2" (.persist 0)])
    (fun u => u.db.starts sampleRun = 2) (by decide)
  have bound := once u ⟨_, _, ⟨100, rfl⟩, run⟩ sampleRun
  omega

end Sample
end AgentRuntime
