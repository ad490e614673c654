import AgentRuntime.Reports

/-! The status of a job and the status of its run. `execute_run_sync` writes the run, and
`run_once` writes the job and the run once more, each from its own view of the attempt. A worker
that is alone with the run leaves both of them in one of four pairs. -/
namespace AgentRuntime
open Machines Tables Logs

/-- The pairs of job and run status that a `run_once` leaves. -/
inductive Verdict : JobStatus → RunStatus → Prop
  | completed : Verdict .completed .completed
  | paused : Verdict .completed .paused
  | retried : Verdict .retryWait .queued
  | failed : Verdict .failed .failed

def Database.FailureReported (db : Database) (id : RunId) : Prop :=
  ∃ row ∈ db.events, row.runId = id ∧ row.type = .runFailed

/-- The rows of the run, of its job and of its timeline are the same in both databases. -/
structure Database.SameRun (id : RunId) (job : JobId) (db after : Database) : Prop where
  run : after.runs.find? id = db.runs.find? id
  job : after.jobs.find? job = db.jobs.find? job
  events : after.events.filter (·.runId = id) = db.events.filter (·.runId = id)

/-- The attempt reads the run, outside the `try` of `execute_run_sync`. -/
def Attempt.reads (a : Attempt) : Bool :=
  match a.phase with
  | .handling .loadJob | .handling (.loadRun _) => true
  | _ => false

/-- The worker `w` takes no other job, does not crash, and no statement or append of it fails:
an exception leaves `execute_run_sync` only where it reads the run. Everybody else leaves the run
alone. -/
def alone (c : Config) (w : WorkerId) (id : RunId) (job : JobId) : Guard Sys Action :=
  fun s action =>
    (∀ m, action = .work w m → m ≠ .crash ∧ (∀ now k, s.Claims w now k action → k = job) ∧
      ∀ message a, m = .raises message → s.attempt? w = some a → a.reads = true) ∧
    ((∀ m, action ≠ .work w m) → ∀ t, s.step c action = some t →
      Database.SameRun id job s.db t.db)

/-- The job of a queued run waits for its first claim. -/
structure Sys.Unstarted (s : Sys) (w : WorkerId) (id : RunId) (job : JobId) : Prop where
  run : ∃ run, s.db.runs.find? id = some run ∧ run.status = .queued
  job : ∃ row, s.db.jobs.find? job = some row ∧ row.runId = id ∧ row.status = .queued ∧
    row.attemptCount = 0
  free : s.attempt? w = none
  unreported : s.db.terminalEvents id = []
  silent : ∀ lane ∈ (s.workers w).lanes, ∀ event ∈ lane, event.runId = id →
    event.type.terminal = false

namespace Phase

/-- The status of the job in a phase of the attempt that holds it. -/
def jobStatus (exhausted : Bool) : Phase → JobStatus
  | .promote => .completed
  | .setFailed _ | .emitFailed _ => .failed
  | .setRetry _ | .emitRetry _ => if exhausted then .failed else .retryWait
  | _ => .running

/-- The statuses of the run that a phase may meet. -/
def Meets (exhausted : Bool) (status : RunStatus) : Phase → Prop
  | .setRunning => status = .queued
  | .handling (.record outcome) => status = .running ∧
      (outcome.status = .completed ∨ outcome.status = .paused ∨ outcome.status = .failed)
  | .handling _ => status = .running
  | .handled (.returned result) | .complete result =>
      status = result ∧ (result = .completed ∨ result = .paused)
  | .handled (.raised _) | .fail _ | .setRetry _ => status.terminal = false
  | .promote => status = .completed
  | .handled (.notRetryable _) | .failWithoutRetry _ | .setFailed _ | .emitFailed _ =>
      status = .failed
  | .emitRetry _ => status = if exhausted then .failed else .queued

/-- The graph has come to its end, and the attempt has not failed since. -/
def finished : Phase → Bool
  | .handling (.record outcome) => outcome.status = .completed
  | .handled (.returned status) | .complete status => status = .completed
  | .promote => true
  | _ => false

end Phase

/-- The attempt of worker `w` and the rows of its run and its job. -/
structure Attempt.Paced (a : Attempt) (w : WorkerId) (run : RunRow) (row : JobRow) : Prop where
  ofJob : a.job.id = row.id
  ofRun : a.job.runId = run.id
  count : row.attemptCount = a.job.attemptCount
  budget : row.maxAttempts = a.job.maxAttempts
  claimed : row.attemptCount ≠ 0
  kept : a.leaseLost = false
  joined : a.phase.serving = false → a.heartbeat = .stopped
  status : row.status = a.phase.jobStatus a.exhausted
  owner : row.status = .running → row.leaseOwner = some w
  meets : a.phase.Meets a.exhausted run.status

/-- The terminal events that the attempt may have emitted. -/
def Attempt.Allows (a : Attempt) (type : EventType) : Prop :=
  a.phase.finished = true ∧ type = .runCompleted

/-- The attempt goes on as `next`. -/
structure Attempt.Kept (a next : Attempt) (w : WorkerId) (e : Effect) (run : RunRow)
    (row : JobRow) : Prop where
  paced : next.Paced w run row
  allows : ∀ type, a.Allows type → next.Allows type
  emits : ∀ event ∈ e.emitted, event.type.terminal = true → next.Allows event.type
  quiet : e.tx.announces = none

/-- The `run_once` of the attempt returns. -/
structure Attempt.Left (a : Attempt) (e : Effect) (run : RunRow) (row : JobRow) : Prop where
  verdict : Verdict row.status run.status
  allows : ∀ type, a.Allows type → run.status.ending = some type
  silent : e.emitted = []
  announces : ∀ id type, e.tx.announces = some (id, type) → run.status.ending = some type
  reports : run.status = .failed → e.tx.announces = some (a.job.runId, .runFailed)

theorem Tx.RunWrite.id {db : Database} {tx : Tx} {run after : RunRow}
    (write : RunWrite db tx run after) : after.id = run.id := by
  cases write <;> rfl

theorem JobRow.failedWith_status (job : JobRow) (error : String) (delay : Nat) (now : Time) :
    (job.failedWith error delay now).status =
      if job.budget ≤ job.attemptCount then .failed else .retryWait := by
  unfold failedWith
  by_cases spent : job.budget ≤ job.attemptCount
  · rw [if_pos spent, if_neg (Nat.not_lt.mpr spent)]
  · rw [if_neg spent, if_pos (Nat.not_le.mp spent)]

theorem Phase.jobStatus_of_serving {phase : Phase} (serving : phase.serving = true)
    (exhausted : Bool) : phase.jobStatus exhausted = .running := by
  cases phase <;> first | rfl | contradiction

namespace Attempt
variable {c : Config} {s : Sys} {w : WorkerId} {a : Attempt} {e : Effect} {run : RunRow}
  {row : JobRow}

theorem Paced.exhausted (paced : a.Paced w run row) :
    a.exhausted = true ↔ row.budget ≤ row.attemptCount := by
  unfold Attempt.exhausted JobRow.budget
  rw [decide_eq_true_iff, paced.budget, paced.count]

/-- A step between two phases, with what it makes of the rows. -/
theorem Paced.goto {next : Attempt} (paced : a.Paced w run row) {tx : Tx} (db : Database)
    (same : next.job = a.job) (kept : next.leaseLost = a.leaseLost)
    (unclaimed : ∀ w l now k, tx ≠ .claim w l now k)
    (joined : next.phase.serving = false → next.heartbeat = .stopped)
    (status : (tx.onJob row).status = next.phase.jobStatus a.exhausted)
    (owner : (tx.onJob row).status = .running → (tx.onJob row).leaseOwner = some w)
    (meets : next.phase.Meets a.exhausted (tx.onRun db run).status) :
    next.Paced w (tx.onRun db run) (tx.onJob row) := by
  have step := tx.onJob_step row
  have count : (tx.onJob row).attemptCount = row.attemptCount := by
    rcases step.attemptCount with count | ⟨w, l, now, claim, _⟩
    · exact count
    · exact absurd claim (unclaimed w l now row.id)
  have spent : next.exhausted = a.exhausted := by
    unfold Attempt.exhausted
    rw [same]
  obtain ⟨id, _, budget⟩ := step.fixed
  constructor
  · rw [same, id, paced.ofJob]
  · rw [same, (tx.onRun_write db run).id, paced.ofRun]
  · rw [count, same, paced.count]
  · rw [budget, same, paced.budget]
  · rw [count]
    exact paced.claimed
  · rw [kept, paced.kept]
  · exact joined
  · rw [spent]
    exact status
  · exact owner
  · rw [spent]
    exact meets

/-- What a step of `run_once` makes of the attempt and the rows. -/
def Advances (a : Attempt) (w : WorkerId) (db : Database) (e : Effect) (run : RunRow)
    (row : JobRow) : Prop :=
  (∃ next, e.attempt = some next ∧ a.Kept next w e (e.tx.onRun db run) (e.tx.onJob row)) ∨
    (e.attempt = none ∧ a.Left e (e.tx.onRun db run) (e.tx.onJob row))

/-- A statement behind the handler. The worker goes on, and nothing is emitted. -/
theorem Paced.behind {next : Attempt} (paced : a.Paced w run row) (db : Database)
    (left : a.phase.serving = false) (unfinished : a.phase.finished = false)
    (after : e.attempt = some next) (same : next.job = a.job)
    (kept : next.leaseLost = a.leaseLost) (stays : next.heartbeat = a.heartbeat)
    (silent : e.emitted = []) (quiet : e.tx.announces = none)
    (unclaimed : ∀ w l now k, e.tx ≠ .claim w l now k)
    (status : (e.tx.onJob row).status = next.phase.jobStatus a.exhausted)
    (owner : (e.tx.onJob row).status = .running → (e.tx.onJob row).leaseOwner = some w)
    (meets : next.phase.Meets a.exhausted (e.tx.onRun db run).status) :
    a.Advances w db e run row := by
  have stopped : next.heartbeat = .stopped := stays.trans (paced.joined left)
  refine .inl ⟨next, after, paced.goto db same kept unclaimed (fun _ => stopped) status owner meets,
    ?_, ?_, quiet⟩
  · rintro type ⟨done, _⟩
    rw [unfinished] at done
    contradiction
  · rw [silent]
    simp

/-- The last report of a failure: `run.failed` where the budget is spent, else `run.retrying`. -/
theorem Paced.retries {error : String} (paced : a.Paced w run row)
    (at' : a.phase = .emitRetry error) {db : Database} {report : RuntimeEvent}
    (none : e.attempt = none) (silent : e.emitted = [])
    (appends : e.tx = .appendMany a.job.runId [report])
    (reported : report = if a.exhausted then a.runFailedEvent error
      else a.retryingEvent (c.worker w).retryDelaySeconds) : a.Advances w db e run row := by
  have status := paced.status
  have meets := paced.meets
  rw [at'] at meets status
  have after : run.status = if a.exhausted then .failed else .queued := meets
  have announced : e.tx.announces =
      if a.exhausted then some (a.job.runId, .runFailed) else Option.none := by
    rw [appends, reported]
    split <;> rfl
  have sameRun : e.tx.onRun db run = run := by rw [appends]; rfl
  have sameJob : e.tx.onJob row = row := by rw [appends]; rfl
  refine .inr ⟨none, ?_⟩
  rw [sameRun, sameJob]
  refine ⟨?_, ?_, silent, ?_, ?_⟩
  · rw [status, after]
    cases spent : a.exhausted with
    | true => exact .failed
    | false => exact .retried
  · simp [Allows, at', Phase.finished]
  · intro id type same
    cases spent : a.exhausted with
    | true =>
        rw [announced, if_pos spent] at same
        cases same
        rw [after, if_pos spent]
        rfl
    | false =>
        rw [announced, spent] at same
        contradiction
  · intro failed
    have spent : a.exhausted = true := by
      by_contra left
      simp [after, left] at failed
    rw [announced, if_pos spent]

theorem Paced.advance (paced : a.Paced w run row)
    (advanced : Advanced (c.worker w) w s.clock a e) : a.Advances w s.db e run row := by
  have meets := paced.meets
  have status := paced.status
  have owner := paced.owner
  have held : row.heldBy a.job.id w = true ↔ row.leaseOwner = some w := by
    simp [JobRow.heldBy, paced.ofJob]
  cases advanced with
  | started at' =>
      rw [at'] at meets status
      refine .inl ⟨_, rfl,
        paced.goto s.db rfl rfl (by simp) (by simp [Phase.serving]) status owner ?_,
        by simp [Allows, at', Phase.finished], by simp, rfl⟩
      have waits : run.status = .queued := meets
      simp [Phase.Meets, Tx.onRun, paced.ofRun, waits, RunStatus.terminal]
  | @joined result at' =>
      rw [at'] at meets status
      refine .inl ⟨_, rfl, paced.goto s.db rfl rfl (by simp) (by simp) ?_ owner ?_, ?_,
        by simp, rfl⟩
      · cases result <;> exact status
      · cases result <;> exact meets
      · rintro type ⟨done, same⟩
        rw [at'] at done
        cases result with
        | returned status => exact ⟨done, same⟩
        | raised | notRetryable => contradiction
  | completed at' =>
      rw [at'] at meets status
      have holder := owner status
      refine .inl ⟨_, rfl, paced.goto s.db rfl rfl (by simp)
        (fun _ => paced.joined (by rw [at']; rfl)) ?_ ?_ meets.1, ?_, by simp, rfl⟩
      · simp [Tx.onJob, held, holder, Phase.jobStatus]
      · simp [Tx.onJob, held, holder]
      · exact fun type allowed => ⟨rfl, allowed.2⟩
  | @closed result at' other =>
      rw [at'] at meets status
      have paused : run.status = .paused := meets.1.trans (meets.2.resolve_left other)
      have closed : (row.heldBy a.job.id w) = true := held.mpr (owner status)
      refine .inr ⟨rfl, ?_, ?_, rfl, by simp [Tx.announces], ?_⟩
      · simpa [Tx.onJob, Tx.onRun, closed, paused] using Verdict.paused
      · rintro type ⟨done, _⟩
        simp [at', Phase.finished, other] at done
      · simp [Tx.onRun, paused]
  | promoted at' =>
      rw [at'] at meets status
      have completed : run.status = .completed := meets
      have promoted : ((Tx.setRunStatus a.job.runId .completed none).onRun s.db run).status =
          .completed := by
        simp [Tx.onRun, paced.ofRun, completed]
      refine .inr ⟨rfl, ?_, ?_, rfl, by simp [Tx.announces], ?_⟩
      · rw [promoted]
        exact status ▸ .completed
      · rintro type ⟨_, same⟩
        rw [promoted, same]
        rfl
      · simp [promoted]
  | gaveUp at' =>
      rw [at'] at meets status
      have gone : (row.heldBy a.job.id w) = true := held.mpr (owner status)
      refine paced.behind s.db (by rw [at']; rfl) (by rw [at']; rfl) rfl rfl rfl rfl rfl rfl
        (by simp) ?_ ?_ meets
      · simp [Tx.onJob, gone, Phase.jobStatus]
      · simp [Tx.onJob, gone]
  | reportedGivingUp at' =>
      rw [at'] at meets status
      have failed : run.status = .failed := meets
      refine paced.behind s.db (by rw [at']; rfl) (by rw [at']; rfl) rfl rfl rfl rfl rfl rfl
        (by simp) status owner ?_
      simp [Tx.onRun, paced.ofRun, failed, Phase.Meets]
  | emittedFailure at' =>
      rw [at'] at meets status
      have failed : run.status = .failed := meets
      refine .inr ⟨rfl, ?_, ?_, rfl, ?_, ?_⟩
      · simpa [Tx.onJob, Tx.onRun, failed, status, Phase.jobStatus] using Verdict.failed
      · simp [Allows, at', Phase.finished]
      · rintro id type ⟨⟩
        simp [Tx.onRun, failed, RunStatus.ending, runFailedEvent, event]
      · exact fun _ => rfl
  | failed at' =>
      rw [at'] at meets status
      have released : (row.heldBy a.job.id w) = true := held.mpr (owner status)
      refine paced.behind s.db (by rw [at']; rfl) (by rw [at']; rfl) rfl rfl rfl rfl rfl rfl
        (by simp) ?_ ?_ meets
      · simp [Tx.onJob, released, JobRow.failedWith_status, Phase.jobStatus, paced.exhausted]
      · simp only [Tx.onJob, released, if_true, JobRow.failedWith_status]
        split <;> simp
  | reportedFailure at' =>
      rw [at'] at meets status
      have live : run.status.terminal = false := meets
      refine paced.behind s.db (by rw [at']; rfl) (by rw [at']; rfl) rfl rfl rfl rfl rfl rfl
        (by simp) status owner ?_
      simp [Tx.onRun, paced.ofRun, live, Phase.Meets]
  | emittedRetry at' => exact paced.retries at' rfl rfl rfl rfl

/-- A step inside the execution, which leaves the run and the job as they are. -/
theorem Paced.inside {next : HandlerPhase} (paced : a.Paced w run row) {db : Database}
    (held : row.status = .running) (running : run.status = .running)
    (sameRun : e.tx.onRun db run = run) (sameJob : e.tx.onJob row = row)
    (after : e.attempt = a.handler next) (quiet : e.tx.announces = none)
    (unclaimed : ∀ w l now k, e.tx ≠ .claim w l now k)
    (meets : (Phase.handling next).Meets a.exhausted .running)
    (idle : a.phase.finished = false)
    (emits : ∀ event ∈ e.emitted, event.type.terminal = true →
      (Phase.handling next).finished = true ∧ event.type = .runCompleted) :
    a.Advances w db e run row := by
  refine .inl ⟨_, after, paced.goto db rfl rfl unclaimed (by simp [Phase.serving]) ?_ ?_ ?_, ?_,
    emits, quiet⟩
  · rw [sameJob]
    exact held
  · rw [sameJob]
    exact paced.owner
  · rw [sameRun, running]
    exact meets
  · rintro type ⟨done, _⟩
    rw [idle] at done
    contradiction

theorem Paced.updateRun {outcome : Outcome} (paced : a.Paced w run row)
    (at' : a.phase = .handling (.record outcome)) (db : Database) :
    a.Advances w db (a.updateRun outcome) run row := by
  have status := paced.status
  have meets := paced.meets
  rw [at'] at status meets
  obtain ⟨running, ends⟩ := meets
  have written : ((a.updateRun outcome).tx.onRun db run).status =
      persistedAttemptStatus outcome := by
    simp [Attempt.updateRun, Tx.onRun, paced.ofRun, running, RunStatus.terminal]
  refine .inl ⟨_, rfl, paced.goto db rfl rfl (by simp [Attempt.updateRun]) (by simp [Phase.serving])
    status paced.owner ?_, ?_, by simp [Attempt.updateRun], rfl⟩
  · rw [written]
    rcases ends with done | paused | failed
    · simp [handlerResult, persistedAttemptStatus, done, Phase.Meets]
    · simp [handlerResult, persistedAttemptStatus, paused, Phase.Meets]
    · cases retryable : executionIsRetryable outcome.terminationReason <;>
        simp [handlerResult, persistedAttemptStatus, failed, retryable, Phase.Meets,
          RunStatus.terminal]
  · rintro type ⟨done, same⟩
    rw [at'] at done
    have completed : outcome.status = .completed := of_decide_eq_true done
    exact ⟨by simp [handlerResult, completed, Phase.finished], same⟩

theorem Paced.handler {phase : HandlerPhase} {move : HandlerMove} (paced : a.Paced w run row)
    (stored : s.db.runs.find? a.job.runId = some run) (at' : a.phase = .handling phase)
    (stepped : a.handlerStep c.py s.db (s.threads a.job.runId) (s.workers w).drained phase move =
      some e) : a.Advances w s.db e run row := by
  have meets := paced.meets
  have status := paced.status
  rw [at'] at meets status
  have running : run.status = .running := by
    cases phase with
    | record outcome => exact meets.1
    | loadJob | loadRun | start | launch | graph => exact meets
  have found {other : RunRow} (again : s.db.runs.find? a.job.runId = some other) : other = run := by
    rw [stored] at again
    exact (Option.some.inj again).symm
  cases Attempt.handlerStep_cases stepped with
  | missing absent => rw [stored] at absent; contradiction
  | ended again terminal =>
      rw [found again, running] at terminal
      contradiction
  | waiting again paused =>
      rw [found again, running] at paused
      contradiction
  | cancelled again cancelled =>
      rw [found again, running] at cancelled
      contradiction
  | loaded | admitted | entered | resumed | answered =>
      exact paced.inside status running rfl rfl rfl rfl (by simp) rfl (by rw [at']; rfl) (by simp)
  | started =>
      refine paced.inside status running rfl rfl rfl rfl (by simp) rfl (by rw [at']; rfl) ?_
      dsimp only
      split <;> simp [event, EventType.terminal]
  | nodeStarted | nodeCompleted =>
      exact paced.inside status running rfl rfl rfl rfl (by simp) rfl (by rw [at']; rfl)
        (by simp [event, EventType.terminal])
  | @emitted _ _ event body =>
      refine paced.inside status running rfl rfl rfl rfl (by simp) rfl (by rw [at']; rfl) ?_
      rcases event with ⟨type, _, _, _⟩
      cases type <;> first | contradiction | simp [Attempt.event, EventType.terminal]
  | gated =>
      exact paced.inside status running rfl rfl rfl rfl (by simp [gate]) rfl (by rw [at']; rfl)
        (by simp [gate])
  | paused =>
      exact paced.inside status running rfl rfl rfl rfl (by simp)
        ⟨rfl, .inr (.inl rfl)⟩ (by rw [at']; rfl) (by simp [event, EventType.terminal])
  | finished =>
      exact paced.inside status running rfl rfl rfl rfl (by simp)
        ⟨rfl, .inl rfl⟩ (by rw [at']; rfl) (by simp [event, Phase.finished, completedOutcome])
  | threw inside spontaneous =>
      refine paced.inside status running rfl rfl rfl rfl (by simp [throw])
        ⟨rfl, .inr (.inr (classifyFailure_failed spontaneous))⟩ ?_
        (by simp [throw, event, EventType.terminal])
      rw [at']
      cases phase with
      | record outcome => exact absurd rfl (inside outcome)
      | loadJob | loadRun | start | launch | graph => rfl
  | recorded => exact paced.updateRun at' s.db

/-- A step that keeps the phase, as those of the heartbeat do. -/
theorem Paced.beats {next : Attempt} (paced : a.Paced w run row) {db : Database}
    (after : e.attempt = some next) (phase : next.phase = a.phase) (same : next.job = a.job)
    (kept : next.leaseLost = a.leaseLost) (serving : a.phase.serving = true)
    (sameRun : e.tx.onRun db run = run)
    (unclaimed : ∀ w l now k, e.tx ≠ .claim w l now k)
    (status : (e.tx.onJob row).status = row.status)
    (owner : (e.tx.onJob row).leaseOwner = row.leaseOwner) (silent : e.emitted = [])
    (quiet : e.tx.announces = none) : a.Advances w db e run row := by
  refine .inl ⟨next, after, paced.goto db same kept unclaimed ?_ ?_ ?_ ?_, ?_, ?_, quiet⟩
  · intro idle
    rw [phase, serving] at idle
    contradiction
  · rw [status, phase]
    exact paced.status
  · rw [status, owner]
    exact paced.owner
  · rw [sameRun, phase]
    exact paced.meets
  · rintro type ⟨done, type_eq⟩
    exact ⟨phase ▸ done, type_eq⟩
  · simp [silent]

theorem Paced.serving (paced : a.Paced w run row) (alive : a.heartbeat ≠ .stopped) :
    a.phase.serving = true := by
  by_contra idle
  exact alive (paced.joined (by simpa using idle))

theorem Paced.effect {m : Move} (paced : a.Paced w run row)
    (storedRun : s.db.runs.find? a.job.runId = some run)
    (storedJob : s.db.jobs.find? a.job.id = some row)
    (reads : ∀ message, m = .raises message → a.reads = true)
    (effected : s.effect c w a m = some e) : a.Advances w s.db e run row := by
  have alive {beat : Heartbeat} (at' : a.heartbeat = beat) (moves : beat ≠ .stopped) :
      a.phase.serving = true := paced.serving (at' ▸ moves)
  cases Sys.effect_cases effected with
  | advance advanced => exact paced.advance advanced
  | handler at' _ stepped => exact paced.handler storedRun at' stepped
  | unwound _ lost | cancelled _ lost => rw [paced.kept] at lost; contradiction
  | excepted at' =>
      have reading := reads _ rfl
      rcases at' with at' | ⟨_, at'⟩ | at' <;> simp [Attempt.reads, at'] at reading
  | abandoned unguarded =>
      have reading := reads _ rfl
      cases at' : a.phase <;> simp [Attempt.reads, at', Phase.unguarded] at reading unguarded
  | escaped at' _ phases =>
      have reading := reads _ rfl
      have meets := paced.meets
      have status := paced.status
      rw [at'] at meets status
      have running : run.status = .running := by
        rcases phases with rfl | ⟨_, rfl⟩ | ⟨_, rfl⟩
        · exact meets
        · exact meets
        · exact meets.1
      refine .inl ⟨_, rfl, paced.goto s.db rfl rfl (by simp) (by simp [Phase.serving]) status
        paced.owner ?_, ?_, by simp, rfl⟩
      · show run.status.terminal = false
        rw [running]
        rfl
      · rintro type ⟨done, _⟩
        rcases phases with rfl | ⟨_, rfl⟩ | ⟨_, rfl⟩
        · simp [at', Phase.finished] at done
        · simp [at', Phase.finished] at done
        · simp [Attempt.reads, at'] at reading
  | readClock at' =>
      exact paced.beats rfl rfl rfl rfl (alive at' (by simp)) rfl (by simp) rfl rfl rfl rfl
  | beatRaises at' =>
      exact paced.beats rfl rfl rfl rfl (alive at' (by simp)) rfl (by simp) rfl rfl rfl rfl
  | renewed at' =>
      refine paced.beats rfl rfl rfl rfl (alive at' (by simp)) rfl (by simp) ?_ ?_ rfl rfl
      · simp only [Tx.onJob]
        split <;> rfl
      · simp only [Tx.onJob]
        split <;> rfl
  | lost at' gone =>
      have running : row.status = .running :=
        paced.status.trans (Phase.jobStatus_of_serving (alive at' (by simp)) _)
      simp [Database.leaseHeld, storedJob, running, paced.owner running] at gone

end Attempt

namespace Sys
variable {c : Config} {s t : Sys} {action : Action} {w : WorkerId} {id : RunId} {job : JobId}
  {P Q : EventType → Prop}

/-- The terminal events that are stored for the run `id`, or wait in a lane of the worker `w`,
are of the types `P`. -/
structure EndsWithin (s : Sys) (w : WorkerId) (id : RunId) (P : EventType → Prop) : Prop where
  stored : ∀ type ∈ s.db.terminalEvents id, P type
  waiting : ∀ lane ∈ (s.workers w).lanes, ∀ event ∈ lane, event.runId = id →
    event.type.terminal = true → P event.type

/-- The worker `w` is between two `run_once` of the job, or inside one. -/
inductive InStep (s : Sys) (w : WorkerId) (id : RunId) (job : JobId) : Prop
  | between (run : RunRow) (row : JobRow) : s.db.runs.find? id = some run →
      s.db.jobs.find? job = some row → row.runId = id → s.attempt? w = none →
      ((row.attemptCount = 0 ∧ row.status = .queued ∧ run.status = .queued) ∨
        Verdict row.status run.status) →
      s.EndsWithin w id (fun type => run.status.ending = some type) →
      (run.status = .failed → .runFailed ∈ s.db.terminalEvents id) → InStep s w id job
  | within (a : Attempt) (run : RunRow) (row : JobRow) : s.db.runs.find? id = some run →
      s.db.jobs.find? job = some row → row.runId = id → s.attempt? w = some a →
      a.Paced w run row → s.EndsWithin w id a.Allows → InStep s w id job

theorem EndsWithin.mono (ends : s.EndsWithin w id P) (weaker : ∀ type, P type → Q type) :
    s.EndsWithin w id Q where
  stored type member := weaker type (ends.stored type member)
  waiting lane member event among own terminal :=
    weaker _ (ends.waiting lane member event among own terminal)

/-- The terminal events behind a transaction were stored before, or are announced by it. -/
theorem EndsWithin.apply {tx : Tx} {py : Builtins} {db : Database}
    (stored : ∀ type ∈ db.terminalEvents id, P type)
    (announced : ∀ type, tx.announces = some (id, type) → P type) :
    ∀ type ∈ (tx.apply py db).terminalEvents id, P type := by
  intro type member
  rcases tx.terminalEvents_apply py db id with same | ⟨other, announces, _, only⟩
  · rw [same] at member
    exact stored type member
  · rw [only, List.mem_singleton] at member
    exact member ▸ announced other announces

theorem EndsWithin.commit {k : RunId} {e : Effect} (ends : s.EndsWithin w id P)
    (announced : ∀ type, e.tx.announces = some (id, type) → P type)
    (emits : ∀ event ∈ e.emitted, event.type.terminal = true → P event.type) :
    (s.commit c w k e).EndsWithin w id P where
  stored := EndsWithin.apply ends.stored announced
  waiting lane member event among own terminal := by
    have lanes : ((s.commit c w k e).workers w).lanes =
        Worker.emit e.emitted e.opensLane (s.workers w).lanes := by
      simp [Sys.commit, Worker.after]
    rw [lanes] at member
    rcases Worker.mem_emit member among with new | ⟨old, before, among⟩
    · exact emits event new terminal
    · exact ends.waiting old before event among own terminal

theorem InStep.foreign (inStep : s.InStep w id job) (step : Step c s action t)
    (others : ∀ m, action ≠ .work w m) (same : Database.SameRun id job s.db t.db) :
    t.InStep w id job := by
  have worker := step.worker_kept others
  have attempt : t.attempt? w = s.attempt? w := by
    unfold attempt?
    rw [worker]
  have events : t.db.terminalEvents id = s.db.terminalEvents id := by
    have finals_eq (log : List EventRow) :
        finals log id = (log.filter (·.runId = id)).filter final := by
      simp [finals, List.filter_filter, Bool.and_comm]
    unfold Database.terminalEvents
    rw [finals_eq, finals_eq, same.events]
  have ends {P : EventType → Prop} (ends : s.EndsWithin w id P) : t.EndsWithin w id P :=
    ⟨events ▸ ends.stored, worker ▸ ends.waiting⟩
  cases inStep with
  | between run row storedRun storedJob own free verdict told reported =>
      exact .between run row (same.run.trans storedRun) (same.job.trans storedJob) own
        (attempt.trans free) verdict (ends told) (events ▸ reported)
  | within a run row storedRun storedJob own busy paced told =>
      exact .within a run row (same.run.trans storedRun) (same.job.trans storedJob) own
        (attempt.trans busy) paced (ends told)

theorem InStep.persist {lane : Nat} {event : RuntimeEvent} {rest : List RuntimeEvent}
    (inStep : s.InStep w id job) (found : (s.workers w).lanes[lane]? = some (event :: rest)) :
    InStep
      { s with
        db := (Tx.appendMany event.runId [event]).apply c.py s.db
        workers := Function.update s.workers w
          { s.workers w with lanes := (s.workers w).lanes.set lane rest } } w id job := by
  have tables := Database.appendMany_tables c.py s.db event.runId [event]
  have ends {P : EventType → Prop} (ends : s.EndsWithin w id P) :
      EndsWithin
        { s with
          db := (Tx.appendMany event.runId [event]).apply c.py s.db
          workers := Function.update s.workers w
            { s.workers w with lanes := (s.workers w).lanes.set lane rest } } w id P := by
    refine ⟨EndsWithin.apply ends.stored fun type announced => ?_, ?_⟩
    · obtain ⟨own, rfl, terminal⟩ := Tx.announces_single announced
      exact ends.waiting _ (List.mem_of_getElem? found) event List.mem_cons_self own terminal
    · intro lane' member other among
      simp only [Function.update_self] at member
      rcases List.mem_or_eq_of_mem_set member with old | rfl
      · exact ends.waiting lane' old other among
      · exact ends.waiting _ (List.mem_of_getElem? found) other (List.mem_cons_of_mem _ among)
  cases inStep with
  | between run row storedRun storedJob own free verdict told reported =>
      refine .between run row ?_ ?_ own ?_ verdict (ends told) fun failed =>
        Tx.terminalEvents_mem _ (reported failed)
      · exact (congrArg (Table.find? · id) tables.1).trans storedRun
      · exact (congrArg (Table.find? · job) tables.2.1).trans storedJob
      · simpa [attempt?] using free
  | within a run row storedRun storedJob own busy paced told =>
      refine .within a run row ?_ ?_ own ?_ paced (ends told)
      · exact (congrArg (Table.find? · id) tables.1).trans storedRun
      · exact (congrArg (Table.find? · job) tables.2.1).trans storedJob
      · simpa [attempt?] using busy

/-- The worker polls, or finds nothing to claim. -/
theorem InStep.rest {activity : Activity} (inStep : s.InStep w id job)
    (free : ∀ a, (s.workers w).activity ≠ .busy a) (rests : ∀ a, activity ≠ .busy a) :
    (s.setWorker w { s.workers w with activity := activity }).InStep w id job := by
  cases inStep with
  | within a _ _ _ _ _ busy => exact absurd (attempt?_eq_some.mp busy) (free a)
  | between run row storedRun storedJob own _ verdict told reported =>
      refine .between run row storedRun storedJob own ?_ verdict ⟨told.stored, ?_⟩ reported
      · rw [Option.eq_none_iff_forall_ne_some]
        intro a busy
        simp only [attempt?_eq_some, setWorker, Function.update_self] at busy
        exact rests a busy
      · intro lane member
        simp only [setWorker, Function.update_self] at member
        exact told.waiting lane member

/-- Only a job that is queued, or waits for a retry, is claimed; its run is queued. -/
theorem claimable_waits {now : Time} {run : RunRow} {row : JobRow}
    (claimed : claimable now run row = true)
    (verdict : (row.attemptCount = 0 ∧ row.status = .queued ∧ run.status = .queued) ∨
      Verdict row.status run.status) : run.status = .queued := by
  rcases verdict with ⟨_, _, waits⟩ | verdict
  · exact waits
  · unfold claimable at claimed
    generalize row.status = jobStatus at verdict claimed
    generalize run.status = status at verdict claimed
    cases verdict with
    | retried => rfl
    | completed | paused | failed => simp [RunStatus.terminal] at claimed

theorem InStep.claim {now : Time} {locked : JobRow → Bool} {taken : JobRow}
    (inStep : s.InStep w id job) (polling : (s.workers w).activity = .polling now)
    (found : s.db.claimCandidate now locked = some taken) (own : taken.id = job) :
    InStep
      { s with
        db := (Tx.claim w (c.worker w).leaseSeconds now taken.id).apply c.py s.db
        workers := Function.update s.workers w
          { s.workers w with
            activity := .busy
              { job := taken.claimedBy w (c.worker w).leaseSeconds now
                leaseUntil := some (now + (c.worker w).leaseSeconds) } } } w id job := by
  obtain ⟨storedJob, run, storedRun, claimed⟩ := claimCandidate_sound found
  cases inStep with
  | within a _ _ _ _ _ busy =>
      rw [attempt?_eq_some, polling] at busy
      contradiction
  | between run' row storedRun' storedJob' ofRun free verdict told =>
      rw [own, storedJob'] at storedJob
      cases storedJob
      rw [ofRun, storedRun'] at storedRun
      cases storedRun
      have waits := claimable_waits claimed verdict
      refine .within
        { job := taken.claimedBy w (c.worker w).leaseSeconds now
          leaseUntil := some (now + (c.worker w).leaseSeconds) }
        run (taken.claimedBy w (c.worker w).leaseSeconds now) ?_ ?_ ofRun
        (attempt?_eq_some.mpr (by simp only [Function.update_self])) ?_ ?_
      · rw [Tx.find?_runs, storedRun', rowAfter_some]
        rfl
      · simp only [Tx.find?_jobs, own, storedJob', rowAfter_some, Tx.onJob, if_true]
      · have key : run.id = id := Table.key_of_find? storedRun'
        refine ⟨rfl, ?_, rfl, rfl, by simp [JobRow.claimedBy], rfl, fun _ => rfl, rfl, fun _ => rfl,
          waits⟩
        rw [key]
        exact ofRun
      · refine ⟨EndsWithin.apply (fun type member => ?_) (by simp [Tx.announces]), ?_⟩
        · have ending := told.stored type member
          rw [waits] at ending
          contradiction
        · intro lane member event among own terminal
          simp only [Function.update_self] at member
          have ending := told.waiting lane member event among own terminal
          rw [waits] at ending
          contradiction

theorem InStep.effect {m : Move} {a : Attempt} {e : Effect} (inStep : s.InStep w id job)
    (busy : s.attempt? w = some a) (effected : s.effect c w a m = some e)
    (reads : ∀ message, m = .raises message → a.reads = true) :
    (s.commit c w a.job.runId e).InStep w id job := by
  have reached := s.commit_attempt? c w a.job.runId e
  cases inStep with
  | between _ _ _ _ _ free => rw [busy] at free; contradiction
  | within b run row storedRun storedJob own busy' paced told =>
      rw [busy] at busy'
      cases busy'
      have runId : a.job.runId = id := paced.ofRun.trans (Table.key_of_find? storedRun)
      have jobId : a.job.id = job := paced.ofJob.trans (Table.key_of_find? storedJob)
      have afterRun : (s.commit c w a.job.runId e).db.runs.find? id =
          some (e.tx.onRun s.db run) := by
        simp only [commit]
        rw [Tx.find?_runs, storedRun, rowAfter_some]
      have afterJob : (s.commit c w a.job.runId e).db.jobs.find? job =
          some (e.tx.onJob row) := by
        simp only [commit]
        rw [Tx.find?_jobs, storedJob, rowAfter_some]
      have afterOwn : (e.tx.onJob row).runId = id := (e.tx.onJob_step row).fixed.2.1.trans own
      rcases paced.effect (by rw [runId]; exact storedRun) (by rw [jobId]; exact storedJob) reads
        effected with ⟨next, after, kept⟩ | ⟨after, left⟩
      · refine .within next _ _ afterRun afterJob afterOwn (reached.trans after) kept.paced
          ((told.mono kept.allows).commit (fun type announced => ?_) kept.emits)
        rw [kept.quiet] at announced
        contradiction
      · have told' := (told.mono left.allows).commit (c := c) (k := a.job.runId)
          (fun type announced => left.announces id type announced) (by simp [left.silent])
        refine .between _ _ afterRun afterJob afterOwn (reached.trans after) (.inr left.verdict)
          told' fun failed => ?_
        have announced := left.reports failed
        rw [runId] at announced
        obtain ⟨type, member⟩ :=
          List.exists_mem_of_ne_nil _ (Tx.terminalEvents_announced c.py s.db announced)
        have ending := told'.stored type member
        rw [failed] at ending
        cases ending
        exact member

theorem InStep.step (inStep : s.InStep w id job) (allowed : alone c w id job s action)
    (step : Step c s action t) (stepped : s.step c action = some t) : t.InStep w id job := by
  by_cases own : ∃ m, action = .work w m
  · obtain ⟨m, rfl⟩ := own
    obtain ⟨alive, claims, reads⟩ := allowed.1 m rfl
    cases step with
    | persist found => exact inStep.persist found
    | crash => contradiction
    | claim polling found =>
        exact inStep.claim polling found (claims _ _ ⟨_, _, rfl, polling, found, rfl⟩)
    | effect busy effected =>
        exact inStep.effect busy effected fun message same => reads message _ same busy
    | poll idle => exact inStep.rest (by simp [idle]) (by simp)
    | claimNone polling => exact inStep.rest (by simp [polling]) (by simp)
  · have others : ∀ m, action ≠ .work w m := fun m same => own ⟨m, same⟩
    exact inStep.foreign step others (allowed.2 others t stepped)

theorem Unstarted.inStep (unstarted : s.Unstarted w id job) : s.InStep w id job := by
  obtain ⟨run, storedRun, waits⟩ := unstarted.run
  obtain ⟨row, storedJob, own, queued, fresh⟩ := unstarted.job
  refine .between run row storedRun storedJob own unstarted.free (.inl ⟨fresh, queued, waits⟩)
    ⟨?_, ?_⟩ ?_
  · simp [unstarted.unreported]
  · intro lane member event among own terminal
    rw [unstarted.silent lane member event among own] at terminal
    contradiction
  · simp [waits]

end Sys

theorem Database.failureReported_iff {db : Database} {id : RunId} :
    db.FailureReported id ↔ .runFailed ∈ db.terminalEvents id := by
  unfold FailureReported terminalEvents
  simp only [List.mem_map, mem_finals]
  constructor
  · rintro ⟨row, stored, own, type⟩
    exact ⟨row, ⟨stored, own, by simp [type, EventType.terminal]⟩, type⟩
  · rintro ⟨row, ⟨stored, own, _⟩, type⟩
    exact ⟨row, stored, own, type⟩

/-- A worker that is alone with the run keeps the job and the run in lockstep. -/
theorem run_and_job_in_lockstep (c : Config) {s u : Sys} {w : WorkerId} {id : RunId} {job : JobId}
    {actions : List Action} (unstarted : s.Unstarted w id job)
    (run : Run (system c) (alone c w id job) s actions u) (returned : u.attempt? w = none) :
    ∃ run row, u.db.runs.find? id = some run ∧ u.db.jobs.find? job = some row ∧
      (row.attemptCount ≠ 0 → Verdict row.status run.status) ∧
      (u.db.FailureReported id ↔ row.status = .failed ∧ run.status = .failed) := by
  have inStep := run.invariant (I := fun s => s.InStep w id job)
    (fun s a t inStep allowed stepped => inStep.step allowed (Sys.step_sound stepped) stepped)
    unstarted.inStep
  cases inStep with
  | within _ _ _ _ _ _ busy => rw [returned] at busy; contradiction
  | between run row storedRun storedJob _ _ verdict told reported =>
      refine ⟨run, row, storedRun, storedJob, fun claimed => ?_, ?_⟩
      · exact verdict.resolve_left fun fresh => claimed fresh.1
      · rw [Database.failureReported_iff]
        constructor
        · intro stored
          have ending := told.stored _ stored
          rcases verdict with ⟨_, _, waits⟩ | verdict
          · rw [waits] at ending
            contradiction
          · generalize row.status = jobStatus, run.status = status at verdict ending
            cases verdict with
            | failed => exact ⟨rfl, rfl⟩
            | completed | paused | retried => contradiction
        · exact fun failed => reported failed.2

def aloneCheck (w : WorkerId) (job : JobId) (s : Sys) : Action → Bool
  | .tick _ => true
  | .request _ => false
  | .work v m => v = w &&
      match m with
      | .crash => false
      | .claim locked =>
          match (s.workers v).activity with
          | .polling now => (s.db.claimCandidate now locked).all fun taken => taken.id = job
          | _ => true
      | .raises _ => (s.attempt? v).all Attempt.reads
      | _ => true

theorem aloneCheck_checks (c : Config) (w : WorkerId) (id : RunId) (job : JobId) :
    Checks (system c) (alone c w id job) (fun _ => True) (aloneCheck w job) where
  sound s action _ passed := by
    refine ⟨?_, fun others t stepped => ?_⟩
    · rintro m rfl
      refine ⟨?_, ?_, ?_⟩
      · rintro rfl
        simp [aloneCheck] at passed
      · rintro now k ⟨locked, taken, same, polling, found, rfl⟩
        cases same
        simpa [aloneCheck, polling, found] using passed
      · rintro message a rfl busy
        simpa [aloneCheck, busy] using passed
    · cases action with
      | tick seconds => cases stepped; exact ⟨rfl, rfl, rfl⟩
      | request => contradiction
      | work v m =>
          simp only [aloneCheck, Bool.and_eq_true, decide_eq_true_eq] at passed
          exact absurd (congrArg (Action.work · m) passed.1) (others m)
  kept _ _ _ _ _ _ := trivial

/-- What `create_run` leaves, before anything else happens. -/
def sampleCreated : Sys :=
  { Sys.start 100 with
    db := Database.empty.createRun
      ⟨sampleRun, "support", ⟨"support", [], [], "START", "END"⟩, [], "hello"⟩ "job" 100 }

theorem sampleCreated_unstarted : sampleCreated.Unstarted "w1" sampleRun "job" where
  run := ⟨_, rfl, rfl⟩
  job := ⟨_, rfl, rfl, rfl, rfl⟩
  free := rfl
  unreported := rfl
  silent lane member := by contradiction

/-- The first attempt cannot read the run, the second one completes it. -/
theorem retried_run_in_lockstep :
    ∃ u actions, Run (system sampleConfig) (alone sampleConfig "w1" sampleRun "job") sampleCreated
        actions u ∧
      ∃ run row, u.db.runs.find? sampleRun = some run ∧ u.db.jobs.find? "job" = some row ∧
        row.attemptCount = 2 ∧ Verdict row.status run.status ∧
        ¬ u.db.FailureReported sampleRun := by
  let actions : List Action :=
    [.work "w1" .poll, .work "w1" (.claim fun _ => false), .work "w1" .advance,
      .work "w1" (.raises "no connection"), .work "w1" .advance, .work "w1" .advance,
      .work "w1" .advance, .work "w1" .advance, .tick 5,
      .work "w1" .poll, .work "w1" (.claim fun _ => false), .work "w1" .advance,
      .work "w1" (.handler (.load fun _ => 0)), .work "w1" (.handler (.load fun _ => 0)),
      .work "w1" (.handler .start), .work "w1" (.handler .launch),
      .work "w1" (.handler (.finish "done")), .work "w1" (.persist 0), .work "w1" (.persist 0),
      .work "w1" (.handler .updateRun), .work "w1" .advance, .work "w1" .advance,
      .work "w1" .advance]
  obtain ⟨u, schedule, _, returned, count, completed⟩ :=
    (aloneCheck_checks sampleConfig "w1" sampleRun "job").of_test (s := sampleCreated) trivial
      actions
      (fun u => (u.attempt? "w1").isNone = true ∧
        (u.db.jobs.find? "job").map JobRow.attemptCount = some 2 ∧
        (u.db.runs.find? sampleRun).map RunRow.status = some .completed)
      (by decide)
  obtain ⟨run, row, storedRun, storedJob, verdict, reported⟩ :=
    run_and_job_in_lockstep sampleConfig sampleCreated_unstarted schedule
      (Option.isNone_iff_eq_none.mp returned)
  rw [storedJob, Option.map_some, Option.some.injEq] at count
  rw [storedRun, Option.map_some, Option.some.injEq] at completed
  refine ⟨u, actions, schedule, run, row, storedRun, storedJob, count, verdict (by omega), ?_⟩
  rw [reported, completed]
  simp

end AgentRuntime
