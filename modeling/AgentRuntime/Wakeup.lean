import AgentRuntime.Delivery

/-! Lost wake-ups. A run that is queued, running or paused is carried on by a job, by a
pending approval, or by a worker that is about to record its failure. The guard `wakeful`
names the schedules in which none of these is dropped between two transactions. -/
namespace AgentRuntime
open Machines Tables

namespace Database

def HasLive (db : Database) (id : RunId) : Prop :=
  ∃ job ∈ db.jobs.rows, job.runId = id ∧ job.live = true

def HasPending (db : Database) (id : RunId) : Prop :=
  ∃ approval ∈ db.approvals.rows, approval.runId = id ∧ approval.status = .pending

instance (db : Database) (id : RunId) : Decidable (db.HasLive id) :=
  inferInstanceAs (Decidable (∃ job ∈ db.jobs.rows, job.runId = id ∧ job.live = true))

instance (db : Database) (id : RunId) : Decidable (db.HasPending id) :=
  inferInstanceAs (Decidable (∃ approval ∈ db.approvals.rows, _ ∧ approval.status = .pending))

/-- Something is left to wake every run that has not ended. -/
def NotStranded (db : Database) : Prop :=
  ∀ run ∈ db.runs.rows,
    (run.status = .queued ∨ run.status = .running → db.HasLive run.id) ∧
      (run.status = .paused → db.HasLive run.id ∨ db.HasPending run.id)

instance (db : Database) : Decidable db.NotStranded :=
  inferInstanceAs (Decidable (∀ run ∈ db.runs.rows, _))

def Ended (db : Database) (id : RunId) : Prop := ∃ status, db.Settled id status

def Resting (db : Database) (id : RunId) : Prop :=
  ∃ run, db.runs.find? id = some run ∧ (run.status.terminal = true ∨ run.status = .paused)

end Database

/-- No worker is in an execution and no request is under way. -/
def Sys.Quiescent (s : Sys) : Prop := (∀ w, s.attempt? w = none) ∧ s.apiEvents = []

/-- No run is stranded under the schedules of `G`. -/
def RunsWoken (c : Config) (G : Guard Sys Action) : Prop :=
  ∀ s, Reachable (system c) G s → s.Quiescent → s.db.NotStranded

/-- A pause is recorded while an approval of the run is still pending. -/
def pauseSeen : Guard Sys Action := fun s action =>
  ∀ w a outcome, action = .work w (.handler .updateRun) → s.attempt? w = some a →
    a.phase = .handling (.record outcome) → outcome.status = .paused →
      s.db.HasPending a.job.runId ∨ s.db.Ended a.job.runId

/-- A resolution does not find the last pending approval of a paused run expired. -/
def expirySpares : Guard Sys Action := fun s action =>
  ∀ id status resolvedBy reason jobId approval,
    action = .request (.resolve id status resolvedBy reason jobId) →
    s.db.expires id s.clock = some approval → Sys.PausedRun approval.runId s →
      ∃ other ∈ s.db.approvals.rows, other.runId = approval.runId ∧ other.status = .pending ∧
        other.id ≠ id

def Move.stops : Move → Bool
  | .crash | .raises _ => true
  | _ => false

/-- A worker that has failed a job for good does not stop before it failed the run. -/
def failureFinishes : Guard Sys Action := fun s action =>
  ∀ w m a error, action = .work w m → s.attempt? w = some a → a.phase = .setRetry error →
    a.exhausted = true → m.stops = true → s.db.Resting a.job.runId

def wakeful : Guard Sys Action := fun s action =>
  fenced s action ∧ pauseSeen s action ∧ expirySpares s action ∧ failureFinishes s action

/-- Phases in which `run_once` is past the handler and will release the job. -/
def Phase.leaving : Phase → Bool
  | .handled (.returned _) | .complete _ => true
  | _ => false

def Phase.concluded : Phase → Bool
  | .handled (.returned status) | .complete status => status = .completed
  | .handled (.notRetryable _) | .promote | .failWithoutRetry _ | .setFailed _ => true
  | _ => false

def Attempt.retries (a : Attempt) : Bool :=
  match a.phase with
  | .fail _ => true
  | .setRetry _ => !a.exhausted
  | _ => false

namespace Sys

def Current (s : Sys) (w : WorkerId) (a : Attempt) (row : JobRow) : Prop :=
  s.attempt? w = some a ∧ s.db.jobs.find? a.job.id = some row ∧
    row.attemptCount = a.job.attemptCount

/-- The run has a live job that no worker is about to release. -/
def Solid (s : Sys) (id : RunId) : Prop :=
  ∃ job, s.db.jobs.find? job.id = some job ∧ job.runId = id ∧ job.live = true ∧
    ∀ w a, s.Current w a job → a.phase.leaving = false

/-- A worker is about to record that the run failed. -/
def Finishing (s : Sys) (id : RunId) : Prop :=
  ∃ w a error, s.attempt? w = some a ∧ a.job.runId = id ∧ a.phase = .setRetry error ∧
    a.exhausted = true

/-- The bonds between jobs, runs and workers that the queue maintains. -/
structure Bonded (s : Sys) : Prop where
  quiet : s.QuietDisplaced
  owned : ∀ id job, s.db.jobs.find? id = some job → (s.db.runs.find? job.runId).isSome = true
  alone : ∀ v w a b, s.attempt? v = some a → s.attempt? w = some b → a.job.id = b.job.id →
    a.job.attemptCount = b.job.attemptCount → v = w

structure Wakeful (s : Sys) : Prop where
  bonded : s.Bonded
  outcome : ∀ w a outcome, s.attempt? w = some a → a.phase = .handling (.record outcome) →
    outcome.status ≠ .queued ∧ outcome.status ≠ .running
  pending : ∀ id, PausedRun id s → s.db.HasPending id
  concluded : ∀ w a row, s.Current w a row → a.phase.concluded = true →
    s.db.Ended a.job.runId
  backed : ∀ w a row, s.Current w a row → a.retries = true →
    row.live = true ∨ s.db.Ended a.job.runId
  supported : ∀ id, (s.db.runs.find? id).isSome = true →
    s.db.Resting id ∨ s.Solid id ∨ s.Finishing id

end Sys

namespace Database
variable {py : Builtins} {db : Database} {id : RunId}

theorem Ended.apply (ended : db.Ended id) (tx : Tx) : (tx.apply py db).Ended id := by
  obtain ⟨status, settled⟩ := ended
  exact ⟨status, settled.apply tx⟩

theorem Ended.of_find? {run : RunRow} (stored : db.runs.find? id = some run)
    (terminal : run.status.terminal = true) : db.Ended id :=
  ⟨run.status, terminal, run, stored, rfl⟩

theorem Ended.resting (ended : db.Ended id) : db.Resting id := by
  obtain ⟨status, terminal, run, stored, rfl⟩ := ended
  exact ⟨run, stored, .inl terminal⟩

theorem Ended.not_paused {s : Sys} (ended : s.db.Ended id) : ¬ Sys.PausedRun id s := by
  obtain ⟨status, terminal, run, stored, rfl⟩ := ended
  intro paused
  simp only [Sys.PausedRun, stored, Option.map_some, Option.some.injEq] at paused
  rw [paused] at terminal
  contradiction

end Database

/-- The status that a worker's transaction writes to a run. -/
def Tx.writes : Tx → Option (RunId × RunStatus)
  | .setRunStatus id status _ | .updateRun id status _ _ _ => some (id, status)
  | _ => none

theorem Tx.writes_status {py : Builtins} {db : Database} {tx : Tx} {id : RunId}
    {status : RunStatus} {run : RunRow} (writes : tx.writes = some (id, status))
    (stored : db.runs.find? id = some run) :
    ∃ after, (tx.apply py db).runs.find? id = some after ∧
      (after.status = status ∨ (after.status = run.status ∧ run.status.terminal = true)) := by
  have key : run.id = id := Table.key_of_find? stored
  refine ⟨tx.onRun db run, by rw [find?_runs, stored, rowAfter_some], ?_⟩
  cases terminal : run.status.terminal with
  | true => exact .inr ⟨(tx.onRun_write db run).terminal (key ▸ stored) terminal, rfl⟩
  | false =>
      cases tx with
      | setRunStatus | updateRun => cases writes; simp [onRun, key, terminal]
      | _ => contradiction

theorem Database.Resting.of_write {py : Builtins} {db : Database} {tx : Tx} {id : RunId}
    {status : RunStatus} (writes : tx.writes = some (id, status))
    (rests : status.terminal = true ∨ status = .paused)
    (stored : (db.runs.find? id).isSome = true) : (tx.apply py db).Resting id := by
  obtain ⟨run, stored⟩ := Option.isSome_iff_exists.mp stored
  obtain ⟨after, found, same | ⟨same, terminal⟩⟩ := Tx.writes_status writes stored
  · exact ⟨after, found, same ▸ rests⟩
  · exact ⟨after, found, .inl (same ▸ terminal)⟩

theorem Database.Ended.of_write {py : Builtins} {db : Database} {tx : Tx} {id : RunId}
    {status : RunStatus} (writes : tx.writes = some (id, status))
    (terminal : status.terminal = true) (stored : (db.runs.find? id).isSome = true) :
    (tx.apply py db).Ended id := by
  obtain ⟨run, stored⟩ := Option.isSome_iff_exists.mp stored
  obtain ⟨after, found, same | ⟨same, ended⟩⟩ := Tx.writes_status writes stored
  · exact .of_find? found (same ▸ terminal)
  · exact .of_find? found (same ▸ ended)

/-- The phases that a step of the handler reaches, with the transaction of the step. -/
inductive HandlerReach (db : Database) (id : RunId) : HandlerPhase → Phase → Tx → Prop
  | inside {phase next tx} : (∀ outcome, next ≠ .record outcome) →
      HandlerReach db id phase (.handling next) tx
  | ends {phase outcome tx} : outcome.status ≠ .queued → outcome.status ≠ .running →
      HandlerReach db id phase (.handling (.record outcome)) tx
  | missing {phase message tx} : db.runs.find? id = none →
      HandlerReach db id phase (.handled (.raised message)) tx
  | returned {phase run tx} : db.runs.find? id = some run →
      run.status.terminal = true ∨ run.status = .paused →
      HandlerReach db id phase (.handled (.returned run.status)) tx
  | recorded {outcome tx} :
      tx = .updateRun id (persistedAttemptStatus outcome) outcome.output outcome.error
        outcome.terminationReason →
      HandlerReach db id (.record outcome) (.handled (handlerResult outcome)) tx

theorem classifyFailure_ends (error : ExecError) :
    (classifyFailure error).status ≠ .queued ∧ (classifyFailure error).status ≠ .running := by
  cases error with
  | modelCall message category recoverable =>
      simp only [classifyFailure]
      split <;> simp
  | runCancelled | graphRecursion | graphValidation | toolNotFound | toolPermission | rag
  | subagent | other => simp [classifyFailure]

namespace Attempt
variable {py : Builtins} {db : Database} {thread : Thread} {drained : Bool} {a : Attempt}
  {phase : HandlerPhase} {move : HandlerMove} {e : Effect} {next : Phase}

theorem throw_reach {id : RunId} {tx : Tx} (error : ExecError)
    (after : (a.throw error).attempt = a.goto next) : HandlerReach db id phase next tx := by
  cases after
  exact .ends (classifyFailure_ends error).1 (classifyFailure_ends error).2

theorem handlerStep_reach (stepped : a.handlerStep py db thread drained phase move = some e)
    (after : e.attempt = a.goto next) : HandlerReach db a.job.runId phase next e.tx := by
  cases handlerStep_cases stepped with
  | missing absent => cases after; exact .missing absent
  | ended stored terminal => cases after; exact .returned stored (.inl terminal)
  | waiting stored paused => cases after; exact paused ▸ .returned stored (.inr paused)
  | cancelled | threw => exact throw_reach _ after
  | paused => cases after; exact .ends (by simp [pausedOutcome]) (by simp [pausedOutcome])
  | finished => cases after; exact .ends (by simp [completedOutcome]) (by simp [completedOutcome])
  | recorded => cases after; exact .recorded rfl
  | loaded | admitted | started | entered | resumed | nodeStarted | emitted | gated | answered
  | nodeCompleted => cases after; exact .inside (by simp)

end Attempt

namespace Sys
variable {c : Config} {s s' : Sys} {action : Action} {tx : Tx}

theorem Commits.attempt_cases (commits : Commits c s action s' tx) {v : WorkerId} {b : Attempt}
    (busy : s'.attempt? v = some b) :
    (∃ a, s.attempt? v = some a ∧ b.job = a.job) ∨
      ∃ now locked job, action = .work v (.claim locked) ∧
        s.db.claimCandidate now locked = some job ∧ b.phase = .setRunning ∧
        b.job = job.claimedBy v (c.worker v).leaseSeconds now := by
  cases commits.after v b busy with
  | kept before => exact .inl ⟨b, before, rfl⟩
  | stepped before effected after => exact .inl ⟨_, before, (effect_lease effected).job after⟩
  | claimed _ found fresh => subst fresh; exact .inr ⟨_, _, _, rfl, found, rfl, rfl⟩

theorem Bonded.owned_step (bonded : s.Bonded) (commits : Commits c s action s' tx) (id : JobId)
    (job : JobRow) (stored : s'.db.jobs.find? id = some job) :
    (s'.db.runs.find? job.runId).isSome = true := by
  rw [commits.db, Tx.find?_jobs] at stored
  obtain ⟨old, before, rfl⟩ | ⟨_, inserted, _⟩ := rowAfter_cases stored
  · obtain ⟨run, stored⟩ := Option.isSome_iff_exists.mp (bonded.owned id old before)
    rw [(tx.onJob_step old).fixed.2.1, commits.db, Tx.find?_runs, stored, rowAfter_some]
    rfl
  · rw [commits.db]
    exact Tx.newJob_owned commits.issued inserted

theorem Bonded.alone_step (bonded : s.Bonded) (commits : Commits c s action s' tx)
    {v w : WorkerId} {a b : Attempt} (first : s'.attempt? v = some a)
    (second : s'.attempt? w = some b) (job : a.job.id = b.job.id)
    (count : a.job.attemptCount = b.job.attemptCount) : v = w := by
  -- a claim counts one attempt more than every worker that is at the job
  have newer {v w : WorkerId} {a b : Attempt} {now : Time} {locked : JobRow → Bool} {row : JobRow}
      (busy : s.attempt? v = some a) (found : s.db.claimCandidate now locked = some row)
      (claimed : b.job = row.claimedBy w (c.worker w).leaseSeconds now)
      (job : a.job.id = b.job.id) : a.job.attemptCount < b.job.attemptCount := by
    obtain ⟨_, stored, held, bound⟩ := bonded.quiet.1.bound v a busy
    rw [job, claimed, JobRow.claimedBy_id, (claimCandidate_sound found).1] at held
    cases held
    rw [claimed]
    exact Nat.lt_succ_of_le bound.behind
  rcases commits.attempt_cases first with ⟨a', busy, same⟩ | ⟨_, _, _, act, found, _, claimed⟩
  · rcases commits.attempt_cases second with ⟨b', busy', same'⟩ | ⟨_, _, _, _, found, _, claimed⟩
    · exact bonded.alone v w a' b' busy busy' (same ▸ same' ▸ job) (same ▸ same' ▸ count)
    · exact absurd (same ▸ count) (Nat.ne_of_lt (newer busy found claimed (same ▸ job)))
  · rcases commits.attempt_cases second with ⟨b', busy', same'⟩ | ⟨_, _, _, act', _, _, _⟩
    · exact absurd (same' ▸ count.symm)
        (Nat.ne_of_lt (newer busy' found claimed (same' ▸ job.symm)))
    · rw [act] at act'
      cases act'
      rfl

theorem Bonded.step (bonded : s.Bonded) (allowed : fenced s action) (step : Step c s action s') :
    s'.Bonded := by
  obtain ⟨tx, commits⟩ := step.commits
  exact ⟨bonded.quiet.step allowed step, bonded.owned_step commits,
    fun _ _ _ _ first second => bonded.alone_step commits first second⟩

theorem Bonded.bound (bonded : s.Bonded) {w : WorkerId} {a : Attempt} {row : JobRow}
    (current : s.Current w a row) : a.Coherent ∧ a.Bound s.clock w row ∧ row.WellFormed := by
  obtain ⟨busy, stored, _⟩ := current
  obtain ⟨coherent, held, found, bound⟩ := bonded.quiet.1.bound w a busy
  rw [stored] at found
  cases found
  exact ⟨coherent, bound, bonded.quiet.1.formed _ _ stored⟩

/-- A worker that is past its handler, or writes its outcome, is in the latest attempt. -/
theorem Bonded.current (bonded : s.Bonded) {w : WorkerId} {a : Attempt}
    (busy : s.attempt? w = some a) (loud : a.phase.quiet = false) : ∃ row, s.Current w a row := by
  obtain ⟨_, row, stored, bound⟩ := bonded.quiet.1.bound w a busy
  refine ⟨row, busy, stored, ?_⟩
  rcases Nat.lt_or_eq_of_le bound.behind with taken | same
  · have quiet := bonded.quiet.2 w a ⟨busy, row, stored, taken⟩
    rw [loud] at quiet
    contradiction
  · exact same.symm

theorem Bonded.running (bonded : s.Bonded) {w : WorkerId} {a : Attempt} {row : JobRow}
    (current : s.Current w a row) (holds : a.phase.holds = true) : row.status = .running := by
  obtain ⟨coherent, bound, formed⟩ := bonded.bound current
  obtain ⟨expiry, written⟩ := Option.isSome_iff_exists.mp (coherent.leased holds)
  refine formed.running_of_owner (w := w) ?_
  rw [(bound.current current.2.2.symm).1, written]
  rfl

theorem Bonded.run (bonded : s.Bonded) {w : WorkerId} {a : Attempt} {row : JobRow}
    (current : s.Current w a row) : ∃ run, s.db.runs.find? a.job.runId = some run := by
  rw [← Option.isSome_iff_exists, ← (bonded.bound current).2.1.run]
  exact bonded.owned _ row current.2.1

/-- Where a worker that is in the latest attempt of its job comes from. -/
inductive CurrentAfter (c : Config) (s : Sys) (action : Action) (tx : Tx) (v : WorkerId)
    (b : Attempt) (row' : JobRow) : Prop
  | kept (row : JobRow) : s.Current v b row → row'.live = row.live →
      CurrentAfter c s action tx v b row'
  | stepped (m : Move) (a : Attempt) (e : Effect) (row : JobRow) : action = .work v m →
      tx = e.tx → s.Current v a row → s.effect c v a m = some e → e.attempt = some b →
      row' = e.tx.onJob row → CurrentAfter c s action tx v b row'
  | claimed : b.phase = .setRunning → CurrentAfter c s action tx v b row'

/-- The statements of other workers do not finish the job of a worker that stays in its
latest attempt. -/
theorem Bonded.live_kept (bonded : s.Bonded) {v : WorkerId} {b : Attempt} {row : JobRow}
    (current : s.Current v b row) (foreign : tx.worker ≠ some v)
    (still : (tx.onJob row).attemptCount = b.job.attemptCount) :
    (tx.onJob row).live = row.live := by
  have bound := (bonded.bound current).2.1
  have count := current.2.2
  have unowned {w : WorkerId} (owner : row.leaseOwner = some w) (other : w ≠ v) : False := by
    have behind := bound.displaced_of_owner owner other
    omega
  generalize written : tx.onJob row = row' at still
  have moved := tx.onJob_step row
  rw [written] at moved
  cases moved with
  | kept | renewed => rfl
  | claimed => simp only [JobRow.claimedBy] at still; omega
  | completed w now same owner | failed w error delay now same owner
  | failedWithoutRetry w error now same owner =>
      refine (unowned owner ?_).elim
      rintro rfl
      exact foreign (by rw [same]; rfl)

theorem Bonded.current_after (bonded : s.Bonded) (commits : Commits c s action s' tx)
    {v : WorkerId} {b : Attempt} {row' : JobRow} (current : s'.Current v b row') :
    CurrentAfter c s action tx v b row' := by
  obtain ⟨busy, stored', count⟩ := current
  have rewritten {a : Attempt} {row : JobRow} (stored : s.db.jobs.find? a.job.id = some row)
      (job : b.job = a.job) : row' = tx.onJob row := by
    rw [commits.db, Tx.find?_jobs, job, stored, rowAfter_some] at stored'
    exact (Option.some.inj stored').symm
  cases commits.after v b busy with
  | kept before foreign =>
      obtain ⟨_, row, stored, bound⟩ := bonded.quiet.1.bound v b before
      have same := rewritten stored rfl
      subst same
      have current : s.Current v b row := by
        refine ⟨before, stored, ?_⟩
        rcases (tx.onJob_step row).attemptCount with kept | ⟨_, _, _, _, claimed⟩
        · exact kept ▸ count
        · have behind := bound.behind
          rw [claimed] at count
          simp only [JobRow.claimedBy] at count
          omega
      exact .kept row current (bonded.live_kept current foreign count)
  | @stepped m a e before effected after =>
      have job := (effect_lease effected).job after
      obtain ⟨_, row, stored, bound⟩ := bonded.quiet.1.bound v a before
      have same := rewritten stored job
      subst same
      refine .stepped m a e row rfl rfl ⟨before, stored, ?_⟩ effected after rfl
      rw [job] at count
      rcases (e.tx.onJob_step row).attemptCount with kept | ⟨_, _, _, claim, _⟩
      · exact kept ▸ count
      · exact absurd (commits.claims claim) (not_claims_of_effect effected)
  | claimed _ _ fresh => subst fresh; exact .claimed rfl

theorem Wakeful.outcome_step (wakeful : s.Wakeful) (commits : Commits c s action s' tx)
    (v : WorkerId) (b : Attempt) (outcome : Outcome) (busy : s'.attempt? v = some b)
    (at' : b.phase = .handling (.record outcome)) :
    outcome.status ≠ .queued ∧ outcome.status ≠ .running := by
  cases commits.after v b busy with
  | kept before => exact wakeful.outcome v b outcome before at'
  | claimed _ _ fresh => subst fresh; contradiction
  | @stepped m a e before effected after =>
      generalize reached : b.phase = phase at at'
      have moved := effect_phase effected after
      rw [reached] at moved
      cases moved with
      | beat => exact wakeful.outcome v a outcome before at'
      | @joined _ result => cases result <;> contradiction
      | handler _ stepped same _ =>
          subst at'
          cases Attempt.handlerStep_reach stepped same with
          | inside differs => exact absurd rfl (differs outcome)
          | ends queued running => exact ⟨queued, running⟩
      | started | promoted | gaveUp | reportedGivingUp | failed | reportedFailure | excepted
      | escaped => cases at'

/-- A pending approval stays pending until a resolution finds it. -/
theorem HasPending.kept (commits : Commits c s action s' tx) {approval : ApprovalRow}
    (stored : s.db.approvals.find? approval.id = some approval)
    (pending : approval.status = .pending)
    (spared : ∀ status resolvedBy reason now jobId,
      tx ≠ .resolveAndEnqueue approval.id status resolvedBy reason now jobId) :
    s'.db.HasPending approval.runId := by
  have same : tx.onApproval s.db approval = approval := by
    cases tx with
    | resolveAndEnqueue id status resolvedBy reason now jobId =>
        refine if_pos fun found => ?_
        subst found
        exact spared status resolvedBy reason now jobId rfl
    | _ => rfl
  refine ⟨approval, ?_, rfl, pending⟩
  rw [Table.mem_rows_iff, commits.db, Tx.find?_approvals, key_approval, stored, rowAfter_some, same]

/-- A run is woken by the decision on any of its pending approvals. -/
theorem not_paused_of_decided (commits : Commits c s action s' tx) {approval : ApprovalRow}
    {status : ApprovalStatus} {resolvedBy : String} {reason : Option String} {now : Time}
    {jobId : JobId} (same : tx = .resolveAndEnqueue approval.id status resolvedBy reason now jobId)
    (decides : s.db.decides approval.id now = some approval)
    (paused : PausedRun approval.runId s) : ¬ PausedRun approval.runId s' := by
  obtain ⟨run, stored, paused⟩ := Option.map_eq_some_iff.mp paused
  have key : run.id = approval.runId := Table.key_of_find? stored
  have wakes : s.db.wakes approval.id now = some run := by
    simp [Database.wakes, decides, stored, paused]
  intro still
  rw [PausedRun, commits.db, Tx.find?_runs, stored, rowAfter_some, same] at still
  simp [Tx.onRun, wakes] at still

theorem Wakeful.pending_step (wakeful : s.Wakeful) (allowed : pauseSeen s action)
    (spares : expirySpares s action) (step : Step c s action s')
    (commits : Commits c s action s' tx) (id : RunId) (paused : PausedRun id s') :
    s'.db.HasPending id := by
  by_cases before : PausedRun id s
  · obtain ⟨approval, member, rfl, pending⟩ := wakeful.pending id before
    have stored := Table.mem_rows_iff.mp member
    by_cases found : ∃ status resolvedBy reason now jobId,
        tx = .resolveAndEnqueue approval.id status resolvedBy reason now jobId
    · obtain ⟨status, resolvedBy, reason, now, jobId, same⟩ := found
      obtain ⟨rfl, act⟩ := commits.resolves same
      cases expired : approval.expiresAt.any (· ≤ s.clock) with
      | true =>
          have expires : s.db.expires approval.id s.clock = some approval := by
            simp [Database.expires, ← key_approval, stored, pending, expired]
          obtain ⟨other, among, ofRun, undecided, differs⟩ :=
            spares _ status resolvedBy reason jobId approval act expires before
          rw [← ofRun]
          refine HasPending.kept commits (Table.mem_rows_iff.mp among) undecided ?_
          intro _ _ _ _ _ same'
          rw [same] at same'
          exact differs (Tx.resolveAndEnqueue.inj same').1.symm
      | false =>
          have decides : s.db.decides approval.id s.clock = some approval := by
            simp [Database.decides, ← key_approval, stored, pending, expired]
          exact absurd paused (not_paused_of_decided commits same decides before)
    · refine HasPending.kept commits stored pending ?_
      intro status resolvedBy reason now jobId same
      exact found ⟨status, resolvedBy, reason, now, jobId, same⟩
  · obtain ⟨v, b, outcome, rfl, busy, rfl, at', pauses⟩ := step.pauses before paused
    rcases allowed v b outcome rfl busy at' pauses with ⟨approval, member, same, pending⟩ | ended
    · rw [← same]
      refine HasPending.kept commits (Table.mem_rows_iff.mp member) pending ?_
      intro _ _ _ _ _ resolves
      have act := (commits.resolves resolves).2
      contradiction
    · have ended' : s'.db.Ended b.job.runId := commits.db ▸ ended.apply tx
      exact absurd paused ended'.not_paused

theorem persisted_of_concluded {outcome : Outcome}
    (concluded : (Phase.handled (handlerResult outcome)).concluded = true) :
    (persistedAttemptStatus outcome).terminal = true := by
  unfold handlerResult at concluded
  split at concluded
  next failed =>
    split at concluded
    next => contradiction
    next fatal => simp [persistedAttemptStatus, failed, fatal, RunStatus.terminal]
  next lives =>
    have completed : outcome.status = .completed := of_decide_eq_true concluded
    simp [persistedAttemptStatus, completed, RunStatus.terminal]

theorem Wakeful.concluded_step (wakeful : s.Wakeful) (commits : Commits c s action s' tx)
    (v : WorkerId) (b : Attempt) (row' : JobRow) (current : s'.Current v b row')
    (concluded : b.phase.concluded = true) : s'.db.Ended b.job.runId := by
  rw [commits.db]
  cases wakeful.bonded.current_after commits current with
  | kept row before _ => exact (wakeful.concluded v b row before concluded).apply tx
  | claimed fresh => rw [fresh] at concluded; contradiction
  | stepped m a e row act same before effected after _ =>
      subst same
      have job := (effect_lease effected).job after
      rw [job]
      have prior (concluded : a.phase.concluded = true) :
          (e.tx.apply c.py s.db).Ended a.job.runId :=
        (wakeful.concluded v a row before concluded).apply e.tx
      generalize reached : b.phase = phase at concluded
      have moved := effect_phase effected after
      rw [reached] at moved
      cases moved with
      | beat => exact prior concluded
      | @joined _ result at' =>
          cases result with
          | returned status => exact prior (by rw [at']; exact concluded)
          | notRetryable message => exact prior (by rw [at']; rfl)
          | raised message => contradiction
      | promoted at' | gaveUp at' => exact prior (by rw [at']; rfl)
      | handler at' stepped same written =>
          cases Attempt.handlerStep_reach stepped same with
          | inside | ends | missing => contradiction
          | returned found _ =>
              have completed := of_decide_eq_true concluded
              exact (Database.Ended.of_find? found (by rw [completed]; rfl)).apply e.tx
          | recorded same =>
              obtain ⟨run, stored⟩ := wakeful.bonded.run before
              refine .of_write (by rw [written, same]; rfl) (persisted_of_concluded concluded) ?_
              rw [stored]
              rfl
      | started | reportedGivingUp | failed | reportedFailure | excepted | escaped => contradiction

/-- The budget is spent on the row exactly when it is spent for the worker. -/
theorem failed_live {row : JobRow} {a : Attempt} {clock : Time} {w : WorkerId}
    (bound : a.Bound clock w row) (count : row.attemptCount = a.job.attemptCount)
    (lasts : a.exhausted = false) (error : String) (delay : Nat) (now : Time) :
    (row.failedWith error delay now).live = true := by
  have budget : row.budget = a.job.budget := by simp [JobRow.budget, bound.budget]
  have room : row.attemptCount < row.budget := by
    simp only [Attempt.exhausted, decide_eq_false_iff_not] at lasts
    omega
  simp [JobRow.failedWith, room, JobRow.live]

theorem Wakeful.backed_step (wakeful : s.Wakeful) (commits : Commits c s action s' tx)
    (v : WorkerId) (b : Attempt) (row' : JobRow) (current : s'.Current v b row')
    (retries : b.retries = true) : row'.live = true ∨ s'.db.Ended b.job.runId := by
  rw [commits.db]
  cases wakeful.bonded.current_after commits current with
  | kept row before live =>
      rcases wakeful.backed v b row before retries with lives | ended
      · exact .inl (live.trans lives)
      · exact .inr (ended.apply tx)
  | claimed fresh => simp [Attempt.retries, fresh] at retries
  | stepped m a e row act same before effected after written =>
      subst same written
      have job := (effect_lease effected).job after
      obtain ⟨coherent, bound, _⟩ := wakeful.bonded.bound before
      have issues := effect_issues effected
      rw [job]
      have idle (holds : a.phase.holds = true) (same : e.tx = .idle) :
          (e.tx.onJob row).live = true := by
        rw [same]
        simp [Tx.onJob, JobRow.live, wakeful.bonded.running before holds]
      generalize reached : b.phase = phase
      have moved := effect_phase effected after
      rw [reached] at moved
      simp only [Attempt.retries, reached] at retries
      cases moved with
      | beat alive =>
          have serving : a.phase.serving = true := by
            by_contra idle
            exact alive (coherent.joined (by simpa using idle))
          cases at' : a.phase with
          | handling | handled => rw [at'] at retries; contradiction
          | _ => rw [at'] at serving; contradiction
      | @joined _ result at' =>
          refine .inl (idle (by rw [at']; rfl) ?_)
          generalize e.tx = tx at issues ⊢
          cases issues with
          | idle => rfl
          | _ at'' => rw [at'] at at''; contradiction
      | failed at' =>
          have exhausted : a.exhausted = false := by
            have same : b.exhausted = a.exhausted := by simp [Attempt.exhausted, job]
            simpa [same] using retries
          rcases wakeful.backed v a row before (by simp [Attempt.retries, at']) with live | ended
          · refine .inl ?_
            generalize e.tx = tx at issues ⊢
            cases issues with
            | idle => exact live
            | fail =>
                simp only [Tx.onJob]
                split
                next => exact failed_live bound before.2.2 exhausted _ _ _
                next => exact live
            | _ at'' => rw [at'] at at''; contradiction
          · exact .inr (ended.apply e.tx)
      | excepted at' =>
          have silent : e.tx = .idle := by cases Sys.effect_cases effected <;> rfl
          rcases at' with at' | ⟨status, at'⟩ | at'
          · exact .inl (idle (by rw [at']; rfl) silent)
          · exact .inl (idle (by rw [at']; rfl) silent)
          · exact .inr ((wakeful.concluded v a row before (by rw [at']; rfl)).apply e.tx)
      | handler at' stepped same =>
          cases Attempt.handlerStep_reach stepped same <;> contradiction
      | started | promoted | gaveUp | reportedGivingUp | reportedFailure | escaped => contradiction

theorem Bonded.solid (bonded : s'.Bonded) {w : WorkerId} {next : Attempt} {row : JobRow}
    (current : s'.Current w next row) (live : row.live = true)
    (stays : next.phase.leaving = false) : s'.Solid next.job.runId := by
  have key : row.id = next.job.id := Table.key_of_find? current.2.1
  refine ⟨row, key ▸ current.2.1, (bonded.bound current).2.1.run, live, ?_⟩
  intro v b other
  have same := Table.key_of_find? other.2.1
  have sameWorker : v = w := bonded.alone v w b next other.1 current.1 (same.symm.trans key)
    (other.2.2.symm.trans current.2.2)
  subst sameWorker
  have equal := other.1.symm.trans current.1
  cases equal
  exact stays

theorem Bonded.solid_new (bonded : s.Bonded) (commits : Commits c s action s' tx) {job : JobRow}
    (new : tx.newJob s.db = some job) (fresh : s.db.jobs.find? job.id = none)
    (live : job.live = true) : s'.Solid job.runId := by
  refine ⟨job, ?_, rfl, live, ?_⟩
  · rw [commits.db, Tx.find?_jobs, fresh, new]
    simp [rowAfter]
  · intro w b current
    have same : job.id = b.job.id := Table.key_of_find? current.2.1
    rcases commits.attempt_cases current.1 with ⟨a, busy, kept⟩ | ⟨_, _, row, _, found, _, claimed⟩
    · obtain ⟨_, row, stored, _⟩ := bonded.quiet.1.bound w a busy
      rw [← kept, ← same, fresh] at stored
      contradiction
    · have stored := (claimCandidate_sound found).1
      rw [claimed, JobRow.claimedBy_id] at same
      rw [← same, fresh] at stored
      contradiction

/-- How a transaction changes the status of a stored run. -/
theorem onRun_status {db : Database} {run : RunRow} (tx : Tx) :
    (tx.onRun db run).status = run.status ∨ (tx.onRun db run).status.terminal = true ∨
      (∃ id status resolvedBy reason now jobId woken,
        tx = .resolveAndEnqueue id status resolvedBy reason now jobId ∧
          db.wakes id now = some woken ∧ woken.id = run.id) ∨
      ∃ status, tx.writes = some (run.id, status) := by
  have write := tx.onRun_write db run
  generalize tx.onRun db run = after at write ⊢
  cases write with
  | kept => exact .inl rfl
  | cancelled => exact .inr (.inl rfl)
  | set status error issued => exact .inr (.inr (.inr ⟨status, by rw [issued]; rfl⟩))
  | updated status output error reason issued =>
      exact .inr (.inr (.inr ⟨status, by rw [issued]; rfl⟩))
  | requeued id status resolvedBy reason now jobId woken issued found same =>
      exact .inr (.inr (.inl
        ⟨id, status, resolvedBy, reason, now, jobId, woken, issued, found, same⟩))

theorem Commits.issuer (commits : Commits c s action s' tx) (own : tx.api = false)
    (unclaimed : ∀ w l now id, tx ≠ .claim w l now id) :
    ∃ w m a e, action = .work w m ∧ s.attempt? w = some a ∧ s.effect c w a m = some e ∧
      s'.attempt? w = e.attempt ∧ e.tx = tx ∧ Issues c s w a m tx := by
  cases commits.origin with
  | idle | persist => contradiction
  | request r => rw [r.tx_api s] at own; contradiction
  | claim => exact absurd rfl (unclaimed _ _ _ _)
  | work busy effected reached =>
      exact ⟨_, _, _, _, rfl, busy, effected, reached, rfl, effect_issues effected⟩

theorem Commits.current {w : WorkerId} {m : Move} {a next : Attempt} {e : Effect} {row : JobRow}
    (commits : Commits c s (.work w m) s' e.tx) (current : s.Current w a row)
    (effected : s.effect c w a m = some e) (reached : s'.attempt? w = e.attempt)
    (after : e.attempt = some next) : s'.Current w next (e.tx.onJob row) := by
  have job := (effect_lease effected).job after
  obtain ⟨_, stored, count⟩ := current
  have key : row.id = a.job.id := Table.key_of_find? stored
  refine ⟨reached.trans after, ?_, ?_⟩
  · rw [commits.db, Tx.find?_jobs, job, stored, rowAfter_some]
  · rw [job, ← count]
    rcases (e.tx.onJob_step row).attemptCount with kept | ⟨_, _, _, claim, _⟩
    · exact kept
    · exact absurd (commits.claims claim) (not_claims_of_effect effected)

theorem handlerResult_of_restless {outcome : Outcome} (queued : outcome.status ≠ .queued)
    (running : outcome.status ≠ .running)
    (restless : ¬ ((persistedAttemptStatus outcome).terminal = true ∨
      persistedAttemptStatus outcome = .paused)) :
    handlerResult outcome = .raised (textOr outcome.error "run execution failed") := by
  unfold persistedAttemptStatus at restless
  unfold handlerResult
  cases status : outcome.status with
  | queued => exact absurd status queued
  | running => exact absurd status running
  | paused | completed | cancelled => simp [status, RunStatus.terminal] at restless
  | failed =>
      cases retryable : executionIsRetryable outcome.terminationReason with
      | true => simp
      | false => simp [status, retryable, RunStatus.terminal] at restless

/-- A worker writes the status of its run while its job is live, or ends or pauses the
run. -/
theorem Wakeful.written_step (wakeful : s.Wakeful) (bonded : s'.Bonded)
    (commits : Commits c s action s' tx) {id : RunId} {status : RunStatus}
    (writes : tx.writes = some (id, status)) : s'.db.Resting id ∨ s'.Solid id := by
  obtain ⟨w, m, a, e, rfl, busy, effected, reached, rfl, issues⟩ :=
    commits.issuer (by cases tx <;> first | rfl | contradiction)
      (by rintro _ _ _ _ rfl; contradiction)
  have solid {next : Attempt} {row : JobRow} (current : s.Current w a row)
      (after : e.attempt = some next) (spares : e.tx.onJob row = row)
      (live : row.live = true) (stays : next.phase.leaving = false) :
      s'.Solid a.job.runId := by
    have latest := commits.current current effected reached after
    rw [spares] at latest
    exact (effect_lease effected).job after ▸ bonded.solid latest live stays
  have rests {status : RunStatus} (writes : e.tx.writes = some (a.job.runId, status))
      (rests : status.terminal = true ∨ status = .paused) (loud : a.phase.quiet = false) :
      s'.db.Resting a.job.runId := by
    obtain ⟨row, current⟩ := wakeful.bonded.current busy loud
    obtain ⟨run, stored⟩ := wakeful.bonded.run current
    exact commits.db ▸ .of_write writes rests (by rw [stored]; rfl)
  generalize written : e.tx = tx at issues writes
  cases issues with
  | setRunning at' =>
      cases writes
      obtain ⟨row, current⟩ := wakeful.bonded.current busy (by rw [at']; rfl)
      have running := wakeful.bonded.running current (by rw [at']; rfl)
      simp only [effect, Attempt.advance, at'] at effected
      refine .inr (solid current (by cases effected; rfl) (by rw [written]; rfl) ?_ rfl)
      simp [JobRow.live, running]
  | @updateRun outcome at' =>
      cases writes
      have loud : a.phase.quiet = false := by rw [at']; rfl
      by_cases ends : (persistedAttemptStatus outcome).terminal = true ∨
          persistedAttemptStatus outcome = .paused
      · exact .inl (rests (by rw [written]; rfl) ends loud)
      · obtain ⟨row, current⟩ := wakeful.bonded.current busy loud
        obtain ⟨queued, running⟩ := wakeful.outcome w a outcome busy at'
        have retried := handlerResult_of_restless queued running ends
        have kept : a.leaseLost = false := by
          by_contra lost
          have taken := (wakeful.bonded.bound current).2.1.lost (by simpa using lost)
          exact absurd current.2.2.symm (Nat.ne_of_lt taken)
        have live : row.live = true := by
          simp [JobRow.live, wakeful.bonded.running current (by rw [at']; rfl)]
        simp only [effect, at', Attempt.handle, kept, Bool.false_eq_true, if_false,
          Attempt.handlerStep] at effected
        split at effected
        next =>
          refine .inr (solid current (by cases effected; rfl) (by rw [written]; rfl) live ?_)
          rw [retried]
          rfl
        next => contradiction
  | promote at' | setFailed at' =>
      cases writes
      exact .inl (rests (by rw [written]; rfl) (.inl rfl) (by rw [at']; rfl))
  | setRetry at' =>
      cases writes
      cases lasts : a.exhausted with
      | true =>
          exact .inl (rests (by rw [written, lasts]; rfl) (.inl rfl) (by rw [at']; rfl))
      | false =>
          obtain ⟨row, current⟩ := wakeful.bonded.current busy (by rw [at']; rfl)
          rcases wakeful.backed w a row current (by simp [Attempt.retries, at', lasts]) with
            live | ended
          · simp only [effect, Attempt.advance, at'] at effected
            exact .inr (solid current (by cases effected; rfl) (by rw [written]; rfl) live rfl)
          · exact .inl (commits.db ▸ (ended.apply e.tx).resting)
  | idle | createPending | heartbeat | complete | failWithoutRetry | emitFailed | fail
  | emitRetry => contradiction

theorem Wakeful.woken_step (wakeful : s.Wakeful) (bonded : s'.Bonded)
    (commits : Commits c s action s' tx) {id : RunId} (rests : s.db.Resting id) :
    s'.db.Resting id ∨ s'.Solid id := by
  obtain ⟨run, stored, status⟩ := rests
  have key : run.id = id := Table.key_of_find? stored
  have stored' : s'.db.runs.find? id = some (tx.onRun s.db run) := by
    rw [commits.db, Tx.find?_runs, stored, rowAfter_some]
  rcases onRun_status tx with same | ended | woken | ⟨status, writes⟩
  · exact .inl ⟨_, stored', same.symm ▸ status⟩
  · exact .inl ⟨_, stored', .inl ended⟩
  · obtain ⟨approval, decision, resolvedBy, reason, now, jobId, woken, rfl, found, same⟩ := woken
    have new : (Tx.resolveAndEnqueue approval decision resolvedBy reason now jobId).newJob s.db =
        some { id := jobId, runId := woken.id, createdAt := now } := by
      simp [Tx.newJob, found]
    exact .inr (key ▸ same ▸ wakeful.bonded.solid_new commits new commits.issued.2.2 rfl)
  · exact wakeful.written_step bonded commits (key ▸ writes)

/-- The latest attempt of a job that nobody was about to release is about to release it:
its run has come to rest. -/
theorem Wakeful.leaving_step (wakeful : s.Wakeful) (bonded : s'.Bonded)
    (commits : Commits c s action s' tx) {job row' : JobRow} {v : WorkerId} {b : Attempt}
    (stored : s.db.jobs.find? job.id = some job)
    (stays : ∀ w a, s.Current w a job → a.phase.leaving = false)
    (current : s'.Current v b row') (same : b.job.id = job.id) (leaves : b.phase.leaving = true) :
    s'.db.Resting job.runId ∨ s'.Solid job.runId := by
  have stayed {a : Attempt} {row : JobRow} (current : s.Current v a row)
      (job' : b.job = a.job) : row = job ∧ a.phase.leaving = false := by
    have found := current.2.1
    rw [← job', same, stored] at found
    cases found
    exact ⟨rfl, stays v a current⟩
  cases wakeful.bonded.current_after commits current with
  | kept row before _ =>
      have left := (stayed before rfl).2
      rw [leaves] at left
      contradiction
  | claimed fresh => rw [fresh] at leaves; contradiction
  | stepped m a e row act txSame before effected after _ =>
      subst txSame
      have kept := (effect_lease effected).job after
      obtain ⟨rfl, left⟩ := stayed before kept
      have ofRun := (wakeful.bonded.bound before).2.1.run
      generalize reached : b.phase = phase at leaves
      have moved := effect_phase effected after
      rw [reached] at moved
      cases moved with
      | beat => rw [left] at leaves; contradiction
      | @joined _ result at' =>
          cases result with
          | returned status => rw [at'] at left; contradiction
          | raised | notRetryable => contradiction
      | handler at' stepped same written =>
          cases Attempt.handlerStep_reach stepped same with
          | inside | ends | missing => contradiction
          | returned found rests =>
              exact wakeful.woken_step bonded commits (ofRun ▸ ⟨_, found, rests⟩)
          | @recorded outcome _ recorded =>
              obtain ⟨run, found⟩ := wakeful.bonded.run before
              obtain ⟨queued, running⟩ := wakeful.outcome v a outcome before.1 at'
              refine .inl (commits.db ▸ .of_write (by rw [written, recorded, ofRun]; rfl) ?_ ?_)
              · by_contra restless
                rw [handlerResult_of_restless queued running restless] at leaves
                contradiction
              · rw [ofRun, found]
                rfl
      | started | promoted | gaveUp | reportedGivingUp | failed | reportedFailure | excepted
      | escaped => contradiction

theorem Bonded.finishes (bonded : s.Bonded) (commits : Commits c s action s' tx) {job : JobRow}
    (stored : s.db.jobs.find? job.id = some job) (live : job.live = true)
    (dead : (tx.onJob job).live = false) :
    ∃ w a e, s.Current w a job ∧ s.effect c w a .advance = some e ∧
      s'.attempt? w = e.attempt ∧
      ((∃ status, a.phase = .complete status) ∨ (∃ error, a.phase = .failWithoutRetry error) ∨
        ∃ error, a.phase = .fail error ∧ a.exhausted = true) := by
  have owned {w : WorkerId} {a : Attempt} (busy : s.attempt? w = some a)
      (own : a.job.id = job.id) (owner : job.leaseOwner = some w) : s.Current w a job := by
    obtain ⟨_, row, found, bound⟩ := bonded.quiet.1.bound w a busy
    rw [own, stored] at found
    cases found
    exact ⟨busy, own ▸ stored, (bound.current_of_owner owner).symm⟩
  generalize written : tx.onJob job = row' at dead
  have moved := tx.onJob_step job
  rw [written] at moved
  cases moved with
  | kept => rw [live] at dead; contradiction
  | claimed => contradiction
  | renewed => simp only [JobRow.live] at live dead; rw [live] at dead; contradiction
  | completed w now same owner =>
      obtain ⟨v, m, a, e, _, busy, effected, reached, _, issues⟩ :=
        commits.issuer (by rw [same]; rfl) (by simp [same])
      cases issues with
      | complete at' =>
          obtain ⟨rfl, own, _⟩ := Tx.complete.inj same
          exact ⟨_, a, e, owned busy own owner, effected, reached, .inl ⟨_, at'⟩⟩
      | _ => contradiction
  | failedWithoutRetry w error now same owner =>
      obtain ⟨v, m, a, e, _, busy, effected, reached, _, issues⟩ :=
        commits.issuer (by rw [same]; rfl) (by simp [same])
      cases issues with
      | failWithoutRetry at' =>
          obtain ⟨rfl, own, _⟩ := Tx.failWithoutRetry.inj same
          exact ⟨_, a, e, owned busy own owner, effected, reached, .inr (.inl ⟨_, at'⟩)⟩
      | _ => contradiction
  | failed w error delay now same owner =>
      obtain ⟨v, m, a, e, _, busy, effected, reached, _, issues⟩ :=
        commits.issuer (by rw [same]; rfl) (by simp [same])
      cases issues with
      | fail at' =>
          obtain ⟨rfl, own, _⟩ := Tx.fail.inj same
          have current := owned busy own owner
          refine ⟨_, a, e, current, effected, reached, .inr (.inr ⟨_, at', ?_⟩)⟩
          by_contra lasts
          have alive := failed_live (bonded.bound current).2.1 current.2.2 (by simpa using lasts)
            error delay now
          rw [alive] at dead
          contradiction
      | _ => contradiction

/-- A job that carries its run hands it on before it is finished. -/
theorem Wakeful.solid_step (wakeful : s.Wakeful) (bonded : s'.Bonded)
    (commits : Commits c s action s' tx) {id : RunId} (solid : s.Solid id) :
    s'.db.Resting id ∨ s'.Solid id ∨ s'.Finishing id := by
  obtain ⟨job, stored, rfl, live, stays⟩ := solid
  have fixed := (tx.onJob_step job).fixed
  cases after : (tx.onJob job).live with
  | true =>
      by_cases left : ∃ v b, s'.Current v b (tx.onJob job) ∧ b.phase.leaving = true
      · obtain ⟨v, b, current, leaves⟩ := left
        have own : b.job.id = job.id := by
          rw [← fixed.1]
          exact (Table.key_of_find? current.2.1).symm
        rcases wakeful.leaving_step bonded commits stored stays current own leaves with
          rests | solid
        · exact .inl rests
        · exact .inr (.inl solid)
      · refine .inr (.inl ⟨tx.onJob job, ?_, fixed.2.1, after, fun v b current => ?_⟩)
        · rw [commits.db, fixed.1, Tx.find?_jobs, stored, rowAfter_some]
        · by_contra leaves
          exact left ⟨v, b, current, by simpa using leaves⟩
  | false =>
      obtain ⟨w, a, e, current, effected, reached, released⟩ :=
        wakeful.bonded.finishes commits stored live after
      have ofRun := (wakeful.bonded.bound current).2.1.run
      rcases released with ⟨status, at'⟩ | ⟨error, at'⟩ | ⟨error, at', exhausted⟩
      · have left := stays w a current
        rw [at'] at left
        contradiction
      · have ended := wakeful.concluded w a job current (by rw [at']; rfl)
        exact .inl (ofRun ▸ commits.db ▸ (ended.apply tx).resting)
      · refine .inr (.inr ⟨w, { a with phase := .setRetry error, leaseUntil := none }, error,
          reached.trans ?_, ofRun.symm, rfl, exhausted⟩)
        simp only [effect, Attempt.advance, at'] at effected
        cases effected
        rfl

theorem Wakeful.finishing_step (wakeful : s.Wakeful) (bonded : s'.Bonded)
    (allowed : failureFinishes s action) (commits : Commits c s action s' tx) {id : RunId}
    (finishing : s.Finishing id) : s'.db.Resting id ∨ s'.Solid id ∨ s'.Finishing id := by
  obtain ⟨w, a, error, busy, rfl, at', exhausted⟩ := finishing
  obtain ⟨row, current⟩ := wakeful.bonded.current busy (by rw [at']; rfl)
  obtain ⟨coherent, _, _⟩ := wakeful.bonded.bound current
  have stopped : a.heartbeat = .stopped := coherent.joined (by rw [at']; rfl)
  have stops {m : Move} (act : action = .work w m) (stops : m.stops = true) :
      s'.db.Resting a.job.runId ∨ s'.Solid a.job.runId ∨ s'.Finishing a.job.runId := by
    rcases wakeful.woken_step bonded commits (allowed w m a error act busy at' exhausted stops) with
      rests | solid
    · exact .inl rests
    · exact .inr (.inl solid)
  cases commits.before w a busy with
  | kept still => exact .inr (.inr ⟨w, a, error, still, rfl, at', exhausted⟩)
  | crashed => exact stops rfl rfl
  | @stepped m e effected reached db =>
      cases m with
      | raises => exact stops rfl rfl
      | advance =>
          obtain ⟨run, found⟩ := wakeful.bonded.run current
          simp only [effect, Attempt.advance, at'] at effected
          cases effected
          refine .inl (db ▸ .of_write rfl (.inl ?_) (by rw [found]; rfl))
          rw [exhausted]
          rfl
      | readClock | beat | beatRaises => simp [effect, Attempt.beat, stopped] at effected
      | handler | cancelHandler => simp [effect, Attempt.cancelHandler, at'] at effected
      | poll | claim | persist | crash => contradiction

theorem Wakeful.supported_step (wakeful : s.Wakeful) (bonded : s'.Bonded)
    (allowed : failureFinishes s action) (commits : Commits c s action s' tx) (id : RunId)
    (stored : (s'.db.runs.find? id).isSome = true) :
    s'.db.Resting id ∨ s'.Solid id ∨ s'.Finishing id := by
  cases before : s.db.runs.find? id with
  | some run =>
      rcases wakeful.supported id (by rw [before]; rfl) with rests | solid | finishing
      · rcases wakeful.woken_step bonded commits rests with rests | solid
        · exact .inl rests
        · exact .inr (.inl solid)
      · exact wakeful.solid_step bonded commits solid
      · exact wakeful.finishing_step bonded allowed commits finishing
  | none =>
      obtain ⟨run, stored⟩ := Option.isSome_iff_exists.mp stored
      rw [commits.db, Tx.find?_runs, before] at stored
      obtain ⟨_, found, _⟩ | ⟨_, inserted, rfl⟩ := rowAfter_cases stored
      · contradiction
      · have issued := commits.issued
        cases tx with
        | createRun new jobId now =>
            cases inserted
            exact .inr (.inl (wakeful.bonded.solid_new commits rfl issued.2.2 rfl))
        | _ => contradiction

theorem Wakeful.step (invariant : s.Wakeful) (allowed : wakeful s action)
    (step : Step c s action s') : s'.Wakeful := by
  obtain ⟨tx, commits⟩ := step.commits
  obtain ⟨fenced, paused, spared, finishes⟩ := allowed
  have bonded := invariant.bonded.step fenced step
  exact ⟨bonded, invariant.outcome_step commits, invariant.pending_step paused spared step commits,
    invariant.concluded_step commits, invariant.backed_step commits,
    invariant.supported_step bonded finishes commits⟩

theorem Wakeful.start (clock : Time) : (Sys.start clock).Wakeful where
  bonded :=
    { quiet := ⟨.start clock, fun _ _ displaced => by cases displaced.1⟩
      owned _ _ stored := by contradiction
      alone _ _ _ _ busy := by contradiction }
  outcome _ _ _ busy := by contradiction
  pending _ paused := by contradiction
  concluded _ _ _ current := by cases current.1
  backed _ _ _ current := by cases current.1
  supported _ stored := by contradiction

theorem wakeful_inductive (c : Config) : Inductive (system c) wakeful Wakeful where
  init s first := by
    obtain ⟨clock, rfl⟩ := first
    exact .start clock
  step _ _ _ invariant allowed stepped := invariant.step allowed (step_sound stepped)

/-- With no worker at work, the support of a run is a job or a pending approval. -/
theorem Wakeful.notStranded (wakeful : s.Wakeful) (quiescent : s.Quiescent) :
    s.db.NotStranded := by
  intro run member
  have stored : s.db.runs.find? run.id = some run := Table.mem_rows_iff.mp member
  refine ⟨fun awake => ?_, fun paused => ?_⟩
  · rcases wakeful.supported run.id (by rw [stored]; rfl) with rests | solid | finishing
    · obtain ⟨other, found, rests⟩ := rests
      rw [stored] at found
      cases found
      rcases rests with ended | paused <;> rcases awake with same | same <;>
        simp_all [RunStatus.terminal]
    · obtain ⟨job, found, ofRun, live, _⟩ := solid
      exact ⟨job, (Table.find?_eq_some.mp found).1, ofRun, live⟩
    · obtain ⟨w, _, _, busy, _⟩ := finishing
      rw [quiescent.1 w] at busy
      contradiction
  · exact .inr (wakeful.pending run.id (by simp [PausedRun, stored, paused]))

end Sys

/-- No run is stranded under the schedules in which a pause is recorded for a pending
approval, an expiry leaves one, a failure is reported to the end and a takeover is
noticed in time. -/
theorem runs_woken (c : Config) : RunsWoken c wakeful := by
  intro s reached quiescent
  exact ((Sys.wakeful_inductive c).reachable reached).notStranded quiescent

/-- A test for `wakeful` where only the workers in `ws` are at work. It refuses some of
the schedules that `wakeful` allows. -/
def wakefulCheck (ws : List WorkerId) (s : Sys) (action : Action) : Bool :=
  fencedCheck ws s action &&
    match action with
    | .work w (.handler .updateRun) =>
        (s.attempt? w).all fun a => decide (s.db.HasPending a.job.runId)
    | .request (.resolve id _ _ _ _) => (s.db.expires id s.clock).isNone
    | .work _ .crash | .work _ (.raises _) => false
    | _ => true

theorem wakefulCheck_checks (c : Config) (ws : List WorkerId) :
    Checks (system c) wakeful (Sys.IdleOutside ws) (wakefulCheck ws) where
  sound s action idle checked := by
    simp only [wakefulCheck, Bool.and_eq_true] at checked
    obtain ⟨fits, checked⟩ := checked
    refine ⟨(fencedCheck_checks c ws).sound s action idle fits, ?_, ?_, ?_⟩
    · rintro w a outcome rfl busy _ _
      simp only [busy, Option.all_some, decide_eq_true_eq] at checked
      exact .inl checked
    · rintro id status resolvedBy reason jobId approval rfl expires _
      simp [expires] at checked
    · rintro w m a error rfl _ _ _ stops
      cases m <;> contradiction
  kept s action t idle checked stepped := by
    simp only [wakefulCheck, Bool.and_eq_true] at checked
    exact (fencedCheck_checks c ws).kept s action t idle checked.1 stepped

theorem Sys.quiescent_of_idle {s : Sys} {w : WorkerId} (others : s.IdleOutside [w])
    (idle : (s.attempt? w).isNone = true) (silent : s.apiEvents.isEmpty = true) : s.Quiescent := by
  refine ⟨fun v => ?_, List.isEmpty_iff.mp silent⟩
  cases busy : s.attempt? v with
  | none => rfl
  | some a =>
      rw [List.mem_singleton.mp (others.mem busy)] at busy
      simp [busy] at idle

/-- A run that waits for its approval is not stranded. -/
theorem paused_run_waits :
    ∃ s, s.Quiescent ∧ Sys.PausedRun sampleRun s ∧ s.db.NotStranded := by
  obtain ⟨s, run, idle, paused, idle1, silent⟩ :=
    (wakefulCheck_checks sampleConfig ["w1"]).of_test (Sys.idleOutside_start _ 100)
      (samplePause ++ [.request (.append 0)])
      (fun s =>
        (s.db.runs.find? sampleRun).map RunRow.status = some .paused ∧
          (s.attempt? "w1").isNone = true ∧ s.apiEvents.isEmpty = true)
      (by decide)
  have quiescent := Sys.quiescent_of_idle idle idle1 silent
  exact ⟨s, quiescent, paused, runs_woken sampleConfig s ⟨_, _, ⟨100, rfl⟩, run⟩ quiescent⟩

/-- The approval is given after `create_pending` committed it and before `_update_run`
records the pause. -/
theorem approved_before_pause_stranded : ¬ RunsWoken sampleConfig anyStep := by
  obtain ⟨s, run, idle, stranded, idle1, silent⟩ :=
    (Sys.checks_within sampleConfig ["w1"] (G := anyStep) (fun _ _ => true)
      (fun _ _ _ => trivial)).of_test (Sys.idleOutside_start _ 100)
      (sampleGate ++ [sampleApprove] ++ sampleRecord ++ [.request (.append 0)])
      (fun s => ¬ s.db.NotStranded ∧ (s.attempt? "w1").isNone = true ∧ s.apiEvents.isEmpty = true)
      (by decide)
  intro woken
  exact stranded (woken s ⟨_, _, ⟨100, rfl⟩, run⟩ (Sys.quiescent_of_idle idle idle1 silent))

end AgentRuntime
