import Mathlib.Data.List.Perm.Subperm
import AgentRuntime.Delivery

/-! The resolution of approvals. The first request that finds an approval pending decides it,
and the decision is never written again; the job of a decision is inserted by the transaction
that takes the run from paused to queued. -/
namespace AgentRuntime
open Machines Tables

/-- What `resolve_and_enqueue` returns: the row of the approval as its transaction leaves
it. -/
def Database.response (db : Database) (id : ApprovalId) (status : ApprovalStatus)
    (resolvedBy : String) (reason : Option String) (now : Time) (jobId : JobId) :
    Option ApprovalRow :=
  (db.resolveAndEnqueue id status resolvedBy reason now jobId).approvals.find? id

/-- The jobs a step inserts. -/
def insertedJobs (s t : Sys) : List JobRow :=
  t.db.jobs.rows.filter fun job => (s.db.jobs.find? job.id).isNone

def Action.resolves (id : ApprovalId) : Action → Bool
  | .request (.resolve other _ _ _ _) => other = id
  | _ => false

/-- The jobs that the requests on the approval insert along a schedule. -/
def causedJobs (c : Config) (id : ApprovalId) : Sys → List Action → List JobRow
  | _, [] => []
  | s, action :: actions =>
      match s.step c action with
      | none => []
      | some t =>
          (if action.resolves id then insertedJobs s t else []) ++ causedJobs c id t actions

/-- The request that settles a pending approval, and the row it leaves. -/
inductive Settles (s : Sys) (approval : ApprovalRow) : Action → ApprovalRow → Prop
  | decided (status : ApprovalStatus) (resolvedBy : String) (reason : Option String)
      (jobId : JobId) : (status = .approved ∨ status = .rejected) →
      approval.expiresAt.any (· ≤ s.clock) = false →
      Settles s approval (.request (.resolve approval.id status resolvedBy reason jobId))
        { approval with
          status := status
          resolvedAt := some s.clock
          resolvedBy := some resolvedBy
          reason := reason }
  | expired (status : ApprovalStatus) (resolvedBy : String) (reason : Option String)
      (jobId : JobId) : approval.expiresAt.any (· ≤ s.clock) = true →
      Settles s approval (.request (.resolve approval.id status resolvedBy reason jobId))
        { approval with status := .expired, resolvedAt := some s.clock }

/-- The step decides the approval and puts its paused run back into the queue, with the
job. -/
structure Requeues (s t : Sys) (id : ApprovalId) (job : JobRow) : Prop where
  pending : (s.db.approvals.find? id).map ApprovalRow.status = some .pending
  decided : ∃ approval, t.db.approvals.find? id = some approval ∧
    (approval.status = .approved ∨ approval.status = .rejected) ∧ approval.runId = job.runId
  paused : (s.db.runs.find? job.runId).map RunRow.status = some .paused
  queued : (t.db.runs.find? job.runId).map RunRow.status = some .queued
  waiting : job.status = .queued

/-- A settled approval is stored as it is, and is what every request on it returns. -/
def Sys.Settled (s : Sys) (id : ApprovalId) (approval : ApprovalRow) : Prop :=
  s.db.approvals.find? id = some approval ∧
    ∀ status resolvedBy reason now jobId,
      s.db.response id status resolvedBy reason now jobId = some approval

section Steps
variable {c : Config} {s t u : Sys} {action : Action} {tx : Tx} {id : ApprovalId}
  {approval : ApprovalRow}

theorem Database.response_settled (py : Builtins) {db : Database}
    (stored : db.approvals.find? id = some approval) (settled : approval.status ≠ .pending)
    (status : ApprovalStatus) (resolvedBy : String) (reason : Option String) (now : Time)
    (jobId : JobId) : db.response id status resolvedBy reason now jobId = some approval := by
  have kept : (Tx.apply py db _).approvals.find? id = some approval :=
    (Tx.resolveAndEnqueue id status resolvedBy reason now jobId).keeps_settled stored settled
  exact kept

theorem settled_step (step : Sys.Step c s action t)
    (stored : s.db.approvals.find? id = some approval) (settled : approval.status ≠ .pending) :
    t.db.approvals.find? id = some approval := by
  obtain ⟨tx, commits⟩ := step.commits
  rw [commits.db]
  exact tx.keeps_settled stored settled

theorem settled_run {actions : List Action} (run : Run (system c) anyStep s actions u)
    (stored : s.db.approvals.find? id = some approval) (settled : approval.status ≠ .pending) :
    u.db.approvals.find? id = some approval :=
  run.invariant (I := fun s => s.db.approvals.find? id = some approval)
    (fun _ _ _ stored _ stepped => settled_step (Sys.step_sound stepped) stored settled) stored

theorem ApprovalRow.expiry_eq_false {now : Time} (live : s.db.expires id now = none)
    (stored : s.db.approvals.find? id = some approval) (pending : approval.status = .pending) :
    approval.expiresAt.any (· ≤ now) = false := by
  simpa [Database.expires, stored, pending] using live

/-- A step leaves a pending approval as it is, or is the request that settles it. -/
theorem pending_step (step : Sys.Step c s action t)
    (stored : s.db.approvals.find? id = some approval) (pending : approval.status = .pending) :
    t.db.approvals.find? id = some approval ∨
      ∃ settled, t.db.approvals.find? id = some settled ∧ Settles s approval action settled := by
  obtain ⟨tx, commits⟩ := step.commits
  have key : approval.id = id := Table.key_of_find? stored
  subst key
  have after : t.db.approvals.find? approval.id = some (tx.onApproval s.db approval) := by
    rw [commits.db, Tx.find?_approvals, stored, rowAfter_some]
  rw [after]
  cases tx with
  | resolveAndEnqueue other status resolvedBy reason now jobId =>
      obtain ⟨rfl, rfl⟩ := commits.resolves rfl
      by_cases same : approval.id = other
      · subst same
        simp only [Tx.onApproval, ne_eq, not_true_eq_false, if_false]
        split
        next dead =>
          refine .inr ⟨_, rfl, .expired status resolvedBy reason jobId ?_⟩
          simpa [Database.expires, stored, pending] using dead
        next live =>
          split
          next decided =>
            refine .inr ⟨_, rfl, .decided status resolvedBy reason jobId commits.issued.2.1 ?_⟩
            exact ApprovalRow.expiry_eq_false (Option.not_isSome_iff_eq_none.mp live) stored pending
          next => exact .inl rfl
      · exact .inl (by simp only [Tx.onApproval, ne_eq, same, not_false_eq_true, if_true])
  | idle | createRun | cancelRun | enqueue | createPending | claim | heartbeat | complete | fail
  | failWithoutRetry | setRunStatus | updateRun | appendMany => exact .inl rfl

/-- A new approval is pending. -/
theorem new_pending (step : Sys.Step c s action t) (absent : s.db.approvals.find? id = none)
    (stored : t.db.approvals.find? id = some approval) : approval.status = .pending := by
  obtain ⟨tx, commits⟩ := step.commits
  rw [commits.db, Tx.find?_approvals, absent] at stored
  obtain ⟨_, before, _⟩ | ⟨_, inserted, _⟩ := rowAfter_cases stored
  · contradiction
  · cases tx with
    | createPending pending other =>
        simp only [Tx.newApproval] at inserted
        split at inserted
        next => cases inserted; rfl
        next => contradiction
    | _ => contradiction

theorem Sys.Commits.inserted (commits : Sys.Commits c s action t tx) {job : JobRow}
    (member : job ∈ insertedJobs s t) : tx.newJob s.db = some job := by
  obtain ⟨stored, absent⟩ := List.mem_filter.mp member
  have stored := Table.mem_rows_iff.mp stored
  rw [commits.db, key_job, Tx.find?_jobs, Option.isNone_iff_eq_none.mp absent] at stored
  obtain ⟨_, before, _⟩ | ⟨_, inserted, _⟩ := rowAfter_cases stored
  · contradiction
  · exact inserted

/-- A step inserts one job at most. -/
theorem insertedJobs_length (step : Sys.Step c s action t) : (insertedJobs s t).length ≤ 1 := by
  obtain ⟨tx, commits⟩ := step.commits
  have distinct : (insertedJobs s t).Nodup := (List.Nodup.of_map _ t.db.jobs.unique).filter _
  cases new : tx.newJob s.db with
  | none =>
      have empty : insertedJobs s t = [] := by
        refine List.eq_nil_iff_forall_not_mem.mpr fun job member => ?_
        rw [commits.inserted member] at new
        contradiction
      simp [empty]
  | some job =>
      have among : insertedJobs s t ⊆ [job] := by
        intro other member
        have inserted := commits.inserted member
        rw [new] at inserted
        cases inserted
        exact List.mem_singleton_self _
      exact (List.subperm_of_subset distinct among).length_le

theorem requeues_of_inserted (step : Sys.Step c s action t) (resolves : action.resolves id = true)
    {job : JobRow} (member : job ∈ insertedJobs s t) : Requeues s t id job := by
  obtain ⟨tx, commits⟩ := step.commits
  have inserted := commits.inserted member
  obtain ⟨r, rfl, rfl⟩ := commits.newJob_request inserted
  cases r with
  | resolve other status resolvedBy reason jobId =>
      have same : other = id := by simpa [Action.resolves] using resolves
      subst same
      obtain ⟨run, woken, rfl⟩ := Option.map_eq_some_iff.mp inserted
      obtain ⟨approval, stored, pending, fresh, found, paused⟩ := Database.wakes_eq_some.mp woken
      have key : approval.id = other := Table.key_of_find? stored
      have runKey : run.id = approval.runId := Table.key_of_find? found
      have decides : s.db.decides other s.clock = some approval := by
        simp [Database.decides, Option.filter, stored, pending, fresh]
      have live : s.db.expires other s.clock = none := by
        simp [Database.expires, Option.filter, stored, fresh]
      refine ⟨by simp [stored, pending], ?_, by simp [runKey, found, paused], ?_, rfl⟩
      · refine ⟨_, by rw [commits.db, Tx.find?_approvals, stored, rowAfter_some], ?_⟩
        simpa [Request.tx, Tx.onApproval, key, live, decides, found, runKey] using
          commits.issued.2.1
      · rw [commits.db, Tx.find?_runs, (Database.wakes_stored woken).1, rowAfter_some]
        simp [Request.tx, Tx.onRun, woken]
  | createRun | cancelRun | enqueue | append | abandon => contradiction

/-- No request on a settled approval inserts a job. -/
theorem causedJobs_settled {actions : List Action} (run : Run (system c) anyStep s actions u)
    (stored : s.db.approvals.find? id = some approval) (settled : approval.status ≠ .pending) :
    causedJobs c id s actions = [] := by
  induction run with
  | nil => rfl
  | @cons s action t actions u _ stepped _ ih =>
      have step := Sys.step_sound stepped
      simp only [causedJobs]
      rw [show s.step c action = some t from stepped]
      dsimp only
      rw [ih (settled_step step stored settled), List.append_nil]
      split
      next resolves =>
        refine List.eq_nil_iff_forall_not_mem.mpr fun job member => ?_
        have pending := (requeues_of_inserted step resolves member).pending
        rw [stored] at pending
        exact settled (Option.some.inj pending)
      next => rfl

theorem causedJobs_length {actions : List Action} (run : Run (system c) anyStep s actions u) :
    (causedJobs c id s actions).length ≤ 1 := by
  induction run with
  | nil => exact Nat.zero_le _
  | @cons s action t actions u _ stepped rest ih =>
      have step := Sys.step_sound stepped
      simp only [causedJobs]
      rw [show s.step c action = some t from stepped]
      dsimp only
      split
      next resolves =>
        cases inserted : insertedJobs s t with
        | nil => exact ih
        | cons job others =>
            have requeues := requeues_of_inserted step resolves (inserted ▸ List.mem_cons_self)
            obtain ⟨approval, stored, decided, _⟩ := requeues.decided
            have settled : approval.status ≠ .pending := by
              rcases decided with approved | rejected
              · rw [approved]; simp
              · rw [rejected]; simp
            rw [causedJobs_settled rest stored settled, List.append_nil, ← inserted]
            exact insertedJobs_length step
      next => exact ih

/-- The run of an attempt, and the run of an approval, are stored. -/
structure Sys.Housed (s : Sys) : Prop where
  attempts : ∀ w a, s.attempt? w = some a → (s.db.runs.find? a.job.runId).isSome = true
  approvals : ∀ id approval, s.db.approvals.find? id = some approval →
    (s.db.runs.find? approval.runId).isSome = true

theorem Sys.Commits.run_kept (commits : Sys.Commits c s action t tx) {id : RunId}
    (found : (s.db.runs.find? id).isSome = true) : (t.db.runs.find? id).isSome = true := by
  rw [commits.db]
  exact tx.run_kept c.py found

/-- `create_pending` runs inside an attempt of the run. -/
theorem Sys.Commits.newApproval_run (commits : Sys.Commits c s action t tx) {approval : ApprovalRow}
    (inserted : tx.newApproval c.py s.db = some approval) :
    ∃ w a, s.attempt? w = some a ∧ approval.runId = a.job.runId := by
  cases commits.origin with
  | idle | persist | claim => contradiction
  | request r =>
      cases r with
      | append position =>
          simp only [Request.tx] at inserted
          split at inserted <;> contradiction
      | createRun | cancelRun | resolve | enqueue | abandon => contradiction
  | @work w m a e busy effected =>
      have issues := Sys.effect_issues effected
      revert issues inserted
      generalize e.tx = tx
      intro inserted issues
      cases issues with
      | createPending =>
          simp only [Tx.newApproval] at inserted
          split at inserted
          next => cases inserted; exact ⟨w, a, busy, rfl⟩
          next => contradiction
      | _ => contradiction

theorem Sys.Housed.step (housed : s.Housed) (step : Sys.Step c s action t) : t.Housed := by
  obtain ⟨tx, commits⟩ := step.commits
  refine ⟨fun w b busy => commits.run_kept ?_, fun id approval stored => commits.run_kept ?_⟩
  · cases commits.after w b busy with
    | kept before => exact housed.attempts w b before
    | stepped before effected after =>
        rw [(Sys.effect_lease effected).job after]
        exact housed.attempts w _ before
    | claimed _ found fresh =>
        obtain ⟨_, run, stored, _⟩ := Sys.claimCandidate_sound found
        subst fresh
        simp [JobRow.claimedBy, stored]
  · rw [commits.db, Tx.find?_approvals] at stored
    obtain ⟨old, before, rfl⟩ | ⟨_, inserted, _⟩ := rowAfter_cases stored
    · obtain ⟨_, _, _, _, same⟩ := tx.onApproval_decision s.db old
      rw [same]
      exact housed.approvals id old before
    · obtain ⟨w, a, busy, same⟩ := commits.newApproval_run inserted
      rw [same]
      exact housed.attempts w a busy

theorem housed_inductive (c : Config) : Inductive (system c) anyStep Sys.Housed where
  init s first := by
    obtain ⟨clock, rfl⟩ := first
    refine ⟨fun w a busy => ?_, fun id approval stored => ?_⟩ <;> contradiction
  step _ _ _ housed _ stepped := housed.step (Sys.step_sound stepped)

/-- A request settles the approval that it finds pending. -/
theorem Sys.Housed.settles (housed : s.Housed) {status : ApprovalStatus} {resolvedBy : String}
    {reason : Option String} {jobId : JobId}
    (step : Sys.Step c s (.request (.resolve id status resolvedBy reason jobId)) t)
    (stored : s.db.approvals.find? id = some approval) (pending : approval.status = .pending) :
    ∃ settled, t.db.approvals.find? id = some settled ∧
      Settles s approval (.request (.resolve id status resolvedBy reason jobId)) settled := by
  have key : approval.id = id := Table.key_of_find? stored
  subst key
  obtain ⟨run, found⟩ := Option.isSome_iff_exists.mp (housed.approvals _ approval stored)
  cases step with
  | request r events issued =>
      dsimp only
      rw [Tx.find?_approvals, stored, rowAfter_some]
      refine ⟨_, rfl, ?_⟩
      simp only [Request.tx, Tx.onApproval, ne_eq, not_true_eq_false, if_false]
      cases expired : approval.expiresAt.any (· ≤ s.clock) with
      | true =>
          rw [if_pos (by simp [Database.expires, Option.filter, stored, pending, expired])]
          exact .expired status resolvedBy reason jobId expired
      | false =>
          rw [if_neg (by simp [Database.expires, Option.filter, stored, expired]),
            if_pos (by simp [Database.decides, Option.filter, stored, pending, expired, found])]
          exact .decided status resolvedBy reason jobId issued.2.1 expired

end Steps

/-- An approval is settled by the first request that finds it pending, for good, and is the
cause of one job at most, inserted by the transaction that requeues its paused run. -/
theorem approval_resolved_once (c : Config) (id : ApprovalId) :
    (∀ s actions u, Run (system c) anyStep s actions u →
      (causedJobs c id s actions).length ≤ 1 ∧
      ∀ approval, s.db.approvals.find? id = some approval → approval.status ≠ .pending →
        u.Settled id approval) ∧
    (∀ s action t, (system c).step s action = some t →
      (∀ approval, s.db.approvals.find? id = some approval → approval.status = .pending →
        t.db.approvals.find? id = some approval ∨
          ∃ settled, t.db.approvals.find? id = some settled ∧
            Settles s approval action settled) ∧
      (∀ approval, s.db.approvals.find? id = none → t.db.approvals.find? id = some approval →
        approval.status = .pending) ∧
      (action.resolves id = true → ∀ job ∈ insertedJobs s t, Requeues s t id job)) ∧
    ∀ s status resolvedBy reason jobId t approval, Reachable (system c) anyStep s →
      (system c).step s (.request (.resolve id status resolvedBy reason jobId)) = some t →
      s.db.approvals.find? id = some approval → approval.status = .pending →
      ∃ settled, t.db.approvals.find? id = some settled ∧
        Settles s approval (.request (.resolve id status resolvedBy reason jobId)) settled := by
  refine ⟨fun s actions u run => ⟨causedJobs_length run, ?_⟩, fun s action t stepped => ?_, ?_⟩
  · intro approval stored settled
    have kept := settled_run run stored settled
    exact ⟨kept, Database.response_settled c.py kept settled⟩
  · have step := Sys.step_sound stepped
    exact ⟨fun approval stored pending => pending_step step stored pending,
      fun approval absent stored => new_pending step absent stored,
      fun resolves job member => requeues_of_inserted step resolves member⟩
  · intro s status resolvedBy reason jobId t approval reached stepped stored pending
    exact ((housed_inductive c).reachable reached).settles (Sys.step_sound stepped) stored pending

section Sample

def sampleReject : Action := .request (.resolve "approval" .rejected "auditor" none "other")

/-- The rejection comes after the approval, and returns it. -/
theorem rejection_returns_approval :
    ∃ s u approval, Run (system sampleConfig) anyStep s [sampleReject] u ∧
      approval.status = .approved ∧ approval.resolvedBy = some "operator" ∧
      u.Settled "approval" approval := by
  obtain ⟨s, _, approved, served⟩ := Run.of_test (M := system sampleConfig) (.start 100)
    (samplePause ++ [sampleApprove])
    (fun s =>
      ((s.db.approvals.find? "approval").any fun approval =>
        approval.status = .approved && approval.resolvedBy = some "operator") = true ∧
      (s.step sampleConfig sampleReject).isSome = true) (by decide)
  obtain ⟨approval, stored, decided⟩ := (Option.any_eq_true _ _).mp approved
  simp only [Bool.and_eq_true, decide_eq_true_eq] at decided
  obtain ⟨u, stepped⟩ := Option.isSome_iff_exists.mp served
  have run : Run (system sampleConfig) anyStep s [sampleReject] u := .single trivial stepped
  refine ⟨s, u, approval, run, decided.1, decided.2, ?_⟩
  exact ((approval_resolved_once sampleConfig "approval").1 s _ u run).2 approval stored
    (by simp [decided.1])

end Sample
end AgentRuntime
