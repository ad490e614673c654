import AgentRuntime.Runs

/-! The transactions of the system as data, and what each does to one stored row. -/
namespace AgentRuntime
open Tables

inductive Tx where
  | idle
  | createRun (new : NewRun) (jobId : JobId) (now : Time)
  | cancelRun (id : RunId)
  | resolveAndEnqueue (id : ApprovalId) (status : ApprovalStatus) (resolvedBy : String)
      (reason : Option String) (now : Time) (jobId : JobId)
  | enqueue (id : RunId) (jobId : JobId) (now : Time)
  | createPending (action : PendingAction) (id : ApprovalId)
  | claim (worker : WorkerId) (leaseSeconds : Nat) (now : Time) (id : JobId)
  | heartbeat (worker : WorkerId) (id : JobId) (leaseSeconds : Nat) (now : Time)
  | complete (worker : WorkerId) (id : JobId) (now : Time)
  | fail (worker : WorkerId) (id : JobId) (error : String) (retryDelaySeconds : Nat) (now : Time)
  | failWithoutRetry (worker : WorkerId) (id : JobId) (error : String) (now : Time)
  | setRunStatus (id : RunId) (status : RunStatus) (error : Option String)
  | updateRun (id : RunId) (status : RunStatus) (output : String) (error : Option String)
      (reason : String)
  | appendMany (id : RunId) (events : List RuntimeEvent)

def Tx.apply (py : Builtins) (db : Database) : Tx → Database
  | .idle => db
  | .createRun new jobId now => db.createRun new jobId now
  | .cancelRun id => db.cancelRun id
  | .resolveAndEnqueue id status resolvedBy reason now jobId =>
      db.resolveAndEnqueue id status resolvedBy reason now jobId
  | .enqueue id jobId now => db.enqueue id jobId now
  | .createPending action id => (db.createPending py action id).2
  | .claim worker leaseSeconds now id => db.claim worker leaseSeconds now id
  | .heartbeat worker id leaseSeconds now => (db.heartbeat worker id leaseSeconds now).2
  | .complete worker id now => db.complete worker id now
  | .fail worker id error retryDelaySeconds now => db.fail worker id error retryDelaySeconds now
  | .failWithoutRetry worker id error now => db.failWithoutRetry worker id error now
  | .setRunStatus id status error => db.setRunStatus id status error
  | .updateRun id status output error reason => db.updateRun id status output error reason
  | .appendMany id events => db.appendMany py id events


namespace Database

/-- The approval a resolution at `now` decides: it is still pending and not past its
expiry. -/
def decides (db : Database) (id : ApprovalId) (now : Time) : Option ApprovalRow :=
  (db.approvals.find? id).filter fun approval =>
    approval.status = .pending && !approval.expiresAt.any (· ≤ now)

/-- The approval a resolution at `now` finds expired. -/
def expires (db : Database) (id : ApprovalId) (now : Time) : Option ApprovalRow :=
  (db.approvals.find? id).filter fun approval =>
    approval.status = .pending && approval.expiresAt.any (· ≤ now)

/-- The paused run that a resolution at `now` puts back into the queue. -/
def wakes (db : Database) (id : ApprovalId) (now : Time) : Option RunRow :=
  (db.decides id now).bind fun approval =>
    (db.runs.find? approval.runId).filter fun run => run.status = .paused

end Database

namespace Tx

/-- What the transaction does to a stored run. -/
def onRun (db : Database) (run : RunRow) : Tx → RunRow
  | .cancelRun id =>
      if run.id = id && !run.status.terminal then { run with status := .cancelled } else run
  | .setRunStatus id status error =>
      if run.id = id && (!run.status.terminal || run.status = status) then
        { run with status := status, error := error }
      else run
  | .updateRun id status output error reason =>
      if run.id = id && (!run.status.terminal || run.status = status) then
        { run with
          status := status
          outputText := some output
          error := error
          terminationReason := some reason }
      else run
  | .resolveAndEnqueue id _ _ _ now _ =>
      if (db.wakes id now).any fun woken => run.id = woken.id then
        { run with status := .queued }
      else run
  | _ => run

def newRun : Tx → Option RunRow
  | .createRun new _ _ =>
      some
        { id := new.id
          status := .queued
          graphName := new.graphName
          graphSnapshot := some new.graphSnapshot
          modelDecision := some new.modelDecision
          inputText := new.inputText }
  | _ => none

def onJob (job : JobRow) : Tx → JobRow
  | .claim worker leaseSeconds now id =>
      if job.id = id then job.claimedBy worker leaseSeconds now else job
  | .heartbeat worker id leaseSeconds now =>
      if job.heldBy id worker && job.status = .running then
        { job with heartbeatAt := some now, leaseExpiresAt := some (now + leaseSeconds) }
      else job
  | .complete worker id now =>
      if job.heldBy id worker then
        { job with
          status := .completed
          finishedAt := some now
          leaseOwner := none
          leaseExpiresAt := none }
      else job
  | .fail worker id error retryDelaySeconds now =>
      if job.heldBy id worker then job.failedWith error retryDelaySeconds now else job
  | .failWithoutRetry worker id error now =>
      if job.heldBy id worker then
        { job with
          status := .failed
          error := some error
          finishedAt := some now
          leaseOwner := none
          leaseExpiresAt := none }
      else job
  | _ => job

def newJob (db : Database) : Tx → Option JobRow
  | .createRun new jobId now => some { id := jobId, runId := new.id, createdAt := now }
  | .enqueue id jobId now => some { id := jobId, runId := id, createdAt := now }
  | .resolveAndEnqueue id _ _ _ now jobId =>
      (db.wakes id now).map fun run => { id := jobId, runId := run.id, createdAt := now }
  | _ => none

def onApproval (db : Database) (approval : ApprovalRow) : Tx → ApprovalRow
  | .resolveAndEnqueue id status resolvedBy reason now _ =>
      if approval.id ≠ id then approval
      else if (db.expires id now).isSome then
        { approval with status := .expired, resolvedAt := some now }
      else if ((db.decides id now).bind fun found => db.runs.find? found.runId).isSome then
        { approval with
          status := status
          resolvedAt := some now
          resolvedBy := some resolvedBy
          reason := reason }
      else approval
  | _ => approval

def newApproval (py : Builtins) (db : Database) : Tx → Option ApprovalRow
  | .createPending action id =>
      if (db.approvalFor? action.actionId).isNone then some (action.row py id) else none
  | _ => none

end Tx

/-- A row that is stored after a transaction: an old row, rewritten, or a new one. -/
def rowAfter {ρ κ : Type} [Keyed ρ κ] [DecidableEq κ] (before : Option ρ) (rewrite : ρ → ρ)
    (new : Option ρ) (k : κ) : Option ρ :=
  (before.map rewrite).or (new.filter fun row => key row = k)

section Rows
variable {py : Builtins} {db : Database}

namespace Database

theorem wakes_eq_some {id : ApprovalId} {now : Time} {run : RunRow} :
    db.wakes id now = some run ↔ ∃ approval, db.approvals.find? id = some approval ∧
      approval.status = .pending ∧ approval.expiresAt.any (· ≤ now) = false ∧
      db.runs.find? approval.runId = some run ∧ run.status = .paused := by
  simp only [wakes, decides, Option.bind_eq_some_iff, Option.filter_eq_some_iff,
    Bool.and_eq_true, decide_eq_true_eq, Bool.not_eq_true']
  constructor
  · rintro ⟨approval, ⟨stored, pending, fresh⟩, found, paused⟩
    exact ⟨approval, stored, pending, fresh, found, paused⟩
  · rintro ⟨approval, stored, pending, fresh, found, paused⟩
    exact ⟨approval, ⟨stored, pending, fresh⟩, found, paused⟩

theorem wakes_stored {id : ApprovalId} {now : Time} {run : RunRow}
    (woken : db.wakes id now = some run) :
    db.runs.find? run.id = some run ∧ run.status = .paused := by
  obtain ⟨approval, _, _, _, stored, paused⟩ := wakes_eq_some.mp woken
  have same : run.id = approval.runId := Table.key_of_find? stored
  exact ⟨same ▸ stored, paused⟩

/-- The four ways a resolution ends: without effect, on an expired approval, on a run
that is not paused, and on a paused run. -/
theorem resolveAndEnqueue_cases (db : Database) (id : ApprovalId) (status : ApprovalStatus)
    (resolvedBy : String)
    (reason : Option String) (now : Time) (jobId : JobId) :
    let after := db.resolveAndEnqueue id status resolvedBy reason now jobId
    let decided := (db.decides id now).bind fun approval => db.runs.find? approval.runId
    (after = db ∧ db.expires id now = none ∧ decided = none ∧ db.wakes id now = none) ∨
    (after = db.expire id now ∧ (db.expires id now).isSome ∧ decided = none ∧
      db.wakes id now = none) ∨
    (after = db.resolve id status resolvedBy reason now ∧ db.expires id now = none ∧
      decided.isSome ∧ db.wakes id now = none) ∨
    (∃ run, after = (db.resolve id status resolvedBy reason now).requeue run.id jobId now ∧
      db.expires id now = none ∧ decided.isSome ∧ db.wakes id now = some run) := by
  unfold resolveAndEnqueue expires wakes decides
  cases stored : db.approvals.find? id with
  | none => exact .inl (by simp)
  | some approval =>
      by_cases pending : approval.status = .pending
      · cases expired : approval.expiresAt.any (· ≤ now) with
        | true => exact .inr (.inl (by simp [pending, expired]))
        | false =>
            cases found : db.runs.find? approval.runId with
            | none => exact .inl (by simp [pending, expired, found])
            | some run =>
                by_cases paused : run.status = .paused
                · exact .inr (.inr (.inr
                    ⟨run, by simp [Option.filter, pending, expired, found, paused]⟩))
                · exact .inr (.inr (.inl
                    (by simp [Option.filter, pending, expired, found, paused])))
      · exact .inl (by simp [pending])

end Database

section RowAfter
variable {ρ κ : Type} [Keyed ρ κ] [DecidableEq κ]

@[simp] theorem rowAfter_none (before : Option ρ) (rewrite : ρ → ρ) (k : κ) :
    rowAfter before rewrite none k = before.map rewrite := by
  simp [rowAfter]

theorem find?_insert_rowAfter (t : Table ρ) (row : ρ) (k : κ) :
    (t.insert row).find? k = rowAfter (t.find? k) (fun row => row) (some row) k := by
  rw [Table.find?_insert, rowAfter, Option.map_id']
  congr 1
  by_cases same : key row = k <;> simp [Option.filter, same]

theorem rowAfter_cases {before : Option ρ} {rewrite : ρ → ρ} {new : Option ρ} {k : κ} {found : ρ}
    (after : rowAfter before rewrite new k = some found) :
    (∃ row, before = some row ∧ found = rewrite row) ∨
      (before = none ∧ new = some found ∧ key found = k) := by
  cases before with
  | some row => exact .inl ⟨row, rfl, by simpa [rowAfter] using after.symm⟩
  | none =>
      have inserted : new.filter (fun row => key row = k) = some found := by
        simpa [rowAfter] using after
      rw [Option.filter_eq_some_iff] at inserted
      exact .inr ⟨rfl, inserted.1, by simpa using inserted.2⟩

theorem rowAfter_some {rewrite : ρ → ρ} {new : Option ρ} {k : κ} (row : ρ) :
    rowAfter (some row) rewrite new k = some (rewrite row) := rfl

end RowAfter

namespace Tx

theorem find?_runs (tx : Tx) (id : RunId) :
    (tx.apply py db).runs.find? id =
      rowAfter (db.runs.find? id) (fun run => tx.onRun db run) tx.newRun id := by
  cases tx with
  | createRun new jobId now => exact find?_insert_rowAfter _ _ _
  | resolveAndEnqueue aid status resolvedBy reason now jobId =>
      rcases db.resolveAndEnqueue_cases aid status resolvedBy reason now jobId with
        ⟨same, _, _, asleep⟩ | ⟨same, _, _, asleep⟩ | ⟨same, _, _, asleep⟩ |
          ⟨run, same, _, _, woken⟩
      all_goals simp only [Tx.apply, same, onRun, newRun, rowAfter_none]
      · simp [asleep]
      · simp [asleep, Database.expire]
      · simp [asleep, Database.resolve]
      · simp [woken, Database.resolve, Database.requeue]
  | createPending action aid =>
      simp only [Tx.apply, Database.createPending, onRun, newRun, rowAfter_none]
      split <;> simp
  | appendMany rid events =>
      simp [Tx.apply, onRun, newRun, (Database.appendMany_tables py db rid events).1]
  | cancelRun | setRunStatus | updateRun =>
      simp [Tx.apply, onRun, newRun, Database.cancelRun, Database.setRunStatus, Database.updateRun]
  | idle | enqueue | claim | heartbeat | complete | fail | failWithoutRetry =>
      simp [Tx.apply, onRun, newRun, Database.enqueue, Database.claim,
        Database.heartbeat, Database.complete, Database.fail, Database.failWithoutRetry]

theorem find?_jobs (tx : Tx) (id : JobId) :
    (tx.apply py db).jobs.find? id =
      rowAfter (db.jobs.find? id) (fun job => tx.onJob job) (tx.newJob db) id := by
  cases tx with
  | createRun new jobId now => exact find?_insert_rowAfter _ _ _
  | enqueue rid jobId now => exact find?_insert_rowAfter _ _ _
  | resolveAndEnqueue aid status resolvedBy reason now jobId =>
      rcases db.resolveAndEnqueue_cases aid status resolvedBy reason now jobId with
        ⟨same, _, _, asleep⟩ | ⟨same, _, _, asleep⟩ | ⟨same, _, _, asleep⟩ |
          ⟨run, same, _, _, woken⟩
      all_goals simp only [Tx.apply, same, onJob, newJob]
      · simp [asleep]
      · simp [asleep, Database.expire]
      · simp [asleep, Database.resolve]
      · simp only [woken, Database.resolve, Database.requeue, Option.map_some]
        exact find?_insert_rowAfter _ _ _
  | createPending action aid =>
      simp only [Tx.apply, Database.createPending, onJob, newJob, rowAfter_none]
      split <;> simp
  | appendMany rid events =>
      simp [Tx.apply, onJob, newJob, (Database.appendMany_tables py db rid events).2.1]
  | claim | heartbeat | complete | fail | failWithoutRetry =>
      simp [Tx.apply, onJob, newJob, Database.claim, Database.heartbeat, Database.complete,
        Database.fail, Database.failWithoutRetry]
  | idle | cancelRun | setRunStatus | updateRun =>
      simp [Tx.apply, onJob, newJob, Database.cancelRun, Database.setRunStatus, Database.updateRun]

theorem find?_approvals (tx : Tx) (id : ApprovalId) :
    (tx.apply py db).approvals.find? id =
      rowAfter (db.approvals.find? id) (fun approval => tx.onApproval db approval)
        (tx.newApproval py db) id := by
  cases tx with
  | resolveAndEnqueue aid status resolvedBy reason now jobId =>
      rcases db.resolveAndEnqueue_cases aid status resolvedBy reason now jobId with
        ⟨same, live, idle, _⟩ | ⟨same, dead, idle, _⟩ | ⟨same, live, decided, _⟩ |
          ⟨run, same, live, decided, _⟩
      all_goals simp only [Tx.apply, same, onApproval, newApproval, rowAfter_none]
      · simp [live, idle]
      · simp [dead, Database.expire]
      · simp [live, decided, Database.resolve]
      · simp [live, decided, Database.resolve, Database.requeue]
  | createPending action aid =>
      simp only [Tx.apply, Database.createPending, onApproval, newApproval]
      cases found : db.approvalFor? action.actionId with
      | some existing => simp
      | none => simpa using find?_insert_rowAfter _ _ _
  | appendMany rid events =>
      simp [Tx.apply, onApproval, newApproval, (Database.appendMany_tables py db rid events).2.2]
  | idle | createRun | cancelRun | enqueue | claim | heartbeat | complete | fail
  | failWithoutRetry | setRunStatus | updateRun =>
      simp [Tx.apply, onApproval, newApproval, Database.createRun, Database.cancelRun,
        Database.enqueue, Database.claim, Database.heartbeat, Database.complete, Database.fail,
        Database.failWithoutRetry, Database.setRunStatus, Database.updateRun]

/-- A transaction assigns the decision columns of a stored approval at most. -/
theorem onApproval_decision (tx : Tx) (db : Database) (approval : ApprovalRow) :
    ∃ status resolvedAt resolvedBy reason, tx.onApproval db approval =
      { approval with
        status := status
        resolvedAt := resolvedAt
        resolvedBy := resolvedBy
        reason := reason } := by
  cases tx with
  | resolveAndEnqueue id status resolvedBy reason now jobId =>
      simp only [onApproval]
      split
      · exact ⟨_, _, _, _, rfl⟩
      · split
        · exact ⟨_, _, _, _, rfl⟩
        · split <;> exact ⟨_, _, _, _, rfl⟩
  | idle | createRun | cancelRun | enqueue | createPending | claim | heartbeat | complete | fail
  | failWithoutRetry | setRunStatus | updateRun | appendMany => exact ⟨_, _, _, _, rfl⟩

/-- A decision is made once: a transaction leaves an approval that is not pending as it
is. -/
theorem onApproval_settled {db : Database} {approval : ApprovalRow} (tx : Tx)
    (stored : db.approvals.find? approval.id = some approval)
    (settled : approval.status ≠ .pending) : tx.onApproval db approval = approval := by
  cases tx with
  | resolveAndEnqueue id status resolvedBy reason now jobId =>
      simp only [onApproval]
      by_cases same : approval.id = id
      · subst same
        simp [Database.expires, Database.decides, stored, settled]
      · rw [if_pos same]
  | idle | createRun | cancelRun | enqueue | createPending | claim | heartbeat | complete | fail
  | failWithoutRetry | setRunStatus | updateRun | appendMany => rfl

/-- A new job is queued, with no attempt and no lease. -/
theorem newJob_eq {tx : Tx} {job : JobRow} (inserted : tx.newJob db = some job) :
    ∃ id runId now, job = { id := id, runId := runId, createdAt := now } := by
  cases tx with
  | createRun | enqueue => cases inserted; exact ⟨_, _, _, rfl⟩
  | resolveAndEnqueue =>
      obtain ⟨_, _, rfl⟩ := Option.map_eq_some_iff.mp inserted
      exact ⟨_, _, _, rfl⟩
  | _ => contradiction

/-- What a transaction does to a stored run. -/
inductive RunWrite (db : Database) (tx : Tx) (run : RunRow) : RunRow → Prop
  | kept : RunWrite db tx run run
  | cancelled : tx = .cancelRun run.id → run.status.terminal = false →
      RunWrite db tx run { run with status := .cancelled }
  | set (status error) : tx = .setRunStatus run.id status error →
      (run.status.terminal = true → run.status = status) →
      RunWrite db tx run { run with status := status, error := error }
  | updated (status output error reason) : tx = .updateRun run.id status output error reason →
      (run.status.terminal = true → run.status = status) →
      RunWrite db tx run
        { run with
          status := status
          outputText := some output
          error := error
          terminationReason := some reason }
  | requeued (id status resolvedBy reason now jobId woken) :
      tx = .resolveAndEnqueue id status resolvedBy reason now jobId →
      db.wakes id now = some woken → woken.id = run.id →
      RunWrite db tx run { run with status := .queued }

theorem onRun_write (tx : Tx) (db : Database) (run : RunRow) :
    RunWrite db tx run (tx.onRun db run) := by
  cases tx with
  | cancelRun id =>
      simp only [onRun]
      split
      next fits =>
        simp only [Bool.and_eq_true, decide_eq_true_eq, Bool.not_eq_true'] at fits
        exact .cancelled (by rw [fits.1]) fits.2
      next => exact .kept
  | setRunStatus id status error =>
      simp only [onRun]
      split
      next fits =>
        simp only [Bool.and_eq_true, Bool.or_eq_true, decide_eq_true_eq, Bool.not_eq_true'] at fits
        refine .set status error (by rw [fits.1]) fun terminal => fits.2.resolve_left ?_
        simp [terminal]
      next => exact .kept
  | updateRun id status output error reason =>
      simp only [onRun]
      split
      next fits =>
        simp only [Bool.and_eq_true, Bool.or_eq_true, decide_eq_true_eq, Bool.not_eq_true'] at fits
        refine .updated status output error reason (by rw [fits.1]) fun terminal =>
          fits.2.resolve_left ?_
        simp [terminal]
      next => exact .kept
  | resolveAndEnqueue id status resolvedBy reason now jobId =>
      simp only [onRun]
      split
      next wakes =>
        obtain ⟨woken, found, same⟩ := (Option.any_eq_true _ _).mp wakes
        exact .requeued id status resolvedBy reason now jobId woken rfl found
          (of_decide_eq_true same).symm
      next => exact .kept
  | idle | createRun | enqueue | createPending | claim | heartbeat | complete | fail
  | failWithoutRetry | appendMany => exact .kept

theorem RunWrite.input {tx : Tx} {run after : RunRow} (write : RunWrite db tx run after) :
    after.inputText = run.inputText := by
  cases write <;> rfl

/-- The input of a stored run is never written again. -/
theorem keeps_input (tx : Tx) {id : RunId} {run : RunRow} (stored : db.runs.find? id = some run) :
    ∃ after, (tx.apply py db).runs.find? id = some after ∧ after.inputText = run.inputText :=
  ⟨tx.onRun db run, by rw [find?_runs, stored, rowAfter_some], (tx.onRun_write db run).input⟩

theorem RunWrite.decision {tx : Tx} {run after : RunRow} (write : RunWrite db tx run after) :
    after.modelDecision = run.modelDecision := by
  cases write <;> rfl

variable (py) in
/-- No run is deleted. -/
theorem run_kept (tx : Tx) {id : RunId} (stored : (db.runs.find? id).isSome = true) :
    ((tx.apply py db).runs.find? id).isSome = true := by
  obtain ⟨run, found⟩ := Option.isSome_iff_exists.mp stored
  rw [find?_runs, found, rowAfter_some]
  rfl

variable (py) in
/-- The decision of a stored run is never written again. -/
theorem keeps_decision (tx : Tx) {id : RunId} {decision : Dict}
    (stored : (db.runs.find? id).bind RunRow.modelDecision = some decision) :
    ((tx.apply py db).runs.find? id).bind RunRow.modelDecision = some decision := by
  obtain ⟨run, found, own⟩ := Option.bind_eq_some_iff.mp stored
  rw [find?_runs, found, rowAfter_some]
  exact (tx.onRun_write db run).decision.trans own

theorem keeps_settled (tx : Tx) {id : ApprovalId} {approval : ApprovalRow}
    (stored : db.approvals.find? id = some approval) (settled : approval.status ≠ .pending) :
    (tx.apply py db).approvals.find? id = some approval := by
  have same : approval.id = id := Table.key_of_find? stored
  rw [find?_approvals, stored, rowAfter_some, tx.onApproval_settled (same ▸ stored) settled]

end Tx

namespace Database

theorem approvalFor?_eq_none {db : Database} {actionId : String} :
    db.approvalFor? actionId = none ↔ ∀ a ∈ db.approvals.rows, a.actionId ≠ actionId := by
  simp [approvalFor?, List.find?_eq_none]

/-- A stored approval after a transaction is an old one with the same action, or the
record `create_pending` inserted because there was none of the action. -/
theorem approval_after {py : Builtins} {db : Database} {tx : Tx} {a : ApprovalRow}
    (member : a ∈ (tx.apply py db).approvals.rows) :
    (∃ old ∈ db.approvals.rows, a = tx.onApproval db old ∧ a.id = old.id ∧
      a.actionId = old.actionId) ∨
      (tx.newApproval py db = some a ∧ ∀ old ∈ db.approvals.rows, old.actionId ≠ a.actionId) := by
  have stored := Table.mem_rows_iff.mp member
  rw [Tx.find?_approvals] at stored
  obtain ⟨old, before, same⟩ | ⟨_, inserted, _⟩ := rowAfter_cases stored
  · obtain ⟨_, _, _, _, decided⟩ := tx.onApproval_decision db old
    have among := (Table.find?_eq_some.mp before).1
    refine .inl ⟨old, among, same, ?_, ?_⟩ <;> rw [same, decided]
  · refine .inr ⟨inserted, ?_⟩
    cases tx with
    | createPending action id =>
        simp only [Tx.newApproval] at inserted
        split at inserted
        next absent =>
          cases inserted
          exact approvalFor?_eq_none.mp (Option.isNone_iff_eq_none.mp absent)
        next => contradiction
    | _ => contradiction

end Database
end Rows
end AgentRuntime
