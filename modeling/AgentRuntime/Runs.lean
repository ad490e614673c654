import Mathlib.Data.Prod.Lex
import Mathlib.Order.WithBot
import AgentRuntime.Approvals
import AgentRuntime.Queue
import AgentRuntime.Events

/-! The run manager's transactions, and the pure decisions between them: what an
execution resumes with, how it classifies a failure and what the job handler makes of
its outcome. -/
namespace AgentRuntime
open Tables

/-- The columns `create_run` fixes for the life of the run. -/
structure NewRun where
  id : RunId
  graphName : String
  graphSnapshot : AgentDefinition
  modelDecision : Dict
  inputText : String

/-- What `aresume` hands to the pending `interrupt`. -/
structure ResumeValue where
  decision : ApprovalStatus
  approvalId : ApprovalId
  actionId : String
  deriving DecidableEq

inductive Entry where
  | ainvoke
  | aresume (value : ResumeValue)
  deriving DecidableEq

/-- What `execute_run_sync` decides from its read of the run. -/
inductive Admission where
  | notFound
  | pausedWithoutApproval
  | enter (entry : Entry)
  deriving DecidableEq

/-- The locals `status`, `output`, `error` and `termination_reason` of an attempt. -/
structure Outcome where
  status : RunStatus
  output : String := ""
  error : Option String := none
  terminationReason : String
  deriving DecidableEq

inductive HandlerResult where
  | returned (status : RunStatus)
  | raised (message : String)
  | notRetryable (message : String)
  deriving DecidableEq

/-- `_classify_failure`. Only the transient categories keep the recoverable mark. -/
def classifyFailure : ExecError → Outcome
  | .runCancelled message => ⟨.cancelled, "", some message, "cancelled"⟩
  | .graphRecursion =>
      ⟨.failed, "", some "recursion limit reached: max_steps exceeded", "max_steps"⟩
  | .modelCall message category recoverable =>
      if category = .timeout ∨ category = .rateLimit then
        ⟨.failed, "", some message,
          if recoverable then "model_error:recoverable" else "model_error:fatal"⟩
      else ⟨.failed, "", some message, "model_error"⟩
  | .graphValidation message | .toolNotFound message | .toolPermission message | .rag message
  | .subagent message | .other message => ⟨.failed, "", some message, "error"⟩

def executionIsRetryable (terminationReason : String) : Bool :=
  terminationReason = "error" || terminationReason = "model_error:recoverable"

def persistedAttemptStatus (outcome : Outcome) : RunStatus :=
  if outcome.status = .failed && executionIsRetryable outcome.terminationReason then .queued
  else outcome.status

/-- The end of `execute_job`, from the outcome of `execute_run_sync`. -/
def handlerResult (outcome : Outcome) : HandlerResult :=
  if outcome.status = .failed then
    if executionIsRetryable outcome.terminationReason then
      .raised (textOr outcome.error "run execution failed")
    else
      .notRetryable
        (outcome.terminationReason ++ ": " ++ textOr outcome.error "deterministic failure")
  else .returned outcome.status

def completedOutcome (output : String) : Outcome :=
  ⟨.completed, output, none, "supervisor_final"⟩

def pausedOutcome : Outcome := ⟨.paused, "", none, "approval_required"⟩

namespace Database

/-- The transaction of `create_run`: the run and its job. -/
def createRun (db : Database) (new : NewRun) (jobId : JobId) (now : Time) : Database :=
  { db with
    runs := db.runs.insert
      { id := new.id
        status := .queued
        graphName := new.graphName
        graphSnapshot := some new.graphSnapshot
        modelDecision := some new.modelDecision
        inputText := new.inputText }
    jobs := db.jobs.insert { id := jobId, runId := new.id, createdAt := now } }

/-- `cancel_run` under the row lock: a terminal run is immutable (409). -/
def cancelRun (db : Database) (id : RunId) : Database :=
  { db with
    runs := db.runs.updateWhere (fun run => run.id = id && !run.status.terminal) fun run =>
      { run with status := .cancelled } }

/-- `_update_run`: neither resurrects nor overwrites another terminal status. -/
def updateRun (db : Database) (id : RunId) (status : RunStatus) (output : String)
    (error : Option String) (reason : String) : Database :=
  { db with
    runs := db.runs.updateWhere
      (fun run => run.id = id && (!run.status.terminal || run.status = status))
      fun run =>
        { run with
          status := status
          outputText := some output
          error := error
          terminationReason := some reason } }

/-- Whether the approval carries a decision of the run. -/
def resolvedFor (id : RunId) (approval : ApprovalRow) : Bool :=
  approval.runId = id && (approval.status = .approved || approval.status = .rejected)

/-- `resolved_at`, where a null sorts last in ascending order. -/
def resolutionRank (approval : ApprovalRow) : WithTop Time :=
  approval.resolvedAt.elim ⊤ WithTop.some

/-- `ORDER BY resolved_at DESC LIMIT 1` over the decisions of the run; `ties` is the
order in which the database returns rows of equal rank. -/
def latestResolved (db : Database) (id : RunId) (ties : ApprovalRow → Nat) : Option ApprovalRow :=
  firstBy (resolvedFor id)
    (fun approval => toLex (OrderDual.toDual (resolutionRank approval), ties approval))
    db.approvals.rows

/-- The first transaction of `execute_run_sync`. -/
def admission (db : Database) (id : RunId) (ties : ApprovalRow → Nat) : Admission :=
  match db.runs.find? id with
  | none => .notFound
  | some run =>
      if run.status = .paused then
        match db.latestResolved id ties with
        | some approval => .enter (.aresume ⟨approval.status, approval.id, approval.actionId⟩)
        | none => .pausedWithoutApproval
      else .enter .ainvoke

theorem admission_cases (db : Database) (id : RunId) (ties : ApprovalRow → Nat) :
    (db.admission id ties = .notFound ∧ db.runs.find? id = none) ∨
      (db.admission id ties = .pausedWithoutApproval ∧
        ∃ run, db.runs.find? id = some run ∧ run.status = .paused) ∨
      ∃ entry, db.admission id ties = .enter entry := by
  unfold admission
  cases stored : db.runs.find? id with
  | none => exact .inl ⟨rfl, rfl⟩
  | some run =>
      by_cases paused : run.status = .paused
      · simp only [if_pos paused]
        cases db.latestResolved id ties with
        | none => exact .inr (.inl ⟨rfl, run, rfl, paused⟩)
        | some approval => exact .inr (.inr ⟨_, rfl⟩)
      · simp only [if_neg paused]
        exact .inr (.inr ⟨_, rfl⟩)

/-- An execution resumes exactly a paused run that has a decision, with the newest one. -/
theorem admission_eq_aresume {db : Database} {id : RunId} {ties : ApprovalRow → Nat}
    {value : ResumeValue} :
    db.admission id ties = .enter (.aresume value) ↔
      (db.runs.find? id).map RunRow.status = some .paused ∧
        ∃ approval, db.latestResolved id ties = some approval ∧
          value = ⟨approval.status, approval.id, approval.actionId⟩ := by
  unfold admission
  cases db.runs.find? id with
  | none => simp
  | some run =>
      by_cases paused : run.status = .paused
      · cases db.latestResolved id ties with
        | none => simp [paused]
        | some approval => simp [paused, eq_comm]
      · simp [paused]

theorem latestResolved_stored {db : Database} {id : RunId} {ties : ApprovalRow → Nat}
    {approval : ApprovalRow} (latest : db.latestResolved id ties = some approval) :
    db.approvals.find? approval.id = some approval ∧ resolvedFor id approval = true := by
  obtain ⟨member, resolved⟩ := firstBy_mem latest
  exact ⟨Table.mem_rows_iff.mp member, resolved⟩

end Database
end AgentRuntime
