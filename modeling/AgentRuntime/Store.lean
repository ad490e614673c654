import AgentRuntime.Library.Tables
import AgentRuntime.Schema

/-! The application tables. Columns that no modelled operation reads are left out. -/
namespace AgentRuntime
open Tables

/-- `RunModel`. -/
structure RunRow where
  id : RunId
  status : RunStatus
  graphName : String
  graphSnapshot : Option AgentDefinition
  modelDecision : Option Dict
  inputText : String
  outputText : Option String := none
  error : Option String := none
  terminationReason : Option String := none

/-- `JobModel`. -/
structure JobRow where
  id : JobId
  runId : RunId
  status : JobStatus := .queued
  leaseOwner : Option WorkerId := none
  leaseExpiresAt : Option Time := none
  heartbeatAt : Option Time := none
  attemptCount : Nat := 0
  maxAttempts : Nat := 3
  nextAttemptAt : Option Time := none
  claimedAt : Option Time := none
  finishedAt : Option Time := none
  error : Option String := none
  createdAt : Time
  deriving DecidableEq

/-- `ApprovalModel`. -/
structure ApprovalRow where
  id : ApprovalId
  runId : RunId
  nodeId : NodeId
  action : String
  actionId : String
  toolName : Option String
  canonicalArguments : Dict
  argumentsHash : String
  status : ApprovalStatus := .pending
  details : Dict
  resolvedAt : Option Time := none
  resolvedBy : Option String := none
  reason : Option String := none
  expiresAt : Option Time

/-- `RunEventModel`. -/
structure EventRow where
  seq : Nat
  runId : RunId
  type : EventType
  node : Option NodeId
  payload : Dict

instance : Keyed RunRow RunId := ⟨RunRow.id⟩
instance : Keyed JobRow JobId := ⟨JobRow.id⟩
instance : Keyed ApprovalRow ApprovalId := ⟨ApprovalRow.id⟩

structure Database where
  runs : Table RunRow
  jobs : Table JobRow
  approvals : Table ApprovalRow
  events : List EventRow

def Database.empty : Database := ⟨.empty, .empty, .empty, []⟩

@[simp] theorem key_run (run : RunRow) : key run = run.id := rfl
@[simp] theorem key_job (job : JobRow) : key job = job.id := rfl
@[simp] theorem key_approval (approval : ApprovalRow) : key approval = approval.id := rfl

/-- A job that some worker will still claim or is running. -/
def JobRow.live (job : JobRow) : Bool :=
  match job.status with
  | .queued | .retryWait | .running => true
  | .completed | .failed => false

end AgentRuntime
