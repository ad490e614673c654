import AgentRuntime.Json

/-! Statuses, events and errors shared by the API, the worker and the graph. -/
namespace AgentRuntime

abbrev Time := Nat
abbrev JobId := String
abbrev ApprovalId := String
abbrev WorkerId := String
abbrev NodeId := String

/-- `str(uuid.uuid4())`. Run identifiers are embedded in action identifiers, where their
fixed length matters. -/
structure RunId where
  text : String
  canonical : text.length = 36
  deriving DecidableEq

def sampleRun : RunId := ⟨"5d3c4f0e-8b1a-4c7d-9e2f-0a1b2c3d4e5f", by decide⟩

inductive RunStatus where
  | queued
  | running
  | paused
  | completed
  | failed
  | cancelled
  deriving DecidableEq, Repr

/-- `TERMINAL_RUN_STATUSES`. -/
def RunStatus.terminal : RunStatus → Bool
  | .completed | .failed | .cancelled => true
  | .queued | .running | .paused => false

inductive JobStatus where
  | queued
  | running
  | retryWait
  | completed
  | failed
  deriving DecidableEq, Repr

inductive ApprovalStatus where
  | pending
  | approved
  | rejected
  | expired
  deriving DecidableEq, Repr

def ApprovalStatus.value : ApprovalStatus → String
  | .pending => "pending"
  | .approved => "approved"
  | .rejected => "rejected"
  | .expired => "expired"

inductive EventType where
  | runStarted
  | runAttemptFailed
  | modelResolved
  | llmRequested
  | llmCompleted
  | llmFailed
  | llmFallback
  | llmRetrying
  | nodeStarted
  | nodeCompleted
  | llmToken
  | toolStarted
  | toolCompleted
  | ragStarted
  | ragCompleted
  | subagentStarted
  | subagentCompleted
  | approvalRequired
  | checkpointCreated
  | runCompleted
  | runFailed
  | runCancelled
  deriving DecidableEq, Repr

def EventType.value : EventType → String
  | .runStarted => "run.started"
  | .runAttemptFailed => "run.attempt_failed"
  | .modelResolved => "model.resolved"
  | .llmRequested => "llm.requested"
  | .llmCompleted => "llm.completed"
  | .llmFailed => "llm.failed"
  | .llmFallback => "llm.fallback"
  | .llmRetrying => "llm.retrying"
  | .nodeStarted => "node.started"
  | .nodeCompleted => "node.completed"
  | .llmToken => "llm.token"
  | .toolStarted => "tool.started"
  | .toolCompleted => "tool.completed"
  | .ragStarted => "rag.started"
  | .ragCompleted => "rag.completed"
  | .subagentStarted => "subagent.started"
  | .subagentCompleted => "subagent.completed"
  | .approvalRequired => "approval.required"
  | .checkpointCreated => "checkpoint.created"
  | .runCompleted => "run.completed"
  | .runFailed => "run.failed"
  | .runCancelled => "run.cancelled"

/-- The types of the unique index `uq_run_terminal_event`. -/
def EventType.terminal : EventType → Bool
  | .runCompleted | .runFailed | .runCancelled => true
  | _ => false

/-- An emitted event. Its sequence number is allocated when it is stored. -/
structure RuntimeEvent where
  type : EventType
  runId : RunId
  node : Option NodeId := none
  payload : Dict := []

inductive ErrorCategory where
  | validationError
  | timeout
  | rateLimit
  | permissionDenied
  | providerError
  | toolError
  | ragError
  | subagentError
  | internalError
  | cancelled
  deriving DecidableEq, Repr

def ErrorCategory.value : ErrorCategory → String
  | .validationError => "validation_error"
  | .timeout => "timeout"
  | .rateLimit => "rate_limit"
  | .permissionDenied => "permission_denied"
  | .providerError => "provider_error"
  | .toolError => "tool_error"
  | .ragError => "rag_error"
  | .subagentError => "subagent_error"
  | .internalError => "internal_error"
  | .cancelled => "cancelled"

/-- The exceptions of an execution. `other` is any class that is not named here. -/
inductive ExecError where
  | runCancelled (message : String)
  | graphRecursion
  | modelCall (message : String) (category : ErrorCategory) (recoverable : Bool)
  | graphValidation (message : String)
  | toolNotFound (message : String)
  | toolPermission (message : String)
  | rag (message : String)
  | subagent (message : String)
  | other (message : String)

/-- `RunCancelledError`, which the cancel check in front of a node raises. -/
def ExecError.cancels : ExecError → Bool
  | .runCancelled _ => true
  | _ => false

/-- `value or default` on an optional text. -/
def textOr (text : Option String) (default : String) : String :=
  match text with
  | none => default
  | some text => if text = "" then default else text

theorem ApprovalStatus.value_injective {s t : ApprovalStatus} (same : s.value = t.value) :
    s = t := by
  cases s <;> cases t <;> first | rfl | exact absurd same (by decide)

end AgentRuntime
