import AgentRuntime.Library.Programs
import AgentRuntime.Approvals
import AgentRuntime.Tools

/-! What the code of a graph asks of its surroundings: the model gateway, the callables of
the tools, the retriever, the approval table, the clock and the checkpointed thread. -/
namespace AgentRuntime
open Programs

/-- `LangGraphState`. A patch has the same channels; one it leaves out is empty. -/
structure GraphState where
  messages : List Dict := []
  data : Dict := []
  control : Dict := []
  runtime : Dict := []

/-- The reducers of the channels: `operator.add` for the messages, `_merge_dict` for the
others. -/
def GraphState.merge (left right : GraphState) : GraphState where
  messages := left.messages ++ right.messages
  data := left.data.merge right.data
  control := left.control.merge right.control
  runtime := left.runtime.merge right.runtime

/-- What the checkpointer stores of a thread between two nodes: the channels, and the node
that is next. -/
structure Checkpoint where
  state : GraphState
  next : Option NodeId

inductive ResponseSchema where
  | supervisorDecision
  | subagentDecision
  deriving DecidableEq

structure ModelRequest where
  model : String
  messages : List Dict
  responseSchema : Option ResponseSchema := none
  callId : Option String := none
  metadata : Dict := []

structure ModelResult where
  content : String := ""
  structured : Option Dict := none
  servedModel : Option String := none
  fallback : Bool := false
  error : Option NormalizedError := none

def ModelResult.success (result : ModelResult) : Bool := result.error.isNone

/-- How a callable ends. It may return a value that is no JSON, which `unwritable` says. -/
inductive CallResult where
  | returned (data : Json) (unwritable : Option String := none)
  | typeError (message : String)
  | raised (message : String)

def CallResult.toolResult : CallResult → ToolResult
  | .returned data unwritable => { ToolResult.ok [("result", data)] with unwritable := unwritable }
  | .typeError message => .fail .validationError message
  | .raised message => .fail .toolError message

/-- The result can be written as JSON. -/
def CallResult.writable (outcome : CallResult) : Prop := outcome.toolResult.unwritable = none

/-- From which control loop a tool is called. -/
inductive Site where
  | toolNode
  | subagent
  deriving DecidableEq

inductive Op where
  | cancelCheck (runId : String)
  | emit (type : EventType) (runId : String) (node : NodeId) (payload : Dict)
  | nonce
  | complete (request : ModelRequest)
  | invoke (site : Site) (name : String) (arguments : Dict)
  | retrieve (knowledgeBase query : Json)
  | now
  | createPending (action : PendingAction)
  | interrupt (raised : Interrupt)
  | checkpoint (stored : Checkpoint)

abbrev Op.Answer : Op → Type
  | .cancelCheck _ => Bool
  | .emit .. => Unit
  | .nonce => String
  | .complete _ => ModelResult
  | .invoke .. => CallResult
  | .retrieve .. => ToolResult
  | .now => Time
  | .createPending _ => ApprovalRow
  | .interrupt _ => Json
  | .checkpoint _ => Unit

/-- What leaves a node: an exception, or the interrupt that pauses the thread. -/
inductive Raised where
  | error (error : ExecError)
  | interrupt (raised : Interrupt)

abbrev GraphProg := Prog Op Op.Answer Raised
abbrev OpEntry := Programs.Entry Op Op.Answer Raised

namespace GraphProg

def fail {α : Type} (error : ExecError) : GraphProg α := .raise (.error error)

/-- The value of a computation that raises in place. -/
def ofExcept {α : Type} : Except ExecError α → GraphProg α
  | .ok value => pure value
  | .error error => fail error

def emit (type : EventType) (runId : String) (node : NodeId) (payload : Dict := []) :
    GraphProg Unit := Prog.request (Op.emit type runId node payload)

/-- `ModelRequest(model=model, ..)`, which accepts a string only, and the call. -/
def complete (py : Builtins) (model : Json) (messages : List Dict)
    (responseSchema : Option ResponseSchema) (callId : Option String) (metadata : Dict) :
    GraphProg ModelResult :=
  match model with
  | .str name => Prog.request (Op.complete ⟨name, messages, responseSchema, callId, metadata⟩)
  | value => fail (.other (py.invalid "ModelRequest" value))

end GraphProg

def ToolRegistry.ainvoke (py : Builtins) (registry : ToolRegistry) (site : Site) (name : Json)
    (arguments : Dict) : GraphProg ToolResult :=
  match registry.get py name with
  | .error error => GraphProg.fail error
  | .ok tool =>
      if !registry.scope.isAllowed py tool.name then
        GraphProg.fail
          (.toolPermission ("tool '" ++ tool.name ++ "' is not allowed by current scope"))
      else if !registry.callables.contains tool.name then
        pure (.fail .toolError ("no callable bound for tool '" ++ tool.name ++ "'"))
      else do
        let outcome : CallResult ← Prog.request (Op.invoke site tool.name arguments)
        return outcome.toolResult

end AgentRuntime
