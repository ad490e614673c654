import AgentRuntime.Graph
import AgentRuntime.Subagent

/-! The nodes of a graph: what each type reads from the channels, what it asks for and the
patch it returns. -/
namespace AgentRuntime
open Programs Tables

/-- `RuntimeDependencies`. Of the retriever, the approval repository and the cancel check
only their presence is kept; they answer through operations. -/
structure RuntimeDependencies where
  modelName : String
  toolRegistry : Option ToolRegistry := none
  retriever : Bool := false
  subagentExecutor : Option Executor := none
  approvalRepository : Bool := false
  cancelCheck : Bool := false

def RunId.ofText? (text : String) : Option RunId :=
  if canonical : text.length = 36 then some ⟨text, canonical⟩ else none

/-- `list(value)`. -/
def listOf (value : Json) : GraphProg (List Json) :=
  match value.toList with
  | some items => pure items
  | none => GraphProg.fail (.other (notIterable value))

def orEmpty (fields : Option Dict) : Dict := fields.getD []

namespace GraphState

/-- The patch that appends a result to a list in the data channel. -/
def appending (state : GraphState) (name : String) (result : Json) : GraphProg GraphState := do
  let existing ← listOf (state.data.getD name (.arr []))
  return { data := [(name, .arr (existing ++ [result]))] }

/-- `messages[-1].get("content", "")`, or the empty text. -/
def lastContent (state : GraphState) : Json :=
  match state.messages.getLast? with
  | some message => message.getD "content" (.str "")
  | none => .str ""

/-- `str(state.get("runtime", {}).get("run_id", "unknown"))`. -/
def runId (py : Builtins) (state : GraphState) : String :=
  (state.runtime.getD "run_id" (.str "unknown")).text py

def decision (py : Builtins) (state : GraphState) : Except ExecError SupervisorDecision :=
  match state.control.getD "supervisor_decision" .null with
  | .null => invalidGraph "capability invoked without SupervisorDecision"
  | raw => SupervisorDecision.validate py raw

end GraphState

section Model
variable (py : Builtins) (deps : RuntimeDependencies) (runId : String) (node : NodeDef)

/-- One call of the gateway from a node, between its events. -/
def askModel (messages : List Dict) (schema : Option ResponseSchema) :
    GraphProg (Dict × ModelResult) := do
  let model := node.config.getD "model" (.str deps.modelName)
  let nonce : String ← Prog.request Op.nonce
  let callId := runId ++ ":" ++ node.id ++ ":" ++ nonce
  let call : Dict := [("model", model), ("call_id", .str callId)]
  GraphProg.emit .llmRequested runId node.id call
  let result ← GraphProg.complete py model messages schema (some callId)
    [("run_id", .str runId), ("node_id", .str node.id), ("node_type", .str node.type.value)]
  return (call, result)

/-- The end of a model call that gave no usable result. -/
def failModel {α : Type} (call : Dict) (error : Option NormalizedError) (message : String)
    (category : ErrorCategory) (recoverable : Bool) : GraphProg α := do
  let category := error.elim category NormalizedError.category
  GraphProg.emit .llmFailed runId node.id (call ++ [("category", .str category.value)])
  GraphProg.fail (.modelCall (error.elim message NormalizedError.message) category recoverable)

def emitLlmDone (call : Dict) (result : ModelResult) : GraphProg Unit := do
  let payload := call ++
    [("served_model", .ofText result.servedModel), ("fallback", .bool result.fallback)]
  if result.fallback then
    GraphProg.emit .llmFallback runId node.id payload
  GraphProg.emit .llmCompleted runId node.id payload

def runLlm (state : GraphState) : GraphProg GraphState := do
  let prompt := (node.prompt.filter fun text => text ≠ "").toList
  let messages := prompt.map (Executor.message "system") ++ state.messages
  let (call, result) ← askModel py deps runId node messages none
  if result.success then
    emitLlmDone runId node call result
    return { messages := [Executor.message "assistant" result.content] }
  else
    failModel runId node call result.error "model call failed" .providerError
      (result.error.elim true NormalizedError.recoverable)

def SupervisorDecision.patch (decision : SupervisorDecision) : GraphState where
  control := [("supervisor_decision", .obj decision.dump)]
  data :=
    if decision.action = .final then
      [("final_response", .str (decision.finalResponse.getD ""))]
    else []

def runSupervisor (graph : CompiledGraph) (state : GraphState) : GraphProg GraphState := do
  let prompt := textOr node.prompt "Choose the next declared capability or return final."
  let recent := state.messages.drop (state.messages.length - 8)
  let (call, result) ← askModel py deps runId node (Executor.message "system" prompt :: recent)
    (some .supervisorDecision)
  match result.success, result.structured with
  | true, some structured =>
      emitLlmDone runId node call result
      let decision ← GraphProg.ofExcept (SupervisorDecision.validate py (.obj structured))
      GraphProg.ofExcept (graph.validateDecision decision)
      return decision.patch
  | _, _ =>
      failModel runId node call result.error "invalid supervisor response" .validationError false

end Model

/-- The function of a transform operation, looked up in a dictionary. -/
def transformOperation (py : Builtins) : Json → Except ExecError (String → String)
  | .str "upper" => .ok py.upper
  | .str "lower" => .ok py.lower
  | .str "strip" => .ok py.strip
  | other =>
      if other.hashable then invalidGraph ("unknown transform operation: " ++ other.text py)
      else .error (.other (unhashable other))

/-- `_run_transform`. A key of the data channel is a text. -/
def runTransform (py : Builtins) (node : NodeDef) (state : GraphState) :
    Except ExecError GraphState := do
  let value :=
    match node.config.getD "value" .null with
    | .null => state.lastContent
    | value => value
  let transform ← transformOperation py (node.config.getD "operation" (.str "strip"))
  let reference := node.config.getD "output_ref" (.str node.id)
  if reference.hashable then
    return { data := [(reference.text py, .str (transform (value.text py)))] }
  else .error (.other (unhashable reference))

section Gate
variable (py : Builtins) (deps : RuntimeDependencies) (runId : String) (node : NodeDef)

/-- The text of the decision in a resume value. -/
def decisionValue (resume : Json) : String :=
  match resume with
  | .obj fields => (Dict.getD fields "decision" (.str ApprovalStatus.rejected.value)).text py
  | value => value.text py

/-- `timedelta` holds the seconds, and the instant is one of the years 1 to 9999. The clock counts
from 1970. -/
def Expires (now : Time) (seconds : Int) : Prop :=
  (seconds / 86400).natAbs ≤ 999999999 ∧
    -62135596800 ≤ (now : Int) + seconds ∧ (now : Int) + seconds < 253402300800

instance (now : Time) (seconds : Int) : Decidable (Expires now seconds) :=
  inferInstanceAs (Decidable (_ ∧ _ ∧ _))

/-- The `OverflowError` of an expiry that is no instant. -/
def overflow (seconds : Int) : String :=
  let days := seconds / 86400
  if days < -2147483648 ∨ 2147483647 < days then "Python int too large to convert to C int"
  else if 999999999 < days.natAbs then
    "days=" ++ toString days ++ "; must have magnitude <= 999999999"
  else "date value out of range"

/-- `datetime.now(UTC) + timedelta(seconds=..)`. An instant before the origin of the clock is as
good as the origin. -/
def expiry (now : Time) (seconds : Int) : Except ExecError Time :=
  if Expires now seconds then .ok ((now : Int) + seconds).toNat
  else .error (.other (overflow seconds))

/-- `_require_approval`: the decision, the approval and its action. -/
def requireApproval (action : String) (toolName : Option String) (arguments : Dict) :
    GraphProg (String × ApprovalId × String) :=
  if !deps.approvalRepository then
    GraphProg.fail (.graphValidation "ApprovalRepository not configured")
  else
    let expiresIn := node.config.getD "expires_in" (.int 3600)
    match RunId.ofText? runId, expiresIn.toInt py with
    | some run, some seconds => do
        let now : Time ← Prog.request Op.now
        let expiresAt ← GraphProg.ofExcept (expiry now seconds)
        let pending := pendingAction py run node.id action toolName arguments expiresAt
        let approval : ApprovalRow ← Prog.request (Op.createPending pending)
        let resume : Json ← Prog.request (Op.interrupt (pending.interrupt py approval))
        return (decisionValue py resume, approval.id, pending.actionId)
    | _, none => GraphProg.fail (.other (py.invalid "int" expiresIn))
    | none, _ => GraphProg.fail (.other (py.invalid "ApprovalModel" (.str runId)))

/-- `_tool_requires_approval`: a tool that is not found raises no gate. -/
def toolRequiresApproval (registry : ToolRegistry) (name : Json) : Bool :=
  match registry.get py name with
  | .ok tool => tool.risk = .sensitive
  | .error _ => false

def callTool (registry : ToolRegistry) (name : Json) (arguments : Dict) :
    GraphProg ToolResult :=
  if toolRequiresApproval py registry name then do
    let (decision, _, _) ← requireApproval py deps runId node ("tool:" ++ name.text py)
      (some (name.text py)) arguments
    if decision = ApprovalStatus.approved.value then
      registry.ainvoke py .toolNode name arguments
    else
      return .fail .permissionDenied ("sensitive tool '" ++ name.text py ++ "' was not approved")
  else registry.ainvoke py .toolNode name arguments

def runTool (state : GraphState) : GraphProg GraphState :=
  match deps.toolRegistry with
  | none => GraphProg.fail (.graphValidation "ToolRegistry not configured")
  | some registry => do
      let decision ← GraphProg.ofExcept (state.decision py)
      let name := ((orEmpty decision.resource).getD "tool_name" .null).orElse
        (node.config.getD "tool" .null)
      if !name.truthy then
        GraphProg.fail (.graphValidation "Supervisor did not select a tool resource")
      else do
        GraphProg.emit .toolStarted runId node.id [("tool", name)]
        let result ← callTool py deps runId node registry name (orEmpty decision.input)
        GraphProg.emit .toolCompleted runId node.id
          [("tool", name), ("success", .bool result.success)]
        state.appending "tool_results" (.obj result.dump)

/-- The value of a nullable text column. -/
def textColumn (value : Json) : GraphProg (Option String) :=
  match value with
  | .null => pure none
  | .str text => pure (some text)
  | value => GraphProg.fail (.other (py.invalid "ApprovalModel" value))

def runApproval (state : GraphState) : GraphProg GraphState :=
  if !deps.approvalRepository then
    GraphProg.fail (.graphValidation "ApprovalRepository not configured")
  else do
    let decision ← GraphProg.ofExcept (state.decision py)
    let action := (node.config.getD "action" (.str decision.action.value)).text py
    let toolName ← textColumn py ((orEmpty decision.resource).getD "tool_name" .null)
    let (decided, approvalId, actionId) ←
      requireApproval py deps runId node action toolName (orEmpty decision.input)
    state.appending "approval_results" (.obj
      [("approval_id", .str approvalId), ("action_id", .str actionId),
        ("decision", .str decided)])

end Gate

section Capabilities
variable (py : Builtins) (deps : RuntimeDependencies) (runId : String) (node : NodeDef)

def runRag (state : GraphState) : GraphProg GraphState :=
  if !deps.retriever then GraphProg.fail (.rag "Retriever not configured")
  else do
    let decision ← GraphProg.ofExcept (state.decision py)
    let knowledgeBase := ((orEmpty decision.resource).getD "knowledge_base_id" .null).orElse
      (node.config.getD "knowledge_base_id" (.str ""))
    let asked := (orEmpty decision.input).getD "query" (.str "")
    let query := if asked.truthy || state.messages.isEmpty then asked else state.lastContent
    GraphProg.emit .ragStarted runId node.id
    let result : ToolResult ← Prog.request (Op.retrieve knowledgeBase query)
    GraphProg.emit .ragCompleted runId node.id [("success", .bool result.success)]
    state.appending "rag_results" (.obj result.dump)

def subagentTask (input : Dict) : GraphProg SubagentTask := do
  let context ← listOf (input.getD "selected_context" (.arr []))
  let allowed ← listOf (node.config.getD "allowed_tools" (.arr []))
  return {
    task := (input.getD "task" (node.config.getD "task" (.str ""))).text py
    selectedContext := context
    allowedTools := allowed
    expectedOutputSchema := node.config.getD "expected_output_schema" .null
    template := node.config.getD "template" (.str "react") }

def runSubagent (state : GraphState) : GraphProg GraphState :=
  match deps.subagentExecutor with
  | none => GraphProg.fail (.subagent "SubagentExecutor not configured")
  | some executor => do
      let decision ← GraphProg.ofExcept (state.decision py)
      let task ← subagentTask py node (orEmpty decision.input)
      GraphProg.emit .subagentStarted runId node.id
      let result ← executor.execute py task 0
      GraphProg.emit .subagentCompleted runId node.id [("status", .str result.status)]
      state.appending "subagent_results" (.obj result.dump)

end Capabilities

def runNode (py : Builtins) (graph : CompiledGraph) (deps : RuntimeDependencies) (runId : String)
    (node : NodeDef) (state : GraphState) : GraphProg GraphState :=
  match node.type with
  | .llm => runLlm py deps runId node state
  | .supervisor => runSupervisor py deps runId node graph state
  | .transform => GraphProg.ofExcept (runTransform py node state)
  | .tool => runTool py deps runId node state
  | .rag => runRag py deps runId node state
  | .subagent => runSubagent py deps runId node state
  | .approval => runApproval py deps runId node state

def checkCancelled (deps : RuntimeDependencies) (runId : String) (node : NodeDef) :
    GraphProg Unit :=
  if deps.cancelCheck then do
    let cancelled : Bool ← Prog.request (Op.cancelCheck runId)
    if cancelled then
      GraphProg.fail (.runCancelled ("run " ++ runId ++ " cancelled before node " ++ node.id))
  else pure ()

def makeNode (py : Builtins) (graph : CompiledGraph) (deps : RuntimeDependencies)
    (node : NodeDef) (state : GraphState) : GraphProg GraphState := do
  let runId := state.runId py
  checkCancelled deps runId node
  GraphProg.emit .nodeStarted runId node.id
  let patch ← runNode py graph deps runId node state
  GraphProg.emit .nodeCompleted runId node.id
  return patch

end AgentRuntime
