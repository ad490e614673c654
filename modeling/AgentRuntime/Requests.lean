import AgentRuntime.Library.Clearance
import AgentRuntime.Supersteps

/-! The names in what a node asks: the model of a request, the tool of a call and the knowledge
base of a retrieval, and where each of them comes from. What it asks is a part of its body. -/
namespace AgentRuntime
open Programs Clearance

/-- What the decision names under the key of its resource. -/
def SupervisorDecision.named (decision : SupervisorDecision) (key : String) : Json :=
  (orEmpty decision.resource).getD key .null

/-- The node has the dependency of its type. -/
def NodeDef.Configured (node : NodeDef) (deps : RuntimeDependencies) : Prop :=
  match node.type with
  | .tool => deps.toolRegistry ≠ none
  | .rag => deps.retriever = true
  | .subagent => deps.subagentExecutor ≠ none
  | _ => False

/-- The tool that a tool node selects: what the decision names, or else what is configured. -/
def NodeDef.SelectsTool (node : NodeDef) (py : Builtins) (deps : RuntimeDependencies)
    (state : GraphState) (name : Json) : Prop :=
  node.type = .tool ∧ node.Configured deps ∧ ∃ decision, state.decision py = .ok decision ∧
    name = (decision.named "tool_name").orElse (node.config.getD "tool" .null)

/-- The model, the tool or the knowledge base that the node names. -/
def NodeDef.Sends (node : NodeDef) (py : Builtins) (deps : RuntimeDependencies)
    (state : GraphState) : Op → Prop
  | .complete request =>
      match node.type with
      | .llm | .supervisor => node.config.getD "model" (.str deps.modelName) = .str request.model
      | .subagent =>
          ∃ executor, deps.subagentExecutor = some executor ∧ request.model = executor.model
      | _ => False
  | .retrieve knowledgeBase _ =>
      node.type = .rag ∧ node.Configured deps ∧ ∃ decision, state.decision py = .ok decision ∧
        knowledgeBase = (decision.named "knowledge_base_id").orElse
          (node.config.getD "knowledge_base_id" (.str ""))
  | .invoke .toolNode name _ => node.SelectsTool py deps state (.str name)
  | .emit .toolStarted _ _ payload =>
      ∃ name, payload = [("tool", name)] ∧ node.SelectsTool py deps state name
  | _ => True

/-- The body of a node begins with `node.started`, behind the cancel check. -/
def Op.role : Op → Role
  | .cancelCheck _ => .check
  | .emit .nodeStarted .. => .begins
  | .checkpoint _ => .between
  | _ => .inside

/-- The operations that no model, tool or knowledge base answers. -/
def Op.Bare : Op → Prop
  | .complete _ | .retrieve .. | .invoke .toolNode .. => False
  | _ => True

section Helpers
variable {py : Builtins} {deps : RuntimeDependencies} {runId : String} {node : NodeDef}
  {state : GraphState} {history : List OpEntry} {P : Op → Prop} {α : Type}

theorem ofExcept_within {β : Type} {result : Except ExecError α} {f : α → GraphProg β}
    (rest : ∀ value, result = .ok value → Within P (f value)) :
    Within P (GraphProg.ofExcept result >>= f) := by
  cases result with
  | ok value => exact rest value rfl
  | error error => exact .raise _

theorem computed_within (result : Except ExecError α) : Within P (GraphProg.ofExcept result) := by
  cases result with
  | ok value => exact .pure value
  | error error => exact .raise _

theorem emit_within (type : EventType) (payload : Dict) :
    Within Op.Bare (GraphProg.emit type runId node.id payload) := .request trivial

theorem listOf_within (value : Json) : Within P (listOf value) := by
  unfold listOf
  split
  · exact .pure _
  · exact .raise _

theorem appending_within (name : String) (result : Json) :
    Within P (state.appending name result) :=
  (listOf_within _).bind fun _ => .pure _

theorem emitLlmDone_within (emits : ∀ type payload, type ≠ .nodeStarted ∧ type ≠ .toolStarted →
      P (.emit type runId node.id payload)) (call : Dict) (result : ModelResult) :
    Within P (emitLlmDone runId node call result) := by
  have emitted (type : EventType) (other : type ≠ .nodeStarted ∧ type ≠ .toolStarted)
      (payload : Dict) :
      Within P (GraphProg.emit type runId node.id payload) := .request (emits type payload other)
  unfold emitLlmDone
  dsimp only
  split
  · exact (emitted _ (by simp) _).bind fun _ => emitted _ (by simp) _
  · exact emitted _ (by simp) _

theorem failModel_within (emits : ∀ type payload, type ≠ .nodeStarted ∧ type ≠ .toolStarted →
      P (.emit type runId node.id payload)) (call : Dict) (error : Option NormalizedError)
    (message : String) (category : ErrorCategory) (recoverable : Bool) :
    Within P (failModel runId node call error message category recoverable : GraphProg α) :=
  .bind (.request (emits _ _ (by simp))) fun _ => .raise _

theorem checkCancelled_within : Within Op.Bare (checkCancelled deps runId node) := by
  unfold checkCancelled
  split
  · refine .bind (.request trivial) fun cancelled => ?_
    split
    · exact .raise _
    · exact .pure _
  · exact .pure _

theorem requireApproval_within (now : P .now) (pending : ∀ row, P (.createPending row))
    (interrupt : ∀ raised, P (.interrupt raised)) (action : String) (toolName : Option String)
    (arguments : Dict) :
    Within P (requireApproval py deps runId node action toolName arguments) := by
  unfold requireApproval
  split
  · exact .raise _
  · dsimp only
    split
    · refine .bind (.request now) fun _ => ofExcept_within fun _ _ => ?_
      refine .bind (.request (pending _)) fun approval => ?_
      exact .bind (.request (interrupt _)) fun resume => .pure _
    · exact .raise _
    · exact .raise _

theorem ainvoke_within {registry : ToolRegistry} {site : Site} {name : Json} {arguments : Dict}
    (asks : ∀ tool, name = .str tool → P (.invoke site tool arguments)) :
    Within P (registry.ainvoke py site name arguments) := by
  intro history
  exact ainvoke_wp fun tool found _ => asks tool.name (ToolRegistry.get_ok found).1

end Helpers

section Subagent
variable {py : Builtins} {executor : Executor} {task : SubagentTask}

/-- A subagent sends every request to the model of its executor. -/
def Executor.Sends (executor : Executor) : Op → Prop
  | .complete request => request.model = executor.model
  | .invoke .subagent .. => True
  | _ => False

theorem react_within (remaining step : Nat) (messages : List Dict) :
    Within executor.Sends (executor.react py task remaining step messages) := by
  induction remaining generalizing step messages with
  | zero => exact .pure _
  | succ remaining ih =>
      simp only [Executor.react]
      refine .bind (.request rfl) fun response => ?_
      split
      next =>
        split
        next => exact .raise _
        next decision _ =>
          split
          next => exact .pure _
          next =>
            split
            next =>
              exact .bind (ainvoke_within fun _ _ => trivial) fun _ =>
                ofExcept_within fun _ _ => ih _ _
            next => exact .pure _
          next => exact .pure _
      next => exact .pure _

theorem execute_within (depth : Nat) :
    Within executor.Sends (executor.execute py task depth) := by
  unfold Executor.execute
  split
  next => exact .pure _
  next =>
    split
    next => exact .raise _
    next => exact .pure _
    next =>
      split
      next => exact .raise _
      next =>
        unfold Executor.start
        dsimp only
        split
        next =>
          refine .bind (.request rfl) fun plan => ?_
          split
          · exact react_within _ _ _
          · exact .pure _
        next => exact react_within _ _ _
      next => exact .pure _

end Subagent

section Nodes
variable {py : Builtins} {graph : CompiledGraph} {deps : RuntimeDependencies} {runId : String}
  {node : NodeDef} {state : GraphState} {P : Op → Prop}

variable (admits : ∀ op : Op, node.Sends py deps state op → op.role = .inside → P op)
include admits

theorem body_emits (type : EventType) (payload : Dict)
    (other : type ≠ .nodeStarted ∧ type ≠ .toolStarted) :
    P (.emit type runId node.id payload) := by
  obtain ⟨began, announced⟩ := other
  cases type with
  | nodeStarted | toolStarted => contradiction
  | _ => exact admits _ trivial rfl

theorem askModel_within (kind : node.type = .llm ∨ node.type = .supervisor)
    (messages : List Dict) (schema : Option ResponseSchema) :
    Within P (askModel py deps runId node messages schema) := by
  refine .bind (.request (admits _ trivial rfl)) fun nonce => ?_
  refine .bind (.request (admits _ trivial rfl)) fun _ => .bind ?_ fun _ => .pure _
  unfold GraphProg.complete
  split
  next name same =>
    refine .request (admits _ ?_ rfl)
    rcases kind with kind | kind <;> simpa only [NodeDef.Sends, kind] using same
  next => exact .raise _

theorem runLlm_within (kind : node.type = .llm) :
    Within P (runLlm py deps runId node state) := by
  refine .bind (askModel_within admits (.inl kind) _ _) fun ⟨call, result⟩ => ?_
  dsimp only
  split
  · exact .bind (emitLlmDone_within (body_emits admits) _ _) fun _ => .pure _
  · exact failModel_within (body_emits admits) _ _ _ _ _

theorem runSupervisor_within (kind : node.type = .supervisor) :
    Within P (runSupervisor py deps runId node graph state) := by
  refine .bind (askModel_within admits (.inr kind) _ _) fun ⟨call, result⟩ => ?_
  dsimp only
  split
  · refine .bind (emitLlmDone_within (body_emits admits) _ _) fun _ => ?_
    exact ofExcept_within fun _ _ => ofExcept_within fun _ _ => .pure _
  · exact failModel_within (body_emits admits) _ _ _ _ _

theorem gate_within (action : String) (toolName : Option String) (arguments : Dict) :
    Within P (requireApproval py deps runId node action toolName arguments) :=
  requireApproval_within (admits _ trivial rfl) (fun _ => admits _ trivial rfl)
    (fun _ => admits _ trivial rfl) _ _ _

theorem callTool_within {registry : ToolRegistry} {name : Json} {arguments : Dict}
    (asks : ∀ tool, name = .str tool →
      node.Sends py deps state (.invoke .toolNode tool arguments)) :
    Within P (callTool py deps runId node registry name arguments) := by
  have called : Within P (registry.ainvoke py .toolNode name arguments) :=
    ainvoke_within fun tool same => admits _ (asks tool same) rfl
  unfold callTool
  split
  · refine .bind (gate_within admits _ _ _) fun ⟨decided, _, _⟩ => ?_
    dsimp only
    split
    · exact called
    · exact .pure _
  · exact called

theorem runTool_within (kind : node.type = .tool) :
    Within P (runTool py deps runId node state) := by
  unfold runTool
  split
  next => exact .raise _
  next registry stored =>
    have configured : node.Configured deps := by
      simp only [NodeDef.Configured, kind, stored]
      exact Option.some_ne_none registry
    refine ofExcept_within fun decision decided => ?_
    dsimp only
    split
    · exact .raise _
    · have selected := (⟨kind, configured, decision, decided, rfl⟩ : node.SelectsTool py deps state _)
      refine .bind (.request (admits _ ⟨_, rfl, selected⟩ rfl)) fun _ => ?_
      refine .bind (callTool_within admits fun tool same => ?_) fun result => ?_
      · show node.SelectsTool py deps state (.str tool)
        rw [← same]
        exact selected
      exact .bind (.request (admits _ trivial rfl)) fun _ => appending_within _ _

theorem runRag_within (kind : node.type = .rag) :
    Within P (runRag py deps runId node state) := by
  unfold runRag
  split
  next => exact .raise _
  next stored =>
    have configured : node.Configured deps := by
      simp only [NodeDef.Configured, kind]
      simpa using stored
    refine ofExcept_within fun decision decided => ?_
    refine .bind (.request (admits _ trivial rfl)) fun _ => ?_
    refine .bind (.request (admits _ ⟨kind, configured, decision, decided, rfl⟩ rfl))
      fun result => ?_
    exact .bind (.request (admits _ trivial rfl)) fun _ => appending_within _ _

theorem runSubagent_within (kind : node.type = .subagent) :
    Within P (runSubagent py deps runId node state) := by
  unfold runSubagent
  split
  next => exact .raise _
  next executor configured =>
    refine ofExcept_within fun decision _ => .bind ?_ fun task => ?_
    · exact .bind (listOf_within _) fun _ => .bind (listOf_within _) fun _ => .pure _
    · have sends (op : Op) (sent : executor.Sends op) : P op := by
        cases op with
        | complete request =>
            refine admits _ ?_ rfl
            simp only [NodeDef.Sends, kind]
            exact ⟨executor, configured, sent⟩
        | invoke site name arguments =>
            cases site with
            | toolNode => exact sent.elim
            | subagent => exact admits _ trivial rfl
        | _ => exact sent.elim
      refine .bind (.request (admits _ trivial rfl)) fun _ => ?_
      refine .bind ((execute_within 0).mono sends) fun result => ?_
      exact .bind (.request (admits _ trivial rfl)) fun _ => appending_within _ _

theorem runApproval_within :
    Within P (runApproval py deps runId node state) := by
  unfold runApproval
  split
  · exact .raise _
  · refine ofExcept_within fun decision _ => .bind ?_ fun toolName => ?_
    · unfold textColumn
      split
      · exact .pure _
      · exact .pure _
      · exact .raise _
    · exact .bind (gate_within admits _ _ _) fun _ => appending_within _ _

/-- What the function of a node asks is a part of its body, and names what it may name. -/
theorem runNode_within :
    Within P (runNode py graph deps runId node state) := by
  unfold runNode
  split
  next kind => exact runLlm_within admits kind
  next kind => exact runSupervisor_within admits kind
  next => exact computed_within _
  next kind => exact runTool_within admits kind
  next kind => exact runRag_within admits kind
  next kind => exact runSubagent_within admits kind
  next => exact runApproval_within admits

omit admits in
theorem makeNode_within :
    Within (node.Sends py deps state) (makeNode py graph deps node state) := by
  have checked (runId : String) : Within (node.Sends py deps state)
      (checkCancelled deps runId node) := by
    unfold checkCancelled
    split
    · refine .bind (.request trivial) fun cancelled => ?_
      split
      · exact .raise _
      · exact .pure _
    · exact .pure _
  refine .bind (checked _) fun _ => .bind (.request trivial) fun _ => ?_
  refine .bind (runNode_within fun _ sends _ => sends) fun patch => ?_
  exact .bind (.request trivial) fun _ => .pure _

end Nodes

/-- What a node comes to ask names what its configuration, the decision and the dependencies say. -/
theorem Checkpoint.Asks.sends {c : RunConfig} {stored : Checkpoint} {node : NodeDef} {op : Op}
    (asks : stored.Asks c node op) : node.Sends c.py c.deps stored.state op :=
  (asks.obeys (makeNode_within [])).elim fun _ sends => sends

end AgentRuntime
