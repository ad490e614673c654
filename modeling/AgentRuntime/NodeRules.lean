import AgentRuntime.Nodes

/-! What a node may ask and what it may return: one rule for each type of node, from the
rules of the functions it is made of. -/
namespace AgentRuntime
open Programs Tables

def Site.registry (deps : RuntimeDependencies) : Site → Option ToolRegistry
  | .toolNode => deps.toolRegistry
  | .subagent => deps.subagentExecutor.map Executor.toolRegistry

def RuntimeDependencies.sensitive (deps : RuntimeDependencies) (site : Site) (name : String) :
    Bool := (site.registry deps).any fun registry => registry.isSensitive name

/-- The last thing that was asked is an interrupt for exactly this call, and the decision it
was resumed with is an approval. -/
def ApprovedCall (py : Builtins) (name : String) (arguments : Dict) (history : List OpEntry) :
    Prop :=
  ∃ before raised resume, history = before ++ [⟨.interrupt raised, .answered resume⟩] ∧
    raised.toolName = some name ∧ raised.arguments = arguments ∧
    decisionValue py resume = ApprovalStatus.approved.value

/-- A subagent with this template and allowlist gets to call the tool. -/
structure Executor.Opens (executor : Executor) (py : Builtins) (template : Json)
    (allowed : List Json) (name : String) : Prop where
  steps : 0 < executor.maxSteps
  template : template = .str "react" ∨ template = .str "planner_react"
  known : executor.unknownTools allowed = .ok []
  allowed : Json.str name ∈ allowed
  named : name ≠ ""
  found : (executor.toolRegistry.tools.find? name).isSome
  callable : executor.toolRegistry.callable py name

/-- A node of type subagent whose configuration opens the tool. -/
def NodeDef.Opens (node : NodeDef) (py : Builtins) (deps : RuntimeDependencies) (name : String) :
    Prop :=
  node.type = .subagent ∧ ∃ executor items, deps.subagentExecutor = some executor ∧
    (node.config.getD "allowed_tools" (.arr [])).toList = some items ∧
    executor.Opens py (node.config.getD "template" (.str "react")) items name

/-- The node is a capability, and the control channel holds a decision for it. -/
def NodeDef.Decided (node : NodeDef) (py : Builtins) (state : GraphState) : Prop :=
  node.type.capability ∧ ∃ decision, state.decision py = .ok decision

/-- A configuration with which a node outside the capabilities can return. -/
def NodeDef.Passable (node : NodeDef) (py : Builtins) (deps : RuntimeDependencies) : Prop :=
  match node.type with
  | .llm | .supervisor => ∃ name, node.config.getD "model" (.str deps.modelName) = .str name
  | .transform =>
      (∃ transform, transformOperation py (node.config.getD "operation" (.str "strip")) =
        .ok transform) ∧ (node.config.getD "output_ref" (.str node.id)).hashable
  | _ => False

/-- The operations that neither reach the approvals, nor a tool, nor the checkpointer. -/
def Op.Plain : Op → Prop
  | .createPending _ | .interrupt _ | .invoke .. | .checkpoint _ => False
  | _ => True

/-- What a node may ask after what was asked before. -/
def NodeRule (py : Builtins) (deps : RuntimeDependencies) (node : NodeDef) (state : GraphState)
    (history : List OpEntry) : Op → Prop
  | .checkpoint _ => False
  | .invoke .toolNode name arguments =>
      node.Decided py state ∧
        (deps.sensitive .toolNode name → ApprovedCall py name arguments history)
  | .invoke .subagent name _ => node.Decided py state ∧ node.Opens py deps name
  | .createPending _ | .interrupt _ => node.Decided py state
  | _ => True

/-- What a node may return. -/
structure Patched (py : Builtins) (deps : RuntimeDependencies) (node : NodeDef)
    (state patch : GraphState) : Prop where
  messages : ∀ m ∈ patch.messages, ∃ content, m = Executor.message "assistant" content
  control : patch.control = [] ∨ node.type = .supervisor
  able : node.Decided py state ∨ node.Passable py deps

theorem Op.Plain.rule {py : Builtins} {deps : RuntimeDependencies} {node : NodeDef}
    {state : GraphState} {history : List OpEntry} {op : Op} (plain : op.Plain) :
    NodeRule py deps node state history op := by
  cases op <;> trivial

section Helpers
variable {py : Builtins} {deps : RuntimeDependencies} {runId : String} {node : NodeDef}
  {state : GraphState} {history : List OpEntry} {P : List OpEntry → Op → Prop} {α : Type}

theorem emit_wp (type : EventType) (payload : Dict) :
    wp (fun _ op => op.Plain) (fun _ _ => True) history
      (GraphProg.emit type runId node.id payload) := ⟨trivial, fun _ => trivial⟩

theorem ofExcept_wp (result : Except ExecError α) :
    wp P (fun after value => after = history ∧ result = .ok value) history
      (GraphProg.ofExcept result) := by
  cases result with
  | ok value => exact ⟨rfl, rfl⟩
  | error error => trivial

theorem appending_wp (name : String) (result : Json) :
    wp P (fun _ patch => patch.messages = [] ∧ patch.control = []) history
      (state.appending name result) := by
  unfold GraphState.appending listOf
  cases (state.data.getD name (.arr [])).toList with
  | some items => exact ⟨rfl, rfl⟩
  | none => trivial

theorem askModel_wp (messages : List Dict) (schema : Option ResponseSchema) :
    wp (fun _ op => op.Plain)
      (fun _ _ => ∃ name, node.config.getD "model" (.str deps.modelName) = .str name) history
      (askModel py deps runId node messages schema) := by
  refine ⟨trivial, fun nonce => ⟨trivial, fun _ => ?_⟩⟩
  unfold GraphProg.complete
  split
  next name same => exact ⟨trivial, fun result => ⟨name, same⟩⟩
  next => trivial

theorem emitLlmDone_wp (call : Dict) (result : ModelResult) :
    wp (fun _ op => op.Plain) (fun _ _ => True) history
      (emitLlmDone runId node call result) := by
  unfold emitLlmDone
  split
  · exact ⟨trivial, fun _ => ⟨trivial, fun _ => trivial⟩⟩
  · exact ⟨trivial, fun _ => trivial⟩

theorem failModel_wp {Q : List OpEntry → α → Prop} (call : Dict)
    (error : Option NormalizedError) (message : String) (category : ErrorCategory)
    (recoverable : Bool) :
    wp (fun _ op => op.Plain) Q history
      (failModel runId node call error message category recoverable) :=
  ⟨trivial, fun _ => trivial⟩

theorem ainvoke_wp {registry : ToolRegistry} {site : Site} {name : Json} {arguments : Dict}
    (allowed : ∀ tool, registry.get py name = .ok tool → registry.callable py tool.name →
      P history (.invoke site tool.name arguments)) :
    wp P (fun _ _ => True) history (registry.ainvoke py site name arguments) := by
  unfold ToolRegistry.ainvoke
  split
  next => trivial
  next tool found =>
    split
    next => trivial
    next inScope =>
      split
      next => trivial
      next bound =>
        refine ⟨allowed tool found ?_, fun _ => trivial⟩
        simp only [Bool.not_eq_true', Bool.not_eq_false] at inScope bound
        rw [ToolRegistry.callable, inScope, bound]
        rfl

/-- Before a gate returns, the interrupt for its action has been answered. -/
theorem requireApproval_wp {action : String} {toolName : Option String} {arguments : Dict}
    (plain : ∀ history op, op.Plain → P history op)
    (records : ∀ history pending, P history (.createPending pending))
    (interrupts : ∀ history raised, P history (.interrupt raised)) :
    wp P (fun after result => ∃ before raised resume,
        after = before ++ [⟨.interrupt raised, .answered resume⟩] ∧ raised.toolName = toolName ∧
        raised.arguments = arguments ∧ result.1 = decisionValue py resume) history
      (requireApproval py deps runId node action toolName arguments) := by
  unfold requireApproval
  split
  · trivial
  · dsimp only
    split
    next run seconds _ _ =>
      refine wp_request_seq (plain _ _ trivial) fun now => ?_
      refine wp_seq (ofExcept_wp _) fun _ expiresAt _ => ?_
      exact ⟨records _ _, fun approval => ⟨interrupts _ _, fun resume =>
        ⟨_, _, resume, rfl, rfl, rfl, rfl⟩⟩⟩
    next => trivial
    next => trivial

end Helpers

section Nodes
variable {py : Builtins} {deps : RuntimeDependencies} {runId : String} {node : NodeDef}
  {state : GraphState} {history : List OpEntry} {α : Type}

theorem plain_wp {Q : List OpEntry → α → Prop} {p : GraphProg α}
    (plain : wp (fun _ op => op.Plain) Q history p) :
    wp (NodeRule py deps node state) Q history p :=
  wp_mono (fun _ _ plain => plain.rule) (fun _ _ returned => returned) plain

theorem runLlm_wp (kind : node.type = .llm) :
    wp (NodeRule py deps node state) (fun _ patch => Patched py deps node state patch) history
      (runLlm py deps runId node state) := by
  unfold runLlm
  refine wp_seq (plain_wp (askModel_wp _ _)) ?_
  rintro after ⟨call, result⟩ usable
  dsimp only
  split
  · refine wp_seq (plain_wp (emitLlmDone_wp call result)) fun _ _ _ => ?_
    refine ⟨fun m member => ⟨_, List.mem_singleton.mp member⟩, .inl rfl, .inr ?_⟩
    simpa only [NodeDef.Passable, kind] using usable
  · exact plain_wp (failModel_wp _ _ _ _ _)

theorem runSupervisor_wp {graph : CompiledGraph} (kind : node.type = .supervisor) :
    wp (NodeRule py deps node state) (fun _ patch => Patched py deps node state patch) history
      (runSupervisor py deps runId node graph state) := by
  unfold runSupervisor
  refine wp_seq (plain_wp (askModel_wp _ _)) ?_
  rintro after ⟨call, result⟩ usable
  dsimp only
  split
  · refine wp_seq (plain_wp (emitLlmDone_wp call result)) fun _ _ _ => ?_
    refine wp_seq (ofExcept_wp _) fun _ decision _ => wp_seq (ofExcept_wp _) fun _ _ _ => ?_
    refine ⟨fun m member => absurd member List.not_mem_nil, .inr kind, .inr ?_⟩
    simpa only [NodeDef.Passable, kind] using usable
  · exact plain_wp (failModel_wp _ _ _ _ _)

/-- A transform returns one text under its key. -/
theorem runTransform_ok {patch : GraphState} (returned : runTransform py node state = .ok patch) :
    (∃ transform, transformOperation py (node.config.getD "operation" (.str "strip")) =
        .ok transform) ∧
      (node.config.getD "output_ref" (.str node.id)).hashable ∧
      ∃ text, patch =
        { data := [((node.config.getD "output_ref" (.str node.id)).text py, .str text)] } := by
  unfold runTransform at returned
  cases known : transformOperation py (node.config.getD "operation" (.str "strip")) with
  | error error =>
      rw [known] at returned
      contradiction
  | ok transform =>
      rw [known] at returned
      dsimp only [bind, Except.bind] at returned
      split at returned
      next hashable =>
        cases returned
        exact ⟨⟨transform, rfl⟩, hashable, _, rfl⟩
      next => contradiction

theorem runTransform_wp (kind : node.type = .transform) :
    wp (NodeRule py deps node state) (fun _ patch => Patched py deps node state patch) history
      (GraphProg.ofExcept (runTransform py node state)) := by
  refine wp_mono (fun _ _ rule => rule) ?_ (ofExcept_wp _)
  rintro after patch ⟨_, returned⟩
  obtain ⟨known, hashable, text, rfl⟩ := runTransform_ok returned
  refine ⟨fun m member => absurd member List.not_mem_nil, .inl rfl, .inr ?_⟩
  simp only [NodeDef.Passable, kind]
  exact ⟨known, hashable⟩

theorem appended_wp (decided : node.Decided py state) (name : String) (result : Json) :
    wp (NodeRule py deps node state) (fun _ patch => Patched py deps node state patch) history
      (state.appending name result) := by
  refine wp_mono (fun _ _ rule => rule) ?_ (appending_wp name result)
  rintro after patch ⟨messages, control⟩
  refine ⟨fun m member => ?_, .inl control, .inl decided⟩
  rw [messages] at member
  contradiction

theorem gate_wp (decided : node.Decided py state) {action : String} {toolName : Option String}
    {arguments : Dict} :
    wp (NodeRule py deps node state) (fun after result => ∃ before raised resume,
        after = before ++ [⟨.interrupt raised, .answered resume⟩] ∧ raised.toolName = toolName ∧
        raised.arguments = arguments ∧ result.1 = decisionValue py resume) history
      (requireApproval py deps runId node action toolName arguments) :=
  requireApproval_wp (fun _ _ plain => plain.rule) (fun _ _ => decided) fun _ _ => decided

/-- The branches of the call of a tool node: behind the gate, with an approval for just this
call, and for a tool that is not sensitive. -/
theorem callTool_wp {registry : ToolRegistry} (configured : deps.toolRegistry = some registry)
    (decided : node.Decided py state) (name : Json) (arguments : Dict) :
    wp (NodeRule py deps node state) (fun _ _ => True) history
      (callTool py deps runId node registry name arguments) := by
  unfold callTool
  split
  next =>
    refine wp_seq (gate_wp decided) ?_
    rintro after ⟨decision, approvalId, actionId⟩ ⟨before, raised, resume, rfl, tool, args, same⟩
    dsimp only
    split
    next approved =>
      refine ainvoke_wp fun toolDef found _ => ⟨decided, fun _ => ?_⟩
      have named := (ToolRegistry.get_ok found).1
      refine ⟨before, raised, resume, rfl, ?_, args, same.symm.trans approved⟩
      rw [tool, named]
      rfl
    next => trivial
  next ungated =>
    refine ainvoke_wp fun toolDef found _ => ⟨decided, fun sensitive => absurd ?_ ungated⟩
    have stored := (ToolRegistry.get_ok found).2
    simpa [RuntimeDependencies.sensitive, Site.registry, configured, ToolRegistry.isSensitive,
      stored, toolRequiresApproval, found] using sensitive

theorem runTool_wp (kind : node.type = .tool) :
    wp (NodeRule py deps node state) (fun _ patch => Patched py deps node state patch) history
      (runTool py deps runId node state) := by
  unfold runTool
  split
  next => trivial
  next registry configured =>
    refine wp_seq (ofExcept_wp _) ?_
    rintro after decision ⟨_, valid⟩
    have decided : node.Decided py state := ⟨by rw [kind]; rfl, decision, valid⟩
    dsimp only
    split
    next => trivial
    next =>
      refine wp_seq (plain_wp (emit_wp _ _)) fun _ _ _ => ?_
      refine wp_seq (callTool_wp configured decided _ _) fun _ result _ => ?_
      exact wp_seq (plain_wp (emit_wp _ _)) fun _ _ _ => appended_wp decided _ _

theorem runApproval_wp (kind : node.type = .approval) :
    wp (NodeRule py deps node state) (fun _ patch => Patched py deps node state patch) history
      (runApproval py deps runId node state) := by
  unfold runApproval
  split
  next => trivial
  next =>
    refine wp_seq (ofExcept_wp _) ?_
    rintro after decision ⟨_, valid⟩
    have decided : node.Decided py state := ⟨by rw [kind]; rfl, decision, valid⟩
    have column (value : Json) : wp (NodeRule py deps node state) (fun _ _ => True) after
        (textColumn py value) := by
      unfold textColumn
      split <;> trivial
    refine wp_seq (column _) fun _ toolName _ => wp_seq (gate_wp decided) ?_
    rintro _ ⟨decision, approvalId, actionId⟩ _
    exact appended_wp decided _ _

theorem runRag_wp (kind : node.type = .rag) :
    wp (NodeRule py deps node state) (fun _ patch => Patched py deps node state patch) history
      (runRag py deps runId node state) := by
  unfold runRag
  split
  next => trivial
  next =>
    refine wp_seq (ofExcept_wp _) ?_
    rintro after decision ⟨_, valid⟩
    have decided : node.Decided py state := ⟨by rw [kind]; rfl, decision, valid⟩
    refine wp_seq (plain_wp (emit_wp _ _)) fun _ _ _ => wp_request_seq trivial fun result => ?_
    exact wp_seq (plain_wp (emit_wp _ _)) fun _ _ _ => appended_wp decided _ _

end Nodes

section Subagent
variable {py : Builtins} {executor : Executor} {task : SubagentTask} {history : List OpEntry}
  {remaining : Nat}

/-- What a subagent asks: model calls, and the tools its task opens to it. -/
def SubagentRule (py : Builtins) (executor : Executor) (task : SubagentTask) : Op → Prop
  | .complete _ => True
  | .invoke .subagent name _ => executor.Opens py task.template task.allowedTools name
  | _ => False

theorem SubagentTask.allows_iff {name : String} :
    task.allows name ↔ Json.str name ∈ task.allowedTools := by
  simp only [allows, List.any_eq_true, decide_eq_true_eq]
  constructor
  · rintro ⟨item, member, same⟩
    cases item with
    | str text =>
        cases same
        exact member
    | _ => contradiction
  · intro member
    exact ⟨_, member, rfl⟩

structure SubagentTask.Valid (executor : Executor) (task : SubagentTask) : Prop where
  template : task.template = .str "react" ∨ task.template = .str "planner_react"
  known : executor.unknownTools task.allowedTools = .ok []

/-- The loop calls the tools its task opens; by induction on the steps that remain. -/
theorem react_wp (valid : task.Valid executor) (positive : 0 < remaining → 0 < executor.maxSteps)
    (step : Nat) (messages : List Dict) :
    wp (fun _ => SubagentRule py executor task) (fun _ _ => True) history
      (executor.react py task remaining step messages) := by
  induction remaining generalizing step messages history with
  | zero => trivial
  | succ remaining ih =>
      simp only [Executor.react]
      refine wp_request_seq trivial fun response => ?_
      split
      next structured _ _ =>
        split
        next => trivial
        next decision _ =>
          split
          next => trivial
          next name _ _ =>
            split
            next permitted =>
              simp only [Bool.and_eq_true, decide_eq_true_eq] at permitted
              refine wp_seq (ainvoke_wp fun tool found callable => ?_) fun _ _ _ =>
                wp_seq (ofExcept_wp _) fun _ _ _ => ih (fun _ => positive (Nat.succ_pos _)) _ _
              obtain ⟨named, stored⟩ := ToolRegistry.get_ok found
              cases Json.str.inj named
              exact ⟨positive (Nat.succ_pos _), valid.template, valid.known,
                SubagentTask.allows_iff.mp permitted.2, permitted.1,
                Option.isSome_of_eq_some stored, callable⟩
            next => trivial
          next => trivial
      next => trivial

theorem start_wp (valid : task.Valid executor) :
    wp (fun _ => SubagentRule py executor task) (fun _ _ => True) history
      (executor.start py task) := by
  unfold Executor.start
  dsimp only
  split
  next =>
    refine wp_request_seq trivial fun plan => ?_
    split
    · exact react_wp valid id _ _
    · trivial
  next => exact react_wp valid id _ _

theorem knownTemplate_ok (known : Executor.knownTemplate task = .ok true) :
    task.template = .str "react" ∨ task.template = .str "planner_react" := by
  unfold Executor.knownTemplate at known
  split at known
  next name same =>
    rw [same]
    simpa using known
  next => split at known <;> cases known

theorem execute_wp (depth : Nat) :
    wp (fun _ => SubagentRule py executor task) (fun _ _ => True) history
      (executor.execute py task depth) := by
  unfold Executor.execute
  split
  next => trivial
  next =>
    split
    next => trivial
    next => trivial
    next template =>
      split
      next => trivial
      next known => exact start_wp ⟨knownTemplate_ok template, known⟩
      next => trivial

end Subagent

section Nodes
variable {py : Builtins} {graph : CompiledGraph} {deps : RuntimeDependencies} {runId : String}
  {node : NodeDef} {state : GraphState} {history : List OpEntry}

theorem runSubagent_wp (kind : node.type = .subagent) :
    wp (NodeRule py deps node state) (fun _ patch => Patched py deps node state patch) history
      (runSubagent py deps runId node state) := by
  unfold runSubagent
  split
  next => trivial
  next executor configured =>
    refine wp_seq (ofExcept_wp _) ?_
    rintro after decision ⟨_, valid⟩
    have decided : node.Decided py state := ⟨by rw [kind]; rfl, decision, valid⟩
    have opened (task : SubagentTask) (history : List OpEntry) (op : Op)
        (items : (node.config.getD "allowed_tools" (.arr [])).toList = some task.allowedTools)
        (template : node.config.getD "template" (.str "react") = task.template)
        (rule : SubagentRule py executor task op) : NodeRule py deps node state history op := by
      unfold SubagentRule at rule
      split at rule
      next => trivial
      next =>
        exact ⟨decided, kind, executor, task.allowedTools, configured, items, template ▸ rule⟩
      next => contradiction
    have built : wp (NodeRule py deps node state)
        (fun _ task => (node.config.getD "allowed_tools" (.arr [])).toList =
          some task.allowedTools ∧ node.config.getD "template" (.str "react") = task.template)
        after (subagentTask py node (orEmpty decision.input)) := by
      unfold subagentTask listOf
      split
      next => 
        split
        next items listed => exact ⟨listed, rfl⟩
        next => trivial
      next => trivial
    refine wp_seq built ?_
    rintro _ task ⟨items, template⟩
    refine wp_seq (plain_wp (emit_wp _ _)) fun _ _ _ => ?_
    refine wp_seq (wp_mono (fun _ _ => opened task _ _ items template) (fun _ _ _ => trivial)
      (execute_wp 0)) fun _ result _ => ?_
    exact wp_seq (plain_wp (emit_wp _ _)) fun _ _ _ => appended_wp decided _ _

theorem runNode_wp :
    wp (NodeRule py deps node state) (fun _ patch => Patched py deps node state patch) history
      (runNode py graph deps runId node state) := by
  unfold runNode
  split
  next kind => exact runLlm_wp kind
  next kind => exact runSupervisor_wp kind
  next kind => exact runTransform_wp kind
  next kind => exact runTool_wp kind
  next kind => exact runRag_wp kind
  next kind => exact runSubagent_wp kind
  next kind => exact runApproval_wp kind

theorem makeNode_wp :
    wp (NodeRule py deps node state) (fun _ patch => Patched py deps node state patch) history
      (makeNode py graph deps node state) := by
  have guarded (runId : String) (history : List OpEntry) :
      wp (NodeRule py deps node state) (fun _ _ => True) history
        (checkCancelled deps runId node) := by
    unfold checkCancelled
    split
    next =>
      refine wp_request_seq trivial fun cancelled => ?_
      split <;> trivial
    next => trivial
  refine wp_seq (guarded _ _) fun _ _ _ => wp_seq (plain_wp (emit_wp _ _)) fun _ _ _ => ?_
  refine wp_seq runNode_wp fun _ patch patched => ?_
  refine wp_seq (plain_wp (emit_wp _ _)) fun _ _ _ => patched

end Nodes
end AgentRuntime
