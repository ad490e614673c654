import AgentRuntime.Gate

/-! Courses in which no one has to be asked: the graph walks to the supervisor, the supervisor
selects a capability, and a subagent calls a tool of its allowlist. -/
namespace AgentRuntime
open Machines Programs Tables

/-- The answers in a course without approvals and without a cancellation. -/
def Unattended : (op : Op) → op.Answer → Prop
  | .cancelCheck _, cancelled => cancelled = false
  | .createPending _, _ => False
  | .interrupt _, _ => False
  | _, _ => True

section Nodes
variable {py : Builtins} {graph : CompiledGraph} {deps : RuntimeDependencies} {runId : String}
  {node : NodeDef} {state : GraphState}

theorem emit_leads (type : EventType) (payload : Dict) :
    Leads Unattended (GraphProg.emit type runId node.id payload) (pure ()) := .request _ trivial

theorem askModel_leads {model : String}
    (named : node.config.getD "model" (.str deps.modelName) = .str model) (messages : List Dict)
    (schema : Option ResponseSchema) (result : ModelResult) :
    ∃ call, Leads Unattended (askModel py deps runId node messages schema)
      (pure (call, result)) := by
  have asked (callId : Option String) (metadata : Dict) : Leads Unattended
      (GraphProg.complete py (node.config.getD "model" (.str deps.modelName)) messages schema
        callId metadata) (pure result) := by
    rw [named]
    exact .request _ trivial
  exact ⟨_, .seq (.request "" trivial)
    (.seq (emit_leads _ _) (.seq (asked _ _) (.refl _)))⟩

theorem emitLlmDone_leads (call : Dict) (result : ModelResult) :
    Leads Unattended (emitLlmDone runId node call result) (pure ()) := by
  unfold emitLlmDone
  split
  · exact .seq (emit_leads _ _) (emit_leads _ _)
  · exact emit_leads _ _

theorem runLlm_leads (kind : node.type = .llm) (passable : node.Passable py deps) :
    ∃ patch, Leads Unattended (runLlm py deps runId node state) (pure patch) := by
  simp only [NodeDef.Passable, kind] at passable
  obtain ⟨model, named⟩ := passable
  obtain ⟨call, asked⟩ := askModel_leads named
    ((node.prompt.filter fun text => text ≠ "").toList.map (Executor.message "system") ++
      state.messages) none {}
  exact ⟨_, asked.seq (.seq (emitLlmDone_leads call {}) (.refl _))⟩

theorem runSupervisor_leads (kind : node.type = .supervisor) (passable : node.Passable py deps)
    (decision : SupervisorDecision) (valid : graph.validateDecision decision = .ok ()) :
    Leads Unattended (runSupervisor py deps runId node graph state) (pure decision.patch) := by
  simp only [NodeDef.Passable, kind] at passable
  obtain ⟨model, named⟩ := passable
  obtain ⟨call, asked⟩ := askModel_leads named
    (Executor.message "system"
      (textOr node.prompt "Choose the next declared capability or return final.") ::
      state.messages.drop (state.messages.length - 8))
    (some .supervisorDecision) { structured := some decision.dump }
  refine asked.seq (.seq (emitLlmDone_leads call _) ?_)
  rw [SupervisorDecision.validate_dump]
  refine .seq (.refl _) ?_
  rw [valid]
  exact .refl _

theorem runTransform_leads (kind : node.type = .transform) (passable : node.Passable py deps) :
    ∃ patch, Leads Unattended (GraphProg.ofExcept (runTransform py node state)) (pure patch) := by
  simp only [NodeDef.Passable, kind] at passable
  obtain ⟨⟨transform, known⟩, hashable⟩ := passable
  unfold runTransform
  rw [known]
  dsimp only [bind, Except.bind]
  rw [if_pos hashable]
  exact ⟨_, .refl _⟩

theorem checkCancelled_leads : Leads Unattended (checkCancelled deps runId node) (pure ()) := by
  unfold checkCancelled
  split
  · exact .seq (.request false (show Unattended (.cancelCheck runId) false from rfl)) (.refl _)
  · exact .refl _

theorem makeNode_leads {patch : GraphState}
    (leads : Leads Unattended (runNode py graph deps (state.runId py) node state) (pure patch)) :
    Leads Unattended (makeNode py graph deps node state) (pure patch) :=
  .seq checkCancelled_leads (.seq (emit_leads _ _) (.seq leads (.seq (emit_leads _ _) (.refl _))))

theorem makeNode_gets {op : Op}
    (gets : Gets Unattended op (runNode py graph deps (state.runId py) node state)) :
    Gets Unattended op (makeNode py graph deps node state) :=
  .seq checkCancelled_leads (.seq (emit_leads _ _) (gets.bind _))

variable (graph) in
/-- A node that is passed returns, whatever the channels hold. -/
theorem passed_leads (kind : node.type ≠ .supervisor) (passable : node.Passable py deps)
    (state : GraphState) :
    ∃ patch, Leads Unattended (makeNode py graph deps node state) (pure patch) := by
  have capability := passable.not_capability
  have ran : ∃ patch, Leads Unattended (runNode py graph deps (state.runId py) node state)
      (pure patch) := by
    unfold runNode
    split
    next llm => exact runLlm_leads llm passable
    next supervisor => exact absurd supervisor kind
    next transform => exact runTransform_leads transform passable
    all_goals
      rename_i other
      rw [other] at capability
      contradiction
  obtain ⟨patch, leads⟩ := ran
  exact ⟨patch, makeNode_leads leads⟩

end Nodes

section Drive
variable {c : RunConfig}

theorem drive_leads {py : Builtins} {graph : CompiledGraph} {deps : RuntimeDependencies}
    {node : NodeDef} {id target : NodeId} {state patch : GraphState} {remaining : Nat}
    (found : graph.nodeMap.find? id = some node)
    (returned : Leads Unattended (makeNode py graph deps node state) (pure patch))
    (next : graph.next py node (state.merge patch) = .ok (some target)) :
    Leads Unattended (graph.drive py deps (remaining + 1) state (some id))
      (graph.drive py deps remaining (state.merge patch) (some target)) := by
  simp only [CompiledGraph.drive, found]
  refine returned.seq ?_
  rw [next]
  exact .seq (.refl _) (.seq (.request () trivial) (.refl _))

theorem Walk.leads {n : Nat} {id : NodeId} (walk : Walk c n id) (state : GraphState)
    (remaining : Nat) :
    ∃ after, Leads Unattended
      (c.program.definition.drive c.py c.deps (n + remaining) state
        (some c.program.definition.entryId))
      (c.program.definition.drive c.py c.deps remaining after (some id)) := by
  induction walk generalizing remaining with
  | entry => exact ⟨state, by rw [Nat.zero_add]; exact .refl _⟩
  | @step n id node target _ found kind passable edge ih =>
      obtain ⟨before, first⟩ := ih (remaining + 1)
      obtain ⟨patch, returned⟩ := passed_leads _ kind passable before
      refine ⟨before.merge patch, ?_⟩
      rw [Nat.succ_add_eq_add_succ]
      refine first.trans (drive_leads found returned ?_)
      unfold CompiledGraph.next
      rw [edge]
      rfl

/-- The decision that selects a subagent node. -/
def selecting (id : NodeId) : SupervisorDecision where
  action := .subagent
  capabilityNodeId := some id
  target := some id

theorem selecting_id (id : NodeId) : (selecting id).selectedNodeId = some id := by
  unfold SupervisorDecision.selectedNodeId selecting
  dsimp only
  split <;> simp_all

theorem selecting_action (id : NodeId) : (selecting id).action = .subagent := rfl

theorem selected_decision (py : Builtins) (state : GraphState) (decision : SupervisorDecision) :
    (state.merge decision.patch).decision py = .ok decision := by
  have stored : (state.merge decision.patch).control.getD "supervisor_decision" .null =
      .obj decision.dump := by
    unfold Dict.getD GraphState.merge
    exact congrArg (Option.getD · Json.null) (Dict.get?_set_self _ _ _)
  unfold GraphState.decision
  rw [stored]
  exact SupervisorDecision.validate_dump py decision

/-- The supervisor can select every subagent node. -/
theorem supervisor_selects {py : Builtins} {graph : CompiledGraph} {deps : RuntimeDependencies}
    {supervisor node : NodeDef} {id : NodeId} (remaining : Nat) (state : GraphState)
    (found : graph.nodeMap.find? id = some supervisor) (kind : supervisor.type = .supervisor)
    (passable : supervisor.Passable py deps)
    (target : graph.nodeMap.find? node.id = some node) (subagent : node.type = .subagent) :
    Leads Unattended (graph.drive py deps (remaining + 1) state (some id))
      (graph.drive py deps remaining (state.merge (selecting node.id).patch) (some node.id)) := by
  have valid : graph.validateDecision (selecting node.id) = .ok () := by
    simp [CompiledGraph.validateDecision, selecting_id, selecting_action, target, subagent,
      NodeType.value, SupervisorAction.value]
  have route : graph.route (selecting node.id) = .ok (some node.id) := by
    simp [CompiledGraph.route, valid, selecting_id, selecting_action, bind, Except.bind, pure,
      Except.pure]
  have mapped : graph.supervisorPathMap node.id = some node.id := by
    simp [CompiledGraph.supervisorPathMap, target, subagent, NodeType.capability]
  have next : graph.next py supervisor (state.merge (selecting node.id).patch) =
      .ok (some node.id) := by
    simp [CompiledGraph.next, CompiledGraph.edge, kind, selected_decision, route, mapped, bind,
      Except.bind, pure, Except.pure]
  refine drive_leads found (makeNode_leads ?_) next
  unfold runNode
  rw [kind]
  exact runSupervisor_leads kind passable _ valid

end Drive

section Subagent
variable {py : Builtins} {executor : Executor} {task : SubagentTask} {name : String}

theorem ainvoke_gets {registry : ToolRegistry} {site : Site} (arguments : Dict)
    (found : (registry.tools.find? name).isSome) (callable : registry.callable py name) :
    Gets Unattended (.invoke site name arguments)
      (registry.ainvoke py site (.str name) arguments) := by
  obtain ⟨tool, stored⟩ := Option.isSome_iff_exists.mp found
  have same : tool.name = name := Table.key_of_find? stored
  subst same
  simp only [ToolRegistry.callable, Bool.and_eq_true] at callable
  simp only [ToolRegistry.ainvoke, ToolRegistry.get_found stored, callable.1, callable.2,
    Bool.not_true, Bool.false_eq_true, if_false]
  exact ⟨_, .refl _⟩

/-- The loop calls an allowed tool when its model decides to. -/
theorem react_gets (allowed : task.allows name) (named : name ≠ "")
    (found : (executor.toolRegistry.tools.find? name).isSome)
    (callable : executor.toolRegistry.callable py name) (remaining step : Nat)
    (messages : List Dict) :
    Gets Unattended (.invoke .subagent name [])
      (executor.react py task (remaining + 1) step messages) := by
  let decision : SubagentDecision := { action := .tool, toolName := some name }
  let response : ModelResult := { structured := some decision.dump }
  simp only [Executor.react]
  refine .seq (.request response trivial) ?_
  simp only [response, ModelResult.success, Option.isNone_none, SubagentDecision.validate_dump,
    decision, ne_eq, named, not_false_eq_true, decide_true, allowed, Bool.and_self, if_true]
  exact (ainvoke_gets [] found callable).bind _

theorem execute_gets (opens : executor.Opens py task.template task.allowedTools name) :
    Gets Unattended (.invoke .subagent name []) (executor.execute py task 0) := by
  obtain ⟨rounds, steps⟩ : ∃ rounds, executor.maxSteps = rounds + 1 :=
    Nat.exists_eq_add_one.mpr opens.steps
  have loop (messages : List Dict) : Gets Unattended (.invoke .subagent name [])
      (executor.react py task executor.maxSteps 1 messages) := by
    rw [steps]
    exact react_gets (SubagentTask.allows_iff.mpr opens.allowed) opens.named opens.found
      opens.callable rounds 1 messages
  have template : Executor.knownTemplate task = .ok true := by
    rcases opens.template with same | same <;> simp [Executor.knownTemplate, same]
  simp only [Executor.execute, template, opens.known, ne_eq, not_true_eq_false, if_false]
  unfold Executor.start
  split
  · refine .seq (.request (show ModelResult from {}) trivial) ?_
    exact loop _
  · exact loop _

/-- A subagent node with a decision gets to call what it opens. -/
theorem runSubagent_gets {deps : RuntimeDependencies} {runId : String} {node : NodeDef}
    {state : GraphState} {decision : SupervisorDecision}
    (decided : state.decision py = .ok decision) (plain : decision.input = none)
    (opens : node.Opens py deps name) :
    Gets Unattended (.invoke .subagent name []) (runSubagent py deps runId node state) := by
  obtain ⟨_, executor, items, configured, listed, opens⟩ := opens
  unfold runSubagent
  rw [configured]
  dsimp only
  rw [decided]
  refine .seq (.refl _) ?_
  have built : ∃ task,
      Leads Unattended (subagentTask py node (orEmpty decision.input)) (pure task) ∧
      task.allowedTools = items ∧ task.template = node.config.getD "template" (.str "react") := by
    rw [plain]
    unfold subagentTask listOf
    rw [listed]
    exact ⟨_, .refl _, rfl, rfl⟩
  obtain ⟨task, leads, rfl, template⟩ := built
  refine .seq leads (.seq (emit_leads _ _) ?_)
  exact (execute_gets (template ▸ opens)).bind _

end Subagent

section Runs
variable {c : RunConfig}

def Uninterrupted (history : List OpEntry) : Prop :=
  ∀ entry ∈ history, ∀ raised, entry.op ≠ .interrupt raised

theorem Unattended.served {op : Op} {answer : op.Answer} (possible : Unattended op answer)
    (py : Builtins) {db : Database} (alive : ∀ id, db.isCancelled id = false)
    (value : Option ResumeValue) :
    ∃ services : Services, services.reply py db value op = .ok answer ∧
      services.tx op = .idle := by
  cases op with
  | cancelCheck id =>
      cases (show answer = false from possible)
      refine ⟨{}, ?_, rfl⟩
      simp only [Services.reply, Services.orFault, alive]
  | emit | checkpoint => exact ⟨{}, rfl, rfl⟩
  | nonce => exact ⟨{ nonce := answer }, rfl, rfl⟩
  | complete request => exact ⟨{ result := answer }, rfl, rfl⟩
  | invoke site name arguments => exact ⟨{ call := answer }, rfl, rfl⟩
  | retrieve knowledgeBase query => exact ⟨{ retrieved := answer }, rfl, rfl⟩
  | now => exact ⟨{ now := answer }, rfl, rfl⟩
  | createPending action => exact possible.elim
  | interrupt raised => exact possible.elim

/-- The machine takes such a course, while the run is not cancelled. -/
theorem course_run {p q : GraphProg GraphState} (leads : Leads Unattended p q) {s : RunState}
    {e : Execution} (current : s.current = some e) (program : e.program = some p)
    (alive : ∀ id, s.db.isCancelled id = false) (quiet : Uninterrupted e.history) :
    ∃ as u f, Run (executions c) anyStep s as u ∧ u.current = some f ∧ f.program = some q ∧
      Uninterrupted f.history := by
  induction leads generalizing s e with
  | refl p => exact ⟨[], s, e, .nil s, current, program, quiet⟩
  | @ask op next q answer possible _ ih =>
      obtain ⟨services, replied, silent⟩ := possible.served c.py alive e.answer
      let after := e.replied op next (.ok answer)
      let t : RunState := { s with thread := services.thread s.thread op, current := some after }
      have step : (executions c).step s (.reply services) = some t := by
        change s.step c (.reply services) = some t
        simp only [RunState.step, current, program, replied, silent]
        rfl
      have calm : Uninterrupted after.history := by
        intro entry member raised
        rcases List.mem_append.mp member with old | new
        · exact quiet entry old raised
        · rw [List.mem_singleton.mp new]
          rintro rfl
          exact possible
      obtain ⟨as, u, f, run, rest⟩ := ih (s := t) (e := after) rfl rfl alive calm
      exact ⟨_, u, f, .cons trivial step run, rest⟩

theorem course_gets {n : Nat} {node : NodeDef} {name : String} (supervised : SupervisedAfter c n)
    (within : n + 2 ≤ recursionLimit)
    (stored : c.program.definition.nodeMap.find? node.id = some node)
    (opens : node.Opens c.py c.deps name) (checkpoint : Checkpoint)
    (entry : checkpoint.next = some c.program.definition.entryId) :
    Gets Unattended (.invoke .subagent name [])
      (RunState.course c recursionLimit checkpoint) := by
  obtain ⟨id, supervisor, walk, found, kind, passable⟩ := supervised
  obtain ⟨rest, enough⟩ := Nat.exists_eq_add_of_le within
  have limit : recursionLimit = n + (rest + 1 + 1) := by omega
  obtain ⟨before, walked⟩ := walk.leads checkpoint.state (rest + 1 + 1)
  have selected := supervisor_selects (rest + 1) before found kind passable stored opens.1
  unfold RunState.course
  rw [entry, limit]
  refine .behind (walked.trans selected) ?_
  simp only [CompiledGraph.drive, stored]
  refine (makeNode_gets ?_).bind _
  unfold runNode
  rw [opens.1]
  exact runSubagent_gets (selected_decision _ _ _) rfl opens

/-- A run that is created and executed once, and nothing else. -/
def RunConfig.created (c : RunConfig) : RunState where
  db := Database.empty.createRun ⟨c.runId, "", c.program.definition.definition, [], ""⟩ "" 0

theorem RunConfig.created_initial (c : RunConfig) : RunState.Initial c c.created := by
  refine ⟨rfl, rfl, rfl, fun approval member => ?_⟩
  cases member

theorem unapproved_call (reachable : SensitiveToolReachable c) : ¬ SensitiveCallsApproved c := by
  obtain ⟨⟨n, supervised, within⟩, node, name, stored, opens, sensitive⟩ := reachable
  intro approved
  have alive (id : String) : c.created.db.isCancelled id = false := by
    simp [Database.isCancelled, RunConfig.created, Database.createRun, Database.empty,
      Table.insert, Table.empty]
  have found : (c.created.db.runs.find? c.runId).map RunRow.status = some .queued := by
    simp [RunConfig.created, Database.createRun, Database.empty, Table.find?_insert]
  obtain ⟨run, row, status⟩ := Option.map_eq_some_iff.mp found
  have admitted : c.created.db.admission c.runId (fun _ => 0) = .enter .ainvoke := by
    simp [Database.admission, row, status]
  let e : Execution := { entry := .ainvoke, inputText := run.inputText }
  let input := RunState.input c none run.inputText
  let launched : RunState :=
    { c.created with
      thread := some input
      current := some { e with program := some (RunState.course c recursionLimit input) } }
  have read : (executions c).step c.created (.read fun _ => 0) =
      some { c.created with current := some e } := by
    show RunState.step c c.created (.read fun _ => 0) = _
    simp only [RunState.step, admitted, row]
    rfl
  have launch : (executions c).step { c.created with current := some e } .launch =
      some launched := rfl
  obtain ⟨next, leads⟩ := course_gets supervised within stored opens input rfl
  obtain ⟨as, u, f, course, current, program, quiet⟩ :=
    course_run (c := c) (s := launched) leads rfl rfl alive fun _ member => by cases member
  have called : (executions c).step u (.reply {}) = some
      { u with
        current := some (f.replied (.invoke .subagent name []) next (.ok (.returned .null))) } := by
    show RunState.step c u (.reply {}) = _
    simp only [RunState.step, current, program]
    rfl
  have reached : Reachable (executions c) anyStep launched :=
    .next (.next (.start c.created_initial) trivial read) trivial launch
  have authorized := approved _ ((reached.run course).next trivial called) _
    (List.mem_append_right _ (Option.mem_toList.mpr rfl)) f.history _ [] rfl
  obtain ⟨before, raised, resume, same, _⟩ := authorized sensitive
  refine quiet ⟨.interrupt raised, .answered resume⟩ ?_ raised rfl
  rw [same]
  exact List.mem_append_right _ List.mem_cons_self

/-- Every sensitive call of a run is approved exactly when no subagent node that the
supervisor can select within the recursion limit opens a sensitive tool. -/
theorem sensitive_calls_approved_iff (c : RunConfig) :
    SensitiveCallsApproved c ↔ ¬ SensitiveToolReachable c :=
  ⟨fun approved reachable => unapproved_call reachable approved, approved_unless_open⟩

end Runs

section Sample

/-- A supervisor with one capability. -/
def sampleDefinition (capability : NodeDef) : AgentDefinition where
  name := "support"
  nodes := [{ type := .supervisor, id := "supervisor" }, capability]
  edges := []
  entry := "supervisor"

def sampleRegistry : ToolRegistry where
  tools := Table.empty.insert ⟨"transfer", "", [], .sensitive, .builtin⟩
  callables := ["transfer"]

def sampleDeps : RuntimeDependencies where
  modelName := "model"
  toolRegistry := some sampleRegistry
  retriever := true
  subagentExecutor := some { model := "model", toolRegistry := sampleRegistry }
  approvalRepository := true
  cancelCheck := true

def specialistNode : NodeDef where
  type := .subagent
  id := "specialist"
  config := [("allowed_tools", .arr [.str "transfer"])]

def specialistRun : RunConfig where
  py := .onEmpty
  runId := sampleRun
  program := ⟨.ofDefinition (sampleDefinition specialistNode), by decide⟩
  deps := sampleDeps

/-- The graph is valid, and the specialist calls the tool without an approval. -/
theorem specialist_calls_unapproved :
    compileGraph specialistRun.py (sampleDefinition specialistNode) =
      .ok specialistRun.program.definition ∧ ¬ SensitiveCallsApproved specialistRun := by
  refine ⟨rfl, unapproved_call ⟨⟨0, ?_, by decide⟩, specialistNode, "transfer", ?_⟩⟩
  · exact ⟨"supervisor", _, .entry, rfl, rfl, "model", rfl⟩
  · refine ⟨rfl, ⟨rfl, _, [.str "transfer"], rfl, rfl, ?_⟩, rfl⟩
    exact ⟨by decide, .inl rfl, rfl, List.mem_singleton.mpr rfl, by decide, rfl, rfl⟩

end Sample
end AgentRuntime
