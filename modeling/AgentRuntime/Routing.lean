import AgentRuntime.Selection
import AgentRuntime.Supersteps
import AgentRuntime.Validation

/-! The control flow of compiled graphs. Once the supervisor has decided, its turns and those of
the capabilities alternate until it decides that the run is final. -/
namespace AgentRuntime
open Machines Programs Tables

section Compile
variable {py : Builtins} {definition : AgentDefinition} {graph : CompiledGraph}

theorem compileGraph_ok (compiled : compileGraph py definition = .ok graph) :
    definition.validateGraph py = .ok () ∧ graph = .ofDefinition definition := by
  unfold compileGraph at compiled
  cases valid : definition.validateGraph py with
  | error => rw [valid] at compiled; contradiction
  | ok => rw [valid] at compiled; cases compiled; exact ⟨rfl, rfl⟩

/-- The supervisor of a graph is its only node of that type. -/
structure CompiledGraph.Supervised (graph : CompiledGraph) : Prop where
  only : ∀ id node, graph.nodeMap.find? id = some node → node.type = .supervisor →
    graph.supervisorId = some id
  stored : ∀ id, graph.supervisorId = some id →
    ∃ node, graph.nodeMap.find? id = some node ∧ node.type = .supervisor

theorem ofDefinition_find? (definition : AgentDefinition) (id : NodeId) :
    (CompiledGraph.ofDefinition definition).nodeMap.find? id =
      definition.nodes.find? fun node => node.id = id := by
  simp [CompiledGraph.ofDefinition, Table.find?_foldl_insert]

theorem ofDefinition_stored (distinct : definition.nodeIds.Nodup) {node : NodeDef}
    (member : node ∈ definition.nodes) :
    (CompiledGraph.ofDefinition definition).nodeMap.find? node.id = some node := by
  rw [ofDefinition_find?]
  cases found : definition.nodes.find? fun other => other.id = node.id with
  | none =>
      have differs := List.find?_eq_none.mp found node member
      simp at differs
  | some other =>
      have same : other.id = node.id := by simpa using List.find?_some found
      rw [List.inj_on_of_nodup_map distinct (List.mem_of_find?_eq_some found) member same]

theorem compileGraph_supervised (compiled : compileGraph py definition = .ok graph) :
    graph.Supervised := by
  obtain ⟨valid, rfl⟩ := compileGraph_ok compiled
  obtain ⟨distinct, single⟩ := validateGraph_ok valid
  refine ⟨fun id node found kind => ?_, fun id chosen => ?_⟩
  · rw [ofDefinition_find?] at found
    have own : node.id = id := by simpa using List.find?_some found
    have among : node ∈ definition.supervisors :=
      List.mem_filter.mpr ⟨List.mem_of_find?_eq_some found, by simpa using kind⟩
    cases supervisors : definition.supervisors with
    | nil => rw [supervisors] at among; contradiction
    | cons first rest =>
        rw [supervisors, List.length_cons] at single
        have empty : rest = [] := List.eq_nil_of_length_eq_zero (by omega)
        rw [supervisors, empty, List.mem_singleton] at among
        simp [CompiledGraph.ofDefinition, supervisors, ← among, own]
  · obtain ⟨node, first, rfl⟩ := Option.map_eq_some_iff.mp chosen
    obtain ⟨member, kind⟩ := List.mem_filter.mp (List.mem_of_head? first)
    exact ⟨node, ofDefinition_stored distinct member, by simpa using kind⟩

end Compile

section Edges
variable {py : Builtins} {graph : CompiledGraph} {node : NodeDef} {state : GraphState}
  {target : Option NodeId} {decision : SupervisorDecision}

theorem compileLanggraph_rows {edges : List (NodeId × Edge)}
    (accepted : graph.compileLanggraph = .ok edges) :
    (graph.nodeMap.rows.map fun node => (graph.edge node).map fun edge => (node.id, edge)) =
      edges.map .ok := by
  unfold CompiledGraph.compileLanggraph at accepted
  split at accepted
  next => contradiction
  next =>
    generalize graph.nodeMap.rows = rows at accepted ⊢
    induction rows generalizing edges with
    | nil =>
        cases accepted
        rfl
    | cons node rest ih =>
        rw [List.mapM_cons] at accepted
        cases own : graph.edge node with
        | error => rw [own] at accepted; contradiction
        | ok edge =>
            cases later : rest.mapM fun node =>
                (graph.edge node).map fun edge => (node.id, edge) with
            | error => rw [own, later] at accepted; contradiction
            | ok more =>
                rw [own, later] at accepted
                cases accepted
                rw [List.map_cons, ih later, own]
                rfl

theorem mem_compileLanggraph {edges : List (NodeId × Edge)}
    (accepted : graph.compileLanggraph = .ok edges) {id : NodeId} {edge : Edge} :
    (id, edge) ∈ edges ↔
      ∃ node ∈ graph.nodeMap.rows, node.id = id ∧ graph.edge node = .ok edge := by
  have listed : (id, edge) ∈ edges ↔
      (Except.ok (id, edge) : Except ExecError (NodeId × Edge)) ∈ edges.map Except.ok := by
    simp
  rw [listed, ← compileLanggraph_rows accepted, List.mem_map]
  refine exists_congr fun node => and_congr_right fun _ => ?_
  cases own : graph.edge node <;> simp [Except.map]

theorem compileLanggraph_edge {edges : List (NodeId × Edge)}
    (accepted : graph.compileLanggraph = .ok edges)
    (member : node ∈ graph.nodeMap.rows) : ∃ edge, graph.edge node = .ok edge := by
  have listed := List.mem_map_of_mem (f := fun node =>
    (graph.edge node).map fun edge => (node.id, edge)) member
  rw [compileLanggraph_rows accepted] at listed
  obtain ⟨pair, _, same⟩ := List.mem_map.mp listed
  cases own : graph.edge node with
  | error error =>
      rw [own] at same
      contradiction
  | ok edge => exact ⟨edge, rfl⟩

/-- One edge leaves each node. -/
theorem compileLanggraph_unique {edges : List (NodeId × Edge)}
    (accepted : graph.compileLanggraph = .ok edges) : (edges.map Prod.fst).Nodup := by
  let source (row : Except ExecError (NodeId × Edge)) : Option NodeId :=
    row.toOption.map Prod.fst
  have same : (edges.map Prod.fst).map some = (graph.nodeMap.rows.map NodeDef.id).map some :=
    calc (edges.map Prod.fst).map some
      _ = (edges.map Except.ok).map source := by
          simp [source, Function.comp_def, Except.toOption]
      _ = (graph.nodeMap.rows.map fun node =>
            (graph.edge node).map fun edge => (node.id, edge)).map source := by
          rw [compileLanggraph_rows accepted]
      _ = (graph.nodeMap.rows.map NodeDef.id).map some := by
          rw [List.map_map, List.map_map]
          refine List.map_congr_left fun node member => ?_
          obtain ⟨edge, leads⟩ := compileLanggraph_edge accepted member
          simp [source, leads, Except.map, Except.toOption]
  rw [List.map_injective_iff.mpr (Option.some_injective _) same]
  exact graph.nodeMap.unique

/-- What comes next behind a supervisor, from the decision in the control channel. -/
theorem next_supervisor (kind : node.type = .supervisor)
    (decided : state.decision py = .ok decision)
    (leads : graph.next py node state = .ok target) :
    (decision.action = .final ∧ target = none) ∨
      (decision.action ≠ .final ∧ graph.validateDecision decision = .ok () ∧
        target = some (decision.selectedNodeId.getD "None") ∧
        ∃ next, graph.nodeMap.find? (decision.selectedNodeId.getD "None") = some next ∧
          next.type.capability = true) := by
  have routed : graph.edge node = .ok .routed := by
    rw [CompiledGraph.edge, if_pos kind]
  simp only [CompiledGraph.next, routed, decided, bind, Except.bind, CompiledGraph.route] at leads
  by_cases final : decision.action = .final
  · rw [if_pos final] at leads
    cases leads
    exact .inl ⟨final, rfl⟩
  · rw [if_neg final] at leads
    cases valid : graph.validateDecision decision with
    | error => rw [valid] at leads; contradiction
    | ok =>
        rw [valid] at leads
        dsimp only [pure, Except.pure] at leads
        split at leads
        next id mapped =>
          cases leads
          obtain ⟨next, found, rfl⟩ := Option.map_eq_some_iff.mp mapped
          obtain ⟨stored, capability⟩ := Option.filter_eq_some_iff.mp found
          have own : next.id = decision.selectedNodeId.getD "None" := Table.key_of_find? stored
          exact .inr ⟨final, rfl, by rw [own], next, stored, capability⟩
        next => contradiction

theorem next_capability (kind : node.type.capability = true) {id : NodeId}
    (supervisor : graph.supervisorId = some id) (leads : graph.next py node state = .ok target) :
    target = some id := by
  have other : node.type ≠ .supervisor := by
    intro same
    rw [same] at kind
    contradiction
  simp only [CompiledGraph.next, CompiledGraph.edge, if_neg other, kind, supervisor] at leads
  cases leads
  rfl

/-- A valid decision that selects a node selects one of the type of its action. -/
theorem validateDecision_ok (valid : graph.validateDecision decision = .ok ())
    (goes : decision.action ≠ .final) :
    ∃ node, graph.nodeMap.find? (decision.selectedNodeId.getD "") = some node ∧
      node.type.value = decision.action.value := by
  simp only [CompiledGraph.validateDecision, if_neg goes] at valid
  split at valid
  next => contradiction
  next node found =>
    split at valid
    next same => exact ⟨node, found, same⟩
    next => contradiction

/-- A node whose type is named by an action is a capability. -/
theorem capability_of_value {type : NodeType} {action : SupervisorAction}
    (same : type.value = action.value) : type.capability = true := by
  cases type <;> cases action <;> first | rfl | exact absurd same (by decide)

end Edges

namespace Turn
variable {c : RunConfig}

/-- What a supervisor decides, its control channel holds afterwards. -/
theorem decides (turn : Turn c) (kind : turn.node.type = .supervisor) :
    ∃ result structured decision, modelAnswers turn.history = [result] ∧
      result.structured = some structured ∧
      SupervisorDecision.validate c.py (.obj structured) = .ok decision ∧
      c.program.definition.validateDecision decision = .ok () ∧
      turn.after.state.decision c.py = .ok decision := by
  have writes := turn.writes
  obtain ⟨state, node, history, patch, target, found, returned, leads⟩ := turn
  dsimp only at kind writes ⊢
  cases writes with
  | supervisor own asked structured valid known =>
      exact ⟨_, _, _, asked, structured, valid, known, selected_decision _ _ _⟩
  | llm _ other | transform _ other => rw [kind] at other; contradiction
  | capability _ other => rw [kind] at other; contradiction

theorem dispatches (turn : Turn c) (kind : turn.node.type = .supervisor) {id : NodeId}
    (next : turn.target = some id) :
    ∃ node, c.program.definition.nodeMap.find? id = some node ∧ node.type.capability = true := by
  obtain ⟨_, _, decision, _, _, _, _, decided⟩ := turn.decides kind
  rcases next_supervisor kind decided turn.leads with ⟨_, none⟩ | ⟨_, _, same, capability⟩
  · rw [none] at next
    contradiction
  · rw [next] at same
    cases same
    exact capability

theorem returns (supervised : c.program.definition.Supervised) (turn : Turn c)
    (kind : turn.node.type.capability = true)
    (controlled : c.program.definition.supervisorId ≠ none) :
    ∃ node, turn.target = some node.id ∧
      c.program.definition.nodeMap.find? node.id = some node ∧ node.type = .supervisor := by
  obtain ⟨id, supervisor⟩ := Option.ne_none_iff_exists'.mp controlled
  obtain ⟨node, stored, type⟩ := supervised.stored id supervisor
  have own : node.id = id := Table.key_of_find? stored
  subst own
  exact ⟨node, next_capability kind supervisor turn.leads, stored, type⟩

/-- The model of the turn decides to go on and selects no node. -/
def Unselected (turn : Turn c) : Prop :=
  ∃ result ∈ modelAnswers turn.history, ∃ structured decision,
    result.structured = some structured ∧
      SupervisorDecision.validate c.py (.obj structured) = .ok decision ∧
      decision.action ≠ .final ∧ decision.selectedNodeId = none

end Turn

/-- The node that is next is the supervisor or a capability. -/
def Checkpoint.Looping (c : RunConfig) (s : Checkpoint) : Prop :=
  c.program.definition.supervisorId ≠ none ∧ ∀ id, s.next = some id →
    ∃ node, c.program.definition.nodeMap.find? id = some node ∧
      (node.type = .supervisor ∨ node.type.capability = true)

def Decided {c : RunConfig} (turns : List (Turn c)) : Prop :=
  ∃ turn ∈ turns, turn.node.type = .supervisor

section Loop
variable {c : RunConfig} {s t : Checkpoint} {turns : List (Turn c)}

theorem Turn.enters (supervised : c.program.definition.Supervised) (turn : Turn c)
    (kind : turn.node.type = .supervisor) : turn.after.Looping c := by
  refine ⟨?_, fun id next => ?_⟩
  · rw [supervised.only _ _ turn.found kind]
    simp
  · obtain ⟨node, found, capability⟩ := turn.dispatches kind next
    exact ⟨node, found, .inr capability⟩

theorem Turn.stays (supervised : c.program.definition.Supervised) (turn : Turn c)
    (looping : turn.source.Looping c) : turn.after.Looping c := by
  obtain ⟨node, found, kind | capability⟩ := looping.2 _ rfl
  · rw [turn.found] at found
    cases found
    exact turn.enters supervised kind
  · rw [turn.found] at found
    cases found
    refine ⟨looping.1, fun id next => ?_⟩
    obtain ⟨supervisor, target, stored, type⟩ := turn.returns supervised capability looping.1
    change turn.target = some id at next
    rw [target] at next
    cases next
    exact ⟨supervisor, stored, .inl type⟩

/-- A course that has seen a decision stays in the loop. -/
theorem Course.looping (supervised : c.program.definition.Supervised)
    (course : Course c s turns t) (decided : Decided turns) : t.Looping c := by
  obtain ⟨turn, member, kind⟩ := decided
  obtain ⟨before, after, rfl⟩ := List.append_of_mem member
  exact course.split.2.invariant (fun turn => turn.stays supervised) (turn.enters supervised kind)

end Loop

/-- The shape of a course at a turn that comes behind others. The node that is scheduled next is
the target of the turn. -/
structure Turn.Shaped {c : RunConfig} (before : List (Turn c)) (turn : Turn c) : Prop where
  loops : Decided before → turn.node.type = .supervisor ∨ turn.node.type.capability = true
  dispatches : turn.node.type = .supervisor → ∀ id, turn.target = some id →
    ∃ node, c.program.definition.nodeMap.find? id = some node ∧ node.type.capability = true
  returns : Decided before → turn.node.type.capability = true →
    ∃ node, turn.target = some node.id ∧
      c.program.definition.nodeMap.find? node.id = some node ∧ node.type = .supervisor
  selects : turn.node.type = .supervisor → ∃ decision,
    turn.after.state.decision c.py = .ok decision ∧
      (turn.target = none ↔ decision.action = .final) ∧
      ∀ id, turn.target = some id → decision.selectedNodeId = some id ∧
        ∃ node, c.program.definition.nodeMap.find? id = some node ∧
          node.type.value = decision.action.value

/-- A decision to go on that selects a node selects one of the type of its action. -/
def CompiledGraph.Fits (graph : CompiledGraph) (decision : SupervisorDecision) : Prop :=
  decision.action ≠ .final → ∀ id, decision.selectedNodeId = some id →
    ∃ node, graph.nodeMap.find? id = some node ∧ node.type.value = decision.action.value

theorem CompiledGraph.fits_of_valid {graph : CompiledGraph} {decision : SupervisorDecision}
    (valid : graph.validateDecision decision = .ok ()) : graph.Fits decision := by
  intro goes id selected
  have known := validateDecision_ok valid goes
  rwa [selected] at known

section Shape
variable {c : RunConfig} {s t : Checkpoint} {turns : List (Turn c)}

/-- The decision of the model is the one that is stored. -/
theorem Turn.unselected_iff (turn : Turn c) (kind : turn.node.type = .supervisor)
    {decision : SupervisorDecision} (decided : turn.after.state.decision c.py = .ok decision) :
    turn.Unselected ↔ decision.action ≠ .final ∧ decision.selectedNodeId = none := by
  obtain ⟨result, structured, _, asked, found, parsed, _, decided'⟩ := turn.decides kind
  cases decided.symm.trans decided'
  constructor
  · rintro ⟨result', member, structured', _, found', parsed', unselected⟩
    rw [asked, List.mem_singleton] at member
    cases member
    cases found.symm.trans found'
    cases parsed.symm.trans parsed'
    exact unselected
  · intro unselected
    exact ⟨result, by simp [asked], structured, decision, found, parsed, unselected⟩

theorem Turn.selects_iff (turn : Turn c) (kind : turn.node.type = .supervisor) :
    (∃ decision, turn.after.state.decision c.py = .ok decision ∧
      (turn.target = none ↔ decision.action = .final) ∧
      ∀ id, turn.target = some id → decision.selectedNodeId = some id ∧
        ∃ node, c.program.definition.nodeMap.find? id = some node ∧
          node.type.value = decision.action.value) ↔ ¬ turn.Unselected := by
  obtain ⟨_, _, decision, _, _, _, valid, decided⟩ := turn.decides kind
  rw [turn.unselected_iff kind decided]
  have next := next_supervisor kind decided turn.leads
  constructor
  · rintro ⟨_, decided', _, selects⟩ ⟨goes, none⟩
    cases decided.symm.trans decided'
    rcases next with ⟨final, _⟩ | ⟨_, _, target, _⟩
    · exact goes final
    · have selected := (selects _ target).1
      rw [none] at selected
      contradiction
  · intro selected
    refine ⟨decision, decided, ?_, fun id target => ?_⟩
    · rcases next with ⟨final, target⟩ | ⟨goes, _, target, _⟩
      · exact ⟨fun _ => final, fun _ => target⟩
      · rw [target]
        exact ⟨fun none => by contradiction, fun final => absurd final goes⟩
    · rcases next with ⟨_, none⟩ | ⟨goes, _, target', _⟩
      · rw [none] at target
        contradiction
      · cases chosen : decision.selectedNodeId with
        | none => exact absurd ⟨goes, chosen⟩ selected
        | some id' =>
            rw [target', chosen] at target
            cases target
            exact ⟨rfl, CompiledGraph.fits_of_valid valid goes _ chosen⟩

/-- Where a decision that selects no node is followed. -/
theorem Turn.Unselected.kind {turn : Turn c} (unselected : turn.Unselected)
    (kind : turn.node.type = .supervisor) :
    (∃ node, c.program.definition.nodeMap.find? "" = some node ∧ node.type.capability = true) ∧
      ∃ node, c.program.definition.nodeMap.find? "None" = some node ∧
        node.type.capability = true := by
  obtain ⟨_, _, decision, _, _, _, valid, decided⟩ := turn.decides kind
  obtain ⟨goes, none⟩ := (turn.unselected_iff kind decided).mp unselected
  have known := validateDecision_ok valid goes
  rw [none] at known
  obtain ⟨node, stored, same⟩ := known
  refine ⟨⟨node, stored, capability_of_value same⟩, ?_⟩
  rcases next_supervisor kind decided turn.leads with ⟨final, _⟩ | ⟨_, _, _, capability⟩
  · exact absurd final goes
  · rwa [none] at capability

end Shape

/-- At every turn the node that comes next is the one that is decided, in a course whose models
select a node whenever they decide to go on. One that selects none is followed in a graph with
capabilities of the empty id and of the id `None`. A supervisor writes no decision for a node
that is unknown or of another type. -/
theorem control_follows_decisions_iff (c : RunConfig) {definition : AgentDefinition}
    (compiled : compileGraph c.py definition = .ok c.program.definition) {s t : Checkpoint}
    {turns : List (Turn c)} (course : Course c s turns t) :
    ((∀ before turn after, turns = before ++ turn :: after → turn.Shaped before) ↔
        ∀ turn ∈ turns, turn.node.type = .supervisor → ¬ turn.Unselected) ∧
      (∀ turn ∈ turns, turn.node.type = .supervisor → turn.Unselected →
        (∃ node, c.program.definition.nodeMap.find? "" = some node ∧
          node.type.capability = true) ∧
        ∃ node, c.program.definition.nodeMap.find? "None" = some node ∧
          node.type.capability = true) ∧
      (∀ edges, c.program.definition.compileLanggraph = .ok edges →
        (edges.map Prod.fst).Nodup) ∧
      ∀ node state history patch, node.type = .supervisor →
        Answered history (makeNode c.py c.program.definition c.deps node state) (pure patch) →
        ∀ result ∈ modelAnswers history, ∀ structured decision,
          result.structured = some structured →
          SupervisorDecision.validate c.py (.obj structured) = .ok decision →
          c.program.definition.Fits decision := by
  have supervised := compileGraph_supervised compiled
  refine ⟨⟨?_, ?_⟩, fun turn _ kind unselected => unselected.kind kind,
    fun edges accepted => compileLanggraph_unique accepted, ?_⟩
  · intro shaped turn member kind
    obtain ⟨before, after, rfl⟩ := List.append_of_mem member
    exact (turn.selects_iff kind).mp ((shaped before turn after rfl).selects kind)
  · rintro selected before turn after rfl
    have looping (decided : Decided before) : turn.source.Looping c :=
      course.split.1.looping supervised decided
    refine ⟨fun decided => ?_, fun kind id next => turn.dispatches kind next,
      fun decided kind => turn.returns supervised kind (looping decided).1,
      fun kind => (turn.selects_iff kind).mpr (selected turn (by simp) kind)⟩
    obtain ⟨node, found, kind⟩ := (looping decided).2 _ rfl
    rw [turn.found] at found
    cases found
    exact kind
  · intro node state history patch kind returned result member structured decision found parsed
    have writes := wp_returned makeNode_writes returned
    cases writes with
    | supervisor _ asked found' parsed' valid =>
        rw [asked, List.mem_singleton] at member
        cases member
        cases found'.symm.trans found
        cases parsed'.symm.trans parsed
        exact CompiledGraph.fits_of_valid valid
    | llm _ other | transform _ other => rw [kind] at other; contradiction
    | capability _ other => rw [kind] at other; contradiction

section Courses
variable {c : RunConfig} {node : NodeDef} {state : GraphState} {target : Option NodeId}

/-- A course in which no one has to be asked gives a turn. -/
theorem Turn.of_leads {patch : GraphState}
    (found : c.program.definition.nodeMap.find? node.id = some node)
    (ran : Leads Unattended
      (runNode c.py c.program.definition c.deps (state.runId c.py) node state) (pure patch))
    (leads : c.program.definition.next c.py node (state.merge patch) = .ok target) :
    ∃ turn : Turn c, turn.source = ⟨state, some node.id⟩ ∧ turn.node = node ∧
      turn.patch = patch ∧ turn.after = ⟨state.merge patch, target⟩ := by
  obtain ⟨history, returned⟩ := (makeNode_leads ran).answered
  exact ⟨⟨state, node, history, patch, target, found, returned, leads⟩, rfl, rfl, rfl, rfl⟩

theorem supervisor_turn (found : c.program.definition.nodeMap.find? node.id = some node)
    (kind : node.type = .supervisor) (passable : node.Passable c.py c.deps)
    {decision : SupervisorDecision}
    (valid : c.program.definition.validateDecision decision = .ok ())
    (leads : c.program.definition.next c.py node (state.merge decision.patch) = .ok target) :
    ∃ turn : Turn c, turn.source = ⟨state, some node.id⟩ ∧ turn.node = node ∧
      turn.patch = decision.patch ∧ turn.after = ⟨state.merge decision.patch, target⟩ := by
  refine Turn.of_leads found ?_ leads
  unfold runNode
  rw [kind]
  exact runSupervisor_leads kind passable decision valid

end Courses

section Sample

def sampleSupervisor : NodeDef := { type := .supervisor, id := "supervisor" }

/-- Two retrievers with peculiar names. -/
def unnamedDefinition : AgentDefinition where
  name := "support"
  nodes := [{ type := .supervisor, id := "supervisor" }, { type := .rag, id := "" },
    { type := .rag, id := "None" }]
  edges := []
  entry := "supervisor"

def unnamedRun : RunConfig where
  py := .onEmpty
  runId := sampleRun
  program := ⟨.ofDefinition unnamedDefinition, by decide⟩
  deps := sampleDeps

/-- The decision selects no node, is checked against the node with the empty id, and runs the
node `None`. -/
theorem unselected_node_runs :
    compileGraph unnamedRun.py unnamedDefinition = .ok unnamedRun.program.definition ∧
      ¬ ∀ (t : Checkpoint) (turns : List (Turn unnamedRun)),
        Course unnamedRun (RunState.input unnamedRun none "hello") turns t →
        ∀ before turn after, turns = before ++ turn :: after → turn.Shaped before := by
  refine ⟨rfl, fun shaped => ?_⟩
  let decision : SupervisorDecision := { action := .rag }
  let input := (RunState.input unnamedRun none "hello").state
  have found : unnamedRun.program.definition.nodeMap.find? sampleSupervisor.id =
      some sampleSupervisor := rfl
  have target : unnamedRun.program.definition.next unnamedRun.py sampleSupervisor
      (input.merge decision.patch) = .ok (some "None") := rfl
  obtain ⟨turn, source, own, _, after⟩ := supervisor_turn found rfl ⟨"model", rfl⟩ rfl target
  have course : Course unnamedRun (RunState.input unnamedRun none "hello") [turn] turn.after :=
    .single source rfl
  have kind : turn.node.type = .supervisor := by rw [own]; rfl
  have decided : turn.after.state.decision unnamedRun.py = .ok decision := by
    rw [after]
    exact selected_decision _ _ _
  obtain ⟨_, decided', _, selects⟩ := (shaped _ _ course [] turn [] rfl).selects kind
  cases decided.symm.trans decided'
  have selected := (selects "None" (congrArg Checkpoint.next after)).1
  contradiction

def handbookNode : NodeDef where
  type := .rag
  id := "docs"
  config := [("knowledge_base_id", .str "handbook")]

def handbookRun : RunConfig where
  py := .onEmpty
  runId := sampleRun
  program := ⟨.ofDefinition (sampleDefinition handbookNode), by decide⟩
  deps := sampleDeps

/-- A turn of the retriever between two of the supervisor, which selects it and then ends the
run. -/
theorem handbook_turns : ∃ first second third : Turn handbookRun,
    Course handbookRun (RunState.input handbookRun none "hello") [first, second, third]
        third.after ∧
      first.node = sampleSupervisor ∧ second.node = handbookNode ∧
      third.node = sampleSupervisor ∧ third.after.next = none ∧
      (∃ decision, first.after.state.decision handbookRun.py = .ok decision ∧
        decision.selectedNodeId = some "docs") ∧
      ∃ decision, third.after.state.decision handbookRun.py = .ok decision ∧
        decision.action = .final := by
  let selects : SupervisorDecision := { action := .rag, capabilityNodeId := some "docs" }
  let ends : SupervisorDecision := { action := .final }
  let input := (RunState.input handbookRun none "hello").state
  let asked := input.merge selects.patch
  let patch : GraphState := { data := [("rag_results", .arr [.obj (ToolResult.ok []).dump])] }
  have stored : handbookRun.program.definition.nodeMap.find? sampleSupervisor.id =
      some sampleSupervisor := rfl
  have called : handbookRun.program.definition.validateDecision selects = .ok () := rfl
  have calls : handbookRun.program.definition.next handbookRun.py sampleSupervisor
      (input.merge selects.patch) = .ok (some "docs") := rfl
  obtain ⟨first, source, own, _, after⟩ :=
    supervisor_turn (c := handbookRun) stored rfl ⟨"model", rfl⟩ called calls
  have ran : Leads Unattended (runNode handbookRun.py handbookRun.program.definition
      handbookRun.deps (asked.runId handbookRun.py) handbookNode asked) (pure patch) :=
    .ask () trivial (.ask (ToolResult.ok []) trivial (.ask () trivial (.refl _)))
  have returns : handbookRun.program.definition.next handbookRun.py handbookNode
      (asked.merge patch) = .ok (some "supervisor") := rfl
  obtain ⟨second, source', own', _, after'⟩ := Turn.of_leads (c := handbookRun) rfl ran returns
  have settled : handbookRun.program.definition.validateDecision ends = .ok () := rfl
  have stops : handbookRun.program.definition.next handbookRun.py sampleSupervisor
      ((asked.merge patch).merge ends.patch) = .ok none := rfl
  obtain ⟨third, source'', own'', _, after''⟩ :=
    supervisor_turn (c := handbookRun) stored rfl ⟨"model", rfl⟩ settled stops
  have course := (Course.single source after).append
    ((Course.single source' after').append (Course.single source'' rfl))
  refine ⟨first, second, third, course, own, own', own'', ?_, ⟨selects, ?_, rfl⟩, ends, ?_, rfl⟩
  · rw [after'']
  · rw [after]
    exact selected_decision _ _ _
  · rw [after'']
    exact selected_decision _ _ _

/-- The supervisor selects the retriever, gets control back and decides that the run is final. -/
theorem final_decision_ends : ∃ turns t,
    Course handbookRun (RunState.input handbookRun none "hello") turns t ∧
      turns.map (fun turn => turn.node.id) = ["supervisor", "docs", "supervisor"] ∧
      t.next = none ∧
      ∀ before turn after, turns = before ++ turn :: after → turn.Shaped before := by
  obtain ⟨first, second, third, course, own, own', own'', ended, ⟨selects, selected, docs⟩, ends,
    final, concludes⟩ := handbook_turns
  have compiled : compileGraph handbookRun.py (sampleDefinition handbookNode) =
      .ok handbookRun.program.definition := rfl
  have shaped := (control_follows_decisions_iff handbookRun compiled course).1.mpr
    fun turn member kind unselected => by
      simp only [List.mem_cons, List.not_mem_nil, or_false] at member
      rcases member with rfl | rfl | rfl
      · have unnamed := ((turn.unselected_iff kind selected).mp unselected).2
        rw [docs] at unnamed
        contradiction
      · rw [own'] at kind
        contradiction
      · exact ((turn.unselected_iff kind final).mp unselected).1 concludes
  refine ⟨[first, second, third], third.after, course, ?_, ended, shaped⟩
  rw [List.map_cons, List.map_cons, List.map_singleton, own, own', own'']
  rfl

end Sample
end AgentRuntime
