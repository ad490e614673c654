import Mathlib.Logic.Relation
import AgentRuntime.Routing

/-! Reachability in two graphs: the one that the validator searches and the topology that
`compile_langgraph` builds. The validator counts the explicit edges out of the supervisor and of
the capabilities, and the compiler replaces them. -/
namespace AgentRuntime
open Tables Relation

namespace AgentDefinition

/-- An explicit edge that the compiler keeps: none out of a supervisor, and none out of a
capability that has a supervisor to return to. -/
def Kept (definition : AgentDefinition) (a b : NodeId) : Prop :=
  ∃ edge ∈ definition.edges, edge.source = a ∧ edge.target = b ∧
    ∃ node ∈ definition.nodes, node.id = a ∧ node.type ≠ .supervisor ∧
      (node.type.capability = true → definition.supervisors = [])

end AgentDefinition

namespace CompiledGraph

/-- An arc of the topology with these edges. A routed edge leads to every key of the path map. -/
inductive Arc (graph : CompiledGraph) (edges : List (NodeId × Edge)) : NodeId → NodeId → Prop
  | goes {id target} : (id, .goes target) ∈ edges → Arc graph edges id target
  | routed {id key target} : (id, .routed) ∈ edges → graph.supervisorPathMap key = some target →
      Arc graph edges id target

end CompiledGraph

/-- The edge behind a node: the supervisor routes, a capability returns to it, and any other node
keeps its single explicit edge. -/
inductive Behind (graph : CompiledGraph) (node : NodeDef) : Edge → Prop
  | routes : node.type = .supervisor → Behind graph node .routed
  | returns {id} : node.type.capability = true → graph.supervisorId = some id →
      Behind graph node (.goes id)
  | keeps {edge} : node.type ≠ .supervisor →
      (node.type.capability = true → graph.supervisorId = none) →
      (graph.outEdges node.id = [] ∧ edge = .exit) ∨
        (∃ only, graph.outEdges node.id = [only] ∧ edge = .goes only.target) →
      Behind graph node edge

theorem edge_behind {graph : CompiledGraph} {node : NodeDef} {edge : Edge}
    (leads : graph.edge node = .ok edge) : Behind graph node edge := by
  unfold CompiledGraph.edge at leads
  split at leads
  next kind =>
    cases leads
    exact .routes kind
  next kind =>
    split at leads
    next id capable chosen =>
      cases leads
      exact .returns capable chosen
    next different =>
      refine .keeps kind (fun capable => ?_) ?_
      · cases chosen : graph.supervisorId with
        | none => rfl
        | some id => exact (different id capable chosen).elim
      · split at leads
        next none =>
          cases leads
          exact .inl ⟨none, rfl⟩
        next source target single =>
          cases leads
          exact .inr ⟨_, single, rfl⟩
        next => contradiction

theorem supervisors_eq_nil {definition : AgentDefinition} :
    definition.supervisors = [] ↔ (CompiledGraph.ofDefinition definition).supervisorId = none := by
  simp [CompiledGraph.ofDefinition]

/-- A definition that both checks of `create_run` accept. -/
structure Accepted (py : Builtins) (definition : AgentDefinition)
    (edges : List (NodeId × Edge)) : Prop where
  compiled : compileGraph py definition = .ok (.ofDefinition definition)
  accepted : (CompiledGraph.ofDefinition definition).compileLanggraph = .ok edges

namespace Accepted
variable {py : Builtins} {definition : AgentDefinition} {edges : List (NodeId × Edge)}

theorem valid (both : Accepted py definition edges) : definition.Valid py :=
  validateGraph_valid (compileGraph_ok both.compiled).1

theorem distinct (both : Accepted py definition edges) : definition.nodeIds.Nodup :=
  (validateGraph_ok (compileGraph_ok both.compiled).1).1

theorem stored_iff (both : Accepted py definition edges) {node : NodeDef} :
    node ∈ (CompiledGraph.ofDefinition definition).nodeMap.rows ↔ node ∈ definition.nodes := by
  rw [Table.mem_rows_iff]
  refine ⟨fun stored => ?_, ofDefinition_stored both.distinct⟩
  rw [ofDefinition_find?] at stored
  exact List.mem_of_find?_eq_some stored

theorem same_node (both : Accepted py definition edges) {node other : NodeDef}
    (member : node ∈ definition.nodes) (among : other ∈ definition.nodes)
    (same : node.id = other.id) : node = other :=
  List.inj_on_of_nodup_map both.distinct member among same

/-- The supervisor is the only one. -/
theorem supervisorId_iff (both : Accepted py definition edges) {node : NodeDef}
    (member : node ∈ definition.nodes) :
    (CompiledGraph.ofDefinition definition).supervisorId = some node.id ↔
      node.type = .supervisor := by
  have supervised := compileGraph_supervised both.compiled
  have stored := ofDefinition_stored both.distinct member
  refine ⟨fun chosen => ?_, supervised.only _ _ stored⟩
  obtain ⟨other, found, kind⟩ := supervised.stored _ chosen
  cases stored.symm.trans found
  exact kind

theorem supervisorId_stored (both : Accepted py definition edges) {id : NodeId}
    (chosen : (CompiledGraph.ofDefinition definition).supervisorId = some id) :
    ∃ node ∈ definition.nodes, node.id = id ∧ node.type = .supervisor := by
  obtain ⟨node, found, kind⟩ := (compileGraph_supervised both.compiled).stored _ chosen
  have own : node.id = id := Table.key_of_find? found
  exact ⟨node, both.stored_iff.mp (Table.find?_eq_some.mp found).1, own, kind⟩

theorem behind (both : Accepted py definition edges) {node : NodeDef}
    (member : node ∈ definition.nodes) :
    ∃ edge, (node.id, edge) ∈ edges ∧ Behind (.ofDefinition definition) node edge := by
  have stored := both.stored_iff.mpr member
  obtain ⟨edge, leads⟩ := compileLanggraph_edge both.accepted stored
  exact ⟨edge, (mem_compileLanggraph both.accepted).mpr ⟨node, stored, rfl, leads⟩,
    edge_behind leads⟩

/-- A kept edge is an arc. -/
theorem arc_of_kept (both : Accepted py definition edges) {a b : NodeId}
    (kept : definition.Kept a b) : (CompiledGraph.ofDefinition definition).Arc edges a b := by
  obtain ⟨explicit, member, rfl, rfl, node, among, own, kind, free⟩ := kept
  obtain ⟨edge, listed, behind⟩ := both.behind among
  rw [← own]
  cases behind with
  | routes supervisor => exact absurd supervisor kind
  | returns capable chosen =>
      rw [supervisors_eq_nil.mp (free capable)] at chosen
      contradiction
  | keeps _ _ out =>
      have outgoing : explicit ∈ (CompiledGraph.ofDefinition definition).outEdges node.id :=
        List.mem_filter.mpr ⟨member, by simpa using own.symm⟩
      rcases out with ⟨none, _⟩ | ⟨only, single, rfl⟩
      · rw [none] at outgoing
        contradiction
      · rw [single, List.mem_singleton] at outgoing
        rw [outgoing]
        exact .goes listed

/-- An arc to a node that the supervisor does not dispatch is a kept edge. -/
theorem kept_of_arc (both : Accepted py definition edges) {a : NodeId} {node : NodeDef}
    (member : node ∈ definition.nodes) (kind : node.type ≠ .supervisor)
    (own : node.type.capability = true → definition.supervisors = [])
    (arc : (CompiledGraph.ofDefinition definition).Arc edges a node.id) :
    definition.Kept a node.id := by
  generalize same : node.id = target at arc
  cases arc with
  | routed listed mapped =>
      obtain ⟨other, found, target⟩ := Option.map_eq_some_iff.mp mapped
      obtain ⟨found, capable⟩ := Option.filter_eq_some_iff.mp found
      have among := both.stored_iff.mp (Table.find?_eq_some.mp found).1
      cases both.same_node member among (same.trans target.symm)
      obtain ⟨source, stored, _, leads⟩ :=
        (mem_compileLanggraph both.accepted).mp listed
      generalize routed : Edge.routed = edge at leads
      cases edge_behind leads with
      | routes type =>
          have supervisor : source ∈ definition.supervisors :=
            List.mem_filter.mpr ⟨both.stored_iff.mp stored, by simpa using type⟩
          rw [own capable] at supervisor
          contradiction
      | returns => contradiction
      | keeps _ _ out =>
          rcases out with ⟨_, exit⟩ | ⟨_, _, goes⟩
          · cases routed.trans exit
          · cases routed.trans goes
  | goes listed =>
      obtain ⟨source, stored, rfl, leads⟩ :=
        (mem_compileLanggraph both.accepted).mp listed
      have among := both.stored_iff.mp stored
      generalize leadsTo : Edge.goes target = edge at leads
      cases edge_behind leads with
      | routes => contradiction
      | returns capable chosen =>
          cases leadsTo
          rw [← same] at chosen
          exact absurd ((both.supervisorId_iff member).mp chosen) kind
      | keeps other free out =>
          rcases out with ⟨_, exit⟩ | ⟨only, single, goes⟩
          · cases leadsTo.trans exit
          · cases leadsTo.trans goes
            have outgoing : only ∈ (CompiledGraph.ofDefinition definition).outEdges source.id := by
              rw [single]
              exact List.mem_singleton_self _
            obtain ⟨explicit, from'⟩ := List.mem_filter.mp outgoing
            exact ⟨only, explicit, by simpa using from', rfl, source, among, rfl, other,
              fun capable => supervisors_eq_nil.mpr (free capable)⟩

theorem entry (both : Accepted py definition edges) : definition.entry ∈ definition.nodeIds := by
  have accepted := both.accepted
  unfold CompiledGraph.compileLanggraph at accepted
  split at accepted
  next => contradiction
  next present =>
    cases found : (CompiledGraph.ofDefinition definition).nodeMap.find? definition.entry with
    | none => exact absurd (by rw [CompiledGraph.ofDefinition] at found ⊢; rw [found]; rfl) present
    | some node =>
        have own : node.id = definition.entry := Table.key_of_find? found
        exact own ▸ List.mem_map_of_mem (both.stored_iff.mp (Table.find?_eq_some.mp found).1)

theorem known (both : Accepted py definition edges) : ∀ edge ∈ definition.edges,
    edge.source ∈ definition.nodeIds ∧ edge.target ∈ definition.nodeIds :=
  (checkAllEdgesValid_decides _ _).of_ok both.valid.edges

/-- The validator reaches every node from the entry. -/
theorem validated (both : Accepted py definition edges) {id : NodeId}
    (known : id ∈ definition.nodeIds) : ReflTransGen definition.Linked definition.entry id := by
  have decided := checkEntryReachable_decides py both.known
  obtain ⟨root, first, path⟩ := (decided.of_ok both.valid.reachable).2 id known
  cases first with
  | entry => exact path
  | source marker => exact absurd both.entry marker
  | any marker => exact absurd both.entry marker

/-- From the supervisor, or from a capability with one, the supervisor and every capability are
reached. -/
theorem central (both : Accepted py definition edges) {start : NodeId} {node target : NodeDef}
    (path : ReflTransGen ((CompiledGraph.ofDefinition definition).Arc edges) start node.id)
    (member : node ∈ definition.nodes) (among : target ∈ definition.nodes)
    (replaced : node.type = .supervisor ∨
      node.type.capability = true ∧ definition.supervisors ≠ [])
    (kind : target.type = .supervisor ∨ target.type.capability = true) :
    ReflTransGen ((CompiledGraph.ofDefinition definition).Arc edges) start target.id := by
  obtain ⟨supervisor, own, type, here⟩ : ∃ supervisor ∈ definition.nodes,
      supervisor.type = .supervisor ∧
      ReflTransGen ((CompiledGraph.ofDefinition definition).Arc edges) start supervisor.id := by
    rcases replaced with type | ⟨capable, some⟩
    · exact ⟨node, member, type, path⟩
    · obtain ⟨edge, listed, behind⟩ := both.behind member
      cases behind with
      | routes type =>
          rw [type] at capable
          contradiction
      | returns _ chosen =>
          obtain ⟨supervisor, own, rfl, type⟩ := both.supervisorId_stored chosen
          exact ⟨supervisor, own, type, path.tail (.goes listed)⟩
      | keeps _ free _ => exact absurd (supervisors_eq_nil.mpr (free capable)) some
  rcases kind with same | capable
  · have first := (both.supervisorId_iff own).mpr type
    have second := (both.supervisorId_iff among).mpr same
    rw [← Option.some.inj (first.symm.trans second)]
    exact here
  · obtain ⟨edge, listed, behind⟩ := both.behind own
    cases behind with
    | routes =>
        have mapped : (CompiledGraph.ofDefinition definition).supervisorPathMap target.id =
            some target.id := by
          simp [CompiledGraph.supervisorPathMap, ofDefinition_stored both.distinct among,
            Option.filter, capable]
        exact here.tail (.routed listed mapped)
    | returns other =>
        rw [type] at other
        contradiction
    | keeps other => exact absurd type other

/-- A path to a node that the supervisor does not dispatch goes over kept edges. -/
theorem kept (both : Accepted py definition edges) {id : NodeId}
    (path : ReflTransGen ((CompiledGraph.ofDefinition definition).Arc edges) definition.entry id) :
    ∀ node ∈ definition.nodes, node.id = id → node.type ≠ .supervisor →
      (node.type.capability = true → definition.supervisors = []) →
        ReflTransGen definition.Kept definition.entry id := by
  induction path with
  | refl => exact fun _ _ _ _ _ => .refl
  | @tail a b _ arc ih =>
      rintro node member rfl kind own
      have kept := both.kept_of_arc member kind own arc
      have step := kept
      obtain ⟨_, _, _, _, source, among, same, kind', own'⟩ := kept
      exact (ih source among same kind' own').tail step

/-- What the validator reaches is reached at run time, if the nodes between are. -/
theorem reached (both : Accepted py definition edges)
    (plain : ∀ node ∈ definition.nodes, node.type ≠ .supervisor → node.type.capability = false →
      ReflTransGen definition.Kept definition.entry node.id)
    {id : NodeId} (path : ReflTransGen definition.Linked definition.entry id) :
    ReflTransGen ((CompiledGraph.ofDefinition definition).Arc edges) definition.entry id := by
  induction path with
  | refl => exact .refl
  | tail _ linked ih =>
      cases linked with
      | @edge edge explicit =>
          obtain ⟨source, target⟩ := both.known edge explicit
          obtain ⟨node, member, own⟩ := List.mem_map.mp source
          obtain ⟨next, among, same⟩ := List.mem_map.mp target
          by_cases kept : node.type ≠ .supervisor ∧
              (node.type.capability = true → definition.supervisors = [])
          · exact ih.tail (both.arc_of_kept ⟨edge, explicit, rfl, rfl, node, member, own, kept⟩)
          · by_cases kind : next.type = .supervisor ∨ next.type.capability = true
            · rw [← same]
              refine both.central (own ▸ ih) member among ?_ kind
              by_contra others
              simp only [not_or, not_and, not_not] at others
              exact kept others
            · simp only [not_or, Bool.not_eq_true] at kind
              rw [← same]
              exact ReflTransGen.mono (fun _ _ => both.arc_of_kept) _ _
                (plain next among kind.1 kind.2)
      | dispatch member type among capable =>
          exact both.central ih member among (.inl type) (.inr capable)
      | back among type member capable =>
          refine both.central ih member among (.inr ⟨capable, fun none => ?_⟩) (.inl type)
          have some := (both.supervisorId_iff among).mpr type
          rw [supervisors_eq_nil.mp none] at some
          contradiction

end Accepted

/-- Every node of an accepted definition is reached in the compiled topology exactly when every
node besides the supervisor and the capabilities is reached from the entry over the explicit
edges that the compiler keeps. -/
theorem reachable_at_runtime_iff {py : Builtins} {definition : AgentDefinition}
    {graph : CompiledGraph} {edges : List (NodeId × Edge)}
    (compiled : compileGraph py definition = .ok graph)
    (accepted : graph.compileLanggraph = .ok edges) :
    (∀ node ∈ definition.nodes, ReflTransGen (graph.Arc edges) graph.entryId node.id) ↔
      ∀ node ∈ definition.nodes, node.type ≠ .supervisor → node.type.capability = false →
        ReflTransGen definition.Kept definition.entry node.id := by
  obtain ⟨_, rfl⟩ := compileGraph_ok compiled
  have both : Accepted py definition edges := ⟨compiled, accepted⟩
  constructor
  · intro reached node member kind plain
    refine both.kept (reached node member) node member rfl kind fun capable => ?_
    rw [plain] at capable
    contradiction
  · intro plain node member
    exact both.reached plain (both.validated (List.mem_map_of_mem member))

section Sample

/-- An llm node in front of a supervisor with one capability. -/
def greetingDefinition : AgentDefinition where
  name := "support"
  nodes := [{ type := .llm, id := "greeting" }, { type := .supervisor, id := "supervisor" },
    { type := .rag, id := "docs" }]
  edges := [{ source := "greeting", target := "supervisor" }]
  entry := "greeting"

theorem docs_reached_behind_greeting : ReflTransGen
    ((CompiledGraph.ofDefinition greetingDefinition).Arc
      [("greeting", .goes "supervisor"), ("supervisor", .routed), ("docs", .goes "supervisor")])
    "greeting" "docs" := by
  have compiled : compileGraph .onEmpty greetingDefinition =
      .ok (.ofDefinition greetingDefinition) := rfl
  have all := (reachable_at_runtime_iff compiled rfl).mpr fun node member kind plain => by
    simp only [greetingDefinition, List.mem_cons, List.not_mem_nil, or_false] at member
    rcases member with rfl | rfl | rfl
    · exact .refl
    · exact absurd rfl kind
    · contradiction
  exact all { type := .rag, id := "docs" } (by simp [greetingDefinition])

/-- A transform behind an explicit edge of the supervisor. -/
def strayDefinition : AgentDefinition where
  name := "support"
  nodes := [{ type := .supervisor, id := "supervisor" }, { type := .transform, id := "stray" }]
  edges := [{ source := "supervisor", target := "stray" }]
  entry := "supervisor"

/-- Both checks accept the definition, and the transform can never execute. -/
theorem stray_never_executes : ¬ ∀ (definition : AgentDefinition) (graph : CompiledGraph)
    (edges : List (NodeId × Edge)), compileGraph .onEmpty definition = .ok graph →
      graph.compileLanggraph = .ok edges →
        ∀ node ∈ definition.nodes, ReflTransGen (graph.Arc edges) graph.entryId node.id := by
  intro always
  let stray : NodeDef := { type := .transform, id := "stray" }
  have both : Accepted .onEmpty strayDefinition [("supervisor", .routed), ("stray", .exit)] :=
    ⟨rfl, rfl⟩
  have member : stray ∈ strayDefinition.nodes := List.mem_cons_of_mem _ List.mem_cons_self
  have path := always _ _ _ both.compiled both.accepted stray member
  rcases (both.kept path stray member rfl (by decide) (by decide)).cases_tail with same | later
  · exact absurd same (by decide)
  · obtain ⟨_, _, edge, explicit, rfl, _, node, among, own, kind, _⟩ := later
    simp only [strayDefinition, List.mem_cons, List.not_mem_nil, or_false] at explicit among
    subst explicit
    rcases among with rfl | rfl
    · exact kind rfl
    · exact absurd own (by decide)

end Sample
end AgentRuntime
