import AgentRuntime.Graph
import AgentRuntime.Library.Searches

/-! What the validator decides. Its search takes the neighbours of a node out of a set, in any
order; a definition is returned exactly when it is well formed, and any other one is an error of
the graph. -/
namespace AgentRuntime
open Relation Searches

namespace AgentDefinition

/-- The loop of `_check_entry_reachable` in some order of the sets, and its verdict. -/
def checkEntryReachableBy (py : Builtins) (unseen : NodeId → List NodeId → List NodeId)
    (rounds : Nat) (definition : AgentDefinition) : Option Validated :=
  let known := definition.nodeIds
  if definition.entry ≠ "START" && definition.entry ∉ known then
    some (invalidGraph ("entry does not reference an existing node: " ++ definition.entry))
  else
    (Searches.explore unseen rounds definition.roots []).map fun seen =>
      let unreachable := (known.filter fun id => id ∉ seen).insertionSort (· ≤ ·)
      if unreachable.isEmpty then .ok ()
      else
        invalidGraph ("unreachable nodes from entry: " ++ py.repr (.arr (unreachable.map .str)))

/-- `validate_graph`, and none where the rounds of the search do not suffice. -/
def validateGraphBy (py : Builtins) (unseen : NodeId → List NodeId → List NodeId)
    (rounds : Nat) (definition : AgentDefinition) : Option Validated :=
  let checks : Validated := do
    checkNoDuplicateIds definition.nodes []
    checkAllEdgesValid definition.nodeIds definition.edges
    definition.checkAtMostOneSupervisor
    checkNoNestedSubagent definition.nodes
  match checks with
  | .error error => some (.error error)
  | .ok () => definition.checkEntryReachableBy py unseen rounds

/-- Every subagent holds a list of objects under `nodes`. -/
def ListsObjects (definition : AgentDefinition) : Prop :=
  ∀ node ∈ definition.nodes, node.type = .subagent →
    ∃ children : List Dict, node.config.getD "nodes" (.arr []) = .arr (children.map .obj)

/-- An explicit edge, or the dispatch of the supervisor to a capability, or the way back. -/
inductive Linked (definition : AgentDefinition) : NodeId → NodeId → Prop
  | edge {edge} : edge ∈ definition.edges → Linked definition edge.source edge.target
  | dispatch {supervisor capability} : supervisor ∈ definition.nodes →
      supervisor.type = .supervisor → capability ∈ definition.nodes →
      capability.type.capability = true → Linked definition supervisor.id capability.id
  | back {supervisor capability} : supervisor ∈ definition.nodes →
      supervisor.type = .supervisor → capability ∈ definition.nodes →
      capability.type.capability = true → Linked definition capability.id supervisor.id

/-- No explicit edge leads to the node. -/
def Source (definition : AgentDefinition) (id : NodeId) : Prop :=
  ∀ edge ∈ definition.edges, edge.target ≠ id

/-- The entry, or else a node that no edge leads to, or else any node. -/
inductive Root (definition : AgentDefinition) : NodeId → Prop
  | entry : definition.entry ∈ definition.nodeIds → Root definition definition.entry
  | source {id} : definition.entry ∉ definition.nodeIds → id ∈ definition.nodeIds →
      definition.Source id → Root definition id
  | any {id} : definition.entry ∉ definition.nodeIds → id ∈ definition.nodeIds →
      (∀ other ∈ definition.nodeIds, ¬ definition.Source other) → Root definition id

structure WellFormed (definition : AgentDefinition) : Prop where
  distinct : definition.nodeIds.Nodup
  edges : ∀ edge ∈ definition.edges,
    edge.source ∈ definition.nodeIds ∧ edge.target ∈ definition.nodeIds
  supervisors : definition.supervisors.length ≤ 1
  nested : ∀ node ∈ definition.nodes, node.type = .subagent → ∀ children : List Dict,
    node.config.getD "nodes" (.arr []) = .arr (children.map .obj) →
      ∀ child ∈ children, child.get? "type" ≠ some (.str "subagent")
  entry : definition.entry ∈ definition.nodeIds ∨ definition.entry = "START"
  reachable : ∀ id ∈ definition.nodeIds,
    ∃ root, definition.Root root ∧ ReflTransGen definition.Linked root id

end AgentDefinition

/-- The check passes where the condition holds, and elsewhere it is an error of the graph. -/
def Decides (check : Validated) (condition : Prop) : Prop :=
  (check = .ok () ∧ condition) ∨ ∃ message, check = invalidGraph message ∧ ¬ condition

section Decides
variable {check rest : Validated} {condition other : Prop}

theorem Decides.seq (first : Decides check condition) (second : condition → Decides rest other) :
    Decides (check >>= fun _ => rest) (condition ∧ other) := by
  rcases first with ⟨rfl, holds⟩ | ⟨message, rfl, fails⟩
  · rcases second holds with ⟨rfl, also⟩ | ⟨message, rfl, fails⟩
    · exact .inl ⟨rfl, holds, also⟩
    · exact .inr ⟨message, rfl, fun both => fails both.2⟩
  · exact .inr ⟨message, rfl, fun both => fails both.1⟩

theorem Decides.of_iff (decides : Decides check condition) (same : condition ↔ other) :
    Decides check other := by
  rwa [← propext same]

theorem Decides.of_ok (decides : Decides check condition) (passed : check = .ok ()) :
    condition := by
  rcases decides with ⟨_, holds⟩ | ⟨message, failed, _⟩
  · exact holds
  · rw [failed] at passed
    contradiction

end Decides

theorem checkNoDuplicateIds_decides (nodes : List NodeDef) (seen : List NodeId) :
    Decides (AgentDefinition.checkNoDuplicateIds nodes seen)
      ((nodes.map NodeDef.id).Nodup ∧ ∀ node ∈ nodes, node.id ∉ seen) := by
  induction nodes generalizing seen with
  | nil => exact .inl ⟨rfl, by simp⟩
  | cons node rest ih =>
      rw [AgentDefinition.checkNoDuplicateIds]
      split
      next known =>
        exact .inr ⟨_, rfl, fun both => both.2 node List.mem_cons_self known⟩
      next fresh =>
        refine (ih (node.id :: seen)).of_iff ?_
        rw [List.map_cons, List.nodup_cons, List.forall_mem_cons, List.mem_map]
        simp only [List.mem_cons, not_or]
        constructor
        · rintro ⟨distinct, unseen⟩
          refine ⟨⟨?_, distinct⟩, fresh, fun other member => (unseen other member).2⟩
          rintro ⟨other, member, same⟩
          exact (unseen other member).1 same
        · rintro ⟨⟨absent, distinct⟩, _, unseen⟩
          exact ⟨distinct, fun other member => ⟨fun same => absent ⟨other, member, same⟩,
            unseen other member⟩⟩

theorem checkAllEdgesValid_decides (known : List NodeId) (edges : List EdgeDef) :
    Decides (AgentDefinition.checkAllEdgesValid known edges)
      (∀ edge ∈ edges, edge.source ∈ known ∧ edge.target ∈ known) := by
  induction edges with
  | nil => exact .inl ⟨rfl, by simp⟩
  | cons edge rest ih =>
      rw [AgentDefinition.checkAllEdgesValid]
      split
      next missing => exact .inr ⟨_, rfl, fun all => missing (all edge List.mem_cons_self).1⟩
      next source =>
        split
        next missing => exact .inr ⟨_, rfl, fun all => missing (all edge List.mem_cons_self).2⟩
        next target =>
          refine ih.of_iff ?_
          rw [List.forall_mem_cons]
          exact ⟨fun later => ⟨⟨not_not.mp source, not_not.mp target⟩, later⟩, And.right⟩

theorem checkAtMostOneSupervisor_decides (definition : AgentDefinition) :
    Decides definition.checkAtMostOneSupervisor (definition.supervisors.length ≤ 1) := by
  unfold AgentDefinition.checkAtMostOneSupervisor
  split
  next several => exact .inr ⟨_, rfl, Nat.not_le_of_lt several⟩
  next few => exact .inl ⟨rfl, Nat.le_of_not_lt few⟩

theorem checkChildren_decides (children : List Dict) :
    Decides (AgentDefinition.checkChildren (children.map .obj))
      (∀ child ∈ children, child.get? "type" ≠ some (.str "subagent")) := by
  induction children with
  | nil => exact .inl ⟨rfl, by simp⟩
  | cons child rest ih =>
      rw [List.map_cons, AgentDefinition.checkChildren]
      split
      next nested =>
        refine .inr ⟨_, rfl, fun all => all child List.mem_cons_self ?_⟩
        obtain ⟨value, found, text⟩ := Option.bind_eq_some_iff.mp nested
        cases value <;> simp [Json.str?] at text
        rw [found, text]
      next other =>
        refine ih.of_iff ?_
        rw [List.forall_mem_cons]
        refine ⟨fun later => ⟨fun nested => other ?_, later⟩, And.right⟩
        rw [nested]
        rfl

theorem checkNoNestedSubagent_decides {nodes : List NodeDef}
    (lists : ∀ node ∈ nodes, node.type = .subagent →
      ∃ children : List Dict, node.config.getD "nodes" (.arr []) = .arr (children.map .obj)) :
    Decides (AgentDefinition.checkNoNestedSubagent nodes)
      (∀ node ∈ nodes, node.type = .subagent → ∀ children : List Dict,
        node.config.getD "nodes" (.arr []) = .arr (children.map .obj) →
          ∀ child ∈ children, child.get? "type" ≠ some (.str "subagent")) := by
  induction nodes with
  | nil => exact .inl ⟨rfl, by simp⟩
  | cons node rest ih =>
      have later := ih fun other member => lists other (List.mem_cons_of_mem _ member)
      rw [AgentDefinition.checkNoNestedSubagent]
      split
      next kind =>
        obtain ⟨children, listed⟩ := lists node List.mem_cons_self kind
        simp only [listed, Json.toList]
        refine ((checkChildren_decides children).seq fun _ => later).of_iff ?_
        rw [List.forall_mem_cons]
        refine and_congr_left fun _ => ⟨fun plain _ others same => ?_, fun all => ?_⟩
        · have equal : children.map Json.obj = others.map Json.obj :=
            Json.arr.inj (listed.symm.trans same)
          rw [← List.map_injective_iff.mpr (fun _ _ => Json.obj.inj) equal]
          exact plain
        · exact all kind children listed
      next kind =>
        refine later.of_iff ?_
        rw [List.forall_mem_cons]
        exact ⟨fun later => ⟨fun same => absurd same kind, later⟩, And.right⟩

section Search
variable {definition : AgentDefinition} {py : Builtins}

theorem adjacent_of_linked {a b : NodeId} (linked : definition.Linked a b) :
    b ∈ definition.adjacency a := by
  unfold AgentDefinition.adjacency
  dsimp only
  cases linked with
  | @edge edge member =>
      refine List.mem_append_left _ (List.mem_append_left _ ?_)
      exact List.mem_filterMap.mpr ⟨edge, member, if_pos rfl⟩
  | @dispatch supervisor capability among kind member capable =>
      refine List.mem_append_left _ (List.mem_append_right _ ?_)
      rw [if_pos (List.mem_map_of_mem (List.mem_filter.mpr ⟨among, by simpa using kind⟩))]
      exact List.mem_map_of_mem (List.mem_filter.mpr ⟨member, capable⟩)
  | @back supervisor capability among kind member capable =>
      refine List.mem_append_right _ ?_
      rw [if_pos (List.mem_map_of_mem (List.mem_filter.mpr ⟨member, capable⟩))]
      exact List.mem_map_of_mem (List.mem_filter.mpr ⟨among, by simpa using kind⟩)

theorem linked_of_adjacent {a b : NodeId} (adjacent : b ∈ definition.adjacency a) :
    definition.Linked a b := by
  unfold AgentDefinition.adjacency at adjacent
  dsimp only at adjacent
  rcases List.mem_append.mp adjacent with adjacent | returned
  · rcases List.mem_append.mp adjacent with explicit | dispatched
    · obtain ⟨edge, member, same⟩ := List.mem_filterMap.mp explicit
      split at same
      next own =>
        cases same
        exact own ▸ .edge member
      next => contradiction
    · split at dispatched
      next among =>
        obtain ⟨supervisor, listed, rfl⟩ := List.mem_map.mp among
        obtain ⟨capability, listed', rfl⟩ := List.mem_map.mp dispatched
        obtain ⟨among, kind⟩ := List.mem_filter.mp listed
        obtain ⟨member, capable⟩ := List.mem_filter.mp listed'
        exact .dispatch among (by simpa using kind) member capable
      next => contradiction
  · split at returned
    next among =>
      obtain ⟨capability, listed, rfl⟩ := List.mem_map.mp among
      obtain ⟨supervisor, listed', rfl⟩ := List.mem_map.mp returned
      obtain ⟨member, capable⟩ := List.mem_filter.mp listed
      obtain ⟨among, kind⟩ := List.mem_filter.mp listed'
      exact .back among (by simpa using kind) member capable
    next => contradiction

theorem linked_iff {a b : NodeId} : definition.Linked a b ↔ b ∈ definition.adjacency a :=
  ⟨adjacent_of_linked, linked_of_adjacent⟩

theorem source_iff {id : NodeId} :
    definition.Source id ↔ id ∉ definition.edges.map EdgeDef.target := by
  simp [AgentDefinition.Source]

theorem root_iff {id : NodeId} : definition.Root id ↔ id ∈ definition.roots := by
  unfold AgentDefinition.roots
  dsimp only
  split
  next own =>
    rw [List.mem_singleton]
    constructor
    · intro root
      cases root with
      | entry => rfl
      | source other => exact absurd own other
      | any other => exact absurd own other
    · rintro rfl
      exact .entry own
  next marker =>
    split
    next none =>
      have all : ∀ other ∈ definition.nodeIds, ¬ definition.Source other := by
        intro other member free
        have listed : other ∈ definition.nodeIds.filter fun id =>
            id ∉ definition.edges.map EdgeDef.target :=
          List.mem_filter.mpr ⟨member, by simpa using source_iff.mp free⟩
        rw [List.isEmpty_iff.mp none] at listed
        contradiction
      constructor
      · intro root
        cases root with
        | entry own => exact absurd own marker
        | source _ member => exact member
        | any _ member => exact member
      · exact fun member => .any marker member all
    next some =>
      constructor
      · intro root
        cases root with
        | entry own => exact absurd own marker
        | source _ member free =>
            exact List.mem_filter.mpr ⟨member, by simpa using source_iff.mp free⟩
        | any _ member all =>
            refine absurd ?_ some
            rw [List.isEmpty_iff, List.filter_eq_nil_iff]
            exact fun other among free => all other among (source_iff.mpr (by simpa using free))
      · intro listed
        obtain ⟨member, free⟩ := List.mem_filter.mp listed
        exact .source marker member (source_iff.mpr (by simpa using free))

theorem adjacency_known
    (edges : ∀ edge ∈ definition.edges,
      edge.source ∈ definition.nodeIds ∧ edge.target ∈ definition.nodeIds) :
    Within definition.adjacency definition.nodeIds ⟨definition.roots, []⟩ where
  frontier id member := by
    cases root_iff.mpr member with
    | entry own => exact own
    | source _ known => exact known
    | any _ known => exact known
  closed id _ next adjacent := by
    cases linked_iff.mpr adjacent with
    | edge member => exact (edges _ member).2
    | dispatch _ _ member => exact List.mem_map_of_mem member
    | back member => exact List.mem_map_of_mem member

/-- What the search in any order has seen. -/
theorem seen_iff (unseen : NodeId → List NodeId → List NodeId)
    (fresh : ∀ current seen,
      Searches.Fresh definition.adjacency current seen (unseen current (current :: seen)))
    (edges : ∀ edge ∈ definition.edges,
      edge.source ∈ definition.nodeIds ∧ edge.target ∈ definition.nodeIds) {rounds : Nat}
    (enough : definition.roots.length +
      (definition.nodeIds.flatMap definition.adjacency).length ≤ rounds) :
    ∃ seen, Searches.explore unseen rounds definition.roots [] = some seen ∧ ∀ id, id ∈ seen ↔
      ∃ root, definition.Root root ∧ ReflTransGen definition.Linked root id := by
  obtain ⟨seen, returned, found⟩ := mem_explore_iff fresh (adjacency_known edges) enough
  refine ⟨seen, returned, fun id => (found id).trans ?_⟩
  have same : (fun a b => b ∈ definition.adjacency a) = definition.Linked := by
    funext a b
    exact propext linked_iff.symm
  simp only [same, root_iff]

/-- The order of `reached`, and its rounds. -/
theorem explore_eq {neighbours : NodeId → List NodeId} {rounds : Nat}
    {frontier seen seen' : List NodeId}
    (returned : Searches.explore (fun current seen => (neighbours current).filter (· ∉ seen)) rounds
      frontier seen = some seen') :
    AgentDefinition.explore neighbours rounds frontier seen = seen' := by
  induction rounds generalizing frontier seen with
  | zero =>
      cases frontier with
      | nil => exact Option.some.inj returned
      | cons => contradiction
  | succ rounds ih =>
      cases frontier with
      | nil => exact Option.some.inj returned
      | cons current frontier =>
          rw [Searches.explore] at returned
          rw [AgentDefinition.explore]
          split at returned
          next known =>
            rw [if_pos known]
            exact ih returned
          next new =>
            rw [if_neg new]
            exact ih returned

theorem fresh_filter (neighbours : NodeId → List NodeId) (current : NodeId) (seen : List NodeId) :
    Searches.Fresh neighbours current seen
      ((neighbours current).filter fun id => id ∉ current :: seen) :=
  ⟨fun id => by rw [List.mem_filter, decide_eq_true_iff], List.length_filter_le _ _⟩

theorem mem_reached_iff
    (edges : ∀ edge ∈ definition.edges,
      edge.source ∈ definition.nodeIds ∧ edge.target ∈ definition.nodeIds) {id : NodeId} :
    id ∈ definition.reached ↔
      ∃ root, definition.Root root ∧ ReflTransGen definition.Linked root id := by
  obtain ⟨seen, returned, found⟩ := seen_iff
    (fun current seen => (definition.adjacency current).filter fun id => id ∉ seen)
    (fresh_filter definition.adjacency) edges (Nat.le_refl _)
  rw [← found id, AgentDefinition.reached, explore_eq returned]

theorem checkEntryReachable_decides (py : Builtins)
    (edges : ∀ edge ∈ definition.edges,
      edge.source ∈ definition.nodeIds ∧ edge.target ∈ definition.nodeIds) :
    Decides (definition.checkEntryReachable py)
      ((definition.entry ∈ definition.nodeIds ∨ definition.entry = "START") ∧
        ∀ id ∈ definition.nodeIds,
          ∃ root, definition.Root root ∧ ReflTransGen definition.Linked root id) := by
  unfold AgentDefinition.checkEntryReachable
  dsimp only
  split
  next unknown =>
    simp only [ne_eq, Bool.and_eq_true, decide_eq_true_eq] at unknown
    exact .inr ⟨_, rfl, fun both => both.1.elim unknown.2 unknown.1⟩
  next known =>
    have entry : definition.entry ∈ definition.nodeIds ∨ definition.entry = "START" := by
      by_contra neither
      rw [not_or] at neither
      exact known (by simp [neither])
    split
    next none =>
      refine .inl ⟨rfl, entry, fun id member => (mem_reached_iff edges).mp ?_⟩
      by_contra missing
      have listed : id ∈ (definition.nodeIds.filter
          fun id => id ∉ definition.reached).insertionSort (· ≤ ·) :=
        (List.mem_insertionSort _).mpr (List.mem_filter.mpr ⟨member, by simpa using missing⟩)
      rw [List.isEmpty_iff.mp none] at listed
      contradiction
    next some =>
      refine .inr ⟨_, rfl, fun both => some ?_⟩
      rw [List.isEmpty_iff, List.eq_nil_iff_forall_not_mem]
      intro id listed
      obtain ⟨member, missing⟩ := List.mem_filter.mp ((List.mem_insertionSort _).mp listed)
      exact of_decide_eq_true missing ((mem_reached_iff edges).mpr (both.2 id member))

theorem checkEntryReachableBy_eq (py : Builtins) {unseen : NodeId → List NodeId → List NodeId}
    (fresh : ∀ current seen,
      Searches.Fresh definition.adjacency current seen (unseen current (current :: seen)))
    (edges : ∀ edge ∈ definition.edges,
      edge.source ∈ definition.nodeIds ∧ edge.target ∈ definition.nodeIds) {rounds : Nat}
    (enough : definition.roots.length +
      (definition.nodeIds.flatMap definition.adjacency).length ≤ rounds) :
    definition.checkEntryReachableBy py unseen rounds =
      some (definition.checkEntryReachable py) := by
  obtain ⟨seen, returned, found⟩ := seen_iff unseen fresh edges enough
  have same : definition.nodeIds.filter (fun id => id ∉ seen) =
      definition.nodeIds.filter fun id => id ∉ definition.reached := by
    refine List.filter_congr fun id _ => decide_eq_decide.mpr (not_congr ?_)
    exact (found id).trans (mem_reached_iff edges).symm
  unfold AgentDefinition.checkEntryReachableBy AgentDefinition.checkEntryReachable
  dsimp only
  rw [returned, Option.map_some, same]
  split <;> rfl

end Search

section Validate
variable {py : Builtins} {definition : AgentDefinition}

theorem Validated.seq {first rest : Validated} (passed : (first >>= fun _ => rest) = .ok ()) :
    first = .ok () ∧ rest = .ok () := by
  cases first with
  | error error => contradiction
  | ok => exact ⟨rfl, passed⟩

structure AgentDefinition.Valid (py : Builtins) (definition : AgentDefinition) : Prop where
  distinct : AgentDefinition.checkNoDuplicateIds definition.nodes [] = .ok ()
  edges : AgentDefinition.checkAllEdgesValid definition.nodeIds definition.edges = .ok ()
  supervisors : definition.checkAtMostOneSupervisor = .ok ()
  nested : AgentDefinition.checkNoNestedSubagent definition.nodes = .ok ()
  reachable : definition.checkEntryReachable py = .ok ()

theorem validateGraph_valid (valid : definition.validateGraph py = .ok ()) :
    definition.Valid py := by
  obtain ⟨distinct, rest⟩ := Validated.seq valid
  obtain ⟨edges, rest⟩ := Validated.seq rest
  obtain ⟨supervisors, rest⟩ := Validated.seq rest
  obtain ⟨nested, reachable⟩ := Validated.seq rest
  exact ⟨distinct, edges, supervisors, nested, reachable⟩

theorem validateGraph_ok (valid : definition.validateGraph py = .ok ()) :
    definition.nodeIds.Nodup ∧ definition.supervisors.length ≤ 1 := by
  have checks := validateGraph_valid valid
  exact ⟨((checkNoDuplicateIds_decides _ _).of_ok checks.distinct).1,
    (checkAtMostOneSupervisor_decides definition).of_ok checks.supervisors⟩

/-- The checks in front of the search. -/
theorem checks_decide (lists : definition.ListsObjects) :
    Decides (do
        AgentDefinition.checkNoDuplicateIds definition.nodes []
        AgentDefinition.checkAllEdgesValid definition.nodeIds definition.edges
        definition.checkAtMostOneSupervisor
        AgentDefinition.checkNoNestedSubagent definition.nodes)
      (definition.nodeIds.Nodup ∧
        (∀ edge ∈ definition.edges,
          edge.source ∈ definition.nodeIds ∧ edge.target ∈ definition.nodeIds) ∧
        definition.supervisors.length ≤ 1 ∧
        ∀ node ∈ definition.nodes, node.type = .subagent → ∀ children : List Dict,
          node.config.getD "nodes" (.arr []) = .arr (children.map .obj) →
            ∀ child ∈ children, child.get? "type" ≠ some (.str "subagent")) := by
  refine Decides.seq ((checkNoDuplicateIds_decides _ _).of_iff ?_) fun _ =>
    (checkAllEdgesValid_decides _ _).seq fun _ =>
      (checkAtMostOneSupervisor_decides definition).seq fun _ =>
        checkNoNestedSubagent_decides lists
  simp [AgentDefinition.nodeIds]

theorem validateGraph_eq (py : Builtins) (definition : AgentDefinition) :
    definition.validateGraph py =
      (do
        AgentDefinition.checkNoDuplicateIds definition.nodes []
        AgentDefinition.checkAllEdgesValid definition.nodeIds definition.edges
        definition.checkAtMostOneSupervisor
        AgentDefinition.checkNoNestedSubagent definition.nodes) >>= fun _ =>
      definition.checkEntryReachable py := by
  simp only [AgentDefinition.validateGraph, bind_assoc]

theorem validateGraph_wellFormed (py : Builtins) (lists : definition.ListsObjects) :
    Decides (definition.validateGraph py) definition.WellFormed := by
  rw [validateGraph_eq]
  refine ((checks_decide lists).seq fun checked =>
    checkEntryReachable_decides py checked.2.1).of_iff ?_
  constructor
  · rintro ⟨⟨distinct, edges, supervisors, nested⟩, entry, reachable⟩
    exact ⟨distinct, edges, supervisors, nested, entry, reachable⟩
  · rintro ⟨distinct, edges, supervisors, nested, entry, reachable⟩
    exact ⟨⟨distinct, edges, supervisors, nested⟩, entry, reachable⟩

/-- The validator ends whatever order its sets have, it returns the definition exactly when it is
well formed, and otherwise it raises an error of the graph. -/
theorem validateGraph_iff (py : Builtins) (lists : definition.ListsObjects) :
    (∀ unseen, (∀ current seen,
        Searches.Fresh definition.adjacency current seen (unseen current (current :: seen))) →
      ∀ rounds, definition.roots.length +
          (definition.nodeIds.flatMap definition.adjacency).length ≤ rounds →
        definition.validateGraphBy py unseen rounds = some (definition.validateGraph py)) ∧
    (definition.validateGraph py = .ok () ↔ definition.WellFormed) ∧
    (¬ definition.WellFormed →
      ∃ message, definition.validateGraph py = .error (.graphValidation message)) := by
  refine ⟨fun unseen fresh rounds enough => ?_, ?_, fun wrong => ?_⟩
  · rw [validateGraph_eq, AgentDefinition.validateGraphBy]
    rcases checks_decide lists with ⟨passed, _, edges, _⟩ | ⟨message, failed, _⟩
    · rw [passed]
      exact checkEntryReachableBy_eq py fresh edges enough
    · rw [failed]
      rfl
  · rcases validateGraph_wellFormed py lists with ⟨passed, formed⟩ | ⟨message, failed, wrong⟩
    · exact iff_of_true passed formed
    · rw [failed]
      exact iff_of_false (by simp [invalidGraph]) wrong
  · rcases validateGraph_wellFormed py lists with ⟨_, formed⟩ | ⟨message, failed, _⟩
    · exact absurd formed wrong
    · exact ⟨message, failed⟩

end Validate
section Sample

/-- A subagent with a node of its own, behind the START marker. -/
def researchDefinition : AgentDefinition where
  name := "research"
  nodes := [{ type := .llm, id := "intro" }, { type := .supervisor, id := "lead" },
    { type := .subagent, id := "reader",
      config := [("nodes", .arr [.obj [("type", .str "llm")]])] }]
  edges := [{ source := "intro", target := "lead" }]

theorem researchDefinition_wellFormed :
    researchDefinition.validateGraph .onEmpty = .ok () ∧ researchDefinition.WellFormed := by
  have lists : researchDefinition.ListsObjects := by
    intro node member kind
    simp only [researchDefinition, List.mem_cons, List.not_mem_nil, or_false] at member
    rcases member with rfl | rfl | rfl
    · contradiction
    · contradiction
    · exact ⟨[[("type", .str "llm")]], rfl⟩
  have passed : researchDefinition.validateGraph .onEmpty = .ok () := rfl
  exact ⟨passed, (validateGraph_iff .onEmpty lists).2.1.mp passed⟩

end Sample
end AgentRuntime
