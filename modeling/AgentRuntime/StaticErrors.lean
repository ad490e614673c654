import AgentRuntime.Ownership

/-! What the checks at creation leave to the execution. A definition that they accept may hold a
transform with an unknown operation, or lead to a capability before the supervisor has decided;
the first execution that comes there fails. -/
namespace AgentRuntime
open Programs Tables

/-- The first execution of the run comes to run the node in these channels. -/
def Executes (c : RunConfig) (text : String) (node : NodeDef) (state : GraphState) : Prop :=
  c.program.definition.nodeMap.find? node.id = some node ∧
    ∃ turns : List (Turn c), turns.length < recursionLimit ∧
      Course c (RunState.input c none text) turns ⟨state, some node.id⟩

/-- A transform whose operation is known. -/
def NodeDef.Operable (node : NodeDef) (py : Builtins) : Prop :=
  node.type = .transform → ∃ transform,
    transformOperation py (node.config.getD "operation" (.str "strip")) = .ok transform

/-- The node fails in these channels for what the definition says alone: its operation is
unknown, or it is a capability and there is no decision. -/
def NodeDef.Misplaced (node : NodeDef) (py : Builtins) (state : GraphState) : Prop :=
  ¬ node.Operable py ∨
    node.type.capability = true ∧ ∀ decision, state.decision py ≠ .ok decision

section Misplaced
variable {c : RunConfig} {node : NodeDef} {state : GraphState}

/-- Whatever is answered, a misplaced node returns no patch. -/
theorem NodeDef.Misplaced.fails (misplaced : node.Misplaced c.py state)
    {history : List OpEntry} {patch : GraphState} :
    ¬ Answered history (makeNode c.py c.program.definition c.deps node state) (pure patch) := by
  intro returned
  have patched : Patched c.py c.deps node state patch := wp_returned makeNode_wp returned
  rcases misplaced with unknown | ⟨capable, undecided⟩
  · refine unknown fun kind => ?_
    rcases patched.able with ⟨capable, _⟩ | passable
    · rw [kind] at capable
      contradiction
    · simp only [NodeDef.Passable, kind] at passable
      exact passable.1
  · rcases patched.able with ⟨_, decision, decided⟩ | passable
    · exact undecided decision decided
    · rw [passable.not_capability] at capable
      contradiction

end Misplaced

section Courses
variable {c : RunConfig} {s t : Checkpoint} {turns : List (Turn c)}

/-- A turn of a node that is no supervisor, without a decision, is a step of the walk. -/
theorem Turn.walks (turn : Turn c) {n : Nat} (walk : Walk c n turn.node.id)
    (kind : turn.node.type ≠ .supervisor)
    (undecided : ∀ decision, turn.state.decision c.py ≠ .ok decision) {id : NodeId}
    (next : turn.target = some id) : Walk c (n + 1) id := by
  have patched : Patched c.py c.deps turn.node turn.state turn.patch :=
    wp_returned makeNode_wp turn.returned
  have passable := patched.able.resolve_left fun ⟨_, decision, decided⟩ =>
    undecided decision decided
  have leads := turn.leads
  rw [next] at leads
  unfold CompiledGraph.next at leads
  cases edge : c.program.definition.edge turn.node with
  | error error =>
      rw [edge] at leads
      contradiction
  | ok behind =>
      rw [edge] at leads
      cases behind with
      | exit => cases leads
      | goes target =>
          cases leads
          exact walk.step turn.found kind passable edge
      | routed =>
          simp only [CompiledGraph.edge, kind, if_false] at edge
          split at edge
          next => cases edge
          next => split at edge <;> cases edge

/-- A course without a decision, from channels that hold none, walks. -/
theorem Course.walks (course : Course c s turns t) (undecided : ¬ Decided turns)
    (empty : s.state.control = []) {n : Nat} (walk : ∀ id, s.next = some id → Walk c n id)
    {id : NodeId} (next : t.next = some id) : Walk c (n + turns.length) id := by
  induction course generalizing n with
  | nil => exact walk id next
  | @cons turn turns t rest ih =>
      have kind : turn.node.type ≠ .supervisor := fun same =>
        undecided ⟨turn, List.mem_cons_self, same⟩
      have none (decision : SupervisorDecision) : turn.state.decision c.py ≠ .ok decision := by
        intro decided
        change turn.state.control = [] at empty
        rw [GraphState.decision, empty] at decided
        contradiction
      have behind : ¬ Decided turns := by
        rintro ⟨other, member, same⟩
        exact undecided ⟨other, List.mem_cons_of_mem _ member, same⟩
      have later := ih behind ((turn.owned.control kind).trans empty) (n := n + 1)
        (fun id same => turn.walks (walk _ rfl) kind none same) next
      rwa [List.length_cons, Nat.add_comm turns.length, ← Nat.add_assoc]

/-- A decision stays, or is followed by another one. -/
theorem Turn.keeps_decision (turn : Turn c)
    (decided : ∃ decision, turn.state.decision c.py = .ok decision) :
    ∃ decision, turn.after.state.decision c.py = .ok decision := by
  by_cases kind : turn.node.type = .supervisor
  · obtain ⟨_, _, decision, _, _, _, _, stored⟩ := turn.decides kind
    exact ⟨decision, stored⟩
  · unfold GraphState.decision
    rw [turn.owned.control kind]
    exact decided

theorem Course.decision (course : Course c s turns t) (decided : Decided turns) :
    ∃ decision, t.state.decision c.py = .ok decision := by
  obtain ⟨turn, member, kind⟩ := decided
  obtain ⟨before, after, rfl⟩ := List.append_of_mem member
  obtain ⟨_, _, decision, _, _, _, _, stored⟩ := turn.decides kind
  exact course.split.2.invariant (I := fun u => ∃ decision, u.state.decision c.py = .ok decision)
    (fun turn => turn.keeps_decision) ⟨decision, stored⟩

/-- A walk is taken by some course. -/
theorem Walk.course {n : Nat} {id : NodeId} (walk : Walk c n id) (text : String) :
    ∃ (turns : List (Turn c)) (state : GraphState), turns.length = n ∧ state.control = [] ∧
      Course c (RunState.input c none text) turns ⟨state, some id⟩ := by
  induction walk with
  | entry => exact ⟨[], _, rfl, rfl, .nil _⟩
  | @step n id node target _ found kind passable edge ih =>
      obtain ⟨turns, state, length, empty, course⟩ := ih
      have own : node.id = id := Table.key_of_find? found
      subst own
      obtain ⟨patch, leads⟩ := passed_leads c.program.definition kind passable state
      obtain ⟨history, returned⟩ := leads.answered
      have next : c.program.definition.next c.py node (state.merge patch) = .ok (some target) := by
        unfold CompiledGraph.next
        rw [edge]
        rfl
      let turn : Turn c := ⟨state, node, history, patch, some target, found, returned, next⟩
      refine ⟨turns ++ [turn], turn.after.state, by simp [length], ?_,
        course.append (.cons turn (.nil _))⟩
      rw [turn.owned.control kind]
      exact empty

end Courses

/-- No first execution runs a misplaced node exactly when within the recursion limit the walk from
the entry comes neither to a capability nor to a transform with an unknown operation. -/
theorem no_static_error_iff (c : RunConfig) {definition : AgentDefinition}
    (compiled : compileGraph c.py definition = .ok c.program.definition) :
    (∀ text node state, Executes c text node state → ¬ node.Misplaced c.py state) ↔
      ∀ n id node, Walk c n id → n < recursionLimit →
        c.program.definition.nodeMap.find? id = some node →
          node.type.capability = false ∧ node.Operable c.py := by
  have supervised := compileGraph_supervised compiled
  constructor
  · intro placed n id node walk within found
    have own : node.id = id := Table.key_of_find? found
    subst own
    obtain ⟨turns, state, length, empty, course⟩ := walk.course ""
    have fits := placed "" node state ⟨found, turns, by omega, course⟩
    have none (decision : SupervisorDecision) : state.decision c.py ≠ .ok decision := by
      rw [GraphState.decision, empty]
      exact fun same => by contradiction
    refine ⟨?_, ?_⟩
    · by_contra capable
      exact fits (.inr ⟨by simpa using capable, none⟩)
    · by_contra unknown
      exact fits (.inl unknown)
  · rintro passes text node state ⟨found, turns, within, course⟩ misplaced
    by_cases decided : Decided turns
    · obtain ⟨other, found', kind⟩ := (course.looping supervised decided).2 _ rfl
      cases found.symm.trans found'
      rcases misplaced with unknown | ⟨_, undecided⟩
      · refine unknown fun transform => ?_
        rw [transform] at kind
        rcases kind with same | same <;> contradiction
      · obtain ⟨decision, stored⟩ := course.decision decided
        exact undecided decision stored
    · have walk := course.walks decided rfl (n := 0)
        (fun id same => by cases same; exact .entry) rfl
      rw [Nat.zero_add] at walk
      obtain ⟨plain, operable⟩ := passes _ _ node walk within found
      rcases misplaced with unknown | ⟨capable, _⟩
      · exact unknown operable
      · rw [plain] at capable
        contradiction

section Sample

/-- The retriever of the sample waits for the supervisor. -/
theorem docs_no_static_error :
    Executes docsRun "hello" sampleSupervisor (RunState.input docsRun none "hello").state ∧
      ¬ sampleSupervisor.Misplaced docsRun.py (RunState.input docsRun none "hello").state := by
  have entry {n : Nat} {id : NodeId} (walk : Walk docsRun n id) : id = "supervisor" := by
    induction walk with
    | entry => rfl
    | step _ found kind _ _ ih =>
        subst ih
        cases found
        exact absurd rfl kind
  have executes : Executes docsRun "hello" sampleSupervisor
      (RunState.input docsRun none "hello").state := ⟨rfl, [], by decide, .nil _⟩
  refine ⟨executes, (no_static_error_iff docsRun docsRun_compiled).mpr ?_ _ _ _ executes⟩
  intro n id node walk _ found
  cases entry walk
  cases found
  exact ⟨rfl, fun kind => by contradiction⟩

/-- A transform with an operation that does not exist. -/
def reverseNode : NodeDef where
  type := .transform
  id := "reverse"
  config := [("operation", .str "reverse")]

def reverseDefinition : AgentDefinition where
  name := "support"
  nodes := [reverseNode]
  edges := []
  entry := "reverse"

def reverseRun : RunConfig where
  py := .onEmpty
  runId := sampleRun
  program := ⟨.ofDefinition reverseDefinition, by decide⟩
  deps := sampleDeps

/-- Both checks accept the definition, and its first execution raises at the transform. -/
theorem unknown_operation_accepted :
    compileGraph reverseRun.py reverseDefinition = .ok reverseRun.program.definition ∧
      (¬ ∀ text node state, Executes reverseRun text node state →
        ¬ node.Misplaced reverseRun.py state) ∧
      ∃ history, Answered history
        (RunState.course reverseRun recursionLimit (RunState.input reverseRun none "hello"))
        (.raise (.error (.graphValidation "unknown transform operation: reverse"))) := by
  refine ⟨rfl, fun placed => ?_, ?_⟩
  · have executes : Executes reverseRun "hello" reverseNode
        (RunState.input reverseRun none "hello").state :=
      ⟨rfl, [], by decide, .nil _⟩
    refine placed _ _ _ executes (.inl fun operable => ?_)
    obtain ⟨transform, known⟩ := operable rfl
    contradiction
  · exact ⟨_, .ask (show Bool from false) (.ask () (.refl _))⟩

end Sample
end AgentRuntime
