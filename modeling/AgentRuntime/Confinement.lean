import AgentRuntime.Requests
import AgentRuntime.Ownership

/-! The resources that the configuration of a node names. The decision comes first: what it names
under the key of its resource is used in the place of what is configured. -/
namespace AgentRuntime
open Machines Programs Tables

/-- The key of the configuration that names a resource, and the key of a decision's resource
that is read before it. -/
def NodeType.resourceKeys : NodeType → Option (String × String)
  | .tool => some ("tool", "tool_name")
  | .rag => some ("knowledge_base_id", "knowledge_base_id")
  | _ => none

/-- The resource that the configuration of a node gives. -/
def NodeDef.configured (node : NodeDef) : Option Json :=
  node.type.resourceKeys.bind fun keys => (node.config.get? keys.1).filter Json.truthy

/-- The resource that an operation goes to. A tool node announces its tool right before it asks the
registry for it. -/
def Op.resource : Op → Option Json
  | .retrieve knowledgeBase _ => some knowledgeBase
  | .emit .toolStarted _ _ payload => payload.get? "tool"
  | .invoke .toolNode name _ => some (.str name)
  | _ => none

/-- The decision in the channels leaves the resource of the node to its configuration, or names
just that one. -/
def NodeDef.Left (node : NodeDef) (py : Builtins) (state : GraphState) (given : Json) : Prop :=
  ∀ keys, node.type.resourceKeys = some keys → ∀ decision, state.decision py = .ok decision →
    (decision.named keys.2).truthy = false ∨ decision.named keys.2 = given

/-- With these channels the node never comes to a retrieval, nor to the registry. -/
def NodeDef.Rejects (c : RunConfig) (node : NodeDef) (state : GraphState) : Prop :=
  ∀ op, Gets (fun _ _ => True) op (makeNode c.py c.program.definition c.deps node state) →
    op.resource = none

namespace RunState

/-- An execution is in a node: the node that is next in the thread, its channels, and what is asked
there. -/
def visiting (c : RunConfig) (s : RunState) : Option (NodeDef × GraphState × Op) := do
  let stored ← s.thread
  let node ← c.program.definition.nodeMap.find? (← stored.next)
  match (← s.current).program with
  | some (.ask op _) => some (node, stored.state, op)
  | _ => none

end RunState

/-- A node goes to no other resource than the configured one, and it rejects a decision that names
another. -/
def confined (c : RunConfig) : Guard RunState RunAction := fun s _ =>
  ∀ node state op given, s.visiting c = some (node, state, op) → node.configured = some given →
    (∀ resource, op.resource = some resource → resource = given) ∧
      (¬ node.Left c.py state given → node.Rejects c state)

/-- No node that has its registry or its retriever finds a decision that names another resource
than the configured one. -/
def unswayed (c : RunConfig) : Guard RunState RunAction := fun s _ =>
  ∀ node state op given, s.visiting c = some (node, state, op) → node.configured = some given →
    node.Configured c.deps → node.Left c.py state given

section Resources
variable {c : RunConfig} {s u : RunState} {node : NodeDef} {state : GraphState} {op : Op}
  {resource given : Json}

theorem RunState.visiting_asks (reached : Reachable (executions c) anyStep s)
    (visits : s.visiting c = some (node, state, op)) (goes : op.resource = some resource) :
    node.Sends c.py c.deps state op := by
  simp only [visiting, Option.bind_eq_bind, Option.bind_eq_some_iff] at visits
  obtain ⟨stored, thread, id, next, node', found, e, current, same⟩ := visits
  split at same
  next op' rest asks =>
    cases same
    rcases asked_by_next reached current asks with ⟨written, rfl⟩ | ⟨stored', other, thread', asked⟩
    · contradiction
    · cases thread.symm.trans thread'
      cases next.symm.trans asked.1
      cases found.symm.trans asked.2.1
      exact asked.sends
  next => contradiction

/-- What a node goes to is what the decision names, or else what is configured. -/
theorem NodeDef.Sends.reached (sends : node.Sends c.py c.deps state op)
    (goes : op.resource = some resource) :
    node.Configured c.deps ∧ ∃ keys decision, node.type.resourceKeys = some keys ∧
      state.decision c.py = .ok decision ∧
      ∀ given, node.configured = some given →
        resource = (decision.named keys.2).orElse given := by
  have value (kind : NodeType) (keys : String × String) (same : node.type = kind)
      (named : kind.resourceKeys = some keys) (default : Json) {given : Json}
      (own : node.configured = some given) : node.config.getD keys.1 default = given := by
    unfold NodeDef.configured at own
    rw [same, named] at own
    have stored := (Option.filter_eq_some_iff.mp own).1
    rw [Dict.getD, stored]
    rfl
  have selects {name : Json} (selected : node.SelectsTool c.py c.deps state name) :
      node.Configured c.deps ∧ ∃ keys decision, node.type.resourceKeys = some keys ∧
        state.decision c.py = .ok decision ∧
        ∀ given, node.configured = some given → name = (decision.named keys.2).orElse given := by
    obtain ⟨kind, configured, decision, decided, same⟩ := selected
    refine ⟨configured, ("tool", "tool_name"), decision, by rw [kind]; rfl, decided,
      fun given own => ?_⟩
    rw [same, value .tool _ kind rfl _ own]
  cases op with
  | retrieve knowledgeBase query =>
      cases goes
      obtain ⟨kind, configured, decision, decided, same⟩ := sends
      refine ⟨configured, ("knowledge_base_id", "knowledge_base_id"), decision,
        by rw [kind]; rfl, decided, fun given own => ?_⟩
      rw [same, value .rag _ kind rfl _ own]
  | emit type runId id payload =>
      cases type with
      | toolStarted =>
          obtain ⟨name, rfl, selected⟩ := sends
          cases goes
          exact selects selected
      | _ => contradiction
  | invoke site name arguments =>
      cases site with
      | toolNode =>
          cases goes
          exact selects sends
      | subagent => contradiction
  | _ => contradiction

/-- A node without its dependency rejects every decision. -/
theorem NodeDef.Rejects.of_unconfigured (missing : ¬ node.Configured c.deps) :
    node.Rejects c state := by
  intro op gets
  by_contra goes
  obtain ⟨resource, goes⟩ := Option.ne_none_iff_exists'.mp goes
  exact missing (NodeDef.Sends.reached (gets.within makeNode_within) goes).1

section Swayed
variable {decision : SupervisorDecision} (decided : state.decision c.py = .ok decision)
include decided

theorem runTool_gets (stored : c.deps.toolRegistry ≠ none)
    (truthy : (decision.named "tool_name").truthy) (runId : String) :
    Gets (fun _ _ => True)
      (.emit .toolStarted runId node.id [("tool", decision.named "tool_name")])
      (runTool c.py c.deps runId node state) := by
  obtain ⟨registry, stored⟩ := Option.ne_none_iff_exists'.mp stored
  have named : ((orEmpty decision.resource).getD "tool_name" .null).orElse
      (node.config.getD "tool" .null) = decision.named "tool_name" := if_pos truthy
  unfold runTool
  rw [stored]
  dsimp only
  rw [decided]
  refine .seq (.refl _) ?_
  rw [named, truthy]
  exact ⟨_, .refl _⟩

theorem runRag_gets (stored : c.deps.retriever = true)
    (truthy : (decision.named "knowledge_base_id").truthy) (runId : String) :
    ∃ query, Gets (fun _ _ => True) (.retrieve (decision.named "knowledge_base_id") query)
      (runRag c.py c.deps runId node state) := by
  have named : ((orEmpty decision.resource).getD "knowledge_base_id" .null).orElse
      (node.config.getD "knowledge_base_id" (.str "")) = decision.named "knowledge_base_id" :=
    if_pos truthy
  unfold runRag
  rw [stored, decided]
  let asked := (orEmpty decision.input).getD "query" (.str "")
  refine ⟨if asked.truthy || state.messages.isEmpty then asked else state.lastContent,
    .seq (.refl _) ?_⟩
  rw [named]
  exact .behind (.ask () trivial (.refl _)) ⟨_, .refl _⟩

end Swayed

theorem makeNode_gets_body {op : Op} (gets : Gets (fun _ _ => True) op
      (runNode c.py c.program.definition c.deps (state.runId c.py) node state)) :
    Gets (fun _ _ => True) op (makeNode c.py c.program.definition c.deps node state) := by
  have checked : Leads (fun _ _ => True) (checkCancelled c.deps (state.runId c.py) node)
      (pure ()) := by
    unfold checkCancelled
    split
    · exact .seq (.request false trivial) (.refl _)
    · exact .refl _
  have began : Leads (fun _ _ => True)
      (GraphProg.emit .nodeStarted (state.runId c.py) node.id) (pure ()) := .request _ trivial
  exact .seq checked (.seq began (gets.bind _))

/-- A node that has its dependency goes to the resource that the decision names. -/
theorem NodeDef.Left.of_rejects (configured : node.Configured c.deps)
    (rejects : node.Rejects c state) : node.Left c.py state given := by
  intro keys named decision decided
  refine .inl (Bool.eq_false_iff.mpr fun truthy => ?_)
  have never (op : Op) (gets : Gets (fun _ _ => True) op
      (runNode c.py c.program.definition c.deps (state.runId c.py) node state)) :
      op.resource = none := rejects op (makeNode_gets_body gets)
  unfold runNode at never
  unfold NodeDef.Configured at configured
  cases kind : node.type with
  | tool =>
      rw [kind] at named configured never
      cases named
      have announced := never _ (runTool_gets decided configured truthy _)
      contradiction
  | rag =>
      rw [kind] at named configured never
      cases named
      obtain ⟨query, gets⟩ := runRag_gets decided configured truthy (state.runId c.py)
      have retrieved := never _ gets
      contradiction
  | _ =>
      rw [kind] at named
      contradiction

theorem NodeDef.Left.resource_eq (left : node.Left c.py state given)
    (sends : node.Sends c.py c.deps state op) (goes : op.resource = some resource)
    (own : node.configured = some given) : resource = given := by
  obtain ⟨_, keys, decision, named, decided, value⟩ := sends.reached goes
  rw [value given own, Json.orElse]
  rcases left keys named decision decided with falsy | equal
  · rw [falsy]
    rfl
  · rw [equal]
    split <;> rfl

/-- Every step of a run keeps to the configured resources, and rejects what names another one,
exactly when no node that could go to its resource finds a decision that names another. -/
theorem resources_confined_iff (c : RunConfig) {s u : RunState} {as : List RunAction}
    (reached : Reachable (executions c) anyStep s) :
    Run (executions c) (confined c) s as u ↔ Run (executions c) (unswayed c) s as u := by
  refine Run.iff_of_reachable (fun s a t reached _ => ?_) reached
  constructor
  · intro kept node state op given visits own configured
    by_contra swayed
    exact swayed (.of_rejects configured ((kept node state op given visits own).2 swayed))
  · intro left node state op given visits own
    refine ⟨fun resource goes => ?_, fun swayed => ?_⟩
    · have sends := s.visiting_asks reached visits goes
      exact (left node state op given visits own (sends.reached goes).1).resource_eq sends goes own
    · exact .of_unconfigured fun configured =>
        swayed (left node state op given visits own configured)

end Resources

section Sample

/-- The steps up to the retrieval behind a decision with the resource. -/
def sampleRetrieval (resource : Option Dict) : List RunAction :=
  let decision : SupervisorDecision :=
    { action := .rag, capabilityNodeId := some "docs", resource := resource }
  [.read fun _ => 0, .launch] ++
    List.replicate 11 (.reply { result := { structured := some decision.dump } })

/-- A decision that names no resource. -/
def unswayedCheck (c : RunConfig) (s : RunState) (_ : RunAction) : Bool :=
  match s.visiting c with
  | none => true
  | some (node, state, _) =>
      match node.type.resourceKeys, state.decision c.py with
      | some keys, .ok decision => !(decision.named keys.2).truthy
      | _, _ => true

theorem unswayed_checks (c : RunConfig) :
    Checks (executions c) (unswayed c) (fun _ => True) (unswayedCheck c) where
  sound s a _ passed := by
    intro node state op given visits _ _ keys named decision decided
    simp only [unswayedCheck, visits, named, decided] at passed
    exact .inl (by simpa using passed)
  kept _ _ _ _ _ _ := trivial

/-- The resource that is gone to, where it is a text. -/
def RunState.reaching (c : RunConfig) (s : RunState) : Option String :=
  (s.visiting c).bind fun visit => visit.2.2.resource.bind Json.str?

/-- A decision that leaves the knowledge base to the node retrieves from the configured one. -/
theorem handbook_retrieved : ∃ s, Run (executions handbookRun) (confined handbookRun)
    handbookRun.created (sampleRetrieval none) s ∧
      s.reaching handbookRun = some "handbook" := by
  obtain ⟨s, run, _, reaches⟩ := (unswayed_checks handbookRun).of_test (s := handbookRun.created)
    trivial (sampleRetrieval none) (fun s => s.reaching handbookRun = some "handbook")
    (by decide +kernel)
  exact ⟨s, (resources_confined_iff handbookRun (.start handbookRun.created_initial)).mpr run,
    reaches⟩

/-- A decision that names another knowledge base has it read by the node for the handbook. -/
theorem payroll_retrieved : ¬ ∀ (s t : RunState) (a : RunAction),
    Reachable (executions handbookRun) anyStep s → (executions handbookRun).step s a = some t →
      confined handbookRun s a := by
  intro always
  let payroll : Dict := [("knowledge_base_id", .str "payroll")]
  obtain ⟨s, run, visits, steps⟩ := Run.of_test (M := executions handbookRun) handbookRun.created
    (sampleRetrieval (some payroll))
    (fun s => (s.visiting handbookRun).any (fun visit =>
        visit.1.configured.bind Json.str? = some "handbook" &&
          visit.2.2.resource.bind Json.str? = some "payroll") ∧
      ((executions handbookRun).step s (.reply {})).isSome) (by decide +kernel)
  obtain ⟨⟨node, state, op⟩, found, named⟩ := (Option.any_eq_true _ _).mp visits
  obtain ⟨t, stepped⟩ := Option.isSome_iff_exists.mp steps
  simp only [Bool.and_eq_true, decide_eq_true_eq] at named
  obtain ⟨given, own, handbook⟩ := Option.bind_eq_some_iff.mp named.1
  obtain ⟨resource, goes, other⟩ := Option.bind_eq_some_iff.mp named.2
  have reached := (Reachable.start handbookRun.created_initial).run run
  have same := (always s t _ reached stepped node state op given found own).1 resource goes
  rw [← same, other] at handbook
  contradiction

end Sample
end AgentRuntime
