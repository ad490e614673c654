import AgentRuntime.Routing

/-! The owners of the channels. A turn writes the channel and the key of its node alone, and what
a capability has stored stays, since no transform comes behind a decision. -/
namespace AgentRuntime
open Machines Programs Tables

/-- What a turn leaves as it was. -/
structure Turn.Owned {c : RunConfig} (turn : Turn c) : Prop where
  runtime : turn.after.state.runtime = turn.state.runtime
  control : turn.node.type ≠ .supervisor → turn.after.state.control = turn.state.control
  messages :
    if turn.node.type = .llm then ∃ content, turn.after.state.messages =
      turn.state.messages ++ [Executor.message "assistant" content]
    else turn.after.state.messages = turn.state.messages
  data : ∀ key, turn.node.dataKey c.py ≠ some key →
    turn.after.state.data.get? key = turn.state.data.get? key

theorem NodeType.capability_of_results {type : NodeType} {name : String}
    (own : type.results = some name) : type.capability = true ∧ name ≠ "final_response" := by
  cases type <;> cases own <;> exact ⟨rfl, by decide⟩

section Turns
variable {c : RunConfig} {s t : Checkpoint} {turns : List (Turn c)}

theorem Turn.owned (turn : Turn c) : turn.Owned := by
  have writes := turn.writes
  refine ⟨?_, fun kind => ?_, ?_, fun key other => ?_⟩
  · rw [Turn.after, GraphState.merge, writes.runtime]
    rfl
  · rw [Turn.after, GraphState.merge, writes.control kind]
    rfl
  · have written := writes.messages
    split
    next llm =>
      rw [if_pos llm] at written
      obtain ⟨content, same⟩ := written
      exact ⟨content, by rw [Turn.after, GraphState.merge, same]⟩
    next other =>
      rw [if_neg other] at written
      rw [Turn.after, GraphState.merge, written, List.append_nil]
  · rcases writes.data with same | ⟨own, value, mine, same⟩
    · rw [Turn.after, GraphState.merge, same]
      rfl
    · rw [Turn.after, GraphState.merge, same]
      exact Dict.get?_set_ne _ _ fun equal => other (equal ▸ mine)

/-- A capability appends one result to the list of its type, by a decision. -/
theorem Turn.stores (turn : Turn c) {name : String} (own : turn.node.type.results = some name) :
    (∃ decision, turn.state.decision c.py = .ok decision) ∧
      ∃ items result, (turn.state.data.getD name (.arr [])).toList = some items ∧
        turn.after.state.data.get? name = some (.arr (items ++ [result])) := by
  have writes := turn.writes
  obtain ⟨state, node, history, patch, target, found, returned, leads⟩ := turn
  dsimp only at own writes ⊢
  cases writes with
  | capability result own' decided listed =>
      rw [own] at own'
      cases own'
      exact ⟨⟨_, decided⟩, _, result, listed, Dict.get?_set_self _ _ _⟩
  | llm _ kind | supervisor kind | transform _ kind =>
      rw [kind] at own
      contradiction

/-- A list of results that is stored grows at its end alone, as long as the supervisor and its
capabilities have the turn. -/
theorem Turn.grows (turn : Turn c) (looping : turn.source.Looping c) {name : String}
    {type : NodeType} (results : type.results = some name) {items : List Json}
    (stored : turn.state.data.get? name = some (.arr items)) :
    ∃ more, turn.after.state.data.get? name = some (.arr (items ++ more)) := by
  obtain ⟨node, found, kind⟩ := looping.2 _ rfl
  rw [turn.found] at found
  cases found
  by_cases own : turn.node.type.results = some name
  · obtain ⟨_, items', result, listed, after⟩ := turn.stores own
    rw [Dict.getD, stored] at listed
    cases listed
    exact ⟨[result], after⟩
  · have other : turn.node.dataKey c.py ≠ some name := by
      rcases kind with supervisor | capability
      · rw [NodeDef.dataKey, supervisor]
        exact fun same => (NodeType.capability_of_results results).2 (Option.some.inj same).symm
      · unfold NodeDef.dataKey
        cases type : turn.node.type <;> simp_all [NodeType.capability]
    rw [turn.owned.data name other, stored]
    exact ⟨[], by rw [List.append_nil]⟩

theorem Course.grows (supervised : c.program.definition.Supervised) (course : Course c s turns t)
    (looping : s.Looping c) {name : String} {type : NodeType} (results : type.results = some name)
    {items : List Json} (stored : s.state.data.get? name = some (.arr items)) :
    ∃ more, t.state.data.get? name = some (.arr (items ++ more)) := by
  have whole := course.invariant (I := fun u => u.Looping c ∧
    ∃ more, u.state.data.get? name = some (.arr (items ++ more))) ?_ ⟨looping, [], by simpa⟩
  · exact whole.2
  · rintro turn ⟨looping, more, stored⟩
    obtain ⟨last, after⟩ := turn.grows looping results stored
    exact ⟨turn.stays supervised looping, more ++ last, by rw [after, List.append_assoc]⟩

/-- Without a decision the control channel is left as it was. -/
theorem Course.control_kept (course : Course c s turns t) (undecided : ¬ Decided turns) :
    t.state.control = s.state.control := by
  induction course with
  | nil => rfl
  | cons turn rest ih =>
      have kind : turn.node.type ≠ .supervisor := fun same =>
        undecided ⟨turn, List.mem_cons_self, same⟩
      have later : ¬ Decided _ := fun ⟨other, member, same⟩ =>
        undecided ⟨other, List.mem_cons_of_mem _ member, same⟩
      rw [ih later]
      exact turn.owned.control kind

/-- The messages of a course: one of the assistant for each turn of an llm node. -/
theorem Course.messages_grow (course : Course c s turns t) :
    ∃ contents : List String, t.state.messages =
        s.state.messages ++ contents.map (Executor.message "assistant") ∧
      contents.length = turns.countP fun turn => turn.node.type = .llm := by
  induction course with
  | nil => exact ⟨[], by simp⟩
  | cons turn rest ih =>
      obtain ⟨contents, same, count⟩ := ih
      have written := turn.owned.messages
      split at written
      next llm =>
        obtain ⟨content, first⟩ := written
        refine ⟨content :: contents, ?_, by simp [llm, count]⟩
        rw [same, first]
        simp [Turn.source]
      next other =>
        refine ⟨contents, ?_, by simp [other, count]⟩
        rw [same, written]
        rfl

theorem Course.runtime_kept (course : Course c s turns t) :
    t.state.runtime = s.state.runtime :=
  course.invariant (I := fun u => u.state.runtime = s.state.runtime)
    (fun turn same => turn.owned.runtime.trans same) rfl

end Turns

/-- On a fresh thread the channels keep to their owners: the runtime channel is never written,
the control channel by the supervisor alone, one message is added by each turn of an llm node,
no turn touches the key of another, and the result of a capability stays in its list. -/
theorem channels_owned (c : RunConfig) {definition : AgentDefinition}
    (compiled : compileGraph c.py definition = .ok c.program.definition) {text : String}
    {turns : List (Turn c)} {t : Checkpoint}
    (course : Course c (RunState.input c none text) turns t) :
    (∀ turn ∈ turns, turn.Owned) ∧
      t.state.runtime = [("run_id", .str c.runId.text)] ∧
      (∃ contents : List String, t.state.messages =
          Executor.message "user" text :: contents.map (Executor.message "assistant") ∧
        contents.length = turns.countP fun turn => turn.node.type = .llm) ∧
      ∀ before turn later, turns = before ++ turn :: later →
        ∀ name, turn.node.type.results = some name →
          ∃ items result more, (turn.state.data.getD name (.arr [])).toList = some items ∧
            turn.after.state.data.get? name = some (.arr (items ++ [result])) ∧
            t.state.data.get? name = some (.arr (items ++ [result] ++ more)) := by
  have supervised := compileGraph_supervised compiled
  refine ⟨fun turn _ => turn.owned, course.runtime_kept, course.messages_grow, ?_⟩
  rintro before turn later rfl name own
  obtain ⟨first, rest⟩ := course.split
  obtain ⟨⟨decision, decided⟩, items, result, listed, stored⟩ := turn.stores own
  have looping : turn.after.Looping c := by
    refine turn.stays supervised (first.looping supervised ?_)
    by_contra undecided
    -- the control channel of a fresh thread is empty
    have empty : turn.state.control = [] := first.control_kept undecided
    rw [GraphState.decision, empty] at decided
    contradiction
  obtain ⟨more, kept⟩ := rest.grows supervised looping own stored
  exact ⟨items, result, more, listed, stored, kept⟩

section Retrieval
variable {c : RunConfig} {node : NodeDef} {state : GraphState} {target : Option NodeId}
  {items : List Json}

/-- The patch of a retrieval. -/
def retrieved (items : List Json) (result : ToolResult) : GraphState where
  data := [("rag_results", .arr (items ++ [.obj result.dump]))]

/-- A retriever may answer anything. -/
theorem rag_turn (found : c.program.definition.nodeMap.find? node.id = some node)
    (kind : node.type = .rag) (retriever : c.deps.retriever = true)
    {decision : SupervisorDecision} (decided : state.decision c.py = .ok decision)
    (listed : (state.data.getD "rag_results" (.arr [])).toList = some items) (result : ToolResult)
    (leads : c.program.definition.next c.py node (state.merge (retrieved items result)) =
      .ok target) :
    ∃ turn : Turn c, turn.source = ⟨state, some node.id⟩ ∧ turn.node = node ∧
      turn.patch = retrieved items result ∧
      turn.after = ⟨state.merge (retrieved items result), target⟩ := by
  refine Turn.of_leads found ?_ leads
  unfold runNode
  rw [kind]
  unfold runRag
  dsimp only
  rw [retriever, decided]
  refine .seq (.refl _) (.seq (emit_leads _ _) ?_)
  refine .seq (.request result trivial) (.seq (emit_leads _ _) ?_)
  unfold GraphState.appending listOf
  rw [listed]
  exact .refl _

end Retrieval

section Sample

def docsNode : NodeDef := { type := .rag, id := "docs" }

/-- A supervisor with a retriever. -/
def docsRun : RunConfig where
  py := .onEmpty
  runId := sampleRun
  program := ⟨.ofDefinition (sampleDefinition docsNode), by decide⟩
  deps := sampleDeps

theorem docsRun_compiled :
    compileGraph docsRun.py (sampleDefinition docsNode) = .ok docsRun.program.definition := rfl

def docsResult : ToolResult := .ok [("items", .arr [.str "a document"])]

def docsDecision : SupervisorDecision := { action := .rag, capabilityNodeId := some "docs" }

/-- The channels behind the decision for the retriever. -/
def docsState : GraphState :=
  (RunState.input docsRun none "hello").state.merge docsDecision.patch

theorem docs_course (result : ToolResult) : ∃ turn turn' : Turn docsRun,
    Course docsRun (RunState.input docsRun none "hello") [turn] turn'.source ∧
      turn'.source = ⟨docsState, some "docs"⟩ ∧ turn'.node = docsNode ∧
      turn'.patch = retrieved [] result ∧
      turn'.after = ⟨docsState.merge (retrieved [] result), some "supervisor"⟩ := by
  have found : docsRun.program.definition.nodeMap.find? sampleSupervisor.id =
      some sampleSupervisor := rfl
  have target : docsRun.program.definition.next docsRun.py sampleSupervisor docsState =
      .ok (some "docs") := rfl
  obtain ⟨turn, source, _, _, after⟩ := supervisor_turn found rfl ⟨"model", rfl⟩ rfl target
  have stored : docsRun.program.definition.nodeMap.find? docsNode.id = some docsNode := rfl
  have back : docsRun.program.definition.next docsRun.py docsNode
      (docsState.merge (retrieved [] result)) = .ok (some "supervisor") := rfl
  obtain ⟨turn', source', own, patch, after'⟩ :=
    rag_turn stored rfl rfl (selected_decision _ _ _) rfl result back
  exact ⟨turn, turn', .single source (after.trans source'.symm), source', own, patch, after'⟩

theorem retrieved_result_kept :
    ∃ turns t, Course docsRun (RunState.input docsRun none "hello") turns t ∧
      t.state.runtime = [("run_id", .str sampleRun.text)] ∧
      t.state.data.get? "rag_results" = some (.arr [.obj docsResult.dump]) := by
  obtain ⟨turn, turn', first, _, _, _, after⟩ := docs_course docsResult
  have course := first.append (.cons turn' (.nil _))
  refine ⟨_, _, course, (channels_owned docsRun docsRun_compiled course).2.1, ?_⟩
  rw [after]
  rfl

end Sample
end AgentRuntime
