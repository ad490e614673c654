import AgentRuntime.Ownership

/-! What the supervisor is told. Its request holds the last messages, which no capability writes:
whatever the capabilities return, it is sent the same messages again. -/
namespace AgentRuntime
open Machines Programs Tables

section Requests
variable {c : RunConfig} {s t : Checkpoint} {turns : List (Turn c)} {node : NodeDef}
  {request : ModelRequest}

theorem Checkpoint.Asks.messages (asks : s.Asks c node (.complete request))
    (kind : node.type = .supervisor) : request.messages = node.supervisorMessages s.state := by
  obtain ⟨_, _, history, next, answered⟩ := asks
  exact (wp_answered makeNode_writes answered).1 kind

/-- In the loop of the supervisor no message is added. -/
theorem Course.messages_kept (supervised : c.program.definition.Supervised)
    (course : Course c s turns t) (looping : s.Looping c) :
    t.state.messages = s.state.messages := by
  have whole := course.invariant
    (I := fun u => u.Looping c ∧ u.state.messages = s.state.messages) ?_ ⟨looping, rfl⟩
  · exact whole.2
  · rintro turn ⟨looping, same⟩
    refine ⟨turn.stays supervised looping, ?_⟩
    obtain ⟨node, found, kind⟩ := looping.2 _ rfl
    rw [turn.found] at found
    cases found
    have other : turn.node.type ≠ .llm := by
      intro llm
      rw [llm] at kind
      simp [NodeType.capability] at kind
    have written := turn.owned.messages
    rw [if_neg other] at written
    exact written.trans same

end Requests

/-- Behind a capability, and whatever it has returned, the supervisor is sent the same messages:
in its next request and in all that follow. -/
theorem requests_ignore_results (c : RunConfig) {definition : AgentDefinition}
    (compiled : compileGraph c.py definition = .ok c.program.definition) {turn turn' : Turn c}
    (same : turn.source = turn'.source) (kind : turn.node.type.capability = true)
    {turns turns' : List (Turn c)} {t t' : Checkpoint} (course : Course c turn.after turns t)
    (course' : Course c turn'.after turns' t') {node node' : NodeDef}
    (supervisor : node.type = .supervisor) (supervisor' : node'.type = .supervisor)
    {request request' : ModelRequest} (asks : t.Asks c node (.complete request))
    (asks' : t'.Asks c node' (.complete request')) : request.messages = request'.messages := by
  have supervised := compileGraph_supervised compiled
  have chosen := supervised.only _ _ asks.2.1 supervisor
  have looping (turn : Turn c) (kind : turn.node.type.capability = true) :
      turn.source.Looping c := by
    refine ⟨by simp [chosen], fun id next => ?_⟩
    cases next
    exact ⟨turn.node, turn.found, .inr kind⟩
  -- both turns run the same node
  have own : turn.node = turn'.node := by
    have ids : some turn.node.id = some turn'.node.id := congrArg Checkpoint.next same
    have found := turn.found
    rw [Option.some.inj ids, turn'.found] at found
    exact (Option.some.inj found).symm
  have nodes : node = node' := by
    have ids := chosen.symm.trans (supervised.only _ _ asks'.2.1 supervisor')
    have found := asks.2.1
    rw [Option.some.inj ids, asks'.2.1] at found
    exact (Option.some.inj found).symm
  have kept (turn : Turn c) (kind : turn.node.type.capability = true) {turns : List (Turn c)}
      {t : Checkpoint} (course : Course c turn.after turns t) :
      t.state.messages = turn.source.state.messages :=
    Course.messages_kept supervised (.cons turn course) (looping turn kind)
  rw [asks.messages supervisor, asks'.messages supervisor', NodeDef.supervisorMessages,
    NodeDef.supervisorMessages, kept turn kind course, kept turn' (own ▸ kind) course', same, nodes]

section Asking
variable {c : RunConfig} {node : NodeDef}

theorem askModel_gets {py : Builtins} {deps : RuntimeDependencies} {runId model : String}
    (named : node.config.getD "model" (.str deps.modelName) = .str model) (messages : List Dict)
    (schema : Option ResponseSchema) : ∃ request,
      Gets Unattended (.complete request) (askModel py deps runId node messages schema) := by
  have asked (callId : Option String) (metadata : Dict) : ∃ request,
      Gets Unattended (.complete request)
        (GraphProg.complete py (node.config.getD "model" (.str deps.modelName)) messages schema
          callId metadata) := by
    rw [named]
    exact ⟨_, _, .refl _⟩
  obtain ⟨request, gets⟩ := asked _ _
  exact ⟨request, .seq (.request "" trivial) (.seq (emit_leads _ _) (gets.bind _))⟩

/-- A supervisor that is next comes to send its request. -/
theorem supervisor_asks (state : GraphState)
    (found : c.program.definition.nodeMap.find? node.id = some node)
    (kind : node.type = .supervisor) (passable : node.Passable c.py c.deps) :
    ∃ request, Checkpoint.Asks c ⟨state, some node.id⟩ node (.complete request) := by
  simp only [NodeDef.Passable, kind] at passable
  obtain ⟨model, named⟩ := passable
  have asked (runId : String) : ∃ request, Gets Unattended (.complete request)
      (runNode c.py c.program.definition c.deps runId node state) := by
    unfold runNode
    rw [kind]
    obtain ⟨request, gets⟩ := askModel_gets named (node.supervisorMessages state)
      (some .supervisorDecision)
    exact ⟨request, gets.bind _⟩
  obtain ⟨request, gets⟩ := asked (state.runId c.py)
  obtain ⟨next, leads⟩ := makeNode_gets gets
  obtain ⟨history, answered⟩ := leads.answered
  exact ⟨request, rfl, found, history, next, answered⟩

end Asking

section Sample

/-- A retrieval that finds nothing and one that fails, behind the same decision, and the next
requests of the supervisor. -/
theorem docs_requests : ∃ (turn turn' : Turn docsRun) (request request' : ModelRequest),
    turn.source = turn'.source ∧ turn.node.type.capability = true ∧ turn.patch ≠ turn'.patch ∧
      turn.after.Asks docsRun sampleSupervisor (.complete request) ∧
      turn'.after.Asks docsRun sampleSupervisor (.complete request') ∧
      turn'.after.state.messages = turn.after.state.messages := by
  obtain ⟨_, turn, _, source, own, patch, after⟩ := docs_course (.ok [])
  obtain ⟨_, turn', _, source', _, patch', after'⟩ := docs_course (.fail .ragError "")
  obtain ⟨request, asks⟩ := supervisor_asks (c := docsRun) (docsState.merge (retrieved [] (.ok [])))
    (show docsRun.program.definition.nodeMap.find? sampleSupervisor.id = some sampleSupervisor
      from rfl) rfl ⟨"model", rfl⟩
  obtain ⟨request', asks'⟩ := supervisor_asks (c := docsRun)
    (docsState.merge (retrieved [] (.fail .ragError "")))
    (show docsRun.program.definition.nodeMap.find? sampleSupervisor.id = some sampleSupervisor
      from rfl) rfl ⟨"model", rfl⟩
  refine ⟨turn, turn', request, request', source.trans source'.symm, by rw [own]; rfl, ?_,
    by rw [after]; exact asks, by rw [after']; exact asks', by rw [after, after']; rfl⟩
  rw [patch, patch']
  intro same
  have data := congrArg GraphState.data same
  simp [retrieved, ToolResult.ok, ToolResult.fail, ToolResult.dump] at data

theorem failed_retrieval_unseen : ∃ (turn turn' : Turn docsRun) (request request' : ModelRequest),
    turn.patch ≠ turn'.patch ∧ turn.after.Asks docsRun sampleSupervisor (.complete request) ∧
      turn'.after.Asks docsRun sampleSupervisor (.complete request') ∧
      request.messages = request'.messages := by
  obtain ⟨turn, turn', request, request', same, kind, differs, asks, asks', _⟩ := docs_requests
  exact ⟨turn, turn', request, request', differs, asks, asks',
    requests_ignore_results docsRun docsRun_compiled same kind (.nil _) (.nil _) rfl rfl asks asks'⟩

/-- Two results of one retrieval lead to requests with the same messages. -/
theorem results_not_told : compileGraph docsRun.py (sampleDefinition docsNode) =
      .ok docsRun.program.definition ∧
    ¬ ∀ (turn turn' : Turn docsRun) (node : NodeDef) (request request' : ModelRequest),
      turn.source = turn'.source → turn.node.type.capability = true → turn.patch ≠ turn'.patch →
      node.type = .supervisor → turn.after.Asks docsRun node (.complete request) →
      turn'.after.Asks docsRun node (.complete request') →
        request.messages ≠ request'.messages := by
  refine ⟨docsRun_compiled, fun told => ?_⟩
  obtain ⟨turn, turn', request, request', same, kind, differs, asks, asks', messages⟩ :=
    docs_requests
  refine told turn turn' sampleSupervisor request request' same kind differs rfl asks asks' ?_
  rw [asks.messages rfl, asks'.messages rfl, NodeDef.supervisorMessages,
    NodeDef.supervisorMessages, messages]

end Sample
end AgentRuntime
