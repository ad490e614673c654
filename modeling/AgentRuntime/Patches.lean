import AgentRuntime.NodeRules

/-! What each type of node writes: the channel and the key of its patch, and where the patch
comes from. -/
namespace AgentRuntime
open Programs Tables

/-- The list in the data channel to which the nodes of a type append their results. -/
def NodeType.results : NodeType → Option String
  | .tool => some "tool_results"
  | .rag => some "rag_results"
  | .subagent => some "subagent_results"
  | .approval => some "approval_results"
  | .llm | .supervisor | .transform => none

/-- `output_ref`, as a key of the data channel. -/
def NodeDef.outputRef (py : Builtins) (node : NodeDef) : String :=
  (node.config.getD "output_ref" (.str node.id)).text py

/-- The key of the data channel that belongs to a node. -/
def NodeDef.dataKey (py : Builtins) (node : NodeDef) : Option String :=
  match node.type with
  | .llm => none
  | .supervisor => some "final_response"
  | .transform => some (node.outputRef py)
  | .tool | .rag | .subagent | .approval => node.type.results

/-- The messages of the request of a supervisor. -/
def NodeDef.supervisorMessages (node : NodeDef) (state : GraphState) : List Dict :=
  Executor.message "system"
      (textOr node.prompt "Choose the next declared capability or return final.") ::
    state.messages.drop (state.messages.length - 8)

/-- What the model answered. -/
def modelAnswers (history : List OpEntry) : List ModelResult :=
  history.filterMap fun entry =>
    match entry with
    | ⟨.complete _, .answered result⟩ => some result
    | _ => none

/-- The patch of a node, after what it asked. -/
inductive Writes (py : Builtins) (graph : CompiledGraph) (node : NodeDef) (state : GraphState)
    (history : List OpEntry) : GraphState → Prop
  | llm (content : String) : node.type = .llm →
      Writes py graph node state history { messages := [Executor.message "assistant" content] }
  | supervisor {result structured decision} : node.type = .supervisor →
      modelAnswers history = [result] → result.structured = some structured →
      SupervisorDecision.validate py (.obj structured) = .ok decision →
      graph.validateDecision decision = .ok () →
      Writes py graph node state history decision.patch
  | transform (text : String) : node.type = .transform →
      Writes py graph node state history { data := [(node.outputRef py, .str text)] }
  | capability {name items decision} (result : Json) : node.type.results = some name →
      state.decision py = .ok decision →
      (state.data.getD name (.arr [])).toList = some items →
      Writes py graph node state history { data := [(name, .arr (items ++ [result]))] }

/-- A supervisor sends its prompt and the last messages. -/
def NodeDef.Asks (node : NodeDef) (state : GraphState) : Op → Prop
  | .complete request => node.type = .supervisor → request.messages = node.supervisorMessages state
  | _ => True

section Helpers
variable {py : Builtins} {graph : CompiledGraph} {deps : RuntimeDependencies} {runId : String}
  {node : NodeDef} {state : GraphState} {history : List OpEntry} {α : Type}

/-- An answer of another operation is none of the model. -/
theorem modelAnswers_append (history : List OpEntry) (entry : OpEntry)
    (other : ∀ request, entry.op ≠ .complete request) :
    modelAnswers (history ++ [entry]) = modelAnswers history := by
  obtain ⟨op, reply⟩ := entry
  cases op with
  | complete request => exact absurd rfl (other request)
  | _ => simp [modelAnswers]

theorem wp_trivial (p : GraphProg α) : wp (fun _ _ => True) (fun _ _ => True) history p := by
  induction p generalizing history with
  | pure | raise => trivial
  | ask op next ih => exact ⟨trivial, fun answer => ih answer⟩

/-- A node that is no supervisor asks the model what it likes. -/
theorem wp_asks {Q : List OpEntry → α → Prop} {p : GraphProg α} (kind : node.type ≠ .supervisor)
    (holds : wp (fun _ _ => True) Q history p) : wp (fun _ => node.Asks state) Q history p := by
  refine wp_mono (fun _ op _ => ?_) (fun _ _ returned => returned) holds
  cases op with
  | complete request => exact fun same => absurd same kind
  | _ => trivial

theorem emit_writes (type : EventType) (payload : Dict) :
    wp (fun _ => node.Asks state) (fun after _ => modelAnswers after = modelAnswers history) history
      (GraphProg.emit type runId node.id payload) :=
  ⟨trivial, fun _ => modelAnswers_append _ _ (by simp)⟩

theorem checkCancelled_writes :
    wp (fun _ => node.Asks state) (fun after _ => modelAnswers after = modelAnswers history) history
      (checkCancelled deps runId node) := by
  unfold checkCancelled
  split
  next =>
    refine wp_request_seq trivial fun cancelled => ?_
    split
    next => trivial
    next => exact modelAnswers_append _ _ (by simp)
  next => exact (rfl : modelAnswers history = modelAnswers history)

theorem askModel_writes {messages : List Dict} {schema : Option ResponseSchema}
    (own : node.type = .supervisor → messages = node.supervisorMessages state) :
    wp (fun _ => node.Asks state)
      (fun after asked => modelAnswers after = modelAnswers history ++ [asked.2]) history
      (askModel py deps runId node messages schema) := by
  refine ⟨trivial, fun nonce => ⟨trivial, fun _ => ?_⟩⟩
  unfold GraphProg.complete
  split
  next name same =>
    refine ⟨own, fun result => ?_⟩
    change modelAnswers _ = _
    simp [modelAnswers]
  next => trivial

theorem emitLlmDone_writes (call : Dict) (result : ModelResult) :
    wp (fun _ => node.Asks state) (fun after _ => modelAnswers after = modelAnswers history) history
      (emitLlmDone runId node call result) := by
  unfold emitLlmDone
  split
  next =>
    refine wp_seq (emit_writes _ _) fun _ _ same => ?_
    rw [← same]
    exact emit_writes _ _
  next => exact emit_writes _ _

theorem appending_writes {name : String} {decision : SupervisorDecision} (result : Json)
    (own : node.type.results = some name) (decided : state.decision py = .ok decision) :
    wp (fun _ _ => True) (Writes py graph node state) history (state.appending name result) := by
  unfold GraphState.appending listOf
  cases listed : (state.data.getD name (.arr [])).toList with
  | some items => exact Writes.capability result own decided listed
  | none => trivial

end Helpers

section Nodes
variable {py : Builtins} {graph : CompiledGraph} {deps : RuntimeDependencies} {runId : String}
  {node : NodeDef} {state : GraphState} {history : List OpEntry}

theorem runLlm_writes (kind : node.type = .llm) :
    wp (fun _ _ => True) (Writes py graph node state) history
      (runLlm py deps runId node state) := by
  unfold runLlm
  refine wp_seq (wp_trivial _) ?_
  rintro after ⟨call, result⟩ _
  dsimp only
  split
  next => exact wp_seq (wp_trivial _) fun _ _ _ => .llm _ kind
  next => exact ⟨trivial, fun _ => trivial⟩

theorem runSupervisor_writes (kind : node.type = .supervisor)
    (unasked : modelAnswers history = []) :
    wp (fun _ => node.Asks state) (Writes py graph node state) history
      (runSupervisor py deps runId node graph state) := by
  unfold runSupervisor
  refine wp_seq (askModel_writes fun _ => rfl) ?_
  rintro after ⟨call, result⟩ asked
  rw [unasked, List.nil_append] at asked
  dsimp only at asked ⊢
  split
  next structured success found =>
    refine wp_seq (emitLlmDone_writes call result) fun _ _ same => ?_
    refine wp_seq (ofExcept_wp _) ?_
    rintro _ decision ⟨rfl, valid⟩
    refine wp_seq (ofExcept_wp _) ?_
    rintro _ _ ⟨rfl, known⟩
    exact .supervisor kind (same.trans asked) found valid known
  next => exact ⟨trivial, fun _ => trivial⟩

theorem runTransform_writes (kind : node.type = .transform) :
    wp (fun _ _ => True) (Writes py graph node state) history
      (GraphProg.ofExcept (runTransform py node state)) := by
  refine wp_mono (fun _ _ asked => asked) ?_ (ofExcept_wp _)
  rintro after patch ⟨rfl, returned⟩
  obtain ⟨_, _, text, rfl⟩ := runTransform_ok returned
  exact .transform text kind

theorem runTool_writes (kind : node.type = .tool) :
    wp (fun _ _ => True) (Writes py graph node state) history
      (runTool py deps runId node state) := by
  unfold runTool
  split
  next => trivial
  next registry configured =>
    refine wp_seq (ofExcept_wp _) ?_
    rintro after decision ⟨_, decided⟩
    dsimp only
    split
    next => trivial
    next =>
      refine wp_seq (wp_trivial _) fun _ _ _ => wp_seq (wp_trivial _) fun _ _ _ => ?_
      exact wp_seq (wp_trivial _) fun _ _ _ => appending_writes _ (by rw [kind]; rfl) decided

theorem runRag_writes (kind : node.type = .rag) :
    wp (fun _ _ => True) (Writes py graph node state) history
      (runRag py deps runId node state) := by
  unfold runRag
  split
  next => trivial
  next =>
    refine wp_seq (ofExcept_wp _) ?_
    rintro after decision ⟨_, decided⟩
    refine wp_seq (wp_trivial _) fun _ _ _ => wp_seq (wp_trivial _) fun _ _ _ => ?_
    exact wp_seq (wp_trivial _) fun _ _ _ => appending_writes _ (by rw [kind]; rfl) decided

theorem runSubagent_writes (kind : node.type = .subagent) :
    wp (fun _ _ => True) (Writes py graph node state) history
      (runSubagent py deps runId node state) := by
  unfold runSubagent
  split
  next => trivial
  next executor configured =>
    refine wp_seq (ofExcept_wp _) ?_
    rintro after decision ⟨_, decided⟩
    refine wp_seq (wp_trivial _) fun _ _ _ => wp_seq (wp_trivial _) fun _ _ _ => ?_
    refine wp_seq (wp_trivial _) fun _ _ _ => wp_seq (wp_trivial _) fun _ _ _ => ?_
    exact appending_writes _ (by rw [kind]; rfl) decided

theorem runApproval_writes (kind : node.type = .approval) :
    wp (fun _ _ => True) (Writes py graph node state) history
      (runApproval py deps runId node state) := by
  unfold runApproval
  split
  next => trivial
  next =>
    refine wp_seq (ofExcept_wp _) ?_
    rintro after decision ⟨_, decided⟩
    refine wp_seq (wp_trivial _) fun _ _ _ => wp_seq (wp_trivial _) fun _ _ _ => ?_
    exact appending_writes _ (by rw [kind]; rfl) decided

theorem runNode_writes (unasked : modelAnswers history = []) :
    wp (fun _ => node.Asks state) (Writes py graph node state) history
      (runNode py graph deps runId node state) := by
  have other (kind : node.type ≠ .supervisor) {p : GraphProg GraphState}
      (holds : wp (fun _ _ => True) (Writes py graph node state) history p) :
      wp (fun _ => node.Asks state) (Writes py graph node state) history p := wp_asks kind holds
  unfold runNode
  split
  next kind => exact other (by simp [kind]) (runLlm_writes kind)
  next kind => exact runSupervisor_writes kind unasked
  next kind => exact other (by simp [kind]) (runTransform_writes kind)
  next kind => exact other (by simp [kind]) (runTool_writes kind)
  next kind => exact other (by simp [kind]) (runRag_writes kind)
  next kind => exact other (by simp [kind]) (runSubagent_writes kind)
  next kind => exact other (by simp [kind]) (runApproval_writes kind)

theorem Writes.congr {after : List OpEntry} {patch : GraphState}
    (writes : Writes py graph node state history patch)
    (same : modelAnswers after = modelAnswers history) :
    Writes py graph node state after patch := by
  cases writes with
  | llm content kind => exact .llm content kind
  | supervisor kind asked found valid known =>
      exact .supervisor kind (same.trans asked) found valid known
  | transform text kind => exact .transform text kind
  | capability result own decided listed => exact .capability result own decided listed

theorem makeNode_writes :
    wp (fun _ => node.Asks state) (Writes py graph node state) []
      (makeNode py graph deps node state) := by
  refine wp_seq checkCancelled_writes fun _ _ unasked => ?_
  refine wp_seq (emit_writes _ _) fun _ _ same => ?_
  refine wp_seq (runNode_writes (same.trans unasked)) fun _ patch writes => ?_
  exact wp_seq (emit_writes _ _) fun _ _ same => writes.congr same

end Nodes

namespace Writes
variable {py : Builtins} {graph : CompiledGraph} {node : NodeDef} {state patch : GraphState}
  {history : List OpEntry}

theorem runtime (writes : Writes py graph node state history patch) : patch.runtime = [] := by
  cases writes <;> rfl

theorem control (writes : Writes py graph node state history patch)
    (kind : node.type ≠ .supervisor) : patch.control = [] := by
  cases writes with
  | supervisor own => exact absurd own kind
  | llm | transform | capability => rfl

theorem messages (writes : Writes py graph node state history patch) :
    if node.type = .llm then ∃ content, patch.messages = [Executor.message "assistant" content]
    else patch.messages = [] := by
  cases writes with
  | llm content kind => rw [if_pos kind]; exact ⟨content, rfl⟩
  | supervisor kind | transform _ kind => exact (if_neg (by simp [kind])).mpr rfl
  | capability _ own =>
      rw [if_neg]
      intro kind
      rw [kind] at own
      contradiction

theorem dataKey_of_results {name : String} (own : node.type.results = some name) :
    node.dataKey py = some name := by
  unfold NodeDef.dataKey
  cases kind : node.type <;> simp_all [NodeType.results]

/-- A node writes no key of the data channel but its own. -/
theorem data (writes : Writes py graph node state history patch) :
    patch.data = [] ∨ ∃ key value, node.dataKey py = some key ∧ patch.data = [(key, value)] := by
  cases writes with
  | llm => exact .inl rfl
  | @supervisor _ _ decision kind =>
      unfold SupervisorDecision.patch
      dsimp only
      split
      next => exact .inr ⟨_, _, by rw [NodeDef.dataKey, kind], rfl⟩
      next => exact .inl rfl
  | transform text kind => exact .inr ⟨_, _, by rw [NodeDef.dataKey, kind], rfl⟩
  | capability result own => exact .inr ⟨_, _, dataKey_of_results own, rfl⟩

end Writes
end AgentRuntime
