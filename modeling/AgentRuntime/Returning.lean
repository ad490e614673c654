import AgentRuntime.Library.Endings
import AgentRuntime.Confinement

/-! Capabilities that fail. The result of a tool, a retrieval or a subagent that fails is appended
like any other, and control returns to the supervisor; what makes the node raise instead is said
here for each type of node. -/
namespace AgentRuntime
open Programs Tables

structure EmbeddingResult where
  embeddings : List Json := []
  error : Option NormalizedError := none

/-- `PostgresRAGRepository`, with what the database and the gateway answer it. The database finds
the embedding model of a knowledge base, or raises with a text for a value that is no identity. -/
structure RagRepository where
  scope : ToolScope := {}
  knowledgeBase : Json → Except String (Option String)
  embed : String → String → EmbeddingResult
  nearest : Json → Json → List Json

namespace RagRepository
variable (py : Builtins) (repository : RagRepository)

/-- `RAGScope.is_allowed`, whose patterns match strings only. -/
def isAllowed : Json → Except ExecError Bool
  | .str name => .ok (repository.scope.isAllowed py name)
  | value =>
      if repository.scope.deny.isEmpty && repository.scope.allow.isEmpty then .ok true
      else
        .error (.other ("expected str, bytes or os.PathLike object, not " ++ value.typeName))

/-- `compute_embeddings([query], ..)`. -/
def computeEmbeddings (model : String) (query : Json) : Except ExecError (List Json) :=
  match query with
  | .str text =>
      let result := repository.embed model text
      match result.error with
      | some error => .error (.other error.message)
      | none =>
          if result.embeddings.length = 1 then .ok result.embeddings
          else .error (.other "embedding provider returned an unexpected row count")
  | value => .error (.other (py.invalid "EmbeddingRequest" value))

def retrieve (knowledgeBase query : Json) : Except ExecError ToolResult := do
  let name := knowledgeBase.text py
  if !(← repository.isAllowed py knowledgeBase) then
    return .fail .ragError ("knowledge base '" ++ name ++ "' not in scope")
  else
    match repository.knowledgeBase knowledgeBase with
    | .error message => .error (.other message)
    | .ok none => return .fail .ragError ("knowledge base '" ++ name ++ "' not found")
    | .ok (some model) =>
        let vectors ← repository.computeEmbeddings py model query
        return .ok
          [("knowledge_base_id", knowledgeBase), ("query", query),
            ("chunks", .arr (repository.nearest knowledgeBase (vectors.headD .null)))]

/-- The knowledge base is out of scope or missing, or its embedding call succeeds. -/
inductive Answers (knowledgeBase query : Json) : Prop
  | outOfScope : repository.isAllowed py knowledgeBase = .ok false → Answers knowledgeBase query
  | missing : repository.isAllowed py knowledgeBase = .ok true →
      repository.knowledgeBase knowledgeBase = .ok none → Answers knowledgeBase query
  | embedded {model text vector} : repository.isAllowed py knowledgeBase = .ok true →
      repository.knowledgeBase knowledgeBase = .ok (some model) → query = .str text →
      (repository.embed model text).error = none →
      (repository.embed model text).embeddings = [vector] → Answers knowledgeBase query

theorem computeEmbeddings_ok {model : String} {query : Json} {vectors : List Json}
    (computed : repository.computeEmbeddings py model query = .ok vectors) :
    ∃ text vector, query = .str text ∧ (repository.embed model text).error = none ∧
      (repository.embed model text).embeddings = [vector] := by
  unfold computeEmbeddings at computed
  split at computed
  next text =>
    dsimp only at computed
    split at computed
    next => contradiction
    next clean =>
      split at computed
      next single =>
        obtain ⟨vector, one⟩ := List.length_eq_one_iff.mp single
        exact ⟨text, vector, rfl, clean, one⟩
      next => contradiction
  next => contradiction

theorem retrieve_ok_iff (knowledgeBase query : Json) :
    (∃ result, repository.retrieve py knowledgeBase query = .ok result) ↔
      repository.Answers py knowledgeBase query := by
  unfold retrieve
  constructor
  · rintro ⟨result, retrieved⟩
    cases allowed : repository.isAllowed py knowledgeBase with
    | error error =>
        rw [allowed] at retrieved
        contradiction
    | ok inside =>
        cases inside with
        | false => exact .outOfScope allowed
        | true =>
            cases found : repository.knowledgeBase knowledgeBase with
            | error message =>
                simp [allowed, found, bind, Except.bind] at retrieved
            | ok model =>
                cases model with
                | none => exact .missing allowed found
                | some model =>
                    cases computed : repository.computeEmbeddings py model query with
                    | error error =>
                        simp [allowed, found, computed, bind, Except.bind] at retrieved
                    | ok vectors =>
                        obtain ⟨text, vector, same, clean, one⟩ :=
                          repository.computeEmbeddings_ok py computed
                        exact .embedded allowed found same clean one
  · intro answers
    cases answers with
    | outOfScope allowed => exact ⟨_, by rw [allowed]; rfl⟩
    | missing allowed found => exact ⟨_, by rw [allowed, found]; rfl⟩
    | embedded allowed found same clean one =>
        subst same
        simp [allowed, found, computeEmbeddings, clean, one, bind, Except.bind, pure, Except.pure]

theorem isAllowed_error {knowledgeBase : Json} {error : ExecError}
    (failed : repository.isAllowed py knowledgeBase = .error error) :
    ∃ message, error = .other message := by
  unfold isAllowed at failed
  split at failed
  next => contradiction
  next =>
    split at failed
    next => contradiction
    next =>
      cases failed
      exact ⟨_, rfl⟩

theorem computeEmbeddings_error {model : String} {query : Json} {error : ExecError}
    (failed : repository.computeEmbeddings py model query = .error error) :
    ∃ message, error = .other message := by
  unfold computeEmbeddings at failed
  split at failed
  next =>
    dsimp only at failed
    split at failed
    next =>
      cases failed
      exact ⟨_, rfl⟩
    next =>
      split at failed
      next => contradiction
      next =>
        cases failed
        exact ⟨_, rfl⟩
  next =>
    cases failed
    exact ⟨_, rfl⟩

theorem retrieve_error {knowledgeBase query : Json} {error : ExecError}
    (failed : repository.retrieve py knowledgeBase query = .error error) :
    ∃ message, error = .other message := by
  unfold retrieve at failed
  cases allowed : repository.isAllowed py knowledgeBase with
  | error raised =>
      rw [allowed] at failed
      cases failed
      exact repository.isAllowed_error py allowed
  | ok inside =>
      rw [allowed] at failed
      cases inside with
      | false => contradiction
      | true =>
          cases found : repository.knowledgeBase knowledgeBase with
          | error message =>
              simp only [found] at failed
              cases failed
              exact ⟨_, rfl⟩
          | ok model =>
              cases model with
              | none => simp [found, bind, Except.bind, pure, Except.pure] at failed
              | some model =>
                  cases computed : repository.computeEmbeddings py model query with
                  | ok vectors =>
                      simp [found, computed, bind, Except.bind, pure, Except.pure] at failed
                  | error raised =>
                      simp only [found, computed, bind, Except.bind] at failed
                      cases failed
                      exact repository.computeEmbeddings_error py computed

end RagRepository

/-- What a node meets: the repository behind its retriever, the readings of the clock, and how
the callable of a tool may end. -/
structure Surroundings where
  repository : RagRepository
  clock : Time → Prop
  ends : String → Dict → CallResult → Prop
  ticks : ∃ now, clock now
  halts : ∀ name arguments, ∃ outcome, ends name arguments outcome

/-- The gateway parses what the model answers with the schema of the request. -/
def ModelRequest.Conforms (py : Builtins) (request : ModelRequest) (result : ModelResult) : Prop :=
  ∀ fields, result.structured = some fields →
    match request.responseSchema with
    | some .subagentDecision =>
        ∃ decision, SubagentDecision.validate py (.obj fields) = .ok decision
    | some .supervisorDecision =>
        ∃ decision, SupervisorDecision.validate py (.obj fields) = .ok decision
    | none => True

/-- The replies while only capabilities fail. The gateway reports every failed completion in its
result, and a pending approval interrupts. -/
def Capable (py : Builtins) (around : Surroundings) : Replies Op.Answer Raised
  | .complete request, .answered result => request.Conforms py result
  | .invoke _ name arguments, .answered outcome => around.ends name arguments outcome
  | .retrieve knowledgeBase query, reply =>
      reply = .ofExcept ((around.repository.retrieve py knowledgeBase query).mapError Raised.error)
  | .now, .answered now => around.clock now
  | .interrupt raised, .raised error => error = .interrupt raised
  | _, .answered _ => True
  | _, _ => False

/-- A cancellation, or the interrupt of an approval. -/
def Raised.Excused : Raised → Prop
  | .error failure => failure.cancels = true
  | .interrupt _ => True

/-- The result in the patch reports a success. -/
def NodeType.Succeeded (type : NodeType) (result : Dict) : Prop :=
  match type with
  | .subagent => result.get? "status" = some (.str "success")
  | _ => result.get? "success" = some (.bool true)

/-- The capability of the node delivered what it is for. -/
def NodeDef.Delivered (py : Builtins) (node : NodeDef) (history : List OpEntry) : Prop :=
  match node.type with
  | .tool => ∃ name arguments data unwritable,
      (⟨.invoke .toolNode name arguments, .answered (.returned data unwritable)⟩ : OpEntry) ∈
        history
  | .rag => ∃ knowledgeBase query result,
      (⟨.retrieve knowledgeBase query, .answered result⟩ : OpEntry) ∈ history ∧
        result.success = true
  | .subagent => ∃ request result fields decision,
      (⟨.complete request, .answered result⟩ : OpEntry) ∈ history ∧
        result.structured = some fields ∧
        SubagentDecision.validate py (.obj fields) = .ok decision ∧ decision.action = .final
  | _ => False

/-- The patch appends a result to those of the node. It reports a success only where the capability
delivered. -/
def NodeDef.Appends (py : Builtins) (node : NodeDef) (state : GraphState) (history : List OpEntry)
    (patch : GraphState) : Prop :=
  ∃ name items result, node.type.results = some name ∧
    (state.data.getD name (.arr [])).toList = some items ∧
    patch = { data := [(name, .arr (items ++ [.obj result]))] } ∧
    (node.type.Succeeded result → node.Delivered py history)

/-- The supervisor is next behind the patch. -/
def NodeDef.Hands (py : Builtins) (graph : CompiledGraph) (node : NodeDef) (state : GraphState)
    (patch : GraphState) : Prop :=
  ∃ id, graph.supervisorId = some id ∧ graph.next py node (state.merge patch) = .ok (some id)

/-- However the capability fails, the node returns such a patch, or it is cancelled or paused. -/
def ComesBack (c : RunConfig) (around : Surroundings) (node : NodeDef) (state : GraphState) :
    Prop :=
  ∀ history p, Played (Capable c.py around) history
      (makeNode c.py c.program.definition c.deps node state) p →
    (∀ patch, p = pure patch → node.Appends c.py state history patch ∧
      node.Hands c.py c.program.definition state patch) ∧
    ∀ error, p = .raise error → error.Excused

section Conditions

/-- The query of a retrieval: what the decision asks, or else the last message. -/
def SupervisorDecision.query (decision : SupervisorDecision) (state : GraphState) : Json :=
  let asked := (orEmpty decision.input).getD "query" (.str "")
  if asked.truthy || state.messages.isEmpty then asked else state.lastContent

/-- The gate of the node can be asked: its expiry is an instant from every reading of the clock. -/
structure GateUsable (py : Builtins) (deps : RuntimeDependencies) (around : Surroundings)
    (node : NodeDef) (runId : String) : Prop where
  repository : deps.approvalRepository = true
  run : (RunId.ofText? runId).isSome
  expires : ∃ seconds, (node.config.getD "expires_in" (.int 3600)).toInt py = some seconds ∧
    ∀ now, around.clock now → Expires now seconds

/-- The tool that is named is registered and in scope, and its gate can be asked. -/
structure ToolUsable (py : Builtins) (deps : RuntimeDependencies) (around : Surroundings)
    (registry : ToolRegistry) (node : NodeDef) (runId : String) (name : Json) (tool : ToolDef) :
    Prop where
  named : name = .str tool.name ∧ tool.name ≠ ""
  found : registry.tools.find? tool.name = some tool
  inScope : registry.scope.isAllowed py tool.name = true
  gate : tool.risk = .sensitive → GateUsable py deps around node runId

/-- The subagent may call the tool: it is in scope, and what its callable returns is JSON. -/
structure Executor.Callable (py : Builtins) (executor : Executor) (around : Surroundings)
    (name : String) : Prop where
  inScope : executor.toolRegistry.scope.isAllowed py name = true
  writable : executor.toolRegistry.callables.contains name = true →
    ∀ arguments outcome, around.ends name arguments outcome → outcome.writable

/-- The membership tests of the task do not raise, and every tool that the subagent comes to call
is one it may call. -/
structure TaskUsable (py : Builtins) (executor : Executor) (around : Surroundings)
    (task : SubagentTask) : Prop where
  template : task.template.hashable = true
  hashable : Executor.knownTemplate task = .ok true →
    ∀ name ∈ task.allowedTools, name.hashable = true
  callable : Executor.knownTemplate task = .ok true → 0 < executor.maxSteps →
    (∀ name ∈ task.allowedTools, ∃ text, name = .str text ∧
      (executor.toolRegistry.tools.find? text).isSome) →
    ∀ name, .str name ∈ task.allowedTools → name ≠ "" → executor.Callable py around name

/-- The task that a subagent node makes of the decision, where its lists are lists. -/
def NodeDef.task (py : Builtins) (node : NodeDef) (input : Dict) : Option SubagentTask := do
  let context ← (input.getD "selected_context" (.arr [])).toList
  let allowed ← (node.config.getD "allowed_tools" (.arr [])).toList
  return {
    task := (input.getD "task" (node.config.getD "task" (.str ""))).text py
    selectedContext := context
    allowedTools := allowed
    expectedOutputSchema := node.config.getD "expected_output_schema" .null
    template := node.config.getD "template" (.str "react") }

/-- The failures of the capability that the decision selects are among those it reports. -/
inductive NodeDef.Usable (py : Builtins) (deps : RuntimeDependencies) (around : Surroundings)
    (node : NodeDef) (state : GraphState) (decision : SupervisorDecision) : Prop
  | tool {registry tool} : node.type = .tool → deps.toolRegistry = some registry →
      ToolUsable py deps around registry node (state.runId py)
        ((decision.named "tool_name").orElse (node.config.getD "tool" .null)) tool →
      Usable py deps around node state decision
  | rag : node.type = .rag → deps.retriever = true →
      around.repository.Answers py
        ((decision.named "knowledge_base_id").orElse
          (node.config.getD "knowledge_base_id" (.str ""))) (decision.query state) →
      Usable py deps around node state decision
  | subagent {executor task} : node.type = .subagent → deps.subagentExecutor = some executor →
      node.task py (orEmpty decision.input) = some task → TaskUsable py executor around task →
      Usable py deps around node state decision

/-- What is stored under the results of the node can be listed. -/
def NodeDef.Listable (node : NodeDef) (state : GraphState) : Prop :=
  ∃ name items, node.type.results = some name ∧
    (state.data.getD name (.arr [])).toList = some items

end Conditions

section Returns
variable {py : Builtins} {deps : RuntimeDependencies} {around : Surroundings}
  {node : NodeDef} {state : GraphState} {decision : SupervisorDecision} {runId : String}
  {history : List OpEntry} {registry : ToolRegistry} {tool : ToolDef} {name : Json}

/-- How a program ends while only capabilities fail. -/
abbrev EndsCapable {α : Type} (py : Builtins) (around : Surroundings)
    (Q : List OpEntry → α → Prop) (history : List OpEntry) (p : GraphProg α) : Prop :=
  Ends (Capable py around) Q (fun _ error => error.Excused) history p

theorem emit_ends {α : Type} {Q : List OpEntry → α → Prop} {type : EventType} {id : NodeId}
    {payload : Dict} {f : Unit → GraphProg α}
    (rest : EndsCapable py around Q
      (history ++ [⟨.emit type runId id payload, .answered ()⟩]) (f ())) :
    EndsCapable py around Q history (GraphProg.emit type runId id payload >>= f) :=
  ⟨fun _ _ => rest, fun _ never => never.elim⟩

theorem checkCancelled_ends :
    EndsCapable py around (fun _ _ => True) history (checkCancelled deps runId node) := by
  unfold checkCancelled
  split
  · refine ⟨fun cancelled _ => ?_, fun _ never => never.elim⟩
    show Ends _ _ _ _ (if cancelled then _ else _)
    split
    · exact rfl
    · trivial
  · trivial

theorem requireApproval_ends (action : String) (toolName : Option String) (arguments : Dict)
    (gate : GateUsable py deps around node runId) :
    EndsCapable py around (fun _ _ => True) history
      (requireApproval py deps runId node action toolName arguments) := by
  obtain ⟨run, own⟩ := Option.isSome_iff_exists.mp gate.run
  obtain ⟨seconds, counted, expires⟩ := gate.expires
  simp only [requireApproval, gate.repository, Bool.not_true, Bool.false_eq_true, if_false, own,
    counted]
  refine ⟨fun now reading => ?_, fun _ never => never.elim⟩
  have instant : expiry now seconds = .ok ((now : Int) + seconds).toNat :=
    if_pos (expires now reading)
  dsimp only [Prog.bind]
  rw [instant]
  refine ⟨fun approval _ => ⟨fun resume _ => trivial, ?_⟩, fun _ never => never.elim⟩
  rintro error rfl
  trivial

theorem ainvoke_ends {site : Site} (arguments : Dict)
    (found : registry.tools.find? tool.name = some tool)
    (inScope : registry.scope.isAllowed py tool.name = true) :
    EndsCapable py around
      (fun after result => result.success = true → ∃ data unwritable,
        (⟨.invoke site tool.name arguments, .answered (.returned data unwritable)⟩ : OpEntry) ∈
          after)
      history (registry.ainvoke py site (.str tool.name) arguments) := by
  simp only [ToolRegistry.ainvoke, ToolRegistry.get_found found, inScope, Bool.not_true,
    Bool.false_eq_true, if_false]
  split
  · intro success
    contradiction
  · refine ⟨fun outcome _ success => ?_, fun _ never => never.elim⟩
    cases outcome with
    | returned data unwritable => exact ⟨data, unwritable, by simp⟩
    | typeError | raised => contradiction

theorem callTool_ends (arguments : Dict)
    (usable : ToolUsable py deps around registry node runId name tool) :
    EndsCapable py around
      (fun after result => result.success = true → ∃ name arguments data unwritable,
        (⟨.invoke .toolNode name arguments, .answered (.returned data unwritable)⟩ : OpEntry) ∈
          after)
      history (callTool py deps runId node registry name arguments) := by
  obtain ⟨⟨rfl, _⟩, found, inScope, gate⟩ := usable
  have called (before : List OpEntry) : EndsCapable py around
      (fun after result => result.success = true → ∃ data unwritable,
        (⟨.invoke .toolNode tool.name arguments, .answered (.returned data unwritable)⟩ :
          OpEntry) ∈ after)
      before (registry.ainvoke py .toolNode (.str tool.name) arguments) :=
    ainvoke_ends arguments found inScope
  unfold callTool toolRequiresApproval
  simp only [ToolRegistry.get_found found]
  split
  next sensitive =>
    refine .seq (requireApproval_ends _ _ _ (gate (by simpa using sensitive)))
      fun after decided _ => ?_
    split
    · exact (called after).mono
        (fun _ _ invoked success => ⟨_, _, invoked success⟩) fun _ _ same => same
    · exact fun success => by contradiction
  next =>
    exact (called history).mono
      (fun _ _ invoked success => ⟨_, _, invoked success⟩) fun _ _ same => same

theorem modelError_fails (message : String) (step : Nat) (task : SubagentTask) :
    (Executor.modelError message step task).status ≠ "success" :=
  show "error" ≠ "success" by decide

section Subagent
variable {executor : Executor} {task : SubagentTask}

/-- A model ended its loop with an answer. -/
def Concluded (py : Builtins) (history : List OpEntry) : Prop :=
  ∃ request result fields decision,
    (⟨.complete request, .answered result⟩ : OpEntry) ∈ history ∧
      result.structured = some fields ∧
      SubagentDecision.validate py (.obj fields) = .ok decision ∧ decision.action = .final

/-- A tool that the subagent may call gives a result that its loop can write down. -/
theorem ainvoke_writable {text : String} (arguments : Dict)
    (found : (executor.toolRegistry.tools.find? text).isSome)
    (callable : executor.Callable py around text) :
    EndsCapable py around (fun _ result => result.unwritable = none) history
      (executor.toolRegistry.ainvoke py .subagent (.str text) arguments) := by
  obtain ⟨tool, stored⟩ := Option.isSome_iff_exists.mp found
  have own : tool.name = text := Table.key_of_find? stored
  subst own
  simp only [ToolRegistry.ainvoke, ToolRegistry.get_found stored, callable.inScope, Bool.not_true,
    Bool.false_eq_true, if_false]
  split
  · rfl
  next bound =>
    refine ⟨fun outcome possible => ?_, fun _ never => never.elim⟩
    exact callable.writable (by simpa using bound) _ _ possible

/-- The loop of a subagent raises nothing where its tools are registered and it may call them. -/
theorem react_ends
    (known : ∀ name ∈ task.allowedTools, ∃ text, name = .str text ∧
      (executor.toolRegistry.tools.find? text).isSome)
    (remaining : Nat)
    (callable : 0 < remaining → ∀ name, .str name ∈ task.allowedTools → name ≠ "" →
      executor.Callable py around name)
    (step : Nat) (messages : List Dict) :
    EndsCapable py around
      (fun after result => result.status = "success" → Concluded py after)
      history (executor.react py task remaining step messages) := by
  induction remaining generalizing step messages history with
  | zero => exact fun success => absurd success (show "timeout" ≠ "success" by decide)
  | succ remaining ih =>
      have allowed := callable (Nat.succ_pos _)
      refine ⟨fun response conforms => ?_, fun _ never => never.elim⟩
      dsimp only [Prog.bind]
      split
      next structured _ parsed =>
        obtain ⟨decision, valid⟩ := conforms structured parsed
        rw [valid]
        dsimp only
        split
        next final =>
          exact fun _ => ⟨_, response, structured, decision, by simp, parsed, valid, final⟩
        next text _ _ =>
          split
          next permitted =>
            simp only [ne_eq, decide_not, Bool.and_eq_true, Bool.not_eq_eq_eq_not, Bool.not_true,
              decide_eq_false_iff_not] at permitted
            have member := SubagentTask.allows_iff.mp permitted.2
            obtain ⟨_, same, registered⟩ := known _ member
            cases same
            refine .seq (ainvoke_writable _ registered (allowed _ member permitted.1)) ?_
            intro after result written
            rw [ToolResult.dumpJson, written]
            exact ih (fun _ => allowed) _ _
          next => exact fun success => absurd success (modelError_fails _ _ _)
        next => exact fun success => absurd success (modelError_fails _ _ _)
      next => exact fun success => absurd success (modelError_fails _ _ _)

theorem Executor.unknownTools_cases (executor : Executor) (items : List Json) :
    (∃ error, executor.unknownTools items = .error error ∧ error.cancels = false ∧
        ∃ name ∈ items, name.hashable = false) ∨
      ∃ unknown, executor.unknownTools items = .ok unknown ∧
        (∀ name ∈ items, name.hashable = true) ∧
        (unknown = [] ↔ ∀ name ∈ items, ∃ text, name = .str text ∧
          (executor.toolRegistry.tools.find? text).isSome) := by
  induction items with
  | nil => exact .inr ⟨[], rfl, by simp, by simp⟩
  | cons item rest ih =>
      have first : executor.unknownTools (item :: rest) =
          if item.hashable then
            (executor.unknownTools rest).map fun unknown =>
              if (item.str?.bind executor.toolRegistry.tools.find?).isSome then unknown
              else item :: unknown
          else .error (.other (unhashable item)) := by
        cases item <;> simp [Executor.unknownTools, Json.hashable, Json.str?] <;>
          cases executor.unknownTools rest <;> rfl
      have listed : (item.str?.bind executor.toolRegistry.tools.find?).isSome ↔
          ∃ text, item = .str text ∧ (executor.toolRegistry.tools.find? text).isSome := by
        cases item <;> simp [Json.str?]
      cases hashable : item.hashable with
      | false => exact .inl ⟨_, by rw [first, hashable]; rfl, rfl, item, by simp, hashable⟩
      | true =>
          rw [hashable, if_pos rfl] at first
          rcases ih with ⟨error, failed, other, name, member, bad⟩ | ⟨unknown, ok, all, empty⟩
          · refine .inl ⟨error, by rw [first, failed]; rfl, other, name, ?_, bad⟩
            exact List.mem_cons_of_mem _ member
          · refine .inr ⟨_, by rw [first, ok]; rfl, by simpa [hashable] using all, ?_⟩
            rw [List.forall_mem_cons, ← listed, ← empty]
            split <;> simp [*]

theorem start_ends
    (known : ∀ name ∈ task.allowedTools, ∃ text, name = .str text ∧
      (executor.toolRegistry.tools.find? text).isSome)
    (callable : 0 < executor.maxSteps → ∀ name, .str name ∈ task.allowedTools → name ≠ "" →
      executor.Callable py around name) :
    EndsCapable py around
      (fun after result => result.status = "success" → Concluded py after)
      history (executor.start py task) := by
  unfold Executor.start
  dsimp only
  split
  next =>
    refine ⟨fun plan _ => ?_, fun _ never => never.elim⟩
    show Ends _ _ _ _ (if plan.success then _ else _)
    split
    · exact react_ends known _ callable _ _
    · exact fun success => absurd success (modelError_fails _ _ _)
  next => exact react_ends known _ callable _ _

theorem knownTemplate_error {error : ExecError}
    (failed : Executor.knownTemplate task = .error error) :
    task.template.hashable = false ∧ error.cancels = false := by
  unfold Executor.knownTemplate at failed
  split at failed
  next => contradiction
  next =>
    split at failed
    next => contradiction
    next bad =>
      cases failed
      exact ⟨by simpa using bad, rfl⟩

theorem execute_ends (usable : TaskUsable py executor around task) :
    EndsCapable py around
      (fun after result => result.status = "success" → Concluded py after)
      history (executor.execute py task 0) := by
  have failed : ("error" : String) ≠ "success" := by decide
  unfold Executor.execute
  rw [if_neg (by simp)]
  split
  next error raised =>
    have bad := (knownTemplate_error raised).1
    rw [usable.template] at bad
    contradiction
  next => exact fun success => absurd success failed
  next template =>
    rcases executor.unknownTools_cases task.allowedTools with
      ⟨error, _, _, name, member, bad⟩ | ⟨unknown, ok, _, empty⟩
    · rw [usable.hashable template name member] at bad
      contradiction
    · rw [ok]
      cases unknown with
      | nil =>
          have known := empty.mp rfl
          exact start_ends known fun steps => usable.callable template steps known
      | cons => exact fun success => absurd success failed

end Subagent

/-- The patch that appends the result of the capability. -/
theorem appending_ends {results : String} {items : List Json} {result : Dict}
    (own : node.type.results = some results)
    (listed : (state.data.getD results (.arr [])).toList = some items)
    (truthful : node.type.Succeeded result → node.Delivered py history) :
    EndsCapable py around (node.Appends py state)
      history (state.appending results (.obj result)) := by
  unfold GraphState.appending listOf
  rw [listed]
  exact ⟨results, items, result, own, listed, rfl, truthful⟩

theorem runTool_ends (kind : node.type = .tool) (configured : deps.toolRegistry = some registry)
    (decided : state.decision py = .ok decision)
    (usable : ToolUsable py deps around registry node runId
      ((decision.named "tool_name").orElse (node.config.getD "tool" .null)) tool)
    (listable : node.Listable state) :
    EndsCapable py around (node.Appends py state) history
      (runTool py deps runId node state) := by
  obtain ⟨results, items, own, listed⟩ := listable
  have same : results = "tool_results" := by
    rw [kind] at own
    exact (Option.some.inj own).symm
  subst same
  unfold runTool
  rw [configured]
  dsimp only
  rw [decided]
  change Ends _ _ _ _ (if !((decision.named "tool_name").orElse _).truthy then _ else _)
  split
  next missing =>
    rw [usable.named.1] at missing
    exact absurd missing (by simp [Json.truthy, usable.named.2])
  next =>
    refine emit_ends (.seq (callTool_ends _ usable) fun after result invoked => emit_ends ?_)
    refine appending_ends own listed fun success => ?_
    simp only [NodeType.Succeeded, kind] at success
    obtain ⟨name, arguments, data, unwritable, member⟩ :=
      invoked (by simpa [ToolResult.dump] using success)
    simp only [NodeDef.Delivered, kind]
    exact ⟨name, arguments, data, unwritable, List.mem_append_left _ member⟩

theorem runRag_ends (kind : node.type = .rag) (configured : deps.retriever = true)
    (decided : state.decision py = .ok decision)
    (answers : around.repository.Answers py
      ((decision.named "knowledge_base_id").orElse
        (node.config.getD "knowledge_base_id" (.str ""))) (decision.query state))
    (listable : node.Listable state) :
    EndsCapable py around (node.Appends py state) history
      (runRag py deps runId node state) := by
  obtain ⟨results, items, own, listed⟩ := listable
  have same : results = "rag_results" := by
    rw [kind] at own
    exact (Option.some.inj own).symm
  subst same
  obtain ⟨result, retrieved⟩ := (around.repository.retrieve_ok_iff py _ _).mpr answers
  unfold runRag
  rw [configured, decided]
  refine emit_ends ⟨fun answer possible => emit_ends ?_, fun error possible => ?_⟩
  · refine appending_ends own listed fun success => ?_
    simp only [NodeType.Succeeded, kind] at success
    simp only [NodeDef.Delivered, kind]
    refine ⟨_, _, answer, List.mem_append_left _ (List.mem_append_right _ List.mem_cons_self), ?_⟩
    simpa [ToolResult.dump] using success
  · have failed : Reply.raised error = .answered result := Eq.trans possible
      (congrArg (fun found => Reply.ofExcept (Except.mapError Raised.error found)) retrieved)
    contradiction

theorem runSubagent_ends {executor : Executor} {task : SubagentTask} (kind : node.type = .subagent)
    (configured : deps.subagentExecutor = some executor)
    (decided : state.decision py = .ok decision)
    (formed : node.task py (orEmpty decision.input) = some task)
    (usable : TaskUsable py executor around task) (listable : node.Listable state) :
    EndsCapable py around (node.Appends py state) history
      (runSubagent py deps runId node state) := by
  obtain ⟨results, items, own, listed⟩ := listable
  have same : results = "subagent_results" := by
    rw [kind] at own
    exact (Option.some.inj own).symm
  subst same
  have built : subagentTask py node (orEmpty decision.input) = pure task := by
    unfold NodeDef.task at formed
    obtain ⟨context, first, rest⟩ := Option.bind_eq_some_iff.mp formed
    obtain ⟨allowed, second, same⟩ := Option.bind_eq_some_iff.mp rest
    cases same
    unfold subagentTask listOf
    rw [first, second]
    rfl
  unfold runSubagent
  rw [configured]
  dsimp only
  rw [decided]
  change Ends _ _ _ _ (subagentTask py node (orEmpty decision.input) >>= _)
  rw [built]
  refine emit_ends (.seq (execute_ends usable) fun after result concluded => emit_ends ?_)
  refine appending_ends own listed fun success => ?_
  simp only [NodeType.Succeeded, kind] at success
  obtain ⟨request, response, fields, last, member, rest⟩ :=
    concluded (by simpa [SubagentResult.dump] using success)
  simp only [NodeDef.Delivered, kind]
  exact ⟨request, response, fields, last, List.mem_append_left _ member, rest⟩

theorem NodeDef.Delivered.later (more : List OpEntry) (delivered : node.Delivered py history) :
    node.Delivered py (history ++ more) := by
  unfold NodeDef.Delivered at delivered ⊢
  split at delivered
  · obtain ⟨name, arguments, data, unwritable, member⟩ := delivered
    exact ⟨name, arguments, data, unwritable, List.mem_append_left _ member⟩
  · obtain ⟨knowledgeBase, query, result, member, success⟩ := delivered
    exact ⟨knowledgeBase, query, result, List.mem_append_left _ member, success⟩
  · obtain ⟨request, result, fields, decision, member, rest⟩ := delivered
    exact ⟨request, result, fields, decision, List.mem_append_left _ member, rest⟩
  · exact delivered

theorem makeNode_ends (graph : CompiledGraph) (decided : state.decision py = .ok decision)
    (usable : node.Usable py deps around state decision) (listable : node.Listable state) :
    EndsCapable py around (node.Appends py state) history
      (makeNode py graph deps node state) := by
  refine .seq checkCancelled_ends fun _ _ _ => emit_ends (.seq (Q := node.Appends py state) ?_ ?_)
  · unfold runNode
    cases usable with
    | tool kind configured usable =>
        rw [kind]
        exact runTool_ends kind configured decided usable listable
    | rag kind configured answers =>
        rw [kind]
        exact runRag_ends kind configured decided answers listable
    | subagent kind configured formed usable =>
        rw [kind]
        exact runSubagent_ends kind configured decided formed usable listable
  · rintro after patch ⟨name, items, result, own, listed, same, truthful⟩
    refine emit_ends ⟨name, items, result, own, listed, same, fun success => ?_⟩
    exact (truthful success).later _

end Returns

section Escapes
variable {py : Builtins} {deps : RuntimeDependencies} {around : Surroundings}
  {node : NodeDef} {state : GraphState} {decision : SupervisorDecision} {runId : String}
  {registry : ToolRegistry} {tool : ToolDef} {name : Json}

/-- An exception leaves the program that neither cancels nor pauses the run. -/
abbrev EscapesCapable {α : Type} (py : Builtins) (around : Surroundings) (p : GraphProg α) :
    Prop := Escapes (Capable py around) Raised.Excused p

abbrev LeadsCapable {α : Type} (py : Builtins) (around : Surroundings)
    (p q : GraphProg α) : Prop := Leads (Replies.answers (Capable py around)) p q

theorem fail_escapes {α : Type} {error : ExecError} (spontaneous : error.cancels = false) :
    EscapesCapable py around (GraphProg.fail error : GraphProg α) := by
  refine .raise fun excused => ?_
  rw [Raised.Excused, spontaneous] at excused
  contradiction

theorem emit_capable (type : EventType) (payload : Dict) :
    LeadsCapable py around (GraphProg.emit type runId node.id payload) (pure ()) :=
  .request _ trivial

theorem checkCancelled_capable :
    LeadsCapable py around (checkCancelled deps runId node) (pure ()) := by
  unfold checkCancelled
  split
  · exact .seq (.request false trivial) (.refl _)
  · exact .refl _

theorem get_error {error : ExecError} (failed : registry.get py name = .error error) :
    error.cancels = false := by
  unfold ToolRegistry.get at failed
  split at failed
  all_goals
    split at failed
    all_goals
      cases failed
      try rfl

theorem requireApproval_capable (action : String) (toolName : Option String) (arguments : Dict)
    (gate : GateUsable py deps around node runId) (text : String) :
    ∃ rest, LeadsCapable py around
      (requireApproval py deps runId node action toolName arguments) (pure (text, rest)) := by
  obtain ⟨run, own⟩ := Option.isSome_iff_exists.mp gate.run
  obtain ⟨seconds, counted, expires⟩ := gate.expires
  obtain ⟨now, reading⟩ := around.ticks
  simp only [requireApproval, gate.repository, Bool.not_true, Bool.false_eq_true, if_false, own,
    counted]
  let pending := pendingAction py run node.id action toolName arguments ((now : Int) + seconds).toNat
  let approval := (Database.empty.createPending py pending "").1
  have answers : (Capable py around).answers .now now := reading
  have instant : expiry now seconds = .ok ((now : Int) + seconds).toNat :=
    if_pos (expires now reading)
  refine ⟨(approval.id, pending.actionId), .seq (.request now answers) ?_⟩
  rw [instant]
  exact .seq (.refl _) (.seq (.request approval trivial) (.seq (.request (.str text) trivial)
    (.refl _)))

theorem ainvoke_escapes {site : Site} {arguments : Dict}
    (unusable : ∀ tool : ToolDef, name = .str tool.name →
      registry.tools.find? tool.name = some tool →
      registry.scope.isAllowed py tool.name = false) :
    EscapesCapable py around (registry.ainvoke py site name arguments) := by
  unfold ToolRegistry.ainvoke
  cases got : registry.get py name with
  | error error => exact fail_escapes (get_error got)
  | ok tool =>
      obtain ⟨same, found⟩ := ToolRegistry.get_ok got
      simp only [unusable tool same found, Bool.not_false, if_true]
      exact fail_escapes rfl

theorem requireApproval_escapes (action : String) (toolName : Option String) (arguments : Dict)
    (ungated : ¬ GateUsable py deps around node runId) :
    EscapesCapable py around
      (requireApproval py deps runId node action toolName arguments) := by
  unfold requireApproval
  split
  next => exact fail_escapes rfl
  next configured =>
    dsimp only
    split
    next run seconds own counted =>
      obtain ⟨now, reading, late⟩ : ∃ now, around.clock now ∧ ¬ Expires now seconds := by
        by_contra never
        simp only [not_exists, not_and, not_not] at never
        exact ungated ⟨by simpa using configured, by rw [own]; rfl, seconds, counted, never⟩
      have answers : (Capable py around).answers .now now := reading
      have overflows : expiry now seconds = .error (.other (overflow seconds)) := if_neg late
      refine .seq (.request now answers) ?_
      rw [overflows]
      exact (fail_escapes rfl).bind _
    next => exact fail_escapes rfl
    next => exact fail_escapes rfl

/-- A tool that is named, and not usable, raises through the node: at its gate, or when it is called
behind an approval. -/
theorem callTool_escapes (truthy : name.truthy = true) (arguments : Dict)
    (unusable : ¬ ∃ tool, ToolUsable py deps around registry node runId name tool) :
    EscapesCapable py around (callTool py deps runId node registry name arguments) := by
  have outside (gate : ∀ tool : ToolDef, name = .str tool.name →
        registry.tools.find? tool.name = some tool → tool.risk = .sensitive →
        GateUsable py deps around node runId) :
      EscapesCapable py around (registry.ainvoke py .toolNode name arguments) := by
    refine ainvoke_escapes fun tool same found => Bool.eq_false_iff.mpr fun inScope => ?_
    refine unusable ⟨tool, ⟨same, ?_⟩, found, inScope, gate tool same found⟩
    rintro empty
    rw [same, empty] at truthy
    contradiction
  unfold callTool toolRequiresApproval
  cases got : registry.get py name with
  | error error =>
      simp only [Bool.false_eq_true, if_false]
      refine outside fun tool same found => ?_
      rw [same] at got
      simp [ToolRegistry.get, found] at got
  | ok tool =>
      obtain ⟨own, stored⟩ := ToolRegistry.get_ok got
      have only (other : ToolDef) (same : name = .str other.name)
          (found : registry.tools.find? other.name = some other) : other = tool := by
        rw [own] at same
        rw [← Json.str.inj same, stored] at found
        exact (Option.some.inj found).symm
      dsimp only
      split
      next sensitive =>
        by_cases gate : GateUsable py deps around node runId
        · obtain ⟨rest, leads⟩ := requireApproval_capable ("tool:" ++ name.text py)
            (some (name.text py)) arguments gate ApprovalStatus.approved.value
          refine .seq leads ?_
          dsimp only
          rw [if_pos rfl]
          exact outside fun _ _ _ _ => gate
        · exact (requireApproval_escapes _ _ _ gate).bind _
      next plain =>
        refine outside fun other same found sensitive => ?_
        rw [only other same found] at sensitive
        exact absurd sensitive (by simpa using plain)

variable (around) in
theorem ainvoke_capable (site : Site) (arguments : Dict)
    (found : registry.tools.find? tool.name = some tool)
    (inScope : registry.scope.isAllowed py tool.name = true) :
    ∃ result, LeadsCapable py around (registry.ainvoke py site (.str tool.name) arguments)
      (pure result) := by
  simp only [ToolRegistry.ainvoke, ToolRegistry.get_found found, inScope, Bool.not_true,
    Bool.false_eq_true, if_false]
  split
  · exact ⟨_, .refl _⟩
  · obtain ⟨outcome, possible⟩ := around.halts tool.name arguments
    have answers : (Capable py around).answers (.invoke site tool.name arguments) outcome :=
      possible
    exact ⟨_, .seq (.request outcome answers) (.refl _)⟩

variable (around) in
theorem callTool_capable (arguments : Dict)
    (usable : ToolUsable py deps around registry node runId name tool) :
    ∃ result, LeadsCapable py around (callTool py deps runId node registry name arguments)
      (pure result) := by
  obtain ⟨⟨rfl, _⟩, found, inScope, gate⟩ := usable
  unfold callTool toolRequiresApproval
  simp only [ToolRegistry.get_found found]
  split
  next sensitive =>
    obtain ⟨rest, leads⟩ := requireApproval_capable _ (some ((Json.str tool.name).text py))
      arguments (gate (by simpa using sensitive)) ApprovalStatus.approved.value
    obtain ⟨result, invoked⟩ := ainvoke_capable around .toolNode arguments found inScope
    refine ⟨result, .seq leads ?_⟩
    dsimp only
    rw [if_pos rfl]
    exact invoked
  next => exact ainvoke_capable around .toolNode arguments found inScope

theorem appending_escapes {results : String} {result : Json}
    (unlisted : (state.data.getD results (.arr [])).toList = none) :
    EscapesCapable py around (state.appending results result) := by
  unfold GraphState.appending listOf
  rw [unlisted]
  exact (fail_escapes rfl).bind _

theorem NodeDef.unlisted (results : String) (unlistable : ¬ node.Listable state)
    (own : node.type.results = some results) :
    (state.data.getD results (.arr [])).toList = none := by
  by_contra listed
  obtain ⟨items, listed⟩ := Option.ne_none_iff_exists'.mp listed
  exact unlistable ⟨results, items, own, listed⟩

theorem runTool_escapes (kind : node.type = .tool) (configured : deps.toolRegistry = some registry)
    (decided : state.decision py = .ok decision)
    (unsettled : ¬ ((∃ tool, ToolUsable py deps around registry node runId
      ((decision.named "tool_name").orElse (node.config.getD "tool" .null)) tool) ∧
        node.Listable state)) :
    EscapesCapable py around (runTool py deps runId node state) := by
  unfold runTool
  rw [configured]
  dsimp only
  rw [decided]
  change Escapes _ _ (if !((decision.named "tool_name").orElse _).truthy then _ else _)
  split
  next => exact fail_escapes rfl
  next truthy =>
    refine .seq (emit_capable _ _) ?_
    by_cases usable : ∃ tool, ToolUsable py deps around registry node runId
      ((decision.named "tool_name").orElse (node.config.getD "tool" .null)) tool
    · have unlisted := node.unlisted "tool_results"
        (fun listable => unsettled ⟨usable, listable⟩) (by rw [kind]; rfl)
      obtain ⟨tool, usable⟩ := usable
      obtain ⟨result, leads⟩ := callTool_capable around (orEmpty decision.input) usable
      exact .seq leads (.seq (emit_capable _ _) (appending_escapes unlisted))
    · exact (callTool_escapes (by simpa using truthy) _ usable).bind _

theorem runRag_escapes (kind : node.type = .rag) (configured : deps.retriever = true)
    (decided : state.decision py = .ok decision)
    (unsettled : ¬ (around.repository.Answers py
      ((decision.named "knowledge_base_id").orElse
        (node.config.getD "knowledge_base_id" (.str ""))) (decision.query state) ∧
        node.Listable state)) :
    EscapesCapable py around (runRag py deps runId node state) := by
  unfold runRag
  rw [configured, decided]
  refine .seq (.refl _) (.seq (emit_capable _ _) ?_)
  have replies (found : Except ExecError ToolResult)
      (same : around.repository.retrieve py
        ((decision.named "knowledge_base_id").orElse
          (node.config.getD "knowledge_base_id" (.str ""))) (decision.query state) = found) :
      Capable py around
        (.retrieve ((decision.named "knowledge_base_id").orElse
          (node.config.getD "knowledge_base_id" (.str ""))) (decision.query state))
        (.ofExcept (found.mapError Raised.error)) := by
    subst same
    exact rfl
  cases retrieved : around.repository.retrieve py
      ((decision.named "knowledge_base_id").orElse
        (node.config.getD "knowledge_base_id" (.str ""))) (decision.query state) with
  | error error =>
      obtain ⟨message, rfl⟩ := around.repository.retrieve_error py retrieved
      exact .request (replies _ retrieved) (by simp [Raised.Excused, ExecError.cancels])
  | ok result =>
      have answers := (around.repository.retrieve_ok_iff py _ _).mp ⟨result, retrieved⟩
      have unlisted := node.unlisted "rag_results"
        (fun listable => unsettled ⟨answers, listable⟩) (by rw [kind]; rfl)
      have leads : LeadsCapable py around
          (Prog.request (Op.retrieve ((decision.named "knowledge_base_id").orElse
            (node.config.getD "knowledge_base_id" (.str ""))) (decision.query state)) :
            GraphProg ToolResult) (pure result) := .ask result (replies _ retrieved) (.refl _)
      refine .seq leads ?_
      exact .seq (emit_capable _ _) (appending_escapes unlisted)

theorem complete_capable {request : ModelRequest} {result : ModelResult}
    (conforms : request.Conforms py result) :
    LeadsCapable py around (Prog.request (Op.complete request) : GraphProg ModelResult)
      (pure result) := .ask result conforms (.refl _)

section Subagent
variable {executor : Executor} {task : SubagentTask}

/-- The loop calls an allowed tool when its model decides to. -/
theorem react_calls {name : String} (allowed : .str name ∈ task.allowedTools) (named : name ≠ "")
    (arguments : Dict)
    (escapes : ∀ rest : ToolResult → String → GraphProg SubagentResult, EscapesCapable py around
      (executor.toolRegistry.ainvoke py .subagent (.str name) arguments >>= fun result =>
        GraphProg.ofExcept (result.dumpJson py) >>= rest result))
    (remaining step : Nat) (messages : List Dict) :
    EscapesCapable py around (executor.react py task (remaining + 1) step messages) := by
  let decision : SubagentDecision :=
    { action := .tool, toolName := some name, arguments := arguments }
  let response : ModelResult := { structured := some decision.dump }
  have conforms (request : ModelRequest)
      (schema : request.responseSchema = some .subagentDecision) :
      request.Conforms py response := by
    intro fields same
    cases same
    rw [schema]
    exact ⟨decision, SubagentDecision.validate_dump py decision⟩
  simp only [Executor.react]
  refine .seq (complete_capable (conforms _ rfl)) ?_
  simp only [response, ModelResult.success, Option.isNone_none, SubagentDecision.validate_dump,
    decision, ne_eq, named, not_false_eq_true, decide_true, SubagentTask.allows_iff.mpr allowed,
    Bool.and_self, if_true]
  exact escapes _

/-- A tool that the subagent may not call raises through its loop: it is out of scope, or gives a
result that cannot be written. -/
theorem react_escapes {name : String} (allowed : .str name ∈ task.allowedTools) (named : name ≠ "")
    (registered : (executor.toolRegistry.tools.find? name).isSome)
    (uncallable : ¬ executor.Callable py around name) (remaining step : Nat)
    (messages : List Dict) :
    EscapesCapable py around (executor.react py task (remaining + 1) step messages) := by
  obtain ⟨tool, stored⟩ := Option.isSome_iff_exists.mp registered
  have own : tool.name = name := Table.key_of_find? stored
  subst own
  cases inScope : executor.toolRegistry.scope.isAllowed py tool.name with
  | false =>
      refine react_calls allowed named [] (fun rest => ?_) remaining step messages
      refine (ainvoke_escapes fun other same _ => ?_).bind _
      rw [← Json.str.inj same]
      exact inScope
  | true =>
      obtain ⟨bound, arguments, outcome, possible, unwritable⟩ :
          executor.toolRegistry.callables.contains tool.name = true ∧ ∃ arguments outcome,
            around.ends tool.name arguments outcome ∧ ¬ outcome.writable := by
        by_contra writable
        refine uncallable ⟨inScope, fun bound arguments outcome possible => ?_⟩
        by_contra unwritable
        exact writable ⟨bound, arguments, outcome, possible, unwritable⟩
      obtain ⟨error, refused⟩ := Option.ne_none_iff_exists'.mp unwritable
      refine react_calls allowed named arguments (fun rest => ?_) remaining step messages
      have answers : (Capable py around).answers (.invoke .subagent tool.name arguments) outcome :=
        possible
      simp only [ToolRegistry.ainvoke, ToolRegistry.get_found stored, inScope, bound,
        Bool.not_true, Bool.false_eq_true, if_false]
      refine .seq (.seq (.request outcome answers) (.refl _)) ?_
      rw [ToolResult.dumpJson, refused]
      exact (fail_escapes rfl).bind _

variable (py around executor task) in
theorem react_capable (remaining step : Nat) (messages : List Dict) :
    ∃ result, LeadsCapable py around (executor.react py task remaining step messages)
      (pure result) := by
  cases remaining with
  | zero => exact ⟨_, .refl _⟩
  | succ remaining =>
      simp only [Executor.react]
      have conforms (request : ModelRequest) : request.Conforms py {} := fun fields same => by
        contradiction
      exact ⟨_, .seq (complete_capable (conforms _)) (.refl _)⟩

variable (py around executor task) in
/-- The loop is entered behind the plan, where the template asks for one. -/
theorem start_capable :
    ∃ messages, ∀ q,
      LeadsCapable py around (executor.react py task executor.maxSteps 1 messages) q →
      LeadsCapable py around (executor.start py task) q := by
  unfold Executor.start
  dsimp only
  split
  next =>
    have conforms (request : ModelRequest) : request.Conforms py {} := fun fields same => by
      contradiction
    exact ⟨_, fun q leads => .seq (complete_capable (conforms _)) leads⟩
  next => exact ⟨_, fun q leads => leads⟩

variable (around) in
theorem execute_capable (usable : TaskUsable py executor around task) :
    ∃ result, LeadsCapable py around (executor.execute py task 0) (pure result) := by
  unfold Executor.execute
  rw [if_neg (by simp)]
  split
  next error raised =>
    have bad := (knownTemplate_error raised).1
    rw [usable.template] at bad
    contradiction
  next => exact ⟨_, .refl _⟩
  next template =>
    rcases executor.unknownTools_cases task.allowedTools with
      ⟨error, _, _, name, member, bad⟩ | ⟨unknown, ok, _, _⟩
    · rw [usable.hashable template name member] at bad
      contradiction
    · rw [ok]
      cases unknown with
      | nil =>
          obtain ⟨messages, enters⟩ := start_capable py around executor task
          obtain ⟨result, leads⟩ := react_capable py around executor task executor.maxSteps 1
            messages
          exact ⟨result, enters _ leads⟩
      | cons => exact ⟨_, .refl _⟩

theorem knownTemplate_hashable {known : Bool} (tested : Executor.knownTemplate task = .ok known) :
    task.template.hashable = true := by
  unfold Executor.knownTemplate at tested
  split at tested
  next same => rw [same]; rfl
  next =>
    split at tested
    next hashable => exact hashable
    next => contradiction

theorem execute_escapes (unusable : ¬ TaskUsable py executor around task) :
    EscapesCapable py around (executor.execute py task 0) := by
  unfold Executor.execute
  rw [if_neg (by simp)]
  split
  next error raised => exact fail_escapes (knownTemplate_error raised).2
  next template =>
    refine absurd ⟨knownTemplate_hashable template, ?_, ?_⟩ unusable
    all_goals
      intro known
      simp [template] at known
  next template =>
    rcases executor.unknownTools_cases task.allowedTools with
      ⟨error, failed, spontaneous, _⟩ | ⟨unknown, ok, hashable, empty⟩
    · rw [failed]
      exact fail_escapes spontaneous
    · have denied : 0 < executor.maxSteps ∧ unknown = [] ∧ ∃ name, .str name ∈ task.allowedTools ∧
          name ≠ "" ∧ ¬ executor.Callable py around name := by
        by_contra none
        refine unusable ⟨knownTemplate_hashable template, fun _ => hashable, ?_⟩
        intro _ steps known name member named
        by_contra uncallable
        exact none ⟨steps, empty.mpr known, name, member, named, uncallable⟩
      obtain ⟨steps, rfl, name, member, named, uncallable⟩ := denied
      rw [ok]
      obtain ⟨rounds, same⟩ := Nat.exists_eq_add_one.mpr steps
      obtain ⟨messages, enters⟩ := start_capable py around executor task
      refine .behind (enters _ (.refl _)) ?_
      rw [same]
      obtain ⟨_, text, registered⟩ := empty.mp rfl _ member
      cases text
      exact react_escapes member named registered uncallable rounds 1 messages

variable (py node) in
theorem subagentTask_eq (input : Dict) :
    (∃ task, node.task py input = some task ∧ subagentTask py node input = pure task) ∨
      node.task py input = none ∧
        ∃ error, error.cancels = false ∧ subagentTask py node input = GraphProg.fail error := by
  unfold NodeDef.task subagentTask listOf
  cases (input.getD "selected_context" (.arr [])).toList with
  | none => exact .inr ⟨rfl, _, rfl, rfl⟩
  | some context =>
      cases (node.config.getD "allowed_tools" (.arr [])).toList with
      | none => exact .inr ⟨rfl, _, rfl, rfl⟩
      | some allowed => exact .inl ⟨_, rfl, rfl⟩

end Subagent

theorem runSubagent_escapes {executor : Executor} (kind : node.type = .subagent)
    (configured : deps.subagentExecutor = some executor)
    (decided : state.decision py = .ok decision)
    (unsettled : ¬ ((∃ task, node.task py (orEmpty decision.input) = some task ∧
      TaskUsable py executor around task) ∧ node.Listable state)) :
    EscapesCapable py around (runSubagent py deps runId node state) := by
  unfold runSubagent
  rw [configured]
  dsimp only
  rw [decided]
  refine .seq (.refl _) ?_
  rcases subagentTask_eq py node (orEmpty decision.input) with
    ⟨task, formed, built⟩ | ⟨_, error, spontaneous, failed⟩
  · rw [built]
    refine .seq (.refl _) (.seq (emit_capable _ _) ?_)
    by_cases usable : TaskUsable py executor around task
    · have unlisted := node.unlisted "subagent_results"
        (fun listable => unsettled ⟨⟨task, formed, usable⟩, listable⟩) (by rw [kind]; rfl)
      obtain ⟨result, leads⟩ := execute_capable around usable
      exact .seq leads (.seq (emit_capable _ _) (appending_escapes unlisted))
    · exact (execute_escapes usable).bind _
  · rw [failed]
    exact (fail_escapes spontaneous).bind _

/-- Where the conditions fail, some failure of the capability leaves the node as an exception. -/
theorem makeNode_escapes (graph : CompiledGraph)
    (kind : node.type = .tool ∨ node.type = .rag ∨ node.type = .subagent)
    (configured : node.Configured deps) (decided : state.decision py = .ok decision)
    (unsettled : ¬ (node.Usable py deps around state decision ∧ node.Listable state)) :
    EscapesCapable py around (makeNode py graph deps node state) := by
  refine .seq checkCancelled_capable (.seq (emit_capable _ _) (Escapes.bind _ ?_))
  unfold runNode
  unfold NodeDef.Configured at configured
  rcases kind with kind | kind | kind
  · rw [kind] at configured ⊢
    obtain ⟨registry, configured⟩ := Option.ne_none_iff_exists'.mp configured
    refine runTool_escapes kind configured decided ?_
    rintro ⟨⟨tool, usable⟩, listable⟩
    exact unsettled ⟨.tool kind configured usable, listable⟩
  · rw [kind] at configured ⊢
    refine runRag_escapes kind configured decided ?_
    rintro ⟨answers, listable⟩
    exact unsettled ⟨.rag kind configured answers, listable⟩
  · rw [kind] at configured ⊢
    obtain ⟨executor, configured⟩ := Option.ne_none_iff_exists'.mp configured
    refine runSubagent_escapes kind configured decided ?_
    rintro ⟨⟨task, formed, usable⟩, listable⟩
    exact unsettled ⟨.subagent kind configured formed usable, listable⟩

end Escapes

/-- A decision in the state is routed to a tool, rag or subagent node with its dependency. -/
structure NodeDef.Selected (c : RunConfig) (node : NodeDef) (state : GraphState)
    (decision : SupervisorDecision) : Prop where
  compiled : ∃ definition, compileGraph c.py definition = .ok c.program.definition
  supervised : c.program.definition.supervisorId ≠ none
  found : c.program.definition.nodeMap.find? node.id = some node
  kind : node.type = .tool ∨ node.type = .rag ∨ node.type = .subagent
  configured : node.Configured c.deps
  decided : state.decision c.py = .ok decision
  routed : c.program.definition.route decision = .ok (some node.id)

theorem NodeDef.Selected.hands {c : RunConfig} {node : NodeDef} {state : GraphState}
    {decision : SupervisorDecision} (selected : node.Selected c state decision)
    (patch : GraphState) : node.Hands c.py c.program.definition state patch := by
  obtain ⟨id, supervisor⟩ := Option.ne_none_iff_exists'.mp selected.supervised
  refine ⟨id, supervisor, ?_⟩
  rcases selected.kind with kind | kind | kind <;>
    simp [CompiledGraph.next, CompiledGraph.edge, kind, NodeType.capability, supervisor, bind,
      Except.bind, pure, Except.pure]

section Sample

def toolsNode : NodeDef := { type := .tool, id := "tools" }

/-- A supervisor with the tool "transfer", which has to be approved. -/
def toolsRun : RunConfig where
  py := .onEmpty
  runId := sampleRun
  program := ⟨.ofDefinition (sampleDefinition toolsNode), by decide⟩
  deps := sampleDeps

def toolDecision (name : String) : SupervisorDecision where
  action := .tool
  capabilityNodeId := some "tools"
  resource := some [("tool_name", .str name)]

def toolState (name : String) : GraphState :=
  (RunState.input toolsRun none "hello").state.merge (toolDecision name).patch

/-- No knowledge base is stored, and a callable may end in any way. -/
def sampleSurroundings : Surroundings where
  repository :=
    { knowledgeBase := fun _ => .ok none
      embed := fun _ _ => {}
      nearest := fun _ _ => [] }
  clock now := now < 100000000000
  ends _ _ _ := True
  ticks := ⟨0, by decide⟩
  halts _ _ := ⟨.raised "", trivial⟩

theorem toolDecision_selected (name : String) :
    toolsNode.Selected toolsRun (toolState name) (toolDecision name) where
  compiled := ⟨sampleDefinition toolsNode, rfl⟩
  supervised := by decide
  found := rfl
  kind := .inl rfl
  configured := fun missing => by contradiction
  decided := selected_decision _ _ _
  routed := rfl

end Sample
end AgentRuntime
