import AgentRuntime.Retrying
import AgentRuntime.Returning

/-! The model gateway over LiteLLM. It sends a request, reads the first choice of the reply with
the schema that was asked for and reports every exception in its result. What a supervisor does
next is what the provider replied, or the attempt ends. -/
namespace AgentRuntime
open Machines Programs Tables

/-- The arguments of `acompletion`. -/
structure CompletionCall where
  model : String
  messages : List Dict
  apiBase : String
  apiKey : String
  metadata : Dict
  numRetries : Nat
  timeout : Nat
  responseFormat : Option ResponseSchema

/-- The response of LiteLLM: the contents of its choices, the model that served it and its
`_hidden_params`. -/
structure Completion where
  contents : List (Option String)
  model : Option String := none
  hidden : Json := .null

/-- Only a flag that the proxy sets itself counts as a fallback. -/
def Completion.fallback (completion : Completion) : Bool :=
  match completion.hidden with
  | .obj fields =>
      ["fallback", "fallback_used", "litellm_fallback"].any fun key =>
        match Dict.get? fields key with
        | some (.bool flag) => flag
        | _ => false
  | _ => false

/-- `model_validate` and `model_dump` of the schema. -/
def ResponseSchema.accept : ResponseSchema → Json → Option Dict
  | .supervisorDecision, raw =>
      (raw.obj?.bind SupervisorDecision.parse).map SupervisorDecision.dump
  | .subagentDecision, raw => (raw.obj?.bind SubagentDecision.parse).map SubagentDecision.dump

/-- `LiteLLMModelGateway`, with the provider behind it and the JSON reader of the schemas. -/
structure LiteLLMModelGateway where
  apiBase : String := ""
  apiKey : String := ""
  defaultModel : String
  numRetries : Nat := 1
  requestTimeout : Nat := 60
  acompletion : CompletionCall → Except ModelException Completion
  loads : String → Option Json
  /-- The message of the `ValidationError` for a text. -/
  invalidJson : ResponseSchema → String → String

namespace LiteLLMModelGateway
variable (py : Builtins) (gateway : LiteLLMModelGateway) (request : ModelRequest)

/-- The metadata with the call id, which does not replace one that is set. -/
def metadata : Dict :=
  match request.callId with
  | none | some "" => request.metadata
  | some id =>
      if (request.metadata.get? "call_id").isSome then request.metadata
      else request.metadata ++ [("call_id", .str id)]

def call : CompletionCall where
  model := textOr (some request.model) gateway.defaultModel
  messages := request.messages
  apiBase := gateway.apiBase
  apiKey := gateway.apiKey
  metadata := metadata request
  numRetries := gateway.numRetries
  timeout := gateway.requestTimeout
  responseFormat := request.responseSchema

/-- `model_validate_json(content).model_dump()`. -/
def validateJson (schema : ResponseSchema) (content : String) : Except ModelException Dict :=
  match (gateway.loads content).bind schema.accept with
  | some fields => .ok fields
  | none => .error { typeName := "ValidationError", message := gateway.invalidJson schema content }

def answer (completion : Completion) : Except ModelException ModelResult :=
  match completion.contents with
  | [] => .error { typeName := "IndexError", message := "list index out of range" }
  | choice :: _ => do
      let content := choice.getD ""
      let structured ←
        match request.responseSchema with
        | none => pure none
        | some schema => (gateway.validateJson schema content).map some
      return {
        content := content
        structured := structured
        servedModel := completion.model
        fallback := completion.fallback }

def complete : Except Raised ModelResult :=
  match gateway.acompletion (gateway.call request) >>= gateway.answer request with
  | .ok result => .ok result
  | .error exc => failedCompletion py exc

/-- The decision that a reply of the provider states. -/
def decision? (completion : Completion) : Option SupervisorDecision := do
  let choice ← completion.contents.head?
  let raw ← gateway.loads (choice.getD "")
  raw.obj?.bind SupervisorDecision.parse

end LiteLLMModelGateway

/-- The next node: the one it selects, or none behind a final response. -/
def SupervisorDecision.goesTo (decision : SupervisorDecision) : Option NodeId :=
  if decision.action = .final then none else decision.selectedNodeId

/-- A decision to go on selects a node. -/
def SupervisorDecision.Names (decision : SupervisorDecision) : Prop :=
  decision.action ≠ .final → decision.selectedNodeId ≠ none

/-- The answers of the emitter. -/
def Told : (op : Op) → op.Answer → Prop
  | .emit .., _ => True
  | _, _ => False

section Replies
variable {py : Builtins} {gateway : LiteLLMModelGateway} {request : ModelRequest}
  {completion : Completion}

theorem accept_conforms {schema : ResponseSchema} {raw : Json} {fields : Dict}
    (asked : request.responseSchema = some schema) (accepted : schema.accept raw = some fields)
    {result : ModelResult} (structured : result.structured = some fields) :
    request.Conforms py result := by
  intro stored same
  rw [structured, Option.some.injEq] at same
  subst same
  rw [asked]
  cases schema with
  | supervisorDecision =>
      obtain ⟨decision, _, rfl⟩ := Option.map_eq_some_iff.mp accepted
      exact ⟨decision, SupervisorDecision.validate_dump py decision⟩
  | subagentDecision =>
      obtain ⟨decision, _, rfl⟩ := Option.map_eq_some_iff.mp accepted
      exact ⟨decision, SubagentDecision.validate_dump py decision⟩

theorem answer_conforms {result : ModelResult}
    (answered : gateway.answer request completion = .ok result) : request.Conforms py result := by
  obtain ⟨contents, model, hidden⟩ := completion
  unfold LiteLLMModelGateway.answer at answered
  cases contents with
  | nil => contradiction
  | cons choice rest =>
    cases asked : request.responseSchema with
    | none =>
        simp only [asked, pure, Except.pure, bind, Except.bind] at answered
        cases answered
        intro fields structured
        contradiction
    | some schema =>
        simp only [asked, LiteLLMModelGateway.validateJson] at answered
        cases read : (gateway.loads (choice.getD "")).bind schema.accept with
        | none =>
            rw [read] at answered
            contradiction
        | some fields =>
            rw [read] at answered
            cases answered
            obtain ⟨raw, _, accepted⟩ := Option.bind_eq_some_iff.mp read
            exact accept_conforms asked accepted rfl

/-- The structured part of every result is one that its schema accepts. -/
theorem complete_conforms {result : ModelResult}
    (completed : gateway.complete py request = .ok result) : request.Conforms py result := by
  unfold LiteLLMModelGateway.complete at completed
  split at completed
  next own answered =>
    cases completed
    cases replied : gateway.acompletion (gateway.call request) with
    | error exc =>
        rw [replied] at answered
        contradiction
    | ok completion =>
        rw [replied] at answered
        exact answer_conforms answered
  next exc _ =>
    unfold failedCompletion at completed
    split at completed
    next =>
      cases completed
      intro fields structured
      contradiction
    next => contradiction

end Replies

/-- What a supervisor makes of the result of its call. -/
def ModelResult.decided (py : Builtins) (graph : CompiledGraph) (result : ModelResult) :
    Except ExecError SupervisorDecision :=
  match result.success, result.structured with
  | true, some structured => do
      let decision ← SupervisorDecision.validate py (.obj structured)
      graph.validateDecision decision
      return decision
  | _, _ => .error (.modelCall (result.error.elim "invalid supervisor response"
      NormalizedError.message) (result.error.elim .validationError NormalizedError.category) false)

/-- A supervisor asks for a decision, and behind the answer it only emits. -/
def Supervises (py : Builtins) (graph : CompiledGraph) :
    (op : Op) → (op.Answer → GraphProg GraphState) → Prop
  | .complete request, next =>
      request.responseSchema = some .supervisorDecision ∧ ∀ result : ModelResult,
        Leads Told (next result)
          (GraphProg.ofExcept ((result.decided py graph).map SupervisorDecision.patch))
  | _, _ => True

section Nodes
variable {py : Builtins} {graph : CompiledGraph} {deps : RuntimeDependencies} {runId : String}
  {node : NodeDef} {state : GraphState} {α β : Type}

theorem emit_told (type : EventType) (payload : Dict) :
    Leads Told (GraphProg.emit type runId node.id payload) (pure ()) := .request _ trivial

theorem emitLlmDone_told (call : Dict) (result : ModelResult) :
    Leads Told (emitLlmDone runId node call result) (pure ()) := by
  unfold emitLlmDone
  dsimp only
  split
  · exact .seq (emit_told _ _) (emit_told _ _)
  · exact .seq (.refl _) (emit_told _ _)

theorem ofExcept_told {p : GraphProg α} {result : Except ExecError α} {f : α → GraphProg β}
    {g : α → β} (first : Leads Told p (GraphProg.ofExcept result))
    (rest : ∀ value, Leads Told (f value) (pure (g value))) :
    Leads Told (p >>= f) (GraphProg.ofExcept (result.map g)) := by
  cases result with
  | ok value => exact first.seq (rest value)
  | error error => exact first.bind f

/-- Behind a program that only emits no model is asked. -/
theorem told_supervises {p : GraphProg GraphState} {result : Except ExecError GraphState}
    (told : Leads Told p (GraphProg.ofExcept result)) : Throughout (Supervises py graph) p := by
  generalize same : GraphProg.ofExcept result = q at told
  induction told with
  | refl =>
      subst same
      cases result <;> trivial
  | @ask op next q answer possible _ ih =>
      cases op with
      | emit => exact ⟨trivial, fun other => ih same⟩
      | _ => exact possible.elim

theorem runSupervisor_supervises :
    Throughout (Supervises py graph) (runSupervisor py deps runId node graph state) := by
  refine ⟨trivial, fun nonce => ⟨trivial, fun _ => ?_⟩⟩
  unfold GraphProg.complete
  split
  next name same =>
    refine (fun told => ⟨⟨rfl, told⟩, fun result => told_supervises (told result)⟩) fun result => ?_
    obtain ⟨content, structured, servedModel, fallback, failure⟩ := result
    cases failure with
    | some error => exact (emit_told _ _).seq (.refl _)
    | none =>
        cases structured with
        | none => exact (emit_told _ _).seq (.refl _)
        | some structured =>
            refine (emitLlmDone_told _ _).seq ?_
            simp only [ModelResult.decided, ModelResult.success, Option.isNone_none]
            cases SupervisorDecision.validate py (.obj structured) with
            | error error => exact .refl _
            | ok decision =>
                show Leads Told
                  (GraphProg.ofExcept (graph.validateDecision decision) >>= fun _ =>
                    pure decision.patch) (GraphProg.ofExcept
                  ((graph.validateDecision decision >>= fun _ => pure decision).map _))
                cases graph.validateDecision decision <;> exact .refl _
  next => trivial

theorem makeNode_supervises (kind : node.type = .supervisor) :
    Throughout (Supervises py graph) (makeNode py graph deps node state) := by
  have bare {γ : Type} {p : GraphProg γ} (within : Within Op.Bare p) :
      Throughout (fun op _ => op.Bare) p := .of_within within fun _ _ bare => bare
  have apart {γ : Type} (f : γ → GraphProg GraphState) (op : Op) (next : op.Answer → GraphProg γ)
      (bare : op.Bare) : Supervises py graph op fun answer => next answer >>= f := by
    cases op with
    | complete => exact bare.elim
    | _ => trivial
  refine .bind (bare checkCancelled_within) (apart _) fun _ => ?_
  refine .bind (bare (emit_within _ _)) (apart _) fun _ => ?_
  have kept (op : Op) (next : op.Answer → GraphProg GraphState)
      (follows : Supervises py graph op next) : Supervises py graph op fun answer => next answer >>= fun patch => do
        GraphProg.emit .nodeCompleted (state.runId py) node.id
        return patch := by
    cases op with
    | complete request =>
        refine ⟨follows.1, fun result => ?_⟩
        have tail (patch : GraphState) : Leads Told
            (do
              GraphProg.emit .nodeCompleted (state.runId py) node.id
              return patch)
            (pure patch) := (emit_told _ _).seq (.refl _)
        have told := ofExcept_told (g := id) (follows.2 result) tail
        rwa [Except.map_id] at told
    | _ => trivial
  refine .bind (C := Supervises py graph) ?_ kept fun patch => ?_
  · unfold runNode
    rw [kind]
    exact runSupervisor_supervises
  · exact .bind (bare (emit_within _ _)) (apart _) fun _ => trivial

end Nodes

/-- The lower-case names of the two exceptions that the gateway raises itself. -/
structure Builtins.Lowers (py : Builtins) : Prop where
  validation : py.lower "ValidationError" = "validationerror"
  index : py.lower "IndexError" = "indexerror"

theorem normalize_own {py : Builtins} (lowers : py.Lowers) {exc : ModelException}
    (named : exc.typeName = "ValidationError" ∨ exc.typeName = "IndexError")
    (unset : exc.statusCode = .null) :
    normalizeModelError py exc = .ok ⟨.providerError, exc.message, false⟩ := by
  obtain ⟨typeName, message, statusCode⟩ := exc
  dsimp only at named unset ⊢
  subst unset
  have none (text : String) (lower : py.lower typeName = text)
      (apart : ["timeout", "ratelimit", "rate_limit", "permission", "authentication",
        "connection", "serviceunavailable", "internalserver", "apiconnection"].all
          (fun fragment => !textIn fragment text) = true) :
      normalizeModelError py ⟨typeName, message, .null⟩ = .ok ⟨.providerError, message, false⟩ := by
    simp only [List.all_cons, List.all_nil, Bool.and_true, Bool.and_eq_true,
      Bool.not_eq_true'] at apart
    simp [normalizeModelError, ModelException.readable, ModelException.timedOut,
      ModelException.rateLimited, ModelException.denied, ModelException.transient,
      ModelException.transientNames, ModelException.names, Json.hashable, Json.equalsInt,
      Json.serverError, lower, apart]
  rcases named with rfl | rfl
  · exact none _ lowers.validation (by decide +kernel)
  · exact none _ lowers.index (by decide +kernel)

section Runs
variable {c : RunConfig} {s : RunState} {node : NodeDef} {request : ModelRequest}
  {next : (Op.complete request).Answer → GraphProg GraphState} {gateway : LiteLLMModelGateway}
  {completion : Completion} {decision : SupervisorDecision}

/-- A decision of the model that the graph can dispatch leads to the node it selects. -/
theorem next_goesTo {py : Builtins} {graph : CompiledGraph} (kind : node.type = .supervisor)
    (state : GraphState) (valid : graph.validateDecision decision = .ok ())
    (names : decision.Names) :
    graph.next py node (state.merge decision.patch) = .ok decision.goesTo := by
  have routed : graph.edge node = .ok .routed := by
    rw [CompiledGraph.edge, if_pos kind]
  simp only [CompiledGraph.next, routed, selected_decision, bind, Except.bind,
    CompiledGraph.route, SupervisorDecision.goesTo]
  by_cases final : decision.action = .final
  · rw [if_pos final, if_pos final]
    rfl
  · obtain ⟨id, selected⟩ := Option.ne_none_iff_exists'.mp (names final)
    obtain ⟨target, found, same⟩ := validateDecision_ok valid final
    rw [selected, Option.getD_some] at found
    have own : target.id = id := Table.key_of_find? found
    have mapped : graph.supervisorPathMap id = some id := by
      rw [CompiledGraph.supervisorPathMap, found, Option.filter_some,
        if_pos (capability_of_value same), Option.map_some, own]
    rw [if_neg final, if_neg final, valid, selected]
    simp only [pure, Except.pure, Option.getD_some, mapped]

/-- Whatever the gateway answers, a supervisor only emits until its superstep is settled. -/
theorem RunState.Calls.follows (calls : s.Calls c node request next)
    (reached : Reachable (executions c) anyStep s) (kind : node.type = .supervisor) :
    ∃ stored remaining, s.thread = some stored ∧
      request.responseSchema = some .supervisorDecision ∧ ∀ result : ModelResult,
        Leads Told (next result) (GraphProg.ofExcept
            ((result.decided c.py c.program.definition).map SupervisorDecision.patch) >>=
          c.program.definition.settle c.py c.deps remaining stored.state node) := by
  obtain ⟨e, current, asks⟩ := calls.asks
  obtain ⟨stored, thread, entry⟩ := calls.inside
  rcases (atWork_inductive c).reachable reached e _ current asks with ⟨_, raised⟩ | ⟨_, same, work⟩
  · contradiction
  · cases thread.symm.trans same
    rcases work.inside with ⟨other, remaining, history, rest, first, found, answered, rfl⟩ |
      ⟨_, other, _⟩
    · have same : other = node := by
        rw [Option.some.inj (first.symm.trans entry)] at found
        exact Option.some.inj (found.symm.trans calls.found)
      subst same
      have follows := ((makeNode_supervises kind).answered answered).1
      exact ⟨stored, remaining, thread, follows.1, fun result => (follows.2 result).bind _⟩
    · contradiction

theorem validateDecision_error {graph : CompiledGraph} {error : ExecError}
    (invalid : graph.validateDecision decision = .error error) :
    ∃ message, error = .graphValidation message := by
  unfold CompiledGraph.validateDecision at invalid
  split at invalid
  next => contradiction
  next =>
    dsimp only at invalid
    split at invalid
    next =>
      cases invalid
      exact ⟨_, rfl⟩
    next =>
      split at invalid
      next => contradiction
      next =>
        cases invalid
        exact ⟨_, rfl⟩

/-- A reply without a decision is reported as a permanent failure of the provider. -/
theorem complete_decided (lowers : c.py.Lowers)
    (asked : request.responseSchema = some .supervisorDecision)
    (replied : gateway.acompletion (gateway.call request) = .ok completion) :
    ∃ result, gateway.complete c.py request = .ok result ∧
      (∀ decision, gateway.decision? completion = some decision →
        result.decided c.py c.program.definition =
          (c.program.definition.validateDecision decision).map fun _ => decision) ∧
      (gateway.decision? completion = none → ∃ message,
        result.decided c.py c.program.definition =
          .error (.modelCall message .providerError false)) := by
  have failed {exc : ModelException} (answered : gateway.answer request completion = .error exc)
      (named : exc.typeName = "ValidationError" ∨ exc.typeName = "IndexError")
      (unset : exc.statusCode = .null) : gateway.complete c.py request =
        .ok { error := some ⟨.providerError, exc.message, false⟩ } := by
    simp only [LiteLLMModelGateway.complete, replied, bind, Except.bind, answered,
      failedCompletion, normalize_own lowers named unset]
  obtain ⟨contents, model, hidden⟩ := completion
  cases contents with
  | nil => exact ⟨_, failed rfl (.inr rfl) rfl, nofun, fun _ => ⟨_, rfl⟩⟩
  | cons choice rest =>
      have same : (gateway.loads (choice.getD "")).bind
            (ResponseSchema.accept .supervisorDecision) =
          (gateway.decision? ⟨choice :: rest, model, hidden⟩).map SupervisorDecision.dump :=
        Option.map_bind.symm
      cases stated : gateway.decision? ⟨choice :: rest, model, hidden⟩ with
      | none =>
          have rejected : gateway.answer request ⟨choice :: rest, model, hidden⟩ =
              .error ⟨"ValidationError",
                gateway.invalidJson .supervisorDecision (choice.getD ""), .null⟩ := by
            simp only [LiteLLMModelGateway.answer, asked, LiteLLMModelGateway.validateJson, same,
              stated]
            rfl
          exact ⟨_, failed rejected (.inl rfl) rfl, nofun, fun _ => ⟨_, rfl⟩⟩
      | some decision =>
          refine ⟨{
            content := choice.getD ""
            structured := some decision.dump
            servedModel := model
            fallback := Completion.fallback ⟨choice :: rest, model, hidden⟩ }, ?_, ?_, nofun⟩
          · simp only [LiteLLMModelGateway.complete, replied, bind, Except.bind,
              LiteLLMModelGateway.answer, asked, LiteLLMModelGateway.validateJson, same, stated]
            rfl
          · rintro _ ⟨⟩
            simp only [ModelResult.decided, ModelResult.success, Option.isNone_none,
              SupervisorDecision.validate_dump]
            show (c.program.definition.validateDecision decision >>= fun _ => pure decision) = _
            cases c.program.definition.validateDecision decision <;> rfl

/-- Every result has the structure that was asked for, and behind a reply of the provider a
supervisor does what the reply states. A decision that the graph can dispatch is stored and its
node is next. Another decision ends the attempt, which is tried again, and a reply without a
decision ends it for good. -/
theorem supervisor_follows_reply (calls : s.Calls c node request next)
    (reached : Reachable (executions c) anyStep s) (kind : node.type = .supervisor)
    (lowers : c.py.Lowers)
    (replied : gateway.acompletion (gateway.call request) = .ok completion) :
    (∀ asked result, gateway.complete c.py asked = .ok result → asked.Conforms c.py result) ∧
      (∀ decision, gateway.decision? completion = some decision → decision.Names →
        c.program.definition.validateDecision decision = .ok () →
        ∃ stored rest, s.thread = some stored ∧
          Leads Told (Prog.after next (gateway.complete c.py request))
            (.ask (.checkpoint ⟨stored.state.merge decision.patch, decision.goesTo⟩) rest)) ∧
      (∀ decision error, gateway.decision? completion = some decision →
        c.program.definition.validateDecision decision = .error error →
        Leads Told (Prog.after next (gateway.complete c.py request)) (.raise (.error error)) ∧
          (classifyFailure error).Retried) ∧
      (gateway.decision? completion = none → ∃ error,
        Leads Told (Prog.after next (gateway.complete c.py request)) (.raise (.error error)) ∧
          (classifyFailure error).status = .failed ∧ ¬ (classifyFailure error).Retried) := by
  obtain ⟨stored, remaining, thread, asked, follows⟩ := calls.follows reached kind
  obtain ⟨result, completed, decided, undecided⟩ := complete_decided lowers asked replied
  rw [completed]
  refine ⟨fun _ _ => complete_conforms, fun decision stated names valid => ?_,
    fun decision error stated invalid => ?_, fun none => ?_⟩
  · have leads := follows result
    rw [decided decision stated, valid] at leads
    have settled : c.program.definition.next c.py node (stored.state.merge decision.patch) =
        .ok decision.goesTo := next_goesTo kind stored.state valid names
    obtain ⟨rest, settles⟩ : ∃ rest, c.program.definition.settle c.py c.deps remaining stored.state
        node decision.patch =
          .ask (.checkpoint ⟨stored.state.merge decision.patch, decision.goesTo⟩) rest := by
      unfold CompiledGraph.settle
      dsimp only
      rw [settled]
      exact ⟨_, rfl⟩
    change Leads Told _ (c.program.definition.settle c.py c.deps remaining stored.state node
      decision.patch) at leads
    rw [settles] at leads
    exact ⟨stored, _, thread, leads⟩
  · have leads := follows result
    rw [decided decision stated, invalid] at leads
    obtain ⟨message, rfl⟩ := validateDecision_error invalid
    refine ⟨leads, (retried_iff _).mpr ?_⟩
    exact ⟨rfl, rfl⟩
  · obtain ⟨message, failed⟩ := undecided none
    have leads := follows result
    rw [failed] at leads
    refine ⟨_, leads, ?_, fun retried => ?_⟩
    · rfl
    · exact absurd ((retried_modelCall _ _ _).mp retried) (by simp)

theorem RunState.Calls.of_completes (found : c.program.definition.nodeMap.find? node.id = some node)
    (asks : (s.current.bind Execution.program).any GraphProg.completes = true)
    (inside : s.thread.bind Checkpoint.next = some node.id) :
    ∃ (request : ModelRequest) (next : (Op.complete request).Answer → GraphProg GraphState),
      s.Calls c node request next := by
  obtain ⟨p, program, completes⟩ := (Option.any_eq_true _ _).mp asks
  obtain ⟨e, current, program⟩ := Option.bind_eq_some_iff.mp program
  cases p with
  | pure | raise => contradiction
  | ask op next =>
      cases op with
      | complete request =>
          exact ⟨request, next, ⟨e, current, program⟩, Option.bind_eq_some_iff.mp inside, found⟩
      | _ => contradiction

end Runs

section Sample

def routerRun : RunConfig where
  py := { Builtins.onEmpty with lower := fun text => text.map Char.toLower }
  runId := sampleRun
  program := unnamedRun.program
  deps := sampleDeps

def finalCompletion : Completion := { contents := [some "final", none], model := some "served" }

/-- A provider that states one final decision in its first choice. -/
def finalGateway : LiteLLMModelGateway where
  defaultModel := "model"
  acompletion _ := .ok finalCompletion
  loads _ := some (.obj [("action", .str "final"), ("final_response", .str "done")])
  invalidJson _ text := text

theorem routerRun_lowers : routerRun.py.Lowers := ⟨by decide +kernel, by decide +kernel⟩

/-- The final response is stored, and no node is next. -/
theorem final_reply_stored : ∃ (s : RunState) (request : ModelRequest)
    (next : (Op.complete request).Answer → GraphProg GraphState) (stored : Checkpoint)
    (rest : Unit → GraphProg GraphState), s.Calls routerRun sampleSupervisor request next ∧
      stored.next = none ∧ stored.state.data.get? "final_response" = some (.str "done") ∧
      Leads Told (Prog.after next (finalGateway.complete routerRun.py request))
        (.ask (.checkpoint stored) rest) := by
  obtain ⟨s, run, asks, inside⟩ := Run.of_test (M := executions routerRun) routerRun.created
    ([.read fun _ => 0, .launch] ++ List.replicate 4 (.reply {}))
    (fun s => (s.current.bind Execution.program).any GraphProg.completes ∧
      s.thread.bind Checkpoint.next = some sampleSupervisor.id) (by decide +kernel)
  have found : routerRun.program.definition.nodeMap.find? sampleSupervisor.id =
      some sampleSupervisor := rfl
  obtain ⟨request, next, calls⟩ := RunState.Calls.of_completes found asks inside
  have reached := (Reachable.start routerRun.created_initial).run run
  have replied : finalGateway.acompletion (finalGateway.call request) = .ok finalCompletion := rfl
  obtain ⟨stored, rest, _, leads⟩ := (supervisor_follows_reply calls reached rfl routerRun_lowers
    replied).2.1 _ rfl (fun goes => absurd rfl goes) rfl
  exact ⟨s, request, next, _, rest, calls, rfl, Dict.get?_set_self _ _ _, leads⟩

end Sample
end AgentRuntime
