import Mathlib.Data.List.Infix
import AgentRuntime.Traces

/-! Failed model calls. The gateway makes a normalized error of every exception of the completion,
the node raises it and the attempt is classified by it: it is tried again, or the run fails. -/
namespace AgentRuntime
open Machines Programs Tables

/-- `fragment in text`. -/
def textIn (fragment text : String) : Bool := decide (fragment.toList <:+: text.toList)

/-- `value == number`. -/
def Json.equalsInt (value : Json) (number : Int) : Bool :=
  match value with
  | .int n => n = number
  | .bool b => (if b then 1 else 0) = number
  | .float m e => if 0 ≤ e then m * 10 ^ e.toNat = number else m = number * 10 ^ (-e).toNat
  | _ => false

/-- `isinstance(value, int) and 500 <= value < 600`. -/
def Json.serverError : Json → Bool
  | .int n => 500 ≤ n && n < 600
  | _ => false

/-- An exception of the completion: its class, its text and its `status_code`. -/
structure ModelException where
  typeName : String
  message : String := ""
  statusCode : Json := .null

namespace ModelException
variable (py : Builtins) (exc : ModelException)

def names (fragment : String) : Bool := textIn fragment (py.lower exc.typeName)

/-- The first test does not raise: the name answers it, or the status code is hashable. -/
def readable : Bool := exc.names py "timeout" || exc.statusCode.hashable

def timedOut : Bool :=
  exc.names py "timeout" || exc.statusCode.equalsInt 408 || exc.statusCode.equalsInt 504

def rateLimited : Bool :=
  exc.names py "ratelimit" || exc.names py "rate_limit" || exc.statusCode.equalsInt 429

def denied : Bool :=
  exc.names py "permission" || exc.names py "authentication" ||
    exc.statusCode.equalsInt 401 || exc.statusCode.equalsInt 403

def transientNames : List String :=
  ["connection", "serviceunavailable", "internalserver", "apiconnection"]

def transient : Bool := transientNames.any (exc.names py) || exc.statusCode.serverError

end ModelException

/-- `_normalize_model_error`. -/
def normalizeModelError (py : Builtins) (exc : ModelException) :
    Except ExecError NormalizedError :=
  if !exc.readable py then .error (.other (unhashable exc.statusCode))
  else if exc.timedOut py then .ok ⟨.timeout, exc.message, true⟩
  else if exc.rateLimited py then .ok ⟨.rateLimit, exc.message, true⟩
  else if exc.denied py then .ok ⟨.permissionDenied, exc.message, false⟩
  else if exc.transient py then .ok ⟨.providerError, exc.message, true⟩
  else .ok ⟨.providerError, exc.message, false⟩

/-- What `LiteLLMModelGateway.complete` makes of the exception. -/
def failedCompletion (py : Builtins) (exc : ModelException) : Except Raised ModelResult :=
  match normalizeModelError py exc with
  | .ok error => .ok { error := some error }
  | .error error => .error (.error error)

/-- Whether the exception is marked as recoverable. -/
def ModelException.recoverable (py : Builtins) (exc : ModelException) : Bool :=
  match normalizeModelError py exc with
  | .ok error => error.recoverable
  | .error _ => false

/-- `execute_run_sync` keeps the run queued, and `execute_job` raises for another attempt. -/
def Outcome.Retried (outcome : Outcome) : Prop :=
  persistedAttemptStatus outcome = .queued ∧ ∃ message, handlerResult outcome = .raised message

theorem retried_iff (outcome : Outcome) : outcome.Retried ↔
    outcome.status = .failed ∧ executionIsRetryable outcome.terminationReason = true := by
  unfold Outcome.Retried persistedAttemptStatus handlerResult
  by_cases failed : outcome.status = .failed
  · cases executionIsRetryable outcome.terminationReason <;> simp [failed]
  · simp [failed]

/-- Only timeouts and rate limits keep their mark. -/
theorem retried_modelCall (message : String) (category : ErrorCategory) (recoverable : Bool) :
    (classifyFailure (.modelCall message category recoverable)).Retried ↔
      recoverable = true ∧ (category = .timeout ∨ category = .rateLimit) := by
  rw [retried_iff]
  by_cases marked : category = .timeout ∨ category = .rateLimit
  · cases recoverable <;> simp [classifyFailure, marked, executionIsRetryable]
  · simp [classifyFailure, marked, executionIsRetryable]

theorem retried_other (message : String) : (classifyFailure (.other message)).Retried := by
  rw [retried_iff]
  simp [classifyFailure, executionIsRetryable]

/-- The mark of the error that the node raises. The supervisor drops it. -/
def NodeDef.recovers (node : NodeDef) (error : NormalizedError) : Bool :=
  node.type = .llm && error.recoverable

/-- Behind a completion that failed the node says so and raises. -/
def NodeDef.Fails {α : Type} (node : NodeDef) :
    (op : Op) → (op.Answer → GraphProg α) → Prop
  | .complete _, next => ∀ (result : ModelResult) (error : NormalizedError),
      result.error = some error →
      ∃ type runId id payload, next result = .ask (.emit type runId id payload) fun _ =>
        .raise (.error (.modelCall error.message error.category (node.recovers error)))
  | _, _ => True

section Nodes
variable {py : Builtins} {graph : CompiledGraph} {deps : RuntimeDependencies} {runId : String}
  {node : NodeDef} {state : GraphState} {α β : Type}

theorem NodeDef.Fails.bind {op : Op} {next : op.Answer → GraphProg α} (f : α → GraphProg β)
    (fails : node.Fails op next) : node.Fails op fun answer => next answer >>= f := by
  cases op with
  | complete request =>
      intro result error failed
      obtain ⟨type, runId, id, payload, same⟩ := fails result error failed
      exact ⟨type, runId, id, payload, congrArg (· >>= f) same⟩
  | _ => trivial

theorem bare_fails {p : GraphProg α} (bare : Within Op.Bare p) : Throughout node.Fails p := by
  refine .of_within bare fun op next bare => ?_
  cases op with
  | complete => exact bare.elim
  | _ => trivial

theorem failModel_says {call : Dict} {error : NormalizedError} {message : String}
    {category : ErrorCategory} {recoverable : Bool} (mark : recoverable = node.recovers error) :
    ∃ type runId' id payload,
      (failModel runId node call (some error) message category recoverable : GraphProg α) =
        .ask (.emit type runId' id payload) fun _ =>
          .raise (.error (.modelCall error.message error.category (node.recovers error))) := by
  subst mark
  exact ⟨_, _, _, _, rfl⟩

theorem runLlm_fails (kind : node.type = .llm) :
    Throughout node.Fails (runLlm py deps runId node state) := by
  refine ⟨trivial, fun nonce => ⟨trivial, fun _ => ?_⟩⟩
  unfold GraphProg.complete
  split
  next name same =>
    refine ⟨fun result error failed => ?_, fun result => bare_fails ?_⟩
    · obtain ⟨content, structured, servedModel, fallback, failure⟩ := result
      cases failed
      exact failModel_says (by simp [NodeDef.recovers, kind])
    · show Within Op.Bare (if result.success then _ else _)
      split
      · exact .bind (emitLlmDone_within (fun _ _ _ => trivial) _ _) fun _ => .pure _
      · exact failModel_within (fun _ _ _ => trivial) _ _ _ _ _
  next => trivial

theorem runSupervisor_fails (kind : node.type = .supervisor) :
    Throughout node.Fails (runSupervisor py deps runId node graph state) := by
  refine ⟨trivial, fun nonce => ⟨trivial, fun _ => ?_⟩⟩
  unfold GraphProg.complete
  split
  next name same =>
    refine ⟨fun result error failed => ?_, fun result => bare_fails ?_⟩
    · obtain ⟨content, structured, servedModel, fallback, failure⟩ := result
      cases failed
      exact failModel_says (by simp [NodeDef.recovers, kind])
    · obtain ⟨content, structured, servedModel, fallback, failure⟩ := result
      cases failure with
      | some error => exact failModel_within (fun _ _ _ => trivial) _ _ _ _ _
      | none =>
          cases structured with
          | none => exact failModel_within (fun _ _ _ => trivial) _ _ _ _ _
          | some structured =>
              have emitted (call : Dict) (result : ModelResult) :
                  Within Op.Bare (emitLlmDone runId node call result) :=
                emitLlmDone_within (fun _ _ _ => trivial) call result
              refine Within.bind (p := emitLlmDone runId node _ _) (emitted _ _) ?_
              exact fun _ => ofExcept_within fun _ _ => ofExcept_within fun _ _ => .pure _
  next => trivial

theorem makeNode_fails (kind : node.type = .llm ∨ node.type = .supervisor) :
    Throughout node.Fails (makeNode py graph deps node state) := by
  refine .bind (bare_fails checkCancelled_within) (fun _ _ fails => fails.bind _) fun _ => ?_
  refine .bind (bare_fails (emit_within _ _)) (fun _ _ fails => fails.bind _) fun _ => ?_
  refine .bind (C := node.Fails) ?_ (fun _ _ fails => fails.bind _) fun patch => ?_
  · unfold runNode
    rcases kind with kind | kind
    · rw [kind]
      exact runLlm_fails kind
    · rw [kind]
      exact runSupervisor_fails kind
  · exact bare_fails (.bind (emit_within _ _) fun _ => .pure _)

end Nodes

section Runs
variable {c : RunConfig} {s : RunState} {node : NodeDef} {request : ModelRequest}
  {next : (Op.complete request).Answer → GraphProg GraphState}

/-- The current execution has come to a completion inside the node. -/
structure RunState.Calls (c : RunConfig) (s : RunState) (node : NodeDef) (request : ModelRequest)
    (next : (Op.complete request).Answer → GraphProg GraphState) : Prop where
  asks : ∃ e, s.current = some e ∧ e.program = some (.ask (.complete request) next)
  inside : ∃ stored, s.thread = some stored ∧ stored.next = some node.id
  found : c.program.definition.nodeMap.find? node.id = some node

/-- A completion that fails ends the attempt with the error of the node. -/
theorem RunState.Calls.fails (calls : s.Calls c node request next)
    (reached : Reachable (executions c) anyStep s)
    (kind : node.type = .llm ∨ node.type = .supervisor) : node.Fails (.complete request) next := by
  obtain ⟨e, current, asks⟩ := calls.asks
  obtain ⟨stored, thread, entry⟩ := calls.inside
  rcases (atWork_inductive c).reachable reached e _ current asks with ⟨_, raised⟩ | ⟨_, same, work⟩
  · contradiction
  · cases thread.symm.trans same
    rcases work.inside with ⟨other, remaining, history, rest, first, found, answered, rfl⟩ |
      ⟨_, other, _⟩
    · have same : other = node := by
        rw [Option.some.inj (first.symm.trans entry)] at found
        exact Option.some.inj (found.symm.trans calls.found)
      subst same
      exact (((makeNode_fails kind).answered answered).1).bind _
    · contradiction

/-- How the attempt ends behind the failed completion, whatever else happens. -/
def EndsFailed (c : RunConfig) (next : (Op.complete request).Answer → GraphProg GraphState)
    (exc : ModelException) (outcome : Outcome) : Prop :=
  ∃ history p, Played Unreliable history (Prog.after next (failedCompletion c.py exc)) p ∧
    Execution.outcome c.py p = some outcome

/-- The outcome that the node and the exception determine. -/
def failedOutcome (py : Builtins) (node : NodeDef) (exc : ModelException) : Outcome :=
  match normalizeModelError py exc with
  | .ok error =>
      classifyFailure (.modelCall error.message error.category (node.recovers error))
  | .error error => classifyFailure error

theorem endsFailed_iff (calls : s.Calls c node request next)
    (reached : Reachable (executions c) anyStep s)
    (kind : node.type = .llm ∨ node.type = .supervisor) (exc : ModelException)
    (outcome : Outcome) :
    EndsFailed c next exc outcome ↔ outcome = failedOutcome c.py node exc := by
  unfold EndsFailed failedOutcome failedCompletion
  cases normalizeModelError c.py exc with
  | error error =>
      constructor
      · rintro ⟨history, p, played, ended⟩
        cases played with
        | refl => exact (Option.some.inj ended).symm
      · rintro rfl
        exact ⟨[], _, .refl _, rfl⟩
  | ok error =>
      obtain ⟨type, runId, id, payload, same⟩ :=
        calls.fails reached kind { error := some error } error rfl
      dsimp only [Prog.after]
      rw [same]
      constructor
      · rintro ⟨history, p, played, ended⟩
        cases played with
        | refl => contradiction
        | answered _ _ rest =>
            cases rest with
            | refl => exact (Option.some.inj ended).symm
        | raised _ never => exact never.elim
      · rintro rfl
        exact ⟨_, _, .answered () trivial (.refl _), rfl⟩

/-- The exception is classified as it is marked: its status code can be read, a timeout or a rate
limit hits an llm node, and no other transient error occurs. -/
@[mk_iff]
structure ModelException.Settled (exc : ModelException) (py : Builtins) (node : NodeDef) :
    Prop where
  readable : exc.readable py = true
  carried : exc.timedOut py = true ∨ exc.rateLimited py = true → node.type = .llm
  permanent : exc.transient py = true →
    exc.timedOut py = true ∨ exc.rateLimited py = true ∨ exc.denied py = true

/-- The attempt in which a completion of an llm or supervisor node raises is tried again as the
exception is marked exactly when it is classified as it is marked. -/
theorem failed_call_retried_iff (calls : s.Calls c node request next)
    (reached : Reachable (executions c) anyStep s)
    (kind : node.type = .llm ∨ node.type = .supervisor) (exc : ModelException)
    {outcome : Outcome} (ends : EndsFailed c next exc outcome) :
    (outcome.Retried ↔ exc.recoverable c.py = true) ↔ exc.Settled c.py node := by
  rw [(endsFailed_iff calls reached kind exc outcome).mp ends, ModelException.settled_iff,
    ModelException.recoverable, failedOutcome, normalizeModelError]
  cases exc.readable c.py with
  | false => simp [retried_other]
  | true =>
      cases exc.timedOut c.py <;> cases exc.rateLimited c.py <;> cases exc.denied c.py <;>
        cases exc.transient c.py <;> simp [retried_modelCall, NodeDef.recovers]

end Runs

section Sample

def answerNode : NodeDef where
  type := .llm
  id := "answer"

def answerRun : RunConfig where
  py := { Builtins.onEmpty with lower := fun text => text.map Char.toLower }
  runId := sampleRun
  program :=
    ⟨.ofDefinition { name := "answer", nodes := [answerNode], edges := [], entry := "answer" },
      by decide⟩
  deps := sampleDeps

def GraphProg.completes {α : Type} : GraphProg α → Bool
  | .ask (.complete _) _ => true
  | _ => false

/-- The run is executed up to the call of its model. -/
theorem answerRun_calls : ∃ (s : RunState) (request : ModelRequest)
    (next : (Op.complete request).Answer → GraphProg GraphState),
    Reachable (executions answerRun) anyStep s ∧ s.Calls answerRun answerNode request next := by
  obtain ⟨s, run, asks, inside⟩ := Run.of_test (M := executions answerRun) answerRun.created
    ([.read fun _ => 0, .launch] ++ List.replicate 4 (.reply {}))
    (fun s => (s.current.bind Execution.program).any GraphProg.completes ∧
      s.thread.bind Checkpoint.next = some answerNode.id) (by decide +kernel)
  obtain ⟨p, program, completes⟩ := (Option.any_eq_true _ _).mp asks
  obtain ⟨e, current, program⟩ := Option.bind_eq_some_iff.mp program
  cases p with
  | pure | raise => contradiction
  | ask op next =>
      cases op with
      | complete request =>
          exact ⟨s, request, next, (Reachable.start answerRun.created_initial).run run,
            ⟨e, current, program⟩, Option.bind_eq_some_iff.mp inside, rfl⟩
      | _ => contradiction

/-- A rate limit is marked as recoverable, and the attempt is tried again. -/
theorem rate_limited_call_retried : ∃ (s : RunState) (request : ModelRequest)
    (next : (Op.complete request).Answer → GraphProg GraphState) (outcome : Outcome),
    s.Calls answerRun answerNode request next ∧
      EndsFailed answerRun next ⟨"RateLimitError", "slow down", .int 429⟩ outcome ∧
      outcome.Retried := by
  obtain ⟨s, request, next, reached, calls⟩ := answerRun_calls
  have ends := (endsFailed_iff calls reached (.inl rfl)
    ⟨"RateLimitError", "slow down", .int 429⟩ _).mpr rfl
  refine ⟨s, request, next, _, calls, ends, ?_⟩
  refine ((failed_call_retried_iff calls reached (.inl rfl) _ ends).mpr ?_).mpr
    (by decide +kernel)
  exact ⟨by decide +kernel, fun _ => rfl, fun _ => .inr (.inl (by decide +kernel))⟩

/-- A connection error is marked as recoverable as well, and the run fails. -/
theorem connection_error_not_retried : ¬ ∀ (c : RunConfig) (s : RunState) (node : NodeDef)
    (request : ModelRequest) (next : (Op.complete request).Answer → GraphProg GraphState)
    (exc : ModelException) (outcome : Outcome), Reachable (executions c) anyStep s →
    s.Calls c node request next → node.type = .llm ∨ node.type = .supervisor →
    EndsFailed c next exc outcome → (outcome.Retried ↔ exc.recoverable c.py = true) := by
  intro always
  obtain ⟨s, request, next, reached, calls⟩ := answerRun_calls
  have ends := (endsFailed_iff calls reached (.inl rfl)
    ⟨"APIConnectionError", "connection reset", .null⟩ _).mpr rfl
  have retried := (always _ s _ request next _ _ reached calls (.inl rfl) ends).mpr
    (by decide +kernel)
  exact absurd ((retried_iff _).mp retried) (by decide +kernel)

end Sample
end AgentRuntime
