import AgentRuntime.Library.Endings
import AgentRuntime.Returning

/-! The loop of a subagent: what it asks after which replies, and when it succeeds. Its requests are
written down as a function of its brief and of these replies. -/
namespace AgentRuntime
open Programs Tables

/-- All that the requests of a subagent are made of, but for the replies to earlier ones. -/
structure Brief where
  model : String
  tools : Table ToolDef
  task : SubagentTask

def Executor.brief (executor : Executor) (task : SubagentTask) : Brief where
  model := executor.model
  tools := executor.toolRegistry.tools
  task := task

/-- A decision for a tool, and what the call of the tool gave, where a callable is bound. -/
structure ToolStep where
  reply : ModelResult
  decision : SubagentDecision
  name : String
  outcome : Option CallResult

namespace ToolStep

def result (step : ToolStep) : ToolResult :=
  step.outcome.elim (.fail .toolError ("no callable bound for tool '" ++ step.name ++ "'"))
    CallResult.toolResult

def messages (py : Builtins) (step : ToolStep) : List Dict :=
  [Executor.message "assistant" (py.dumpJson (.obj step.decision.dump)),
    [("role", .str "tool"), ("name", .str step.name),
      ("content", .str (py.dumpJson (.obj step.result.dump)))]]

/-- The call of the tool. -/
def calls (step : ToolStep) : List OpEntry :=
  (step.outcome.map fun outcome =>
    ⟨.invoke .subagent step.name step.decision.arguments, .answered outcome⟩).toList

end ToolStep

namespace Brief
variable (py : Builtins) (brief : Brief)

def systemPrompt : String :=
  let tools := brief.tools.rows.filter fun tool => brief.task.allows tool.name
  "You are an isolated subagent. You cannot delegate to another subagent. " ++
    "Selected context: " ++ py.repr (.arr brief.task.selectedContext) ++ ". " ++
    "Allowed tools: " ++ py.repr (.arr (tools.map fun tool => .obj tool.dump)) ++ ". " ++
    "Expected output schema: " ++ py.repr brief.task.expectedOutputSchema ++ ". " ++
    "Return only a SubagentDecision."

def opening : List Dict :=
  [Executor.message "system" (brief.systemPrompt py), Executor.message "user" brief.task.task]

/-- The request for a plan. -/
def planRequest : ModelRequest where
  model := brief.model
  messages := brief.opening py ++
    [Executor.message "user" "Produce a concise execution plan. Do not call tools yet."]
  metadata := [("subagent.template", brief.task.template), ("subagent.phase", .str "plan")]

/-- The messages after the plan, where there is one, and these steps. -/
def messages (plan : Option ModelResult) (steps : List ToolStep) : List Dict :=
  brief.opening py ++
    (plan.map fun plan => Executor.message "assistant" ("Plan:\n" ++ plan.content)).toList ++
    steps.flatMap (ToolStep.messages py)

/-- The request for the next decision. -/
def decisionRequest (plan : Option ModelResult) (steps : List ToolStep) : ModelRequest where
  model := brief.model
  messages := brief.messages py plan steps
  responseSchema := some .subagentDecision
  metadata := [("subagent.template", brief.task.template),
    ("subagent.step", .int (steps.length + 1 : Nat))]

end Brief

/-- A successful reply with a structured decision that the model class accepts. -/
def ModelResult.Decides (py : Builtins) (reply : ModelResult) (decision : SubagentDecision) :
    Prop :=
  reply.success = true ∧ ∃ fields, reply.structured = some fields ∧
    SubagentDecision.validate py (.obj fields) = .ok decision

section Transcript
variable (py : Builtins) (executor : Executor) (task : SubagentTask)

/-- The step calls a tool that the task allows, that is registered and in scope, and has its
result, which can be written down for the model. -/
structure ToolStep.Allowed (step : ToolStep) : Prop where
  decides : step.reply.Decides py step.decision
  action : step.decision.action = .tool
  named : step.decision.toolName = some step.name
  nonempty : step.name ≠ ""
  allowed : .str step.name ∈ task.allowedTools
  registered : (executor.toolRegistry.tools.find? step.name).isSome
  inScope : executor.toolRegistry.scope.isAllowed py step.name = true
  bound : step.outcome.isSome = executor.toolRegistry.callables.contains step.name
  writable : step.result.unwritable = none

/-- The history behind a plan, where the template asks for one, and these steps. -/
inductive Transcript : Option ModelResult → List ToolStep → List OpEntry → Prop
  | direct : task.template = .str "react" → Transcript none [] []
  | planned {plan : ModelResult} : task.template = .str "planner_react" → plan.success = true →
      Transcript (some plan) []
        [⟨.complete ((executor.brief task).planRequest py), .answered plan⟩]
  | step {plan steps history} {step : ToolStep} : Transcript plan steps history →
      step.Allowed py executor task →
      Transcript plan (steps ++ [step])
        (history ++ ⟨.complete ((executor.brief task).decisionRequest py plan steps),
          .answered step.reply⟩ :: step.calls)

/-- What the subagent asks after a history. -/
inductive Asks : List OpEntry → Op → Prop
  | plan : task.template = .str "planner_react" →
      Asks [] (.complete ((executor.brief task).planRequest py))
  | decision {plan steps history} : Transcript py executor task plan steps history →
      steps.length < executor.maxSteps →
      Asks history (.complete ((executor.brief task).decisionRequest py plan steps))
  | call {plan steps history} {step : ToolStep} : Transcript py executor task plan steps history →
      steps.length < executor.maxSteps → step.Allowed py executor task →
      Asks (history ++ [⟨.complete ((executor.brief task).decisionRequest py plan steps),
          .answered step.reply⟩])
        (.invoke .subagent step.name step.decision.arguments)

/-- The last entry is a final decision, behind steps that leave a step for it. -/
inductive Finalized : List OpEntry → Prop
  | intro {plan steps history} {reply : ModelResult} {decision : SubagentDecision} :
      Transcript py executor task plan steps history → steps.length < executor.maxSteps →
      reply.Decides py decision → decision.action = .final →
      Finalized (history ++ [⟨.complete ((executor.brief task).decisionRequest py plan steps),
        .answered reply⟩])

end Transcript

section Asked
variable {py : Builtins} {executor : Executor} {task : SubagentTask} {plan : Option ModelResult}
  {steps : List ToolStep} {history : List OpEntry}

theorem messages_turn (brief : Brief) (plan : Option ModelResult) (steps : List ToolStep)
    (step : ToolStep) :
    brief.messages py plan (steps ++ [step]) =
      brief.messages py plan steps ++ step.messages py := by
  simp [Brief.messages]

/-- An allowed name is registered. -/
theorem registered_of_mem (valid : task.Valid executor) {name : Json}
    (member : name ∈ task.allowedTools) :
    ∃ text, name = .str text ∧ (executor.toolRegistry.tools.find? text).isSome := by
  rcases executor.unknownTools_cases task.allowedTools with
    ⟨error, failed, _⟩ | ⟨unknown, listed, _, empty⟩
  · rw [valid.known] at failed
    contradiction
  · cases valid.known.symm.trans listed
    exact empty.mp rfl name member

theorem registered_of_allowed (valid : task.Valid executor) {name : String}
    (allowed : task.allows name) :
    ∃ tool, executor.toolRegistry.tools.find? name = some tool ∧ tool.name = name := by
  obtain ⟨text, same, registered⟩ := registered_of_mem valid (SubagentTask.allows_iff.mp allowed)
  cases same
  obtain ⟨tool, found⟩ := Option.isSome_iff_exists.mp registered
  exact ⟨tool, found, Table.key_of_find? found⟩

/-- Behind a decision for a tool that the task allows, the tool is called, and the loop goes on
with what can be written down of its result. -/
theorem call_asks (valid : task.Valid executor)
    (course : Transcript py executor task plan steps history)
    (within : steps.length < executor.maxSteps) {reply : ModelResult}
    {decision : SubagentDecision} {name : String} (decides : reply.Decides py decision)
    (action : decision.action = .tool) (named : decision.toolName = some name)
    (nonempty : name ≠ "") (permitted : task.allows name)
    {rest : String → GraphProg SubagentResult}
    (onward : ∀ step : ToolStep, step.reply = reply → step.decision = decision →
      step.Allowed py executor task →
      wp (Asks py executor task) (fun _ _ => True)
        (history ++ ⟨.complete ((executor.brief task).decisionRequest py plan steps),
          .answered reply⟩ :: step.calls)
        (rest (py.dumpJson (.obj step.result.dump)))) :
    wp (Asks py executor task) (fun _ _ => True)
      (history ++ [⟨.complete ((executor.brief task).decisionRequest py plan steps),
        .answered reply⟩])
      (executor.toolRegistry.ainvoke py .subagent (.str name) decision.arguments >>=
        fun result => GraphProg.ofExcept (result.dumpJson py) >>= rest) := by
  obtain ⟨tool, found, rfl⟩ := registered_of_allowed valid permitted
  have allows (outcome : Option CallResult)
      (inScope : executor.toolRegistry.scope.isAllowed py tool.name = true)
      (bound : outcome.isSome = executor.toolRegistry.callables.contains tool.name)
      (writable : (ToolStep.mk reply decision tool.name outcome).result.unwritable = none) :
      (ToolStep.mk reply decision tool.name outcome).Allowed py executor task :=
    ⟨decides, action, named, nonempty, SubagentTask.allows_iff.mp permitted,
      Option.isSome_of_eq_some found, inScope, bound, writable⟩
  unfold ToolRegistry.ainvoke
  rw [ToolRegistry.get_found found]
  dsimp only
  split
  next => trivial
  next inScope =>
    simp only [Bool.not_eq_true', Bool.not_eq_false] at inScope
    split
    next unbound =>
      simp only [Bool.not_eq_true'] at unbound
      exact onward _ rfl rfl (allows none inScope unbound.symm rfl)
    next bound =>
      simp only [Bool.not_eq_true', Bool.not_eq_false] at bound
      have called := allows (some (.returned .null)) inScope bound.symm rfl
      refine ⟨.call course within called, fun outcome => ?_⟩
      show wp _ _ _ (GraphProg.ofExcept (outcome.toolResult.dumpJson py) >>= _)
      rw [ToolResult.dumpJson]
      split
      next => trivial
      next writable =>
        rw [List.append_assoc]
        exact onward _ rfl rfl (allows (some outcome) inScope bound.symm writable)

variable (py) in
/-- The loop asks for decisions and calls their tools; by induction on the steps that remain. -/
theorem react_asks (valid : task.Valid executor) {remaining : Nat}
    (course : Transcript py executor task plan steps history)
    (count : steps.length + remaining = executor.maxSteps) :
    wp (Asks py executor task) (fun _ _ => True) history
      (executor.react py task remaining (steps.length + 1)
        ((executor.brief task).messages py plan steps)) := by
  induction remaining generalizing steps history with
  | zero => trivial
  | succ remaining ih =>
      have within : steps.length < executor.maxSteps := by omega
      simp only [Executor.react]
      refine wp_request_seq (.decision course within) fun reply => ?_
      split
      next structured success parsed =>
        split
        next => trivial
        next decision decided =>
          split
          next => trivial
          next name action named =>
            split
            next permitted =>
              simp only [Bool.and_eq_true, decide_eq_true_eq] at permitted
              refine call_asks valid course within ⟨success, structured, parsed, decided⟩ action
                named permitted.1 permitted.2 ?_
              rintro step rfl rfl allowed
              cases allowed.named.symm.trans named
              have onward := ih (course.step allowed) (by simp; omega)
              rw [messages_turn, List.length_append] at onward
              exact onward
            next => trivial
          next => trivial
      next => trivial

variable (py task) in
theorem execute_asks (depth : Nat) :
    wp (fun history op => (depth = 0 ∧ task.Valid executor) ∧ Asks py executor task history op)
      (fun _ _ => True) [] (executor.execute py task depth) := by
  unfold Executor.execute
  split
  next => trivial
  next shallow =>
    split
    next => trivial
    next => trivial
    next template =>
      split
      next => trivial
      next known =>
        have valid : task.Valid executor := ⟨knownTemplate_ok template, known⟩
        have checked : depth = 0 ∧ task.Valid executor := ⟨not_not.mp shallow, valid⟩
        refine wp_mono (fun _ _ asks => ⟨checked, asks⟩) (fun _ _ same => same) ?_
        unfold Executor.start
        dsimp only
        split
        next planner =>
          have planner : task.template = .str "planner_react" := by
            rcases valid.template with react | planner'
            · simp [react, Json.str?] at planner
            · exact planner'
          refine wp_request_seq (.plan planner) fun plan => ?_
          split
          next success => exact react_asks py valid (.planned planner success) (Nat.zero_add _)
          next => trivial
        next direct =>
          have react : task.template = .str "react" := by
            rcases valid.template with react | planner
            · exact react
            · simp [planner, Json.str?] at direct
          have start := react_asks py valid (.direct react)
            (Nat.zero_add executor.maxSteps)
          simp only [Brief.messages, Option.map_none, Option.toList_none, List.flatMap_nil,
            List.append_nil] at start
          exact start
      next => trivial

end Asked

/-- The surroundings reply as they like. -/
def anyReply : Replies Op.Answer Raised := fun _ _ => True

/-- The last reply is a final decision. -/
def EndsFinal (py : Builtins) (history : List OpEntry) : Prop :=
  ∃ before request reply decision, history = before ++ [⟨.complete request, .answered reply⟩] ∧
    request.responseSchema = some .subagentDecision ∧ reply.Decides py decision ∧
    decision.action = .final

section Ended
variable {py : Builtins} {executor : Executor} {task : SubagentTask} {history : List OpEntry}

theorem ModelResult.Decides.unique {reply : ModelResult} {decision decision' : SubagentDecision}
    (first : reply.Decides py decision) (second : reply.Decides py decision') :
    decision = decision' := by
  obtain ⟨_, fields, parsed, valid⟩ := first
  obtain ⟨_, fields', parsed', valid'⟩ := second
  cases parsed.symm.trans parsed'
  exact Except.ok.inj (valid.symm.trans valid')

theorem not_endsFinal_reply {request : ModelRequest} {reply : ModelResult}
    (other : ∀ decision, reply.Decides py decision → decision.action ≠ .final) :
    ¬ EndsFinal py (history ++ [⟨.complete request, .answered reply⟩]) := by
  rintro ⟨before, request', reply', decision, same, _, decides, final⟩
  cases (List.append_inj' same rfl).2
  exact other decision decides final

variable (py history) in
theorem not_endsFinal_plan {request : ModelRequest} (reply : ModelResult)
    (bare : request.responseSchema = none) :
    ¬ EndsFinal py (history ++ [⟨.complete request, .answered reply⟩]) := by
  rintro ⟨before, request', reply', decision, same, schema, _⟩
  cases (List.append_inj' same rfl).2
  rw [bare] at schema
  contradiction

theorem not_endsFinal_invoke {site : Site} {name : String} {arguments : Dict}
    {outcome : CallResult} :
    ¬ EndsFinal py (history ++ [⟨.invoke site name arguments, .answered outcome⟩]) := by
  rintro ⟨before, request, reply, decision, same, _⟩
  cases (List.append_inj' same rfl).2

theorem not_endsFinal_nil : ¬ EndsFinal py [] := by
  rintro ⟨before, request, reply, decision, same, _⟩
  simp at same

/-- The loop returns success exactly behind a final decision. -/
abbrev EndsDecided (py : Builtins) (history : List OpEntry) (p : GraphProg SubagentResult) :
    Prop :=
  Ends anyReply (fun after result => result.status = "success" ↔ EndsFinal py after)
    (fun _ _ => True) history p

theorem ainvoke_not_final {registry : ToolRegistry} {name : Json} {arguments : Dict}
    (notYet : ¬ EndsFinal py history) :
    Ends anyReply (fun after _ => ¬ EndsFinal py after) (fun _ _ => True) history
      (registry.ainvoke py .subagent name arguments) := by
  unfold ToolRegistry.ainvoke
  split
  · trivial
  · split
    · trivial
    · split
      · exact notYet
      · exact ⟨fun outcome _ => not_endsFinal_invoke, fun _ _ => trivial⟩

theorem react_endsDecided (notYet : ¬ EndsFinal py history) (remaining step : Nat)
    (messages : List Dict) :
    EndsDecided py history (executor.react py task remaining step messages) := by
  induction remaining generalizing step messages history with
  | zero => exact iff_of_false (show "timeout" ≠ "success" by decide) notYet
  | succ remaining ih =>
      refine ⟨fun reply _ => ?_, fun _ _ => trivial⟩
      dsimp only [Prog.bind]
      split
      next structured success parsed =>
        split
        next => trivial
        next decision valid =>
          have decides : reply.Decides py decision := ⟨success, structured, parsed, valid⟩
          have other (tool : decision.action = .tool) : ∀ decision', reply.Decides py decision' →
              decision'.action ≠ .final := by
            intro decision' decides' final
            cases decides.unique decides'
            rw [tool] at final
            contradiction
          split
          next final =>
            exact iff_of_true rfl ⟨history, _, reply, decision, rfl, rfl, decides, final⟩
          next name tool _ =>
            split
            next =>
              refine .seq (ainvoke_not_final (not_endsFinal_reply (other tool))) ?_
              intro after result notYet
              rw [ToolResult.dumpJson]
              split
              · trivial
              · exact ih notYet _ _
            next =>
              exact iff_of_false (modelError_fails _ _ _) (not_endsFinal_reply (other tool))
          next tool _ =>
            exact iff_of_false (modelError_fails _ _ _) (not_endsFinal_reply (other tool))
      next shapeless =>
        refine iff_of_false (modelError_fails _ _ _) (not_endsFinal_reply ?_)
        rintro decision ⟨success, structured, parsed, _⟩
        exact absurd parsed (shapeless structured success)

theorem execute_endsDecided (depth : Nat) :
    EndsDecided py [] (executor.execute py task depth) := by
  have failed : ("error" : String) ≠ "success" := by decide
  unfold Executor.execute
  split
  next => exact iff_of_false failed not_endsFinal_nil
  next =>
    split
    next => trivial
    next => exact iff_of_false failed not_endsFinal_nil
    next =>
      split
      next => trivial
      next =>
        unfold Executor.start
        dsimp only
        split
        next =>
          refine ⟨fun plan _ => ?_, fun _ _ => trivial⟩
          have unplanned := not_endsFinal_plan py [] plan
            (show ((executor.brief task).planRequest py).responseSchema = none from rfl)
          show Ends _ _ _ _ (if plan.success then _ else _)
          split
          · exact react_endsDecided unplanned _ _ _
          · exact iff_of_false (modelError_fails _ _ _) unplanned
        next => exact react_endsDecided not_endsFinal_nil _ _ _
      next => exact iff_of_false failed not_endsFinal_nil

end Ended

section Counts

def Op.isPlan : Op → Bool
  | .complete request => request.responseSchema = none
  | _ => false

def Op.isDecision : Op → Bool
  | .complete request => request.responseSchema = some .subagentDecision
  | _ => false

def Op.isCall : Op → Bool
  | .invoke .. => true
  | _ => false

/-- How often an operation of the kind was asked. -/
def asked (kind : Op → Bool) (history : List OpEntry) : Nat :=
  history.countP fun entry => kind entry.op

/-- The calls that the steps of the loop leave: for each step a decision and at most one tool, in
front of them a plan where the template asks for one, and nothing else. -/
structure Bounded (task : SubagentTask) (steps : Nat) (history : List OpEntry) : Prop where
  plans : asked Op.isPlan history ≤ if task.template.str? = some "planner_react" then 1 else 0
  decisions : asked Op.isDecision history ≤ steps
  calls : asked Op.isCall history ≤ steps
  nothingElse : history.length =
    asked Op.isPlan history + asked Op.isDecision history + asked Op.isCall history

variable {py : Builtins} {executor : Executor} {task : SubagentTask} {plan : Option ModelResult}
  {steps : List ToolStep} {history : List OpEntry}

section Asked
variable (kind : Op → Bool)

@[simp] theorem asked_nil : asked kind [] = 0 := rfl

@[simp] theorem asked_cons (entry : OpEntry) (history : List OpEntry) :
    asked kind (entry :: history) = asked kind history + if kind entry.op then 1 else 0 :=
  List.countP_cons

@[simp] theorem asked_append (history later : List OpEntry) :
    asked kind (history ++ later) = asked kind history + asked kind later := List.countP_append

end Asked

theorem Op.isCall_only {op : Op} (call : op.isCall) :
    op.isPlan = false ∧ op.isDecision = false := by
  cases op with
  | invoke => exact ⟨rfl, rfl⟩
  | _ => contradiction

/-- One more step: a decision, and a call of a tool where there is one. -/
theorem Bounded.step {count : Nat} (bounded : Bounded task count history) {request : ModelRequest}
    (schema : request.responseSchema = some .subagentDecision) {reply : Reply Raised ModelResult}
    {later : List OpEntry} (calls : ∀ entry ∈ later, entry.op.isCall) (one : later.length ≤ 1) :
    Bounded task (count + 1) (history ++ ⟨.complete request, reply⟩ :: later) := by
  obtain ⟨plans, decisions, called, nothingElse⟩ := bounded
  have tool : asked Op.isPlan later = 0 ∧ asked Op.isDecision later = 0 ∧
      asked Op.isCall later = later.length := by
    rcases later with _ | ⟨entry, _ | _⟩
    · exact ⟨rfl, rfl, rfl⟩
    · have call := calls entry List.mem_cons_self
      obtain ⟨noPlan, noDecision⟩ := Op.isCall_only call
      simp [call, noPlan, noDecision]
    · simp at one
  obtain ⟨noPlan, noDecision, length⟩ := tool
  constructor <;> simp [Op.isPlan, Op.isDecision, Op.isCall, schema, noPlan, noDecision, length] <;>
    omega

theorem Transcript.bounded (course : Transcript py executor task plan steps history) :
    Bounded task steps.length history := by
  induction course with
  | direct react => exact ⟨Nat.zero_le _, Nat.le_refl _, Nat.le_refl _, rfl⟩
  | planned planner _ =>
      refine ⟨?_, Nat.le_refl _, Nat.le_refl _, rfl⟩
      simp [planner, Json.str?, Op.isPlan, Brief.planRequest]
  | @step plan steps history step course allowed ih =>
      rw [List.length_append]
      refine ih.step rfl ?_ ?_ <;> cases outcome : step.outcome <;>
        simp [ToolStep.calls, outcome, Op.isCall]

/-- What is asked keeps the bounds. -/
theorem Asks.bounded {entry : OpEntry} (asks : Asks py executor task history entry.op) :
    Bounded task executor.maxSteps (history ++ [entry]) := by
  have weaken {count : Nat} {history : List OpEntry} (bounded : Bounded task count history)
      (within : count ≤ executor.maxSteps) : Bounded task executor.maxSteps history :=
    ⟨bounded.plans, bounded.decisions.trans within, bounded.calls.trans within,
      bounded.nothingElse⟩
  obtain ⟨op, reply⟩ := entry
  cases asks with
  | plan planner =>
      refine ⟨?_, ?_, ?_, ?_⟩ <;>
        simp [planner, Json.str?, Op.isPlan, Op.isDecision, Op.isCall, Brief.planRequest]
  | decision course within =>
      exact weaken (course.bounded.step rfl (by simp) (by simp)) within
  | call course within allowed =>
      rw [List.append_assoc]
      refine weaken (course.bounded.step rfl (List.forall_mem_singleton.mpr ?_) ?_) within
      · rfl
      · exact Nat.le_refl _

end Counts

section Confined
variable (py : Builtins) (executor : Executor) (task : SubagentTask) (depth : Nat)

/-- The checks in front of the loop have passed. -/
structure SubagentTask.Checked : Prop where
  shallow : depth = 0
  template : task.template = .str "react" ∨ task.template = .str "planner_react"
  registered : ∀ name ∈ task.allowedTools, ∃ text, name = .str text ∧
    (executor.toolRegistry.tools.find? text).isSome

/-- The loop is bounded, confined and isolated, behind this history. -/
structure Executor.Confined (history : List OpEntry) : Prop where
  bounded : Bounded task executor.maxSteps history
  /-- It calls tools that the task allows and that are registered. -/
  opened : ∀ site name arguments reply,
    (⟨.invoke site name arguments, reply⟩ : OpEntry) ∈ history →
      .str name ∈ task.allowedTools ∧ (executor.toolRegistry.tools.find? name).isSome
  /-- It asks nothing where it is delegated, or where a check fails. -/
  checked : history ≠ [] → task.Checked executor depth
  /-- Each request is a function of its brief and of the replies that led to it. -/
  requests : ∀ before request reply later,
    history = before ++ ⟨.complete request, reply⟩ :: later →
      before = [] ∧ request = (executor.brief task).planRequest py ∨
        ∃ plan steps, Transcript py executor task plan steps before ∧
          request = (executor.brief task).decisionRequest py plan steps

/-- The checks have passed, and a plan where there is one; the last reply is a final decision
within the budget, behind allowed calls of tools that returned a result. -/
def Executor.Succeeds (history : List OpEntry) : Prop :=
  task.Checked executor depth ∧ Finalized py executor task history

end Confined

section Execute
variable {py : Builtins} {executor : Executor} {task : SubagentTask} {depth : Nat}
  {history : List OpEntry}

theorem checked_of_valid (valid : depth = 0 ∧ task.Valid executor) :
    task.Checked executor depth :=
  ⟨valid.1, valid.2.template, fun _ => registered_of_mem valid.2⟩

theorem confined_of_follows (follows : Follows (fun history op =>
      (depth = 0 ∧ task.Valid executor) ∧ Asks py executor task history op) history) :
    executor.Confined py task depth history := by
  refine ⟨?_, fun site name arguments reply member => ?_, fun asked => ?_,
    fun before request reply later same => ?_⟩
  · rcases List.eq_nil_or_concat history with rfl | ⟨before, entry, rfl⟩
    · exact ⟨Nat.zero_le _, Nat.zero_le _, Nat.zero_le _, rfl⟩
    · rw [List.concat_eq_append] at follows ⊢
      exact (follows before entry [] rfl).2.bounded
  · obtain ⟨before, later, same⟩ := List.append_of_mem member
    have asks := (follows before _ later same).2
    cases asks with
    | call _ _ allowed => exact ⟨allowed.allowed, allowed.registered⟩
  · obtain ⟨entry, later, same⟩ := List.exists_cons_of_ne_nil asked
    exact checked_of_valid (follows [] entry later same).1
  · have asks := (follows before _ later same).2
    cases asks with
    | plan => exact .inl ⟨rfl, rfl⟩
    | decision course => exact .inr ⟨_, _, course, rfl⟩

theorem endsFinal_iff (follows : Follows (fun history op =>
      (depth = 0 ∧ task.Valid executor) ∧ Asks py executor task history op) history) :
    EndsFinal py history ↔ executor.Succeeds py task depth history := by
  constructor
  · rintro ⟨before, request, reply, decision, rfl, schema, decides, final⟩
    obtain ⟨valid, asks⟩ := follows before _ [] rfl
    refine ⟨checked_of_valid valid, ?_⟩
    cases asks with
    | plan => contradiction
    | decision course within => exact .intro course within decides final
  · rintro ⟨_, finalized⟩
    cases finalized with
    | intro course within decides final => exact ⟨_, _, _, _, rfl, rfl, decides, final⟩

theorem SubagentTask.Checked.valid (checked : task.Checked executor depth) :
    task.Valid executor := by
  refine ⟨checked.template, ?_⟩
  rcases executor.unknownTools_cases task.allowedTools with
    ⟨_, _, _, name, member, unhashable⟩ | ⟨unknown, listed, _, empty⟩
  · obtain ⟨text, rfl, _⟩ := checked.registered name member
    contradiction
  · rw [listed, empty.mpr checked.registered]

/-- Where the checks pass, the loop is started. -/
theorem execute_start (checked : task.Checked executor depth) :
    executor.execute py task depth = executor.start py task := by
  have known : Executor.knownTemplate task = .ok true := by
    rcases checked.template with react | planner
    · simp [Executor.knownTemplate, react]
    · simp [Executor.knownTemplate, planner]
  simp only [Executor.execute, checked.shallow, known, checked.valid.known, ne_eq,
    not_true_eq_false, if_false]

/-- The tool of the step gives the result of the step. -/
theorem ainvoke_played {step : ToolStep} (allowed : step.Allowed py executor task) :
    Played anyReply step.calls
      (executor.toolRegistry.ainvoke py .subagent (.str step.name) step.decision.arguments)
      (pure step.result) := by
  obtain ⟨reply, decision, name, outcome⟩ := step
  obtain ⟨tool, found⟩ := Option.isSome_iff_exists.mp allowed.registered
  have own : tool.name = name := Table.key_of_find? found
  subst own
  have bound := allowed.bound
  simp only [ToolRegistry.ainvoke, ToolRegistry.get_found found, allowed.inScope, Bool.not_true,
    Bool.false_eq_true, if_false]
  cases outcome with
  | none =>
      rw [← bound]
      exact .refl _
  | some outcome =>
      rw [← bound]
      exact .asked (by trivial) (.refl _)

/-- One turn of the loop, behind a decision for a tool that may be called. -/
theorem react_turn {step : ToolStep} (allowed : step.Allowed py executor task)
    (remaining : Nat) :
    Played anyReply
      (⟨.complete ((executor.brief task).decisionRequest py plan steps),
        .answered step.reply⟩ :: step.calls)
      (executor.react py task (remaining + 1) (steps.length + 1)
        ((executor.brief task).messages py plan steps))
      (executor.react py task remaining (steps.length + 2)
        ((executor.brief task).messages py plan (steps ++ [step]))) := by
  obtain ⟨success, fields, parsed, decided⟩ := allowed.decides
  have written : step.result.dumpJson py = .ok (py.dumpJson (.obj step.result.dump)) := by
    rw [ToolResult.dumpJson, allowed.writable]
  simp only [Executor.react]
  refine .asked (by trivial) ?_
  simp only [success, parsed, decided, allowed.action, allowed.named, allowed.nonempty,
    SubagentTask.allows_iff.mpr allowed.allowed, ne_eq, not_false_eq_true, decide_true,
    Bool.and_self, if_true]
  rw [← List.append_nil step.calls]
  refine (ainvoke_played allowed).seq ?_
  rw [written, messages_turn]
  exact .refl _

/-- The loop can be played to behind every transcript that leaves it steps. -/
theorem Transcript.played (checked : task.Checked executor depth)
    (course : Transcript py executor task plan steps history) (remaining : Nat)
    (count : steps.length + remaining = executor.maxSteps) :
    Played anyReply history (executor.execute py task depth)
      (executor.react py task remaining (steps.length + 1)
        ((executor.brief task).messages py plan steps)) := by
  rw [execute_start checked]
  induction course generalizing remaining with
  | direct react =>
      have all : remaining = executor.maxSteps := (Nat.zero_add _).symm.trans count
      rw [all, Executor.start, if_neg (by simp [react, Json.str?])]
      simp only [Brief.messages, Option.map_none, Option.toList_none, List.flatMap_nil,
        List.append_nil]
      exact .refl _
  | @planned plan planner success =>
      have all : remaining = executor.maxSteps := (Nat.zero_add _).symm.trans count
      rw [all, Executor.start, if_pos (by simp [planner, Json.str?])]
      refine .asked (by trivial) ?_
      rw [if_pos success]
      exact .refl _
  | @step plan steps history step course allowed ih =>
      have before := ih (remaining + 1) (by simp at count; omega)
      have turn := before.trans (react_turn allowed remaining)
      rwa [List.length_append]

/-- Behind a final decision within the budget the loop returns success. -/
theorem Executor.Succeeds.played (succeeds : executor.Succeeds py task depth history) :
    ∃ result, Played anyReply history (executor.execute py task depth) (pure result) ∧
      result.status = "success" := by
  obtain ⟨checked, finalized⟩ := succeeds
  cases finalized with
  | @intro plan steps history reply decision course within decides final =>
      have count : steps.length + (executor.maxSteps - steps.length - 1 + 1) = executor.maxSteps := by
        omega
      obtain ⟨success, fields, parsed, decided⟩ := decides
      have behind := course.played checked _ count
      simp only [Executor.react] at behind
      let result : SubagentResult :=
        { status := "success"
          result := some [("answer", .str (decision.answer.getD ""))]
          metadata := Executor.steps task (steps.length + 1) }
      refine ⟨result, behind.trans (.asked (by trivial) ?_), rfl⟩
      simp only [success, parsed, decided, final]
      exact .refl _

variable (py executor task depth) in
/-- A subagent is bounded, confined and isolated behind every play of its loop, whatever it is
replied, and the histories behind which it returns success are those where it succeeds. The state
of the graph has reached it through its task. -/
theorem execute_confined :
    (∀ history q, Played anyReply history (executor.execute py task depth) q →
      executor.Confined py task depth history) ∧
    (∀ history, (∃ result, Played anyReply history (executor.execute py task depth) (pure result) ∧
      result.status = "success") ↔ executor.Succeeds py task depth history) ∧
    ∀ deps runId node state decision, deps.subagentExecutor = some executor →
      GraphState.decision py state = .ok decision →
      subagentTask py node (orEmpty decision.input) = pure task →
      runSubagent py deps runId node state =
        (do
          GraphProg.emit .subagentStarted runId node.id
          let result ← executor.execute py task 0
          GraphProg.emit .subagentCompleted runId node.id [("status", .str result.status)]
          state.appending "subagent_results" (.obj result.dump)) := by
  have follows {history : List OpEntry} {q : GraphProg SubagentResult}
      (played : Played anyReply history (executor.execute py task depth) q) :=
    Follows.nil.played (execute_asks py task depth) played
  simp only [List.nil_append] at follows
  refine ⟨fun history q played => confined_of_follows (follows played), fun history => ?_, ?_⟩
  · constructor
    · rintro ⟨result, played, success⟩
      have ended := (execute_endsDecided depth).played played
      rw [List.nil_append] at ended
      exact (endsFinal_iff (follows played)).mp (ended.mp success)
    · exact Executor.Succeeds.played
  · intro deps runId node state decision configured decided same
    rw [runSubagent, configured]
    dsimp only
    rw [decided]
    show (subagentTask py node (orEmpty decision.input) >>= _) = _
    rw [same]
    rfl

end Execute

section Sample

def answeringExecutor : Executor where
  model := "small"
  toolRegistry := { tools := .empty, callables := [] }
  maxSteps := 1

def answeredTask : SubagentTask where
  task := "Summarise"

def answeringReply : ModelResult where
  structured := some [("action", .str "final"), ("answer", .str "done")]

/-- Of one decision, which is final, the executor makes a success. -/
theorem answered_in_one_step :
    ∃ history result, history.length = 1 ∧ result.status = "success" ∧
      Played anyReply history (answeringExecutor.execute .onEmpty answeredTask 0) (pure result) ∧
      answeringExecutor.Confined .onEmpty answeredTask 0 history ∧
      answeringExecutor.Succeeds .onEmpty answeredTask 0 history := by
  obtain ⟨confined, succeeds, _⟩ := execute_confined .onEmpty answeringExecutor answeredTask 0
  have decides : answeringReply.Decides .onEmpty { action := .final, answer := some "done" } :=
    ⟨rfl, _, rfl, rfl⟩
  have behind : answeringExecutor.Succeeds .onEmpty answeredTask 0 _ :=
    ⟨⟨rfl, .inl rfl, by simp [answeredTask]⟩, .intro (.direct rfl) (by decide) decides rfl⟩
  obtain ⟨result, played, success⟩ := (succeeds _).mpr behind
  exact ⟨_, result, rfl, success, played, confined _ _ played, behind⟩

end Sample
end AgentRuntime
