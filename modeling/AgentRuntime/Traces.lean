import AgentRuntime.Library.Endings
import AgentRuntime.Confinement

/-! The events of an attempt. Each node emits a block: its start, a body and its end. A body is
given by the type of the node, and an exception, an interrupt or an invalid decision cuts it short.
What an attempt emits is a sequence of blocks between the start of the run and its last event. -/
namespace AgentRuntime
open Machines Programs Tables

/-- An emitted event. The events of the attempt itself have no node. -/
structure Emission where
  type : EventType
  node : Option NodeId := none
  payload : Dict := []

def emissions (history : List OpEntry) : List Emission :=
  history.filterMap fun entry =>
    match entry.op with
    | .emit type _ node payload => some ⟨type, some node, payload⟩
    | _ => none

/-- The emitter does not raise; any other operation may. -/
def Unreliable : Replies Op.Answer Raised
  | .emit .., .answered _ => True
  | .emit .., _ => False
  | _, .stopped => False
  | _, _ => True

/-- A program that returns has emitted events in `T`, and one that raises, events in `F`. -/
def Emits {α : Type} (p : GraphProg α) (T : List Emission → α → Prop)
    (F : List Emission → Prop) : Prop :=
  ∀ history, Ends Unreliable
    (fun after value => ∃ new, emissions after = emissions history ++ new ∧ T new value)
    (fun after _ => ∃ new, emissions after = emissions history ++ new ∧ F new) history p

namespace Emits
variable {α β : Type} {T T' : List Emission → α → Prop} {F F' : List Emission → Prop}

theorem pure {value : α} (returns : T [] value) : Emits (pure value) T F :=
  fun _ => ⟨[], (List.append_nil _).symm, returns⟩

theorem raise {error : Raised} (raises : F []) : Emits (.raise error : GraphProg α) T F :=
  fun _ => ⟨[], (List.append_nil _).symm, raises⟩

theorem emit {type : EventType} {runId : String} {node : NodeId} {payload : Dict}
    {T : List Emission → Unit → Prop} (returns : T [⟨type, some node, payload⟩] ()) :
    Emits (GraphProg.emit type runId node payload) T F := by
  intro history
  refine ⟨fun answer _ => ⟨_, ?_, returns⟩, fun error possible => possible.elim⟩
  simp [emissions]

theorem request {op : Op} {T : List Emission → op.Answer → Prop}
    (silent : ∀ type runId node payload, op ≠ .emit type runId node payload)
    (returns : ∀ answer, T [] answer) (raises : F []) :
    Emits (Prog.request op) T F := by
  intro history
  have same (reply : Reply Raised op.Answer) :
      emissions (history ++ [⟨op, reply⟩]) = emissions history ++ [] := by
    cases op with
    | emit type runId node payload => exact absurd rfl (silent type runId node payload)
    | _ => simp [emissions]
  exact ⟨fun answer _ => ⟨[], same _, returns answer⟩, fun error _ => ⟨[], same _, raises⟩⟩

theorem mono {p : GraphProg α} (returns : ∀ new value, T new value → T' new value)
    (raises : ∀ new, F new → F' new) (emits : Emits p T F) : Emits p T' F' :=
  fun history => (emits history).mono
    (fun _ value ⟨new, same, holds⟩ => ⟨new, same, returns new value holds⟩)
    fun _ _ ⟨new, same, holds⟩ => ⟨new, same, raises new holds⟩

theorem bind {p : GraphProg α} {f : α → GraphProg β} {S : List Emission → β → Prop}
    (first : Emits p T F')
    (rest : ∀ new value, T new value →
      Emits (f value) (fun more => S (new ++ more)) fun more => F (new ++ more))
    (raises : ∀ new, F' new → F new) : Emits (p >>= f) S F := by
  intro history
  refine .bind ((first history).mono ?_ ?_)
  · rintro after value ⟨new, same, holds⟩
    refine (rest new value holds after).mono ?_ ?_
    · rintro later result ⟨more, same', holds'⟩
      exact ⟨new ++ more, by rw [same', same, List.append_assoc], holds'⟩
    · rintro later error ⟨more, same', holds'⟩
      exact ⟨new ++ more, by rw [same', same, List.append_assoc], holds'⟩
  · rintro after error ⟨new, same, holds⟩
    exact ⟨new, same, raises new holds⟩

theorem ofExcept {result : Except ExecError α} (returns : ∀ value, T [] value) (raises : F []) :
    Emits (GraphProg.ofExcept result) T F := by
  cases result with
  | ok value => exact .pure (returns value)
  | error error => exact .raise raises

end Emits

/-- Programs that emit nothing. -/
abbrev Silent {α : Type} (p : GraphProg α) : Prop := Emits p (fun new _ => new = []) (· = [])

theorem silent_request {op : Op}
    (silent : ∀ type runId node payload, op ≠ .emit type runId node payload) :
    Silent (Prog.request op : GraphProg op.Answer) :=
  .request silent (fun _ => rfl) rfl

def Op.Quiet : Op → Prop
  | .emit .. => False
  | _ => True

theorem silent_of_within {α : Type} {p : GraphProg α} (quiet : Within Op.Quiet p) : Silent p := by
  induction p with
  | pure value => exact .pure rfl
  | raise error => exact .raise rfl
  | ask op next ih =>
      obtain ⟨asks, rest⟩ := quiet.next
      have first : Silent (Prog.request op : GraphProg op.Answer) := by
        refine silent_request fun type runId node payload same => ?_
        rw [same] at asks
        exact asks
      refine Emits.bind (f := next) first (fun new answer same => ?_) fun _ same => same
      subst same
      exact ih answer (rest answer)

namespace Emits
variable {α β : Type} {S : List Emission → β → Prop} {F : List Emission → Prop}

theorem silently {p : GraphProg α} {f : α → GraphProg β} (first : Silent p)
    (rest : ∀ value, Emits (f value) S F) (raises : F []) : Emits (p >>= f) S F := by
  refine .bind first ?_ ?_
  · rintro new value rfl
    exact rest value
  · rintro new rfl
    exact raises

theorem computed {result : Except ExecError α} {f : α → GraphProg β}
    (rest : ∀ value, Emits (f value) S F) (raises : F []) :
    Emits (GraphProg.ofExcept result >>= f) S F :=
  .silently (.ofExcept (fun _ => rfl) rfl) rest raises

theorem behind {type : EventType} {runId : String} {node : NodeId} {payload : Dict}
    {f : Unit → GraphProg β}
    (rest : Emits (f ()) (fun more => S (⟨type, some node, payload⟩ :: more))
      fun more => F (⟨type, some node, payload⟩ :: more)) :
    Emits (GraphProg.emit type runId node payload >>= f) S F := by
  have first : Emits (GraphProg.emit type runId node payload)
      (fun new _ => new = [⟨type, some node, payload⟩]) fun _ => False := .emit rfl
  refine .bind first ?_ fun _ never => never.elim
  rintro new _ rfl
  exact rest

end Emits

section Grammar

/-- The events around what a capability runs. -/
def NodeType.bracket : NodeType → Option (EventType × EventType)
  | .tool => some (.toolStarted, .toolCompleted)
  | .rag => some (.ragStarted, .ragCompleted)
  | .subagent => some (.subagentStarted, .subagentCompleted)
  | .llm | .supervisor | .approval | .transform => none

def NodeDef.event (node : NodeDef) (type : EventType) (payload : Dict := []) : Emission :=
  ⟨type, some node.id, payload⟩

/-- The events of a node that asks a model name the call. -/
structure NodeDef.Calls (node : NodeDef) (first second : Dict) : Prop where
  kind : node.type = .llm ∨ node.type = .supervisor
  named : ∃ id, first.get? "call_id" = some id ∧ second.get? "call_id" = some id

/-- What a node emits between its start and its end. -/
inductive NodeDef.Body (node : NodeDef) : List Emission → Prop
  | silent : node.type = .transform ∨ node.type = .approval → Body node []
  | completed {call done} : node.Calls call done →
      Body node [node.event .llmRequested call, node.event .llmCompleted done]
  | fallback {call other done} : node.Calls call other → node.Calls call done →
      Body node [node.event .llmRequested call, node.event .llmFallback other,
        node.event .llmCompleted done]
  | bracket {start finish} (first last : Dict) : node.type.bracket = some (start, finish) →
      Body node [node.event start first, node.event finish last]

/-- What a node emits behind its start when it does not return. -/
inductive NodeDef.CutBody (node : NodeDef) : List Emission → Prop
  | start {body cut} : node.Body body → cut <+: body → CutBody node cut
  | failed {call failure} : node.Calls call failure →
      CutBody node [node.event .llmRequested call, node.event .llmFailed failure]

/-- The events of nodes that returned, one after the other. -/
inductive Blocks (graph : CompiledGraph) : List Emission → Prop
  | nil : Blocks graph []
  | cons {node body rest} : graph.nodeMap.find? node.id = some node → node.Body body →
      Blocks graph rest →
      Blocks graph (node.event .nodeStarted :: body ++ node.event .nodeCompleted :: rest)

/-- Nothing, or a block that was cut short. -/
inductive Cut (graph : CompiledGraph) : List Emission → Prop
  | nothing : Cut graph []
  | block {node body} : graph.nodeMap.find? node.id = some node → node.CutBody body →
      Cut graph (node.event .nodeStarted :: body)

end Grammar

section Nodes
variable {py : Builtins} {graph : CompiledGraph} {deps : RuntimeDependencies} {runId : String}
  {node : NodeDef} {state : GraphState} {α : Type}

theorem listOf_silent (value : Json) : Silent (listOf value) := silent_of_within (listOf_within _)

theorem appending_silent (name : String) (result : Json) : Silent (state.appending name result) :=
  silent_of_within (appending_within _ _)

theorem checkCancelled_silent : Silent (checkCancelled deps runId node) := by
  unfold checkCancelled
  split
  · refine .silently (silent_request (by simp)) (fun cancelled => ?_) rfl
    split
    · exact .raise rfl
    · exact .pure rfl
  · exact .pure rfl

/-- A model call starts with its request. -/
theorem askModel_emits (messages : List Dict) (schema : Option ResponseSchema) :
    Emits (askModel py deps runId node messages schema)
      (fun new asked => new = [node.event .llmRequested asked.1] ∧
        ∃ id, asked.1.get? "call_id" = some id)
      fun new => new = [] ∨ ∃ call : Dict, new = [node.event .llmRequested call] ∧
        ∃ id, call.get? "call_id" = some id := by
  refine .silently (silent_request (by simp)) (fun nonce => .behind ?_) (.inl rfl)
  unfold GraphProg.complete
  split
  next name same =>
    refine .silently (silent_request (by simp)) (fun result => ?_) (.inr ⟨_, rfl, _, rfl⟩)
    exact .pure ⟨rfl, _, rfl⟩
  next => exact .raise (.inr ⟨_, rfl, _, rfl⟩)

/-- The events behind a request repeat what it says. -/
theorem NodeDef.Calls.kept {call : Dict} {id : Json}
    (kind : node.type = .llm ∨ node.type = .supervisor) (named : call.get? "call_id" = some id)
    (more : Dict) : node.Calls call (call ++ more) := by
  refine ⟨kind, id, named, ?_⟩
  obtain ⟨field, found, same⟩ := Option.map_eq_some_iff.mp named
  rw [Dict.get?, List.find?_append, found]
  exact congrArg some same

theorem emitLlmDone_emits (call : Dict) (result : ModelResult) {id : Json}
    (kind : node.type = .llm ∨ node.type = .supervisor) (named : call.get? "call_id" = some id) :
    Emits (emitLlmDone runId node call result)
      (fun new _ => node.Body (node.event .llmRequested call :: new)) fun _ => False := by
  unfold emitLlmDone
  dsimp only
  split
  · exact .behind (.emit (.fallback (.kept kind named _) (.kept kind named _)))
  · exact .emit (.completed (.kept kind named _))

theorem failModel_emits {T : List Emission → α → Prop} (call : Dict)
    (error : Option NormalizedError) (message : String) (category : ErrorCategory)
    (recoverable : Bool) {id : Json} (kind : node.type = .llm ∨ node.type = .supervisor)
    (named : call.get? "call_id" = some id) :
    Emits (failModel runId node call error message category recoverable) T
      fun new => node.CutBody (node.event .llmRequested call :: new) :=
  .behind (.raise (.failed (.kept kind named _)))

/-- A call that is not answered leaves at most its request behind. -/
theorem asked_cut (kind : node.type = .llm ∨ node.type = .supervisor) (new : List Emission)
    (asked : new = [] ∨ ∃ call : Dict, new = [node.event .llmRequested call] ∧
      ∃ id, call.get? "call_id" = some id) : node.CutBody new := by
  rcases asked with rfl | ⟨call, rfl, id, named⟩
  · have named : Dict.get? [("call_id", .null)] "call_id" = some .null := rfl
    exact .start (.completed (.kept kind named [])) List.nil_prefix
  · exact .start (.completed (.kept kind named [])) ⟨[_], rfl⟩

theorem runLlm_emits (kind : node.type = .llm) :
    Emits (runLlm py deps runId node state) (fun new _ => node.Body new) node.CutBody := by
  refine .bind (askModel_emits _ _) ?_ (asked_cut (.inl kind))
  rintro new ⟨call, result⟩ ⟨rfl, id, named⟩
  dsimp only
  split
  · refine .bind (emitLlmDone_emits call result (.inl kind) named) ?_ fun _ never => never.elim
    intro more _ body
    exact .pure (by rwa [List.append_nil])
  · exact failModel_emits call _ _ _ _ (.inl kind) named

theorem runSupervisor_emits (kind : node.type = .supervisor) :
    Emits (runSupervisor py deps runId node graph state) (fun new _ => node.Body new)
      node.CutBody := by
  refine .bind (askModel_emits _ _) ?_ (asked_cut (.inr kind))
  rintro new ⟨call, result⟩ ⟨rfl, id, named⟩
  dsimp only
  split
  · refine .bind (emitLlmDone_emits call result (.inr kind) named) ?_ fun _ never => never.elim
    intro more _ body
    -- an invalid decision raises behind the completed call
    have cut : node.CutBody ([node.event .llmRequested call] ++ (more ++ [])) :=
      .start body (by simp)
    refine .computed (fun decision => .computed (fun _ => .pure ?_) cut) cut
    rwa [List.append_nil]
  · exact failModel_emits call _ _ _ _ (.inr kind) named

theorem callTool_silent {registry : ToolRegistry} {name : Json} {arguments : Dict} :
    Silent (callTool py deps runId node registry name arguments) := by
  have called : Silent (registry.ainvoke py .toolNode name arguments) :=
    silent_of_within (ainvoke_within fun _ _ => trivial)
  have gate (action : String) (toolName : Option String) :
      Silent (requireApproval py deps runId node action toolName arguments) :=
    silent_of_within (requireApproval_within trivial (fun _ => trivial) (fun _ => trivial) _ _ _)
  unfold callTool
  split
  · refine .silently (gate _ _) (fun ⟨decided, _, _⟩ => ?_) rfl
    dsimp only
    split
    · exact called
    · exact .pure rfl
  · exact called

/-- A capability that does not return leaves at most its start behind. -/
theorem bracket_cut {start finish : EventType} {cut : List Emission} (first last : Dict)
    (kind : node.type.bracket = some (start, finish))
    (begun : cut <+: [node.event start first, node.event finish last]) : node.CutBody cut :=
  .start (.bracket first last kind) begun

/-- What runs between the two events of a capability emits nothing, and so does what follows. -/
theorem bracket_emits {start finish : EventType} {p : GraphProg α} {first : Dict}
    {last : α → Dict} {rest : α → GraphProg GraphState}
    (kind : node.type.bracket = some (start, finish)) (runs : Silent p)
    (appends : ∀ value, Silent (rest value)) :
    Emits (do
      GraphProg.emit start runId node.id first
      let value ← p
      GraphProg.emit finish runId node.id (last value)
      rest value) (fun new _ => node.Body new) node.CutBody := by
  refine .behind (.silently runs (fun value => .behind ?_) ?_)
  · refine (appends value).mono ?_ ?_
    · rintro new patch rfl
      exact .bracket first (last value) kind
    · rintro new rfl
      exact bracket_cut first (last value) kind (List.prefix_refl _)
  · exact bracket_cut first [] kind ⟨[_], rfl⟩

theorem runTool_emits (kind : node.type = .tool) :
    Emits (runTool py deps runId node state) (fun new _ => node.Body new) node.CutBody := by
  have bracket : node.type.bracket = some (.toolStarted, .toolCompleted) := by rw [kind]; rfl
  have cut : node.CutBody [] := bracket_cut [] [] bracket List.nil_prefix
  unfold runTool
  split
  next => exact .raise cut
  next registry _ =>
    refine .computed (fun decision => ?_) cut
    dsimp only
    split
    · exact .raise cut
    · exact bracket_emits bracket callTool_silent fun result => appending_silent _ _

theorem runRag_emits (kind : node.type = .rag) :
    Emits (runRag py deps runId node state) (fun new _ => node.Body new) node.CutBody := by
  have bracket : node.type.bracket = some (.ragStarted, .ragCompleted) := by rw [kind]; rfl
  have cut : node.CutBody [] := bracket_cut [] [] bracket List.nil_prefix
  unfold runRag
  split
  · exact .raise cut
  · refine .computed (fun decision => ?_) cut
    exact bracket_emits bracket (silent_request (by simp)) fun result => appending_silent _ _

theorem runSubagent_emits (kind : node.type = .subagent) :
    Emits (runSubagent py deps runId node state) (fun new _ => node.Body new) node.CutBody := by
  have bracket : node.type.bracket = some (.subagentStarted, .subagentCompleted) := by
    rw [kind]; rfl
  have cut : node.CutBody [] := bracket_cut [] [] bracket List.nil_prefix
  unfold runSubagent
  split
  next => exact .raise cut
  next executor _ =>
    refine .computed (fun decision => .silently ?_ (fun task => ?_) cut) cut
    · exact .silently (listOf_silent _) (fun _ => .silently (listOf_silent _)
        (fun _ => .pure rfl) rfl) rfl
    · refine bracket_emits bracket (silent_of_within ?_) fun result => appending_silent _ _
      refine (execute_within 0).mono fun op sent => ?_
      cases op with
      | emit => exact sent.elim
      | _ => trivial

theorem runApproval_silent : Silent (runApproval py deps runId node state) := by
  unfold runApproval
  split
  · exact .raise rfl
  · refine .computed (fun decision => .silently ?_ (fun toolName => ?_) rfl) rfl
    · unfold textColumn
      split
      · exact .pure rfl
      · exact .pure rfl
      · exact .raise rfl
    · refine .silently (silent_of_within ?_) (fun _ => appending_silent _ _) rfl
      exact requireApproval_within trivial (fun _ => trivial) (fun _ => trivial) _ _ _

/-- What a node emits is its body, or a body that was cut short. -/
theorem runNode_emits :
    Emits (runNode py graph deps runId node state) (fun new _ => node.Body new) node.CutBody := by
  have quiet (kind : node.type = .transform ∨ node.type = .approval) {p : GraphProg GraphState}
      (silent : Silent p) : Emits p (fun new _ => node.Body new) node.CutBody := by
    refine silent.mono ?_ ?_
    · rintro new patch rfl
      exact .silent kind
    · rintro new rfl
      exact .start (.silent kind) (List.prefix_refl _)
  unfold runNode
  split
  next kind => exact runLlm_emits kind
  next kind => exact runSupervisor_emits kind
  next kind => exact quiet (.inl kind) (.ofExcept (fun _ => rfl) rfl)
  next kind => exact runTool_emits kind
  next kind => exact runRag_emits kind
  next kind => exact runSubagent_emits kind
  next kind => exact quiet (.inr kind) runApproval_silent

/-- A node emits its block, or it does not return and the block is cut short. -/
theorem makeNode_emits (found : graph.nodeMap.find? node.id = some node) :
    Emits (makeNode py graph deps node state)
      (fun new _ => ∃ body, node.Body body ∧
        new = node.event .nodeStarted :: body ++ [node.event .nodeCompleted])
      (Cut graph) := by
  refine .silently checkCancelled_silent (fun _ => .behind ?_) .nothing
  refine .bind runNode_emits ?_ fun new cut => .block found cut
  intro body patch complete
  exact .behind (.pure ⟨body, complete, by simp [NodeDef.event]⟩)

theorem Blocks.append {first second : List Emission} (blocks : Blocks graph first)
    (more : Blocks graph second) : Blocks graph (first ++ second) := by
  induction blocks with
  | nil => exact more
  | cons found body _ ih =>
      rw [List.append_assoc, List.cons_append]
      exact .cons found body ih

/-- The course of a graph emits blocks, and a cut block where it raises. -/
theorem drive_emits (remaining : Nat) (state : GraphState) (next : Option NodeId) :
    Emits (graph.drive py deps remaining state next) (fun new _ => Blocks graph new)
      fun new => ∃ blocks cut, Blocks graph blocks ∧ Cut graph cut ∧ new = blocks ++ cut := by
  induction remaining generalizing state next with
  | zero => exact .raise ⟨[], [], .nil, .nothing, rfl⟩
  | succ remaining ih =>
      cases next with
      | none => exact .pure .nil
      | some id =>
          unfold CompiledGraph.drive
          split
          next => exact .raise ⟨[], [], .nil, .nothing, rfl⟩
          next node found =>
            have own : node.id = id := Table.key_of_find? found
            subst own
            refine .bind (makeNode_emits found) ?_ fun cut short => ⟨[], cut, .nil, short, rfl⟩
            rintro new patch ⟨body, complete, rfl⟩
            have block : Blocks graph
                (node.event .nodeStarted :: body ++ [node.event .nodeCompleted]) :=
              .cons found complete .nil
            -- the edge or the checkpoint may still raise behind the whole block
            have ended : ∃ blocks cut, Blocks graph blocks ∧ Cut graph cut ∧
                (node.event .nodeStarted :: body ++ [node.event .nodeCompleted]) ++ [] =
                  blocks ++ cut := ⟨_, [], block, .nothing, rfl⟩
            refine .computed
              (fun target => .silently (silent_request (by simp)) (fun _ => ?_) ended) ended
            refine (ih _ target).mono (fun rest _ more => block.append more) ?_
            rintro rest ⟨blocks, cut, more, short, rfl⟩
            exact ⟨_, cut, block.append more, short, (List.append_assoc _ _ _).symm⟩

end Nodes

section Attempts

/-- `emitter.emit(type, run_id)`. -/
def runEvent (type : EventType) (payload : Dict := []) : Emission := ⟨type, none, payload⟩

def attemptFailed (error : ExecError) : Emission :=
  runEvent .runAttemptFailed
    [("error", .ofText (classifyFailure error).error),
      ("termination_reason", .str (classifyFailure error).terminationReason)]

/-- The last event of an attempt, from the end of its program. -/
def lastEvent : GraphProg GraphState → Option Emission
  | .pure _ => some (runEvent .runCompleted [("termination_reason", .str "supervisor_final")])
  | .raise (.interrupt raised) =>
      some (runEvent .approvalRequired [("interrupts", .arr [.obj raised.payload])])
  | .raise (.error error) => some (attemptFailed error)
  | .ask .. => none

def startEvents (started : Bool) : List Emission :=
  if started then [] else [runEvent .runStarted]

/-- What the `try` block of `execute_run_sync` and its handlers emit. -/
inductive Attempted (py : Builtins) (graph : CompiledGraph) (deps : RuntimeDependencies) :
    List Emission → Prop
  /-- `has_event` raises. -/
  | unread (error : ExecError) : Attempted py graph deps [attemptFailed error]
  /-- The checkpointer, `compile_langgraph` or the entry into the thread raises. -/
  | unopened (started : Bool) (error : ExecError) :
      Attempted py graph deps (startEvents started ++ [attemptFailed error])
  | ran (started : Bool) (accepted : graph.compileLanggraph.isOk = true)
      {runId limit stored history p last} :
      Played Unreliable history
        (RunState.course ⟨py, runId, ⟨graph, accepted⟩, deps⟩ limit stored) p →
      lastEvent p = some last →
      Attempted py graph deps (startEvents started ++ emissions history ++ [last])
  /-- The program has ended, and the checkpointer raises as it is closed. -/
  | unclosed (started : Bool) (accepted : graph.compileLanggraph.isOk = true)
      {runId limit stored history p} (error : ExecError) :
      Played Unreliable history
        (RunState.course ⟨py, runId, ⟨graph, accepted⟩, deps⟩ limit stored) p →
      lastEvent p ≠ none →
      Attempted py graph deps (startEvents started ++ emissions history ++ [attemptFailed error])

/-- The grammar of an attempt. -/
def Traced (graph : CompiledGraph) (events : List Emission) : Prop :=
  ∃ start blocks cut last, events = start ++ blocks ++ cut ++ [last] ∧
    (start = [] ∨ start = [runEvent .runStarted]) ∧ Blocks graph blocks ∧ Cut graph cut ∧
    last.node = none ∧ (last.type = .runCompleted ∧ cut = [] ∨ last.type = .approvalRequired ∨
      last.type = .runAttemptFailed)

variable {py : Builtins} {graph : CompiledGraph} {deps : RuntimeDependencies}
  {events : List Emission}

/-- Up to where a course of the graph is played, its nodes have emitted blocks; one that has ended
has cut at most the last of them short. -/
theorem course_emitted {c : RunConfig} {limit : Nat} {stored : Checkpoint}
    {history : List OpEntry} {p : GraphProg GraphState}
    (played : Played Unreliable history (RunState.course c limit stored) p) (ended : lastEvent p ≠ none) :
    ∃ blocks cut, emissions history = blocks ++ cut ∧ Blocks c.program.definition blocks ∧
      Cut c.program.definition cut ∧ ∀ state, p = pure state → cut = [] := by
  have emits : Emits (RunState.course c limit stored)
      (fun new _ => Blocks c.program.definition new)
      fun new => ∃ blocks cut, Blocks c.program.definition blocks ∧
        Cut c.program.definition cut ∧ new = blocks ++ cut := drive_emits _ _ _
  have there := (emits []).played played
  cases p with
  | pure state =>
      obtain ⟨new, same, blocks⟩ := there
      exact ⟨new, [], by simpa [emissions] using same, blocks, .nothing, fun _ _ => rfl⟩
  | raise error =>
      obtain ⟨new, same, blocks, cut, blocks', cut', rfl⟩ := there
      refine ⟨blocks, cut, by simpa [emissions] using same, blocks', cut', fun state same => ?_⟩
      contradiction
  | ask => exact absurd rfl ended

/-- What an attempt emits is a run.started at most, the blocks of nodes, at most one block that was
cut short, and the last event of the attempt. -/
theorem attempt_traced (attempt : Attempted py graph deps events) : Traced graph events := by
  have start (started : Bool) :
      startEvents started = [] ∨ startEvents started = [runEvent .runStarted] := by
    cases started with
    | true => exact .inl rfl
    | false => exact .inr rfl
  cases attempt with
  | unread error =>
      exact ⟨[], [], [], _, rfl, .inl rfl, .nil, .nothing, rfl, .inr (.inr rfl)⟩
  | unopened started error =>
      exact ⟨_, [], [], attemptFailed error, by simp, start started, .nil, .nothing, rfl,
        .inr (.inr rfl)⟩
  | @ran started accepted runId limit stored history p last played ends =>
      obtain ⟨blocks, cut, same, blocks', cut', returns⟩ :=
        course_emitted played (by simp [ends])
      refine ⟨_, blocks, cut, last, ?_, start started, blocks', cut', ?_⟩
      · simp only [same, List.append_assoc]
      · cases p with
        | pure state =>
            cases ends
            exact ⟨rfl, .inl ⟨rfl, returns state rfl⟩⟩
        | ask => contradiction
        | raise error =>
            cases error with
            | error error =>
                cases ends
                exact ⟨rfl, .inr (.inr rfl)⟩
            | interrupt raised =>
                cases ends
                exact ⟨rfl, .inr (.inl rfl)⟩
  | @unclosed started accepted runId limit stored history p error played ended =>
      obtain ⟨blocks, cut, same, blocks', cut', _⟩ := course_emitted played ended
      refine ⟨_, blocks, cut, attemptFailed error, ?_, start started, blocks', cut', rfl,
        .inr (.inr rfl)⟩
      simp only [same, List.append_assoc]

/-- The program of the current execution has been played from the course of a checkpoint. -/
structure InPlay (c : RunConfig) (s : RunState) : Prop where
  ready : ∀ e, s.current = some e → e.program = none → e.history = []
  played : ∀ e p, s.current = some e → e.program = some p →
    (∃ error, p = .raise (.error error) ∧ e.history = []) ∨
      ∃ limit stored, Played Unreliable e.history (RunState.course c limit stored) p

theorem inPlay_inductive (c : RunConfig) : Inductive (executions c) anyStep (InPlay c) where
  init s first := by
    obtain ⟨_, current, _⟩ := first
    constructor <;> simp [current]
  step s a t inPlay _ stepped := by
    cases RunState.step_sound stepped with
    | transact other => exact ⟨inPlay.ready, inPlay.played⟩
    | enter idle admitted stored =>
        constructor
        · intro e current _
          cases current
          rfl
        · intro e p current program
          cases current
          contradiction
    | stay idle => exact inPlay
    | @launch e current ready =>
        have empty := inPlay.ready e current ready
        obtain ⟨p, answer, after, _, _, _, _⟩ := s.launch_cases c e
        constructor
        · intro f same none
          cases after.symm.trans same
          contradiction
        · intro f q same program
          unfold RunState.launch at same
          split at same
          all_goals
            cases same
            cases program
            rw [empty]
          · exact .inr ⟨_, _, .refl _⟩
          · exact .inr ⟨_, _, .refl _⟩
          · exact .inl ⟨_, rfl, rfl⟩
    | @reply services e op next current asks =>
        constructor
        · intro f same none
          cases same
          contradiction
        · intro f p same program
          cases same
          cases program
          rcases inPlay.played e _ current asks with ⟨error, raised, _⟩ | ⟨limit, stored, played⟩
          · contradiction
          · refine .inr ⟨limit, stored, played.snoc _ ?_⟩
            cases op with
            | emit => trivial
            | _ => cases services.reply c.py s.db e.answer _ <;> trivial
    | finish | crash => constructor <;> intros <;> contradiction

/-- The executions of a run make such attempts. -/
theorem executions_attempted {c : RunConfig} {s : RunState}
    (reached : Reachable (executions c) anyStep s) {e : Execution} {p : GraphProg GraphState}
    {last : Emission} (current : s.current = some e) (program : e.program = some p)
    (ends : lastEvent p = some last) (started : Bool) :
    Attempted c.py c.program.definition c.deps
      (startEvents started ++ emissions e.history ++ [last]) := by
  rcases ((inPlay_inductive c).reachable reached).played e p current program with
    ⟨error, rfl, empty⟩ | ⟨limit, stored, played⟩
  · cases ends
    rw [empty]
    simpa [emissions] using Attempted.unopened started error
  · exact .ran started c.program.accepted played ends

end Attempts

section Sample

/-- A retriever that raises cuts the block of its node short. -/
theorem handbook_attempt_traced : ∃ events,
    Traced handbookRun.program.definition events ∧ events.map Emission.type =
      [.runStarted, .nodeStarted, .llmRequested, .llmCompleted, .nodeCompleted, .nodeStarted,
        .ragStarted, .runAttemptFailed] := by
  obtain ⟨s, run, found⟩ := Run.of_test (M := executions handbookRun) handbookRun.created
    (sampleRetrieval none ++ [.reply { fault := some (.rag "unreachable") }])
    (fun s => (s.current.bind fun e => (e.program.bind lastEvent).map fun last =>
      (startEvents false ++ emissions e.history ++ [last]).map Emission.type) =
        some [.runStarted, .nodeStarted, .llmRequested, .llmCompleted, .nodeCompleted,
          .nodeStarted, .ragStarted, .runAttemptFailed]) (by decide +kernel)
  obtain ⟨e, current, rest⟩ := Option.bind_eq_some_iff.mp found
  obtain ⟨last, ended, types⟩ := Option.map_eq_some_iff.mp rest
  obtain ⟨p, program, ends⟩ := Option.bind_eq_some_iff.mp ended
  have reached := (Reachable.start handbookRun.created_initial).run run
  exact ⟨_, attempt_traced (executions_attempted reached current program ends false), types⟩

end Sample
end AgentRuntime
