import AgentRuntime.Executions
import AgentRuntime.Patches

/-! The supersteps of a graph. A turn runs one node from a checkpoint to its end and leads to the
next checkpoint; a course is a sequence of turns. The executions of a run, with their crashes,
retries and resumptions, store nothing but the checkpoints of courses. -/
namespace AgentRuntime
open Machines Programs Tables

/-- The node that is next in a checkpoint returns a patch, and the edge behind it is followed. -/
structure Turn (c : RunConfig) where
  state : GraphState
  node : NodeDef
  history : List OpEntry
  patch : GraphState
  target : Option NodeId
  found : c.program.definition.nodeMap.find? node.id = some node
  returned : Answered history (makeNode c.py c.program.definition c.deps node state) (pure patch)
  leads : c.program.definition.next c.py node (state.merge patch) = .ok target

namespace Turn
variable {c : RunConfig}

def source (turn : Turn c) : Checkpoint := ⟨turn.state, some turn.node.id⟩

def after (turn : Turn c) : Checkpoint := ⟨turn.state.merge turn.patch, turn.target⟩

theorem writes (turn : Turn c) :
    Writes c.py c.program.definition turn.node turn.state turn.history turn.patch :=
  wp_returned makeNode_writes turn.returned

end Turn

inductive Course (c : RunConfig) : Checkpoint → List (Turn c) → Checkpoint → Prop
  | nil (s) : Course c s [] s
  | cons (turn : Turn c) {turns t} : Course c turn.after turns t →
      Course c turn.source (turn :: turns) t

namespace Course
variable {c : RunConfig} {s t : Checkpoint} {turns : List (Turn c)}

theorem single {turn : Turn c} (source : turn.source = s) (after : turn.after = t) :
    Course c s [turn] t := by
  subst source after
  exact .cons turn (.nil _)

theorem append {u : Checkpoint} {more : List (Turn c)} (first : Course c s turns t)
    (second : Course c t more u) : Course c s (turns ++ more) u := by
  induction first with
  | nil => exact second
  | cons turn _ ih => exact .cons turn (ih second)

theorem split {before rest : List (Turn c)} {turn : Turn c}
    (course : Course c s (before ++ turn :: rest) t) :
    Course c s before turn.source ∧ Course c turn.after rest t := by
  induction before generalizing s with
  | nil =>
      cases course with
      | cons _ rest => exact ⟨.nil _, rest⟩
  | cons first before ih =>
      cases course with
      | cons _ later =>
          obtain ⟨left, right⟩ := ih later
          exact ⟨.cons first left, right⟩

/-- What every turn preserves holds at the end of a course. -/
theorem invariant {I : Checkpoint → Prop}
    (preserved : ∀ turn : Turn c, I turn.source → I turn.after)
    (course : Course c s turns t) (holds : I s) : I t := by
  induction course with
  | nil => exact holds
  | cons turn _ ih => exact ih (preserved turn holds)

end Course

/-- The checkpoints of a thread: an input is merged into what is stored, and a turn leads from one
to the next. -/
inductive Threaded (c : RunConfig) : Checkpoint → Prop
  | input (stored : Option Checkpoint) (text : String) :
      (∀ before, stored = some before → Threaded c before) →
      Threaded c (RunState.input c stored text)
  | turn (turn : Turn c) : Threaded c turn.source → Threaded c turn.after

/-- From the checkpoint its next node comes to ask the operation. -/
def Checkpoint.Asks (c : RunConfig) (stored : Checkpoint) (node : NodeDef) (op : Op) : Prop :=
  stored.next = some node.id ∧ c.program.definition.nodeMap.find? node.id = some node ∧
    ∃ history next, Answered history
      (makeNode c.py c.program.definition c.deps node stored.state) (.ask op next)

/-- What a node asks is asked by its rule. -/
theorem Checkpoint.Asks.obeys {c : RunConfig} {stored : Checkpoint} {node : NodeDef} {op : Op}
    {P : List OpEntry → Op → Prop} {Q : List OpEntry → GraphState → Prop}
    (asks : stored.Asks c node op)
    (rule : wp P Q [] (makeNode c.py c.program.definition c.deps node stored.state)) :
    ∃ history, P history op := by
  obtain ⟨_, _, history, next, answered⟩ := asks
  exact ⟨_, (wp_answered rule answered).1⟩

/-- The operations of courses: a checkpoint of the thread is stored, and any other operation is
asked by the node that is next in one. -/
def Coursed (c : RunConfig) (_ : List OpEntry) : Op → Prop
  | .checkpoint stored => Threaded c stored
  | op => ∃ stored node, Threaded c stored ∧ stored.Asks c node op

/-- The rest of a superstep behind the node. -/
def CompiledGraph.settle (py : Builtins) (graph : CompiledGraph) (deps : RuntimeDependencies)
    (remaining : Nat) (state : GraphState) (node : NodeDef) (patch : GraphState) :
    GraphProg GraphState := do
  let merged := state.merge patch
  let target ← GraphProg.ofExcept (graph.next py node merged)
  let _ : Unit ← Prog.request (Op.checkpoint ⟨merged, target⟩)
  graph.drive py deps remaining merged target

/-- The program has come to stand in the superstep from the checkpoint, or has ended there. -/
inductive Working (c : RunConfig) (stored : Checkpoint) : GraphProg GraphState → Prop
  | node {node history q} (remaining : Nat) : stored.next = some node.id →
      c.program.definition.nodeMap.find? node.id = some node →
      Answered history (makeNode c.py c.program.definition c.deps node stored.state) q →
      Working c stored
        (q >>= c.program.definition.settle c.py c.deps remaining stored.state node)
  | returned (state) : Working c stored (pure state)
  | raised (error) : Working c stored (.raise error)

namespace Working
variable {c : RunConfig} {stored : Checkpoint}

theorem course (limit : Nat) (stored : Checkpoint) :
    Working c stored (RunState.course c limit stored) := by
  obtain ⟨state, next⟩ := stored
  unfold RunState.course
  cases limit with
  | zero => exact .raised _
  | succ remaining =>
      cases next with
      | none => exact .returned _
      | some id =>
          unfold CompiledGraph.drive
          split
          next => exact .raised _
          next node found =>
            have own : node.id = id := Table.key_of_find? found
            subst own
            exact .node remaining rfl found (.refl _)

/-- The node asks, and the rest of the superstep is behind what it goes on with; or a checkpoint
is written, and the next superstep follows. -/
theorem inside {op : Op} {next : op.Answer → GraphProg GraphState}
    (working : Working c stored (.ask op next)) :
    (∃ (node : NodeDef) (remaining : Nat) (history : List OpEntry)
        (rest : op.Answer → GraphProg GraphState), stored.next = some node.id ∧
      c.program.definition.nodeMap.find? node.id = some node ∧
      Answered history (makeNode c.py c.program.definition c.deps node stored.state)
        (.ask op rest) ∧
      next = fun answer =>
        rest answer >>= c.program.definition.settle c.py c.deps remaining stored.state node) ∨
      ∃ written, op = .checkpoint written ∧ ∀ answer, Working c written (next answer) := by
  generalize same : Prog.ask op next = p at working
  cases working with
  | returned | raised => contradiction
  | @node node history q remaining entry found answered =>
      cases q with
      | raise error => contradiction
      | ask own rest =>
          cases same
          exact .inl ⟨node, remaining, history, rest, entry, found, answered, rfl⟩
      | pure patch =>
          change _ = c.program.definition.settle c.py c.deps remaining stored.state node patch
            at same
          unfold CompiledGraph.settle at same
          dsimp only at same
          cases leads : c.program.definition.next c.py node (stored.state.merge patch) with
          | error error =>
              rw [leads] at same
              contradiction
          | ok target =>
              rw [leads] at same
              cases same
              exact .inr ⟨_, rfl, fun _ => course remaining ⟨stored.state.merge patch, target⟩⟩

/-- An answer leads on in the superstep, and behind a checkpoint into the next one. -/
theorem asked {op : Op} {next : op.Answer → GraphProg GraphState}
    (working : Working c stored (.ask op next)) :
    (∃ node, stored.Asks c node op ∧ ∀ answer, Working c stored (next answer)) ∨
      ∃ written, op = .checkpoint written ∧ ∀ answer, Working c written (next answer) := by
  rcases working.inside with ⟨node, remaining, history, rest, entry, found, answered, rfl⟩ | writes
  · refine .inl ⟨node, ⟨entry, found, history, rest, answered⟩, fun answer => ?_⟩
    exact .node remaining entry found (answered.snoc answer)
  · exact .inr writes

/-- Whatever is answered, the nodes of a course ask. -/
theorem asks {p : GraphProg GraphState} (working : Working c stored p) :
    Within (fun op => (∃ written, op = .checkpoint written) ∨
      ∃ (stored : Checkpoint) (node : NodeDef), stored.Asks c node op) p := by
  intro history
  induction p generalizing stored history with
  | pure | raise => trivial
  | ask op next ih =>
      rcases working.asked with ⟨node, asked, rest⟩ | ⟨written, same, rest⟩
      · exact ⟨.inr ⟨stored, node, asked⟩, fun answer => ih answer (rest answer) _⟩
      · exact ⟨.inl ⟨written, same⟩, fun answer => ih answer (rest answer) _⟩

end Working

/-- The program of the current execution works in the superstep from the stored checkpoint. -/
def AtWork (c : RunConfig) (s : RunState) : Prop :=
  ∀ e p, s.current = some e → e.program = some p →
    (∃ error, p = .raise error) ∨ ∃ stored, s.thread = some stored ∧ Working c stored p

theorem AtWork.step {c : RunConfig} {s t : RunState} {a : RunAction} (work : AtWork c s)
    (stepped : RunStep c s a t) : AtWork c t := by
  cases stepped with
  | transact other => exact work
  | enter idle admitted stored =>
      intro e p current program
      cases current
      contradiction
  | stay idle => exact work
  | @launch e current ready =>
      intro f p current' program
      unfold RunState.launch at current' ⊢
      split at current'
      next =>
        cases current'
        cases program
        exact .inr ⟨_, rfl, .course _ _⟩
      next value stored _ found =>
        cases current'
        cases program
        exact .inr ⟨stored, found, .course _ _⟩
      next =>
        cases current'
        cases program
        exact .inl ⟨_, rfl⟩
  | @reply services e op next current asks =>
      intro f p current' program
      cases current'
      cases program
      rcases work e _ current asks with ⟨error, raised⟩ | ⟨stored, found, working⟩
      · contradiction
      · cases replied : services.reply c.py s.db e.answer op with
        | error error => exact .inl ⟨error, rfl⟩
        | ok answer =>
            refine .inr ?_
            rcases working.asked with ⟨node, asked, rest⟩ | ⟨written, rfl, rest⟩
            · refine ⟨stored, ?_, rest answer⟩
              cases op with
              | checkpoint written => exact (asked.obeys makeNode_wp).elim fun _ rule => rule.elim
              | _ => exact found
            · refine ⟨written, ?_, rest answer⟩
              simp only [Services.reply, Services.orFault] at replied
              split at replied
              next => contradiction
              next none => simp [Services.thread, none]
  | finish | crash =>
      intro f p current'
      contradiction

section Sound
variable {c : RunConfig} {s : RunState}

theorem Threaded.course {stored : Checkpoint} (threaded : Threaded c stored) :
    ∃ before text turns, Course c (RunState.input c before text) turns stored := by
  induction threaded with
  | input before text _ => exact ⟨before, text, [], .nil _⟩
  | turn turn _ ih =>
      obtain ⟨before, text, turns, course⟩ := ih
      exact ⟨before, text, turns ++ [turn], course.append (.cons turn (.nil _))⟩

theorem drive_coursed (remaining : Nat) (state : GraphState) (next : Option NodeId)
    (history : List OpEntry) (threaded : Threaded c ⟨state, next⟩) :
    wp (Coursed c) (fun _ _ => True) history
      (c.program.definition.drive c.py c.deps remaining state next) := by
  induction remaining generalizing state next history with
  | zero => trivial
  | succ remaining ih =>
      cases next with
      | none => trivial
      | some id =>
          unfold CompiledGraph.drive
          split
          next => trivial
          next node found =>
            have own : node.id = id := Table.key_of_find? found
            subst own
            refine wp_seq (Q := fun _ patch => ∃ asked, Answered asked
              (makeNode c.py c.program.definition c.deps node state) (pure patch)) ?_ ?_
            · refine wp_mono ?_ ?_ (wp_record makeNode_wp)
              · rintro after op ⟨rule, asked, next, _, answered⟩
                cases op with
                | checkpoint => exact rule.elim
                | _ =>
                    exact ⟨⟨state, some node.id⟩, node, threaded, rfl, found, asked, next,
                      answered⟩
              · rintro after patch ⟨_, asked, _, answered⟩
                exact ⟨asked, answered⟩
            · rintro after patch ⟨asked, answered⟩
              refine wp_seq (ofExcept_wp _) ?_
              rintro _ target ⟨_, leads⟩
              have next := Threaded.turn
                ⟨state, node, asked, patch, target, found, answered, leads⟩ threaded
              exact wp_request_seq next fun _ => ih _ _ _ next

theorem course_coursed (limit : Nat) {stored : Checkpoint} (threaded : Threaded c stored) :
    wp (Coursed c) (fun _ _ => True) [] (RunState.course c limit stored) :=
  drive_coursed _ _ _ _ threaded

structure OnCourse (c : RunConfig) (s : RunState) : Prop where
  obeys : Obeys (Coursed c) s
  thread : ∀ stored, s.thread = some stored → Threaded c stored

theorem onCourse_inductive (c : RunConfig) : Inductive (executions c) anyStep (OnCourse c) where
  init s first := by
    refine ⟨.of_initial first, fun stored found => ?_⟩
    rw [first.1] at found
    contradiction
  step s a t on _ stepped := by
    have step := RunState.step_sound stepped
    have input (text : String) : Threaded c (RunState.input c s.thread text) :=
      .input s.thread text on.thread
    refine ⟨on.obeys.step step fun e stored _ enters => course_coursed _ ?_, ?_⟩
    · cases enters with
      | ainvoke => exact input e.inputText
      | aresume _ found => exact on.thread stored found
    · cases step with
      | transact | enter | stay | finish | crash => exact on.thread
      | @launch e current ready =>
          intro stored found
          simp only [RunState.launch] at found
          split at found
          next => cases found; exact input e.inputText
          next => exact on.thread stored found
          next => exact on.thread stored found
      | @reply services e op next current asks =>
          intro stored found
          cases op with
          | checkpoint written =>
              simp only [Services.thread] at found
              split at found
              next => cases found; exact (on.obeys.program e _ current asks).1
              next => exact on.thread stored found
          | _ => exact on.thread stored found

/-- What the executions of a run store is where a course leads to from an input, and what they
ask is asked by the nodes of courses. -/
theorem executions_coursed (reached : Reachable (executions c) anyStep s) :
    (∀ stored, s.thread = some stored →
      ∃ before text turns, Course c (RunState.input c before text) turns stored) ∧
      ∀ e ∈ s.executed, Follows (Coursed c) e.history := by
  have on := (onCourse_inductive c).reachable reached
  exact ⟨fun stored found => (on.thread stored found).course,
    fun e member => on.obeys.executed member⟩

theorem atWork_inductive (c : RunConfig) : Inductive (executions c) anyStep (AtWork c) where
  init s first := by
    intro e p current
    rw [first.2.1] at current
    contradiction
  step _ _ _ work _ stepped := work.step (RunState.step_sound stepped)

/-- What the current execution asks is a checkpoint, or it is asked by the node that is next in
the stored one. -/
theorem asked_by_next (reached : Reachable (executions c) anyStep s) {e : Execution} {op : Op}
    {next : op.Answer → GraphProg GraphState} (current : s.current = some e)
    (asks : e.program = some (.ask op next)) :
    (∃ written, op = .checkpoint written) ∨
      ∃ stored node, s.thread = some stored ∧ stored.Asks c node op := by
  rcases (atWork_inductive c).reachable reached e _ current asks with ⟨_, raised⟩ | work
  · contradiction
  · obtain ⟨stored, found, working⟩ := work
    rcases working.asked with ⟨node, asked, _⟩ | ⟨written, same, _⟩
    · exact .inr ⟨stored, node, found, asked⟩
    · exact .inl ⟨written, same⟩

end Sound
end AgentRuntime
