import AgentRuntime.Spending

/-! How often the user message enters the thread. `ainvoke` merges the input into whatever the
thread holds, and the append reducer keeps every copy; only a run that is read as paused is not
fed again. So the message stands in the thread once exactly as long as no execution enters the
graph with the input when there is a checkpoint already. -/
namespace AgentRuntime
open Machines Programs Tables

def fromUser (m : Dict) : Bool :=
  match m.get? "role" with
  | some (.str role) => role = "user"
  | _ => false

def userMessages (messages : List Dict) : List Dict := messages.filter fromUser

/-- The message is the first, and no other is from the user. -/
def OnlyInput (inputText : String) (messages : List Dict) : Prop :=
  messages.head? = some (Executor.message "user" inputText) ∧
    userMessages messages = [Executor.message "user" inputText]

/-- The thread, once there is one, holds the input of the run once, as the initial message. -/
def InputOnce (c : RunConfig) (s : RunState) : Prop :=
  ∀ stored, s.thread = some stored → ∃ run, s.db.runs.find? c.runId = some run ∧
    OnlyInput run.inputText stored.state.messages

/-- An execution enters the graph with the input only while there is no checkpoint. -/
def firstInput : Guard RunState RunAction := fun s a =>
  a = .launch → ∀ e, s.current = some e → e.entry = .ainvoke → s.thread = none

/-- The messages are those from the start, and answers that no user gave. -/
def Extends (base messages : List Dict) : Prop :=
  ∃ added, messages = base ++ added ∧ userMessages added = []

def Answers (base : List Dict) (_ : List OpEntry) : Op → Prop
  | .checkpoint stored => Extends base stored.state.messages
  | _ => True

section Messages
variable {base messages : List Dict} {inputText : String}

theorem Extends.refl (base : List Dict) : Extends base base := ⟨[], (List.append_nil _).symm, rfl⟩

theorem Extends.users (extended : Extends base messages) :
    userMessages messages = userMessages base := by
  obtain ⟨added, rfl, silent⟩ := extended
  rw [userMessages, List.filter_append, ← userMessages, ← userMessages, silent, List.append_nil]

theorem Extends.only (extended : Extends base messages) (only : OnlyInput inputText base) :
    OnlyInput inputText messages := by
  refine ⟨?_, extended.users.trans only.2⟩
  obtain ⟨added, rfl, _⟩ := extended
  rw [List.head?_append, only.1]
  rfl

theorem Extends.back (extended : Extends base messages) (only : OnlyInput inputText messages) :
    OnlyInput inputText base := by
  have users := extended.users.symm.trans only.2
  refine ⟨?_, users⟩
  obtain ⟨added, rfl, _⟩ := extended
  cases base with
  | nil => contradiction
  | cons first rest => exact only.1

theorem onlyInput_initial (runId : RunId) (inputText : String) :
    OnlyInput inputText (initialState runId inputText).messages := ⟨rfl, rfl⟩

end Messages

section Runs
variable {c : RunConfig} {s t u : RunState}

theorem course_answers (limit : Nat) (stored : Checkpoint) :
    wp (Answers stored.state.messages) (fun _ _ => True) [] (RunState.course c limit stored) := by
  refine drive_wp (J := fun _ _ state => Extends stored.state.messages state.messages) ?_ ?_
    (fun _ _ => .refl _) []
  · intro remaining id node state history op _ _ rule
    cases op with
    | checkpoint written => exact rule.elim
    | _ => trivial
  · intro remaining id node state patch target history extended _ patched _
    have silent : userMessages patch.messages = [] := by
      refine List.filter_eq_nil_iff.mpr fun m member => ?_
      obtain ⟨content, rfl⟩ := patched.messages m member
      exact Bool.false_ne_true
    have merged : Extends stored.state.messages (state.merge patch).messages := by
      obtain ⟨added, same, none⟩ := extended
      refine ⟨added ++ patch.messages, ?_, ?_⟩
      · rw [GraphState.merge, same, List.append_assoc]
      · rw [userMessages, List.filter_append, ← userMessages, ← userMessages, none, silent]
        rfl
    exact ⟨merged, fun _ _ => merged⟩

/-- The current course goes on from what the thread holds, or there is nothing to go on
from. -/
structure Grounded (s : RunState) : Prop where
  ready : ∀ e, s.current = some e → e.program = none → e.history = []
  course : ∀ e p, s.current = some e → e.program = some p → (∃ error, p = .raise error) ∨
    ∃ base stored, s.thread = some stored ∧ Extends base stored.state.messages ∧
      wp (Answers base) (fun _ _ => True) e.history p

inductive Carried (s t : RunState) : Prop
  | empty (before : s.thread = none) (after : t.thread = none)
  | stored {base before after} (first : s.thread = some before) (second : t.thread = some after)
      (source : Extends base before.state.messages) (target : Extends base after.state.messages)

theorem Carried.of_same (same : t.thread = s.thread) : Carried s t := by
  cases before : s.thread with
  | none => exact .empty before (same.trans before)
  | some stored => exact .stored before (same.trans before) (.refl _) (.refl _)

theorem RunState.launch_ainvoke {e : Execution} (entry : e.entry = .ainvoke) :
    s.launch c e =
      { s with
        thread := some (input c s.thread e.inputText)
        current := some
          { e with
            program := some (course c e.entry.supersteps (input c s.thread e.inputText)) } } := by
  simp only [launch, entry]

theorem RunState.launch_aresume {e : Execution} {value : ResumeValue} {stored : Checkpoint}
    (entry : e.entry = .aresume value) (found : s.thread = some stored) :
    s.launch c e =
      { s with
        current :=
          some
            { e with
              program := some (course c e.entry.supersteps stored)
              answer := some value } } := by
  simp only [launch, entry, found]

theorem RunState.launch_aresume_none {e : Execution} {value : ResumeValue}
    (entry : e.entry = .aresume value) (found : s.thread = none) :
    s.launch c e =
      { s with
        current := some { e with program := some (.raise (.error (.other "no checkpoint"))) } } := by
  simp only [launch, entry, found]

theorem RunStep.feeds {e : Execution} (step : RunStep c s .launch t) (current : s.current = some e)
    (entry : e.entry = .ainvoke) : t.thread = some (RunState.input c s.thread e.inputText) := by
  cases step with
  | launch current' ready =>
      cases current.symm.trans current'
      rw [RunState.launch_ainvoke entry]

/-- Only an entry with the input adds a message from the user to the thread. -/
theorem Grounded.step {a : RunAction} (grounded : Grounded s) (step : RunStep c s a t) :
    Grounded t ∧ (Carried s t ∨ ∃ e, a = .launch ∧ s.current = some e ∧ e.entry = .ainvoke ∧
      t.thread = some (RunState.input c s.thread e.inputText)) := by
  cases step with
  | transact other => exact ⟨⟨grounded.ready, grounded.course⟩, .inl (.of_same rfl)⟩
  | enter idle admitted stored =>
      refine ⟨⟨?_, ?_⟩, .inl (.of_same rfl)⟩
      · intro e current _
        cases current
        rfl
      · intro e p current ran
        cases current
        contradiction
  | stay idle => exact ⟨grounded, .inl (.of_same rfl)⟩
  | @launch e current ready =>
      have empty := grounded.ready e current ready
      cases entry : e.entry with
      | ainvoke =>
          rw [RunState.launch_ainvoke entry]
          refine ⟨⟨?_, ?_⟩, .inr ⟨e, rfl, current, entry, rfl⟩⟩
          · intro f now none
            cases now
            contradiction
          · intro f p now ran
            cases now
            cases ran
            exact .inr ⟨_, _, rfl, .refl _, empty ▸ course_answers _ _⟩
      | aresume value =>
          cases found : s.thread with
          | none =>
              rw [RunState.launch_aresume_none entry found]
              refine ⟨⟨?_, ?_⟩, .inl (.empty found found)⟩
              · intro f now none
                cases now
                contradiction
              · intro f p now ran
                cases now
                cases ran
                exact .inl ⟨_, rfl⟩
          | some stored =>
              rw [RunState.launch_aresume entry found]
              refine ⟨⟨?_, ?_⟩, .inl (.stored found found (.refl _) (.refl _))⟩
              · intro f now none
                cases now
                contradiction
              · intro f p now ran
                cases now
                cases ran
                exact .inr ⟨_, stored, found, .refl _, empty ▸ course_answers _ _⟩
  | @reply services e op next current asks =>
      obtain ⟨error, raised⟩ | ⟨base, stored, found, extended, holds⟩ :=
        grounded.course e _ current asks
      · contradiction
      · have written : ∃ after, services.thread s.thread op = some after ∧
            Extends base after.state.messages := by
          cases op with
          | checkpoint written =>
              cases fault : services.fault with
              | none => exact ⟨written, by simp [Services.thread, fault], holds.1⟩
              | some error => exact ⟨stored, by simp [Services.thread, fault, found], extended⟩
          | _ => exact ⟨stored, found, extended⟩
        obtain ⟨after, same, extended'⟩ := written
        refine ⟨⟨?_, ?_⟩, .inl (.stored found same extended extended')⟩
        · intro f now none
          cases now
          contradiction
        · intro f p now ran
          cases now
          cases ran
          exact .inr ⟨base, after, same, extended', wp_after holds _⟩
  | finish current ran ended =>
      refine ⟨⟨?_, ?_⟩, .inl (.of_same rfl)⟩ <;> intros <;> contradiction
  | crash current =>
      refine ⟨⟨?_, ?_⟩, .inl (.of_same rfl)⟩ <;> intros <;> contradiction

theorem grounded_inductive (c : RunConfig) (G : Guard RunState RunAction) :
    Inductive (executions c) G Grounded where
  init s first := by
    obtain ⟨_, current, _, _⟩ := first
    refine ⟨?_, ?_⟩ <;> simp [current]
  step _ _ _ grounded _ stepped := (grounded.step (RunState.step_sound stepped)).1

theorem RunStep.commits {a : RunAction} (step : RunStep c s a t) :
    ∃ tx : Tx, t.db = tx.apply c.py s.db := by
  cases step with
  | transact other => exact ⟨_, rfl⟩
  | enter idle admitted stored => exact ⟨.idle, rfl⟩
  | stay idle => exact ⟨.idle, rfl⟩
  | @launch e current ready =>
      obtain ⟨_, _, _, _, same, _⟩ := s.launch_cases c e
      exact ⟨.idle, same⟩
  | @reply services e op next current asks => exact ⟨services.tx op, rfl⟩
  | finish current ran ended => exact ⟨.updateRun _ _ _ _ _, rfl⟩
  | crash current => exact ⟨.idle, rfl⟩

def RunState.HasInput (c : RunConfig) (s : RunState) (inputText : String) : Prop :=
  ∃ run, s.db.runs.find? c.runId = some run ∧ run.inputText = inputText

theorem RunStep.keeps_input {a : RunAction} {inputText : String} (step : RunStep c s a t)
    (input : s.HasInput c inputText) : t.HasInput c inputText := by
  obtain ⟨tx, same⟩ := step.commits
  obtain ⟨run, stored, rfl⟩ := input
  rw [RunState.HasInput, same]
  exact tx.keeps_input stored

/-- An execution goes on with the input of the run. -/
structure Fed (c : RunConfig) (s : RunState) : Prop where
  grounded : Grounded s
  input : ∀ e, s.current = some e → s.HasInput c e.inputText
  once : InputOnce c s

theorem Fed.current {a : RunAction} (fed : Fed c s) (step : RunStep c s a t) :
    ∀ e, t.current = some e → t.HasInput c e.inputText := by
  have kept {inputText : String} (input : s.HasInput c inputText) : t.HasInput c inputText :=
    step.keeps_input input
  cases step with
  | transact other => exact fun e current => kept (fed.input e current)
  | enter idle admitted stored =>
      intro e current
      cases current
      exact ⟨_, stored, rfl⟩
  | stay idle => exact fed.input
  | @launch e current ready =>
      obtain ⟨p, answer, after, _⟩ := s.launch_cases c e
      intro f now
      cases after.symm.trans now
      exact kept (fed.input e current)
  | @reply services e op next current asks =>
      intro f now
      cases now
      exact kept (fed.input e current)
  | finish current ran ended => intros; contradiction
  | crash current => intros; contradiction

theorem fed_inductive (c : RunConfig) : Inductive (executions c) firstInput (Fed c) where
  init s first := by
    refine ⟨(grounded_inductive c firstInput).init s first, ?_, ?_⟩
    · simp [first.2.1]
    · simp [InputOnce, first.1]
  step s a t fed allowed stepped := by
    have step := RunState.step_sound stepped
    obtain ⟨grounded, moved⟩ := fed.grounded.step step
    refine ⟨grounded, fed.current step, fun stored found => ?_⟩
    rcases moved with carried | ⟨e, rfl, current, entry, thread⟩
    · cases carried with
      | empty before after =>
          rw [after] at found
          contradiction
      | stored first second source target =>
          rw [second] at found
          cases found
          obtain ⟨run, row, only⟩ := fed.once _ first
          obtain ⟨after, row', same⟩ := step.keeps_input ⟨run, row, rfl⟩
          exact ⟨after, row', same ▸ target.only (source.back only)⟩
    · rw [allowed rfl e current entry] at thread
      rw [thread] at found
      cases found
      obtain ⟨run, row, same⟩ := step.keeps_input (fed.input e current)
      exact ⟨run, row, same ▸ onlyInput_initial c.runId e.inputText⟩

def RunState.inputs (s : RunState) : Nat :=
  s.thread.elim 0 fun stored => (userMessages stored.state.messages).length

theorem Carried.inputs (carried : Carried s t) : t.inputs = s.inputs := by
  cases carried with
  | empty before after => rw [RunState.inputs, RunState.inputs, before, after]
  | stored first second source target =>
      simp only [RunState.inputs, first, second, Option.elim_some, source.users, target.users]

theorem RunState.inputs_input {inputText : String}
    (fed : t.thread = some (input c s.thread inputText)) : t.inputs = s.inputs + 1 := by
  have added : userMessages (initialState c.runId inputText).messages =
      [Executor.message "user" inputText] := rfl
  rw [inputs, fed, inputs]
  simp only [input, GraphState.merge, Option.elim_some, userMessages, List.filter_append]
  rw [← userMessages, ← userMessages, added, List.length_append]
  cases s.thread <;> rfl

def RunState.Started (s : RunState) : Prop := s.thread ≠ none → 0 < s.inputs

theorem InputOnce.inputs (once : InputOnce c s) : s.inputs ≤ 1 := by
  unfold RunState.inputs
  cases found : s.thread with
  | none => exact Nat.zero_le 1
  | some stored =>
      obtain ⟨_, _, _, users⟩ := once stored found
      rw [Option.elim_some, users]
      rfl

/-- A step keeps what is counted, or adds the input that it feeds. -/
theorem RunStep.inputs {a : RunAction} (step : RunStep c s a t) (grounded : Grounded s)
    (started : s.Started) : t.Started ∧
      (t.inputs = s.inputs ∨ t.inputs = s.inputs + 1) := by
  obtain ⟨_, carried | ⟨e, _, _, _, thread⟩⟩ := grounded.step step
  · have same := carried.inputs
    refine ⟨?_, .inl same⟩
    cases carried with
    | empty before after => exact fun present => absurd after present
    | stored first second source target =>
        intro _
        rw [same]
        exact started (by simp [first])
  · have one := RunState.inputs_input thread
    exact ⟨fun _ => by omega, .inr one⟩

/-- The second input of a thread is never taken back. -/
theorem firstInput_of_inputs {as : List RunAction} (run : Run (executions c) anyStep s as u)
    (grounded : Grounded s) (started : s.Started) (single : u.inputs ≤ 1) :
    Run (executions c) firstInput s as u := by
  refine run.guarded (I := fun s => Grounded s ∧ s.Started) (P := fun s => 1 < s.inputs)
    ?_ ?_ ?_ ⟨grounded, started⟩ (by omega)
  · intro s a t holds _ stepped
    have step := RunState.step_sound stepped
    exact ⟨(holds.1.step step).1, (step.inputs holds.1 holds.2).1⟩
  · intro s a t holds _ stepped several
    have counted := ((RunState.step_sound stepped).inputs holds.1 holds.2).2
    omega
  · intro s a t holds _ stepped again
    simp only [firstInput, not_forall] at again
    obtain ⟨rfl, e, current, entry, present⟩ := again
    have one := RunState.inputs_input ((RunState.step_sound stepped).feeds current entry)
    have positive := holds.2 present
    omega

/-- The input stands in the thread once after every step of a run exactly when the run enters
the graph with it only while there is no checkpoint. -/
theorem input_once_iff {as : List RunAction} (first : RunState.Initial c s)
    (run : Run (executions c) anyStep s as u) :
    InputOnce c u ↔ Run (executions c) firstInput s as u := by
  constructor
  · intro once
    have grounded := (grounded_inductive c anyStep).init s first
    exact firstInput_of_inputs run grounded (fun present => absurd first.1 present) once.inputs
  · intro guarded
    exact ((fed_inductive c).reachable ⟨s, as, first, guarded⟩).once

end Runs

section Sample

def firstInputCheck (s : RunState) : RunAction → Bool
  | .launch =>
      match s.current.map Execution.entry with
      | some .ainvoke => s.thread.isNone
      | _ => true
  | _ => true

theorem firstInput_checks (c : RunConfig) :
    Checks (executions c) firstInput (fun _ => True) firstInputCheck where
  sound s a _ passed := by
    rintro rfl e current entry
    simpa [firstInputCheck, current, entry] using passed
  kept _ _ _ _ _ _ := trivial

/-- The transfer is approved before the pause is recorded, so a second execution finds the run
paused with the decision. -/
def sampleResumed : List RunAction :=
  [.read fun _ => 0, .launch] ++ List.replicate 14 (.reply transferServices) ++
    [.transact (.resolveAndEnqueue "a1" .approved "user" none 0 "job2"), .finish] ++ sampleCall

theorem resumed_run_fed_once :
    ∃ s, InputOnce transferRun s ∧ s.thread.isSome ∧
      authorisers transferRun.deps s.executed = [some "a1"] := by
  obtain ⟨s, run, _, stored, called⟩ := (firstInput_checks transferRun).of_test
    (s := transferRun.created) trivial sampleResumed
    (fun s => s.thread.isSome ∧ authorisers transferRun.deps s.executed = [some "a1"])
    (by decide +kernel)
  exact ⟨s, (input_once_iff transferRun.created_initial run.anyStep).mpr run, stored, called⟩

/-- An execution that loses its database at its first look at the run, and the retry. -/
def sampleRetry : List RunAction :=
  [.read fun _ => 0, .launch, .reply { fault := some (.other "connection lost") }, .finish,
    .read fun _ => 0, .launch]

/-- The retry feeds the input to the thread that holds it already. -/
theorem retry_feeds_again :
    ¬ ∀ s, Reachable (executions transferRun) anyStep s → InputOnce transferRun s := by
  intro always
  obtain ⟨s, run, twice⟩ := Run.of_test (M := executions transferRun) transferRun.created
    sampleRetry (fun s => s.inputs = 2) (by decide +kernel)
  have once := (always s ((Reachable.start transferRun.created_initial).run run)).inputs
  omega

end Sample
end AgentRuntime
