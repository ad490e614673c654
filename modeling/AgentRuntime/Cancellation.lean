import AgentRuntime.FrozenModel
import AgentRuntime.Intake
import AgentRuntime.Terminal

/-! Cancellation. Any number of processes execute one run at the same time, over one database and
one thread. In front of each node an execution asks whether the run is cancelled; from the commit
of `cancel_run` on no such check passes, so no execution begins a further node. -/
namespace AgentRuntime
open Machines Programs Clearance Tables

/-- The check in front of a node finds the run not cancelled. -/
def bodies : Discipline Op Op.Answer Raised where
  role := Op.role
  passed entry := ∃ runId, entry = ⟨.cancelCheck runId, .answered false⟩

/-- What a process keeps of the run: the execution under way and those before it. -/
structure Party where
  current : Option Execution := none
  past : List Execution := []

structure SharedState where
  db : Database
  thread : Option Checkpoint
  parties : WorkerId → Party

/-- A run with the processes that may execute it. -/
structure SharedRun where
  py : Builtins
  runId : RunId
  program : LangGraphProgram
  manager : WorkerId → RunManager
  frozen : Dict

namespace SharedState

/-- The executions machine as the process `w` sees it. -/
def view (s : SharedState) (w : WorkerId) : RunState where
  db := s.db
  thread := s.thread
  current := (s.parties w).current
  past := (s.parties w).past

def put (s : SharedState) (w : WorkerId) (t : RunState) : SharedState where
  db := t.db
  thread := t.thread
  parties := Function.update s.parties w ⟨t.current, t.past⟩

end SharedState

namespace SharedRun

def config (c : SharedRun) (w : WorkerId) : RunConfig where
  py := c.py
  runId := c.runId
  program := c.program
  deps := (c.manager w).dependencies c.frozen

/-- Each step is one of the executions machine, taken by some process. -/
def overlapping (c : SharedRun) : Machine SharedState (WorkerId × RunAction) where
  init s := ∀ w, RunState.Initial (c.config w) (s.view w)
  step s a := ((s.view a.1).step (c.config a.1) a.2).map (s.put a.1)

end SharedRun

/-- The check asks for the run of the process, and the thread keeps to it. -/
def Op.Own (c : RunConfig) : Op → Prop
  | .cancelCheck runId => runId = c.runId.text
  | .checkpoint stored => stored.state.runId c.py = c.runId.text
  | _ => True

/-- What an execution may ask after what it asked before. -/
def Op.Clears (c : RunConfig) (history : List OpEntry) (op : Op) : Prop :=
  bodies.Rule history op ∧ op.Own c

section Courses
variable {c : RunConfig} {node : NodeDef} {state patch : GraphState} {history : List OpEntry}

theorem runId_merge (own : state.runId c.py = c.runId.text) (silent : patch.runtime = []) :
    (state.merge patch).runId c.py = c.runId.text := by
  rw [← own, GraphState.runId, GraphState.merge, silent]
  rfl

theorem checkCancelled_clears (checks : c.deps.cancelCheck = true)
    (unchecked : bodies.Unchecked history) :
    wp (Op.Clears c) (fun after _ => bodies.Cleared after) history
      (checkCancelled c.deps c.runId.text node) := by
  unfold checkCancelled
  rw [if_pos checks]
  refine wp_request_seq ⟨unchecked, rfl⟩ fun cancelled => ?_
  cases cancelled with
  | true => trivial
  | false => exact Discipline.Clears.cleared ⟨rfl, _, rfl⟩

theorem body_clears {α : Type} {p : GraphProg α} (inside : Within (fun op => op.role = .inside) p)
    {opening : List OpEntry} (turned : bodies.Turned opening history) :
    wp (Op.Clears c) (fun after _ => bodies.Turned opening after) history p := by
  refine wp_mono (fun before op asked => ⟨asked.1, ?_⟩) (fun _ _ same => same)
    (Discipline.turn_wp inside turned)
  have inside : op.role = .inside := asked.2
  cases op with
  | cancelCheck | checkpoint => contradiction
  | _ => trivial

/-- A node checks, begins and asks the parts of its body. -/
theorem makeNode_clears (checks : c.deps.cancelCheck = true)
    (own : state.runId c.py = c.runId.text) (unchecked : bodies.Unchecked history) :
    wp (Op.Clears c) (fun after _ => bodies.Unchecked after) history
      (makeNode c.py c.program.definition c.deps node state) := by
  unfold makeNode
  rw [own]
  refine wp_seq (checkCancelled_clears checks unchecked) fun opening _ cleared => ?_
  refine wp_request_seq ⟨cleared, trivial⟩ fun _ => ?_
  have inside : Within (fun op => op.role = .inside)
      (runNode c.py c.program.definition c.deps c.runId.text node state) :=
    runNode_within fun _ _ inside => inside
  refine wp_seq (body_clears inside (cleared.turned rfl)) fun after patch turned => ?_
  have completed : Within (fun op => op.role = .inside)
      (GraphProg.emit .nodeCompleted c.runId.text node.id) := .request rfl
  exact wp_seq (body_clears completed turned) fun _ _ turned => turned.unchecked

theorem drive_clears (checks : c.deps.cancelCheck = true) (remaining : Nat)
    (next : Option NodeId) (own : state.runId c.py = c.runId.text) (unchecked : bodies.Unchecked history) :
    wp (Op.Clears c) (fun _ _ => True) history
      (c.program.definition.drive c.py c.deps remaining state next) := by
  induction remaining generalizing state next history with
  | zero => trivial
  | succ remaining ih =>
      cases next with
      | none => trivial
      | some id =>
          unfold CompiledGraph.drive
          split
          next => trivial
          next node found =>
            refine wp_seq (wp_mono (fun _ _ asked => asked.1) (fun _ _ returned => returned)
              (wp_record (makeNode_clears checks own unchecked))) ?_
            rintro after patch ⟨unchecked, asked, _, answered⟩
            have writes : Writes c.py c.program.definition node state asked patch :=
              wp_returned makeNode_writes answered
            have own' := runId_merge own writes.runtime
            refine wp_seq (ofExcept_wp _) fun before target reached => ?_
            obtain ⟨rfl, _⟩ := reached
            refine wp_request_seq ⟨unchecked, own'⟩ fun _ => ?_
            refine ih _ own' (Discipline.Unchecked.snoc ?_)
            intro check
            contradiction

theorem course_clears (checks : c.deps.cancelCheck = true) (limit : Nat) {stored : Checkpoint}
    (own : stored.state.runId c.py = c.runId.text) :
    wp (Op.Clears c) (fun _ _ => True) [] (RunState.course c limit stored) :=
  drive_clears checks limit stored.next own Discipline.unchecked_nil

theorem input_own (thread : Option Checkpoint) (inputText : String) :
    (RunState.input c thread inputText).state.runId c.py = c.runId.text := by
  let before : Dict := (thread.elim {} Checkpoint.state).runtime
  have stored : (before.set "run_id" (.str c.runId.text)).getD "run_id" (.str "unknown") =
      .str c.runId.text :=
    congrArg (fun found : Option Json => found.getD (.str "unknown")) (Dict.get?_set_self _ _ _)
  exact congrArg (Json.text c.py) stored

end Courses

/-- What the execution number `i` of the process asked so far; a number stays with its execution. -/
def RunState.asked (s : RunState) (i : Nat) : List OpEntry :=
  (s.executed[i]?).elim [] Execution.history

/-- Every execution so far asked what the discipline allows, for its own run, and the thread keeps
to the run. -/
structure Disciplined (c : SharedRun) (s : SharedState) : Prop where
  thread : ∀ stored, s.thread = some stored → stored.state.runId c.py = c.runId.text
  obeys : ∀ w, Obeys (Op.Clears (c.config w)) (s.view w)

section Steps
variable {c : SharedRun} {s u : SharedState} {w : WorkerId} {t : RunState} {a : RunAction}

theorem Obeys.congr {P : List OpEntry → Op → Prop} {s t : RunState} (obeys : Obeys P s)
    (current : t.current = s.current) (past : t.past = s.past) : Obeys P t := by
  refine ⟨past ▸ obeys.past, ?_, ?_, ?_⟩
  · rw [current]
    exact obeys.follows
  · rw [current]
    exact obeys.ready
  · rw [current]
    exact obeys.program

theorem SharedState.view_put (s : SharedState) (w : WorkerId) (t : RunState) :
    (s.put w t).view w = t := by
  simp [view, put]

theorem SharedState.view_put_ne (s : SharedState) {w v : WorkerId} (other : v ≠ w) (t : RunState) :
    ((s.put w t).view v).current = (s.view v).current ∧
      ((s.put w t).view v).past = (s.view v).past := by
  simp [view, put, Function.update_of_ne other]

/-- What a step makes of the thread: the input is merged, or the checkpoint behind a node stored. -/
theorem RunStep.thread_own {c : RunConfig} {s t : RunState} (step : RunStep c s a t)
    (obeys : Obeys (Op.Clears c) s)
    (own : ∀ stored, s.thread = some stored → stored.state.runId c.py = c.runId.text)
    (stored : Checkpoint) (found : t.thread = some stored) :
    stored.state.runId c.py = c.runId.text := by
  cases step with
  | transact | enter | stay | finish | crash => exact own stored found
  | @launch e current ready =>
      unfold RunState.launch at found
      split at found
      next =>
        cases found
        exact input_own _ _
      next => exact own stored found
      next => exact own stored found
  | @reply services e op next current asks =>
      have asked := (obeys.program e _ current asks).1
      cases op with
      | checkpoint written =>
          simp only [Services.thread] at found
          split at found
          next =>
            cases found
            exact asked.2
          next => exact own stored found
      | _ => exact own stored found

theorem SharedRun.step_cases (stepped : c.overlapping.step s (w, a) = some u) :
    ∃ t, RunStep (c.config w) (s.view w) a t ∧ u = s.put w t := by
  obtain ⟨t, inner, same⟩ := Option.map_eq_some_iff.mp stepped
  exact ⟨t, RunState.step_sound inner, same.symm⟩

theorem Disciplined.step (disciplined : Disciplined c s)
    (stepped : c.overlapping.step s (w, a) = some u) : Disciplined c u := by
  obtain ⟨t, step, rfl⟩ := SharedRun.step_cases stepped
  refine ⟨step.thread_own (disciplined.obeys w) disciplined.thread, fun v => ?_⟩
  by_cases same : v = w
  · subst same
    rw [SharedState.view_put]
    refine (disciplined.obeys v).step step fun e stored current enters => course_clears rfl _ ?_
    cases enters with
    | ainvoke => exact input_own _ _
    | aresume _ found => exact disciplined.thread stored found
  · obtain ⟨current, past⟩ := s.view_put_ne same t
    exact (disciplined.obeys v).congr current past

theorem disciplined_inductive (c : SharedRun) :
    Inductive c.overlapping anyStep (Disciplined c) where
  init s first := by
    refine ⟨fun stored found => ?_, fun w => .of_initial (first w)⟩
    have empty : s.thread = none := (first "").1
    rw [empty] at found
    contradiction
  step s action u disciplined _ stepped := disciplined.step stepped

theorem Database.Settled.isCancelled {db : Database} {id : RunId}
    (settled : db.Settled id .cancelled) : db.isCancelled id.text = true := by
  obtain ⟨_, run, stored, cancelled⟩ := settled
  have key : run.id = id := Table.key_of_find? stored
  subst key
  refine List.any_eq_true.mpr ⟨run, Table.mem_rows_iff.mpr stored, ?_⟩
  simp [cancelled]

/-- The check of a cancelled run does not pass. -/
theorem reply_blocked {c : RunConfig} {db : Database} (cancelled : db.Settled c.runId .cancelled)
    {op : Op} (own : op.Own c) (services : Services) (answer : Option ResumeValue) :
    ¬ bodies.Clears (⟨op, .ofExcept (services.reply c.py db answer op)⟩ : OpEntry) := by
  rintro ⟨_, runId, same⟩
  cases op with
  | cancelCheck asked =>
      have found : db.isCancelled asked = true := own ▸ cancelled.isCancelled
      simp only [Services.reply, Services.orFault, found] at same
      cases fault : services.fault <;> simp [fault, Reply.ofExcept] at same
  | _ => cases same

theorem Execution.crashed_history (e : Execution) (begun : Bool) :
    (e.crashed begun).history = e.history ∨
      ∃ op, (e.crashed begun).history = e.history ++ [⟨op, .stopped⟩] := by
  unfold crashed
  split
  next op _ _ => exact .inr ⟨op, rfl⟩
  next => exact .inl rfl

theorem RunState.asked_snoc {s : RunState} {past : List Execution} {e : Execution}
    (whole : s.executed = past ++ [e]) (i : Nat) :
    s.asked i = if i = past.length then e.history else (past[i]?).elim [] Execution.history := by
  rw [asked, whole]
  split
  next last => rw [last, List.getElem?_concat_length]; rfl
  next other =>
    by_cases before : i < past.length
    · rw [List.getElem?_append_left before]
    · have beyond : past.length ≤ i := Nat.le_of_not_lt before
      rw [List.getElem?_append_right beyond, List.getElem?_eq_none beyond,
        List.getElem?_eq_none (by simp; omega)]

/-- A step of an execution of a cancelled run: what it asks is no check that passes. -/
theorem RunStep.asked {c : RunConfig} {s t : RunState} (step : RunStep c s a t)
    (obeys : Obeys (Op.Clears c) s) (cancelled : s.db.Settled c.runId .cancelled) (i : Nat) :
    ∃ later, t.asked i = s.asked i ++ later ∧ ∀ entry ∈ later, ¬ bodies.Clears entry := by
  have still (same : t.asked i = s.asked i) :
      ∃ later, t.asked i = s.asked i ++ later ∧ ∀ entry ∈ later, ¬ bodies.Clears entry :=
    ⟨[], by rw [same, List.append_nil], by simp⟩
  have further {e f : Execution} {entry : OpEntry} (before : s.executed = s.past ++ [e])
      (after : t.executed = s.past ++ [f]) (history : f.history = e.history ++ [entry])
      (blocked : ¬ bodies.Clears entry) :
      ∃ later, t.asked i = s.asked i ++ later ∧ ∀ entry ∈ later, ¬ bodies.Clears entry := by
    by_cases last : i = s.past.length
    · refine ⟨[entry], ?_, by simpa using blocked⟩
      rw [RunState.asked_snoc before, RunState.asked_snoc after, if_pos last, if_pos last, history]
    · refine still ?_
      rw [RunState.asked_snoc before, RunState.asked_snoc after, if_neg last, if_neg last]
  have executed {e : Execution} (current : s.current = some e) : s.executed = s.past ++ [e] := by
    rw [RunState.executed, current]
    rfl
  cases step with
  | transact | stay => exact still rfl
  | enter idle admitted stored =>
      refine still ?_
      have before : s.executed = s.past := by simp [RunState.executed, idle]
      rw [RunState.asked_snoc rfl, RunState.asked, before]
      split
      next last => rw [last, List.getElem?_eq_none (Nat.le_refl _)]; rfl
      next => rfl
  | @launch e current ready =>
      obtain ⟨p, answer, after, kept, _⟩ := s.launch_cases c e
      refine still ?_
      have whole : (s.launch c e).executed =
          s.past ++ [{ e with program := some p, answer := answer }] := by
        rw [RunState.executed, after, kept]
        rfl
      rw [RunState.asked_snoc (executed current), RunState.asked_snoc whole]
  | @reply services e op next current asks =>
      have own := (obeys.program e _ current asks).1.2
      exact further (executed current) rfl rfl (reply_blocked cancelled own services e.answer)
  | @finish e p outcome current ran ended =>
      refine still ?_
      rw [RunState.asked_snoc (executed current), RunState.asked_snoc (List.append_nil _)]
  | @crash begun e current =>
      have before := executed current
      have after : ({ s with current := none, past := s.past ++ [e.crashed begun] } :
          RunState).executed = s.past ++ [e.crashed begun] := List.append_nil _
      rcases e.crashed_history begun with same | ⟨op, more⟩
      · refine still ?_
        rw [RunState.asked_snoc before, RunState.asked_snoc after, same]
      · refine further before after more ?_
        rintro ⟨_, runId, same⟩
        cases same

/-- The checks since the state `s` have not passed. -/
structure StoppedSince (c : SharedRun) (s u : SharedState) : Prop where
  disciplined : Disciplined c u
  cancelled : u.db.Settled c.runId .cancelled
  blocked : ∀ w i, ∃ later, (u.view w).asked i = (s.view w).asked i ++ later ∧
    ∀ entry ∈ later, ¬ bodies.Clears entry

theorem StoppedSince.step {v : SharedState} (stopped : StoppedSince c s u)
    (stepped : c.overlapping.step u (w, a) = some v) : StoppedSince c s v := by
  have disciplined := stopped.disciplined.step stepped
  obtain ⟨t, step, rfl⟩ := SharedRun.step_cases stepped
  refine ⟨disciplined, ?_, fun x i => ?_⟩
  · obtain ⟨tx, commits⟩ := step.commits
    have after : (u.put w t).db = tx.apply c.py u.db := commits
    rw [after]
    exact stopped.cancelled.apply tx
  · obtain ⟨later, whole, blocked⟩ := stopped.blocked x i
    by_cases same : x = w
    · subst same
      obtain ⟨more, grown, fresh⟩ :=
        step.asked (stopped.disciplined.obeys x) stopped.cancelled i
      refine ⟨later ++ more, ?_, fun entry member => ?_⟩
      · rw [SharedState.view_put, grown, whole, List.append_assoc]
      · exact (List.mem_append.mp member).elim (blocked entry) (fresh entry)
    · obtain ⟨current, past⟩ := u.view_put_ne same t
      refine ⟨later, ?_, blocked⟩
      rw [← whole, RunState.asked, RunState.asked, RunState.executed, RunState.executed, current,
        past]

/-- The history of an execution that may ask more does not end with a check that failed. -/
theorem Disciplined.goes_on (disciplined : Disciplined c u) {e : Execution} {op : Op}
    {next : op.Answer → GraphProg GraphState} {front : List OpEntry} {entry : OpEntry}
    (current : (u.view w).current = some e) (asks : e.program = some (.ask op next))
    (last : e.history = front ++ [entry]) (check : entry.op.role = .check) :
    bodies.Clears entry := by
  have rule := ((disciplined.obeys w).program e _ current asks).1.1
  have ends : e.history.getLast? = some entry := by rw [last, List.getLast?_concat]
  exact (rule.behind ends check).2

theorem Disciplined.follows (disciplined : Disciplined c u) (w : WorkerId) (i : Nat) :
    Follows bodies.Rule ((u.view w).asked i) := by
  unfold RunState.asked
  cases found : (u.view w).executed[i]? with
  | none => exact .nil
  | some e =>
      have asked := (disciplined.obeys w).executed (List.mem_of_getElem? found)
      exact asked.mono fun _ _ clears => clears.1

/-- `cancel_run` under the row lock, where the run has not ended. -/
theorem settled_of_cancelRun (py : Builtins) {db : Database} {id : RunId} {row : RunRow}
    (stored : db.runs.find? id = some row) (live : row.status.terminal = false) :
    ((Tx.cancelRun id).apply py db).Settled id .cancelled := by
  have key : row.id = id := Table.key_of_find? stored
  refine ⟨rfl, (Tx.cancelRun id).onRun db row, ?_, ?_⟩
  · rw [Tx.find?_runs, stored, rowAfter_some]
  · simp [Tx.onRun, key, live]

theorem StoppedSince.start (disciplined : Disciplined c s)
    (cancelled : s.db.Settled c.runId .cancelled) : StoppedSince c s s :=
  ⟨disciplined, cancelled, fun _ _ => ⟨[], (List.append_nil _).symm, by simp⟩⟩

end Steps

/-- From the commit of `cancel_run` on, an execution asks parts of at most one body, whose check
had passed before the commit; behind its next check it asks nothing. -/
theorem cancellation_stops (c : SharedRun) {r s u : SharedState} {canceller : WorkerId}
    {row : RunRow} {actions : List (WorkerId × RunAction)}
    (reached : Reachable c.overlapping anyStep r)
    (stored : r.db.runs.find? c.runId = some row) (live : row.status.terminal = false)
    (commit : c.overlapping.step r (canceller, .transact (.cancelRun c.runId)) = some s)
    (run : Run c.overlapping anyStep s actions u) (w : WorkerId) (i : Nat) :
    ∃ later, (u.view w).asked i = (s.view w).asked i ++ later ∧
      bodies.Closing ((s.view w).asked i) later ∧
      ∀ e op next, (u.view w).executed[i]? = some e → (u.view w).current = some e →
        e.program = some (.ask op next) → ∀ entry ∈ later, entry.op.role ≠ .check := by
  have cancelled : s.db.Settled c.runId .cancelled := by
    obtain ⟨t, step, rfl⟩ := SharedRun.step_cases commit
    cases step with
    | transact => exact settled_of_cancelRun c.py stored live
  have disciplined := (disciplined_inductive c).reachable (reached.next trivial commit)
  have stopped : StoppedSince c s u :=
    run.invariant (fun _ _ _ stopped _ stepped => StoppedSince.step stopped stepped)
      (.start disciplined cancelled)
  obtain ⟨later, whole, blocked⟩ := stopped.blocked w i
  have closing : bodies.Closing ((s.view w).asked i) later := by
    refine Discipline.closing ?_ blocked
    rw [← whole]
    exact stopped.disciplined.follows w i
  refine ⟨later, whole, closing, fun e op next found current asks entry member check => ?_⟩
  obtain ⟨front, back, split⟩ := List.append_of_mem member
  have none := closing.checked front entry back split check
  subst none
  have history : e.history = ((s.view w).asked i ++ front) ++ [entry] := by
    rw [List.append_assoc, ← split, ← whole, RunState.asked, found]
    rfl
  exact blocked entry member (stopped.disciplined.goes_on current asks history check)

section Sample

def sampleShared : SharedRun where
  py := .onEmpty
  runId := sampleRun
  program := sampleFrozen.program
  manager _ := sampleManager "gpt-4o-mini"
  frozen := sampleModel.dump

def SharedRun.created (c : SharedRun) : SharedState where
  db := (c.config "").created.db
  thread := none
  parties _ := {}

/-- Two processes enter the graph, and the check of the first passes. -/
def sampleEntries : List (WorkerId × RunAction) :=
  [("w1", .read fun _ => 0), ("w1", .launch), ("w2", .read fun _ => 0), ("w2", .launch),
    ("w1", .reply {})]

def sampleCancel : WorkerId × RunAction := ("api", .transact (.cancelRun sampleRun))

/-- The second process makes its check, and the first runs the supervisor. -/
def sampleRest : List (WorkerId × RunAction) :=
  let decision : SupervisorDecision :=
    { action := .subagent, capabilityNodeId := some "specialist" }
  ("w2", .reply {}) ::
    List.replicate 8 ("w1", .reply { result := { structured := some decision.dump } })

def RunState.roles (s : RunState) (i : Nat) : List Role :=
  (s.asked i).map fun entry => entry.op.role

/-- The supervisor runs to its end, and the subagent does not begin. -/
theorem supervisor_is_last : ∃ s u : SharedState, ∃ later,
    (u.view "w1").asked 0 = (s.view "w1").asked 0 ++ later ∧
      bodies.Closing ((s.view "w1").asked 0) later ∧
      later.map (fun entry => entry.op.role) =
        .begins :: List.replicate 5 .inside ++ [.between, .check] := by
  let whole : List Role := .check :: .begins :: List.replicate 5 .inside ++ [.between, .check]
  obtain ⟨r, before, row, continues⟩ := Run.of_test (M := sampleShared.overlapping)
    sampleShared.created sampleEntries
    (fun r => (r.db.runs.find? sampleRun).any (fun row => !row.status.terminal) = true ∧
      (sampleShared.overlapping.step r sampleCancel).any (fun s =>
        (s.view "w1").roles 0 = [.check] ∧
          (sampleShared.overlapping.replay s sampleRest).any fun u =>
            (u.view "w1").roles 0 = whole) = true)
    (by decide)
  obtain ⟨row, stored, live⟩ := (Option.any_eq_true _ _).mp row
  obtain ⟨s, commit, continues⟩ := (Option.any_eq_true _ _).mp continues
  simp only [decide_eq_true_eq] at continues
  obtain ⟨checked, continues⟩ := continues
  obtain ⟨u, replayed, ended⟩ := (Option.any_eq_true _ _).mp continues
  have initial : sampleShared.overlapping.init sampleShared.created := fun w =>
    ⟨rfl, rfl, rfl, fun approval member => by cases member⟩
  have reached : Reachable sampleShared.overlapping anyStep r := ⟨_, _, initial, before⟩
  obtain ⟨later, same, closing, _⟩ := cancellation_stops sampleShared reached stored
    (by simpa using live) commit (.of_replay replayed) "w1" 0
  refine ⟨s, u, later, same, closing, ?_⟩
  have roles : (u.view "w1").roles 0 = (s.view "w1").roles 0 ++
      later.map fun entry => entry.op.role := by
    rw [RunState.roles, same, List.map_append]
    rfl
  rw [checked, of_decide_eq_true ended] at roles
  exact (List.cons.inj roles).2.symm

end Sample
end AgentRuntime
