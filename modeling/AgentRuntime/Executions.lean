import AgentRuntime.Library.Machines
import AgentRuntime.Transactions
import AgentRuntime.NodeRules

/-! The executions of one run over its checkpointed thread. `execute_run_sync` reads the run,
enters the graph with the input or with a decision, goes from node to node along the edges and
records how it ended; any other party commits transactions in between, and an execution may
crash at any operation. LangGraph follows its documentation: it merges inputs and patches
through the reducers, stores a checkpoint behind each node, resumes at the node that is next,
and an `interrupt` takes the resume value once and raises otherwise. -/
namespace AgentRuntime
open Machines Programs Tables

/-- The `recursion_limit` of both calls. -/
def recursionLimit : Nat := 20

/-- The supersteps that the limit leaves to an execution. LangGraph counts on from the step of
the stored checkpoint, and an input spends two of these steps before the first node. -/
def Entry.supersteps : Entry → Nat
  | .ainvoke => recursionLimit
  | .aresume _ => recursionLimit + 2

def ResumeValue.dump (value : ResumeValue) : Dict :=
  [("decision", .str value.decision.value), ("approval_id", .str value.approvalId),
    ("action_id", .str value.actionId)]

def initialState (runId : RunId) (inputText : String) : GraphState where
  messages := [Executor.message "user" inputText]
  runtime := [("run_id", .str runId.text)]

namespace CompiledGraph

/-- Where the edge behind a node leads; none is the end. -/
def next (py : Builtins) (graph : CompiledGraph) (node : NodeDef) (state : GraphState) :
    Except ExecError (Option NodeId) := do
  match ← graph.edge node with
  | .exit => return none
  | .goes target => return some target
  | .routed =>
      match ← graph.route (← state.decision py) with
      | none => return none
      | some id =>
          match graph.supervisorPathMap id with
          | some target => return some target
          | none => .error (.other (py.invalid "path map" (.str id)))

/-- The course of the graph from the node that is next, with the supersteps that remain.
LangGraph looks at the limit before it looks for a next node. -/
def drive (py : Builtins) (graph : CompiledGraph) (deps : RuntimeDependencies) :
    Nat → GraphState → Option NodeId → GraphProg GraphState
  | 0, _, _ => GraphProg.fail .graphRecursion
  | _ + 1, state, none => pure state
  | remaining + 1, state, some id =>
      match graph.nodeMap.find? id with
      | none => GraphProg.fail (.other (py.invalid "node" (.str id)))
      | some node => do
          let patch ← makeNode py graph deps node state
          let merged := state.merge patch
          let target ← GraphProg.ofExcept (graph.next py node merged)
          let _ : Unit ← Prog.request (Op.checkpoint ⟨merged, target⟩)
          graph.drive py deps remaining merged target

end CompiledGraph

/-- `LangGraphProgram`: a compiled graph that `compile_langgraph` accepts. -/
structure LangGraphProgram where
  definition : CompiledGraph
  accepted : definition.compileLanggraph.isOk = true

/-- The run whose executions are modelled, with its snapshot and the worker's services. -/
structure RunConfig where
  py : Builtins
  runId : RunId
  program : LangGraphProgram
  deps : RuntimeDependencies

/-- An execution behind its read of the run. It has no program before it enters the graph;
`answer` is the resume value that no interrupt has taken yet. -/
structure Execution where
  entry : Entry
  inputText : String
  program : Option (GraphProg GraphState) := none
  answer : Option ResumeValue := none
  history : List OpEntry := []

structure RunState where
  db : Database
  thread : Option Checkpoint := none
  current : Option Execution := none
  past : List Execution := []

/-- The answers of the services to one operation; a fault makes it raise. -/
structure Services where
  fault : Option ExecError := none
  nonce : String := ""
  result : ModelResult := {}
  call : CallResult := .returned .null
  retrieved : ToolResult := .ok []
  now : Time := 0
  recordId : ApprovalId := ""

inductive RunAction where
  | transact (tx : Tx)
  | read (ties : ApprovalRow → Nat)
  | launch
  | reply (services : Services)
  | finish
  | crash (begun : Bool)

def Database.isCancelled (db : Database) (runId : String) : Bool :=
  db.runs.rows.any fun run => run.id.text = runId && run.status = .cancelled

namespace Services

def orFault {α : Type} (services : Services) (value : α) : Except Raised α :=
  match services.fault with
  | some error => .error (.error error)
  | none => .ok value

def reply (services : Services) (py : Builtins) (db : Database) (answer : Option ResumeValue) :
    (op : Op) → Except Raised op.Answer
  | .cancelCheck runId => services.orFault (db.isCancelled runId)
  | .emit .. => .ok ()
  | .nonce => .ok services.nonce
  | .complete _ => services.orFault services.result
  | .invoke .. => .ok services.call
  | .retrieve .. => services.orFault services.retrieved
  | .now => .ok services.now
  | .createPending action => services.orFault (db.createPending py action services.recordId).1
  | .interrupt raised =>
      match answer with
      | some value => .ok (.obj value.dump)
      | none => .error (.interrupt raised)
  | .checkpoint _ => services.orFault ()

def tx (services : Services) : Op → Tx
  | .createPending action =>
      if services.fault.isNone then .createPending action services.recordId else .idle
  | _ => .idle

def thread (services : Services) (stored : Option Checkpoint) : Op → Option Checkpoint
  | .checkpoint next => if services.fault.isNone then some next else stored
  | _ => stored

end Services

namespace Execution

def replied (e : Execution) (op : Op) (next : op.Answer → GraphProg GraphState)
    (reply : Except Raised op.Answer) : Execution where
  entry := e.entry
  inputText := e.inputText
  program := some (Prog.after next reply)
  answer :=
    match op with
    | .interrupt _ => none
    | _ => e.answer
  history := e.history ++ [⟨op, .ofExcept reply⟩]

/-- How `execute_run_sync` classifies the end of its program. -/
def outcome (py : Builtins) : GraphProg GraphState → Option Outcome
  | .pure state =>
      some (completedOutcome ((state.data.getD "final_response" .null).orElse (.str "") |>.text py))
  | .raise (.error error) => some (classifyFailure error)
  | .raise (.interrupt _) => some pausedOutcome
  | .ask _ _ => none

/-- The history of an execution that crashes; an operation that has begun counts as asked. -/
def crashed (e : Execution) (begun : Bool) : Execution :=
  match begun, e.program with
  | true, some (.ask op _) => { e with history := e.history ++ [⟨op, .stopped⟩] }
  | _, _ => e

end Execution

/-- A transaction that records an approval of the run. Only its executions commit these. -/
def Tx.gates (runId : RunId) : Tx → Bool
  | .createPending action _ => action.runId = runId
  | _ => false

namespace RunState

/-- The checkpoint of an input: it is merged into the thread, and the entry is next. -/
def input (c : RunConfig) (thread : Option Checkpoint) (inputText : String) : Checkpoint where
  state := (thread.elim {} Checkpoint.state).merge (initialState c.runId inputText)
  next := some c.program.definition.entryId

/-- The program that goes on from a checkpoint, for a number of supersteps at most. -/
def course (c : RunConfig) (limit : Nat) (stored : Checkpoint) : GraphProg GraphState :=
  c.program.definition.drive c.py c.deps limit stored.state stored.next

def launch (c : RunConfig) (s : RunState) (e : Execution) : RunState :=
  match e.entry, s.thread with
  | .ainvoke, thread =>
      { s with
        thread := some (input c thread e.inputText)
        current := some
          { e with
            program := some (course c e.entry.supersteps (input c thread e.inputText)) } }
  | .aresume value, some stored =>
      { s with
        current := some
          { e with
            program := some (course c e.entry.supersteps stored)
            answer := some value } }
  | .aresume _, none =>
      { s with
        current := some { e with program := some (.raise (.error (.other "no checkpoint"))) } }

def step (c : RunConfig) (s : RunState) : RunAction → Option RunState
  | .transact tx =>
      if tx.gates c.runId then none else some { s with db := tx.apply c.py s.db }
  | .read ties =>
      match s.current, s.db.admission c.runId ties, s.db.runs.find? c.runId with
      | none, .enter entry, some run =>
          some { s with current := some { entry := entry, inputText := run.inputText } }
      | none, _, _ => some s
      | some _, _, _ => none
  | .launch =>
      match s.current with
      | some e => if e.program.isNone then some (s.launch c e) else none
      | none => none
  | .reply services =>
      match s.current with
      | some e =>
          match e.program with
          | some (.ask op next) =>
              some
                { s with
                  db := (services.tx op).apply c.py s.db
                  thread := services.thread s.thread op
                  current := some (e.replied op next (services.reply c.py s.db e.answer op)) }
          | _ => none
      | none => none
  | .finish =>
      match s.current with
      | some e =>
          (e.program.bind (Execution.outcome c.py)).map fun outcome =>
            { s with
              db := s.db.updateRun c.runId (persistedAttemptStatus outcome) outcome.output
                outcome.error outcome.terminationReason
              current := none
              past := s.past ++ [e] }
      | none => none
  | .crash begun =>
      s.current.map fun e =>
        { s with current := none, past := s.past ++ [e.crashed begun] }

def executed (s : RunState) : List Execution := s.past ++ s.current.toList

end RunState

/-- The run is new or not yet created: nothing was executed and no approval recorded. -/
def RunState.Initial (c : RunConfig) (s : RunState) : Prop :=
  s.thread = none ∧ s.current = none ∧ s.past = [] ∧
    ∀ approval ∈ s.db.approvals.rows, approval.runId ≠ c.runId

def executions (c : RunConfig) : Machine RunState RunAction := ⟨RunState.Initial c, RunState.step c⟩

inductive RunStep (c : RunConfig) (s : RunState) : RunAction → RunState → Prop
  | transact {tx : Tx} (other : tx.gates c.runId = false) :
      RunStep c s (.transact tx) { s with db := tx.apply c.py s.db }
  | enter {ties entry run} (idle : s.current = none)
      (admitted : s.db.admission c.runId ties = .enter entry)
      (stored : s.db.runs.find? c.runId = some run) :
      RunStep c s (.read ties)
        { s with current := some { entry := entry, inputText := run.inputText } }
  | stay {ties} (idle : s.current = none) : RunStep c s (.read ties) s
  | launch {e} (current : s.current = some e) (ready : e.program = none) :
      RunStep c s .launch (s.launch c e)
  | reply {services e op next} (current : s.current = some e)
      (asks : e.program = some (.ask op next)) :
      RunStep c s (.reply services)
        { s with
          db := (services.tx op).apply c.py s.db
          thread := services.thread s.thread op
          current := some (e.replied op next (services.reply c.py s.db e.answer op)) }
  | finish {e p outcome} (current : s.current = some e) (ran : e.program = some p)
      (ended : Execution.outcome c.py p = some outcome) :
      RunStep c s .finish
        { s with
          db := s.db.updateRun c.runId (persistedAttemptStatus outcome) outcome.output
            outcome.error outcome.terminationReason
          current := none
          past := s.past ++ [e] }
  | crash {begun e} (current : s.current = some e) :
      RunStep c s (.crash begun) { s with current := none, past := s.past ++ [e.crashed begun] }

theorem RunState.step_sound {c : RunConfig} {s t : RunState} {a : RunAction}
    (stepped : (executions c).step s a = some t) : RunStep c s a t := by
  change s.step c a = some t at stepped
  cases a with
  | transact tx =>
      simp only [step] at stepped
      split at stepped
      next => contradiction
      next other =>
        cases stepped
        exact .transact (by simpa using other)
  | read ties =>
      simp only [step] at stepped
      split at stepped
      next idle admitted stored =>
        cases stepped
        exact .enter idle admitted stored
      next idle _ =>
        cases stepped
        exact .stay idle
      next => contradiction
  | launch =>
      simp only [step] at stepped
      split at stepped
      next e current =>
        split at stepped
        next ready =>
          cases stepped
          exact .launch current (Option.isNone_iff_eq_none.mp ready)
        next => contradiction
      next => contradiction
  | reply services =>
      simp only [step] at stepped
      split at stepped
      next e current =>
        split at stepped
        next op next asks =>
          cases stepped
          exact .reply current asks
        next => contradiction
      next => contradiction
  | finish =>
      simp only [step] at stepped
      split at stepped
      next e current =>
        obtain ⟨outcome, found, rfl⟩ := Option.map_eq_some_iff.mp stepped
        obtain ⟨p, ran, ended⟩ := Option.bind_eq_some_iff.mp found
        exact .finish current ran ended
      next => contradiction
  | crash begun =>
      obtain ⟨e, current, rfl⟩ := Option.map_eq_some_iff.mp stepped
      exact .crash current

/-- The checkpoint from which an execution goes on when it enters the graph. -/
inductive Enters (c : RunConfig) (s : RunState) (e : Execution) : Checkpoint → Prop
  | ainvoke (entry : e.entry = .ainvoke) : Enters c s e (RunState.input c s.thread e.inputText)
  | aresume {value stored} (entry : e.entry = .aresume value) (found : s.thread = some stored) :
      Enters c s e stored

/-- An execution that has entered the graph runs the course of a checkpoint, or raises since
there is none. -/
theorem RunState.launch_cases (c : RunConfig) (s : RunState) (e : Execution) :
    ∃ p answer, (s.launch c e).current = some { e with program := some p, answer := answer } ∧
      (s.launch c e).past = s.past ∧ (s.launch c e).db = s.db ∧
      (answer = e.answer ∨ ∃ value, e.entry = .aresume value ∧ answer = some value) ∧
      ((∃ error, p = .raise error) ∨
        ∃ stored, Enters c s e stored ∧ p = course c e.entry.supersteps stored) := by
  unfold launch
  split
  next entry => exact ⟨_, _, rfl, rfl, rfl, .inl rfl, .inr ⟨_, .ainvoke entry, rfl⟩⟩
  next value stored entry found =>
    exact ⟨_, _, rfl, rfl, rfl, .inr ⟨value, entry, rfl⟩, .inr ⟨_, .aresume entry found, rfl⟩⟩
  next => exact ⟨_, _, rfl, rfl, rfl, .inl rfl, .inl ⟨_, rfl⟩⟩

theorem RunState.mem_executed {s : RunState} {e : Execution} :
    e ∈ s.executed ↔ e ∈ s.past ∨ s.current = some e := by
  rw [executed, List.mem_append, Option.mem_toList]

/-- Every execution so far asked each operation where `P` allows it, and the program of the
current one goes on to. -/
structure Obeys (P : List OpEntry → Op → Prop) (s : RunState) : Prop where
  past : ∀ e ∈ s.past, Follows P e.history
  follows : ∀ e, s.current = some e → Follows P e.history
  ready : ∀ e, s.current = some e → e.program = none → e.history = []
  program : ∀ e p, s.current = some e → e.program = some p → wp P (fun _ _ => True) e.history p

namespace Obeys
variable {P : List OpEntry → Op → Prop} {c : RunConfig} {s t : RunState} {a : RunAction}

theorem of_initial (first : RunState.Initial c s) : Obeys P s := by
  obtain ⟨_, current, past, _⟩ := first
  refine ⟨?_, ?_, ?_, ?_⟩ <;> simp [current, past]

theorem crashed (obeys : Obeys P s) {e : Execution} (current : s.current = some e)
    (begun : Bool) : Follows P (e.crashed begun).history := by
  unfold Execution.crashed
  split
  next op next asks =>
    exact (obeys.follows e current).snoc (obeys.program e _ current asks).1
  next => exact obeys.follows e current

theorem ended (past : ∀ e ∈ s.past, Follows P e.history) {e : Execution}
    (follows : Follows P e.history) (db : Database) :
    Obeys P { s with db := db, current := none, past := s.past ++ [e] } := by
  refine ⟨fun other member => ?_, ?_, ?_, ?_⟩
  · rcases List.mem_append.mp member with old | new
    · exact past other old
    · rw [List.mem_singleton.mp new]
      exact follows
  all_goals intros; contradiction

theorem step (obeys : Obeys P s) (stepped : RunStep c s a t)
    (courses : ∀ e stored, s.current = some e → Enters c s e stored →
      wp P (fun _ _ => True) [] (RunState.course c e.entry.supersteps stored)) : Obeys P t := by
  cases stepped with
  | transact other => exact ⟨obeys.past, obeys.follows, obeys.ready, obeys.program⟩
  | enter idle admitted stored =>
      refine ⟨obeys.past, ?_, ?_, ?_⟩
      · intro e current
        cases current
        exact .nil
      · intro e current _
        cases current
        rfl
      · intro e p current ran
        cases current
        contradiction
  | stay idle => exact obeys
  | @launch e current ready =>
      obtain ⟨p, answer, after, past, _, _, program⟩ := s.launch_cases c e
      have empty := obeys.ready e current ready
      refine ⟨past ▸ obeys.past, ?_, ?_, ?_⟩
      · intro f same
        cases after.symm.trans same
        simpa only [empty] using Follows.nil
      · intro f same none
        cases after.symm.trans same
        contradiction
      · intro f q same ran
        cases after.symm.trans same
        cases ran
        rw [empty]
        rcases program with ⟨error, rfl⟩ | ⟨stored, enters, rfl⟩
        · trivial
        · exact courses e stored current enters
  | @reply services e op next current asks =>
      have asked := obeys.program e _ current asks
      refine ⟨obeys.past, ?_, ?_, ?_⟩
      · intro f same
        cases same
        exact (obeys.follows e current).snoc asked.1
      · intro f same none
        cases same
        contradiction
      · intro f q same ran
        cases same
        cases ran
        exact wp_after asked _
  | finish current ran ended => exact Obeys.ended obeys.past (obeys.follows _ current) _
  | crash current => exact Obeys.ended obeys.past (obeys.crashed current _) s.db

end Obeys

/-- A rule and an invariant that hold along the edges, from the next node on. -/
theorem drive_wp {py : Builtins} {graph : CompiledGraph} {deps : RuntimeDependencies}
    {P : List OpEntry → Op → Prop} {J : Nat → NodeId → GraphState → Prop}
    (asks : ∀ remaining id node state history op, J (remaining + 1) id state →
      graph.nodeMap.find? id = some node → NodeRule py deps node state history op →
      P history op)
    (stores : ∀ remaining id node state patch target history, J (remaining + 1) id state →
      graph.nodeMap.find? id = some node → Patched py deps node state patch →
      graph.next py node (state.merge patch) = .ok target →
      P history (.checkpoint ⟨state.merge patch, target⟩) ∧
        ∀ id', target = some id' → J remaining id' (state.merge patch))
    {remaining : Nat} {next : Option NodeId} {state : GraphState}
    (holds : ∀ id, next = some id → J remaining id state) (history : List OpEntry) :
    wp P (fun _ _ => True) history (graph.drive py deps remaining state next) := by
  induction remaining generalizing next state history with
  | zero => trivial
  | succ remaining ih =>
      cases next with
      | none => trivial
      | some id =>
          have here := holds id rfl
          unfold CompiledGraph.drive
          split
          next => trivial
          next node found =>
            refine wp_seq (wp_mono (fun _ _ => asks _ _ _ _ _ _ here found) (fun _ _ same => same)
              makeNode_wp) fun _ patch patched => ?_
            refine wp_seq (ofExcept_wp _) fun before target reached => ?_
            have after := stores _ _ _ _ _ _ before here found patched reached.2
            exact wp_request_seq after.1 fun _ => ih after.2 _

theorem course_wp {c : RunConfig} {P : List OpEntry → Op → Prop}
    (asks : ∀ node state history op, c.program.definition.nodeMap.find? node.id = some node →
      NodeRule c.py c.deps node state history op → P history op)
    (stores : ∀ history stored, P history (.checkpoint stored)) (limit : Nat)
    (stored : Checkpoint) :
    wp P (fun _ _ => True) [] (RunState.course c limit stored) := by
  refine drive_wp (J := fun _ _ _ => True) ?_ ?_ (fun _ _ => trivial) []
  · intro remaining id node state history op _ found rule
    have same : node.id = id := Table.key_of_find? found
    exact asks node state history op (same ▸ found) rule
  · intro remaining id node state patch target history _ _ _ _
    exact ⟨stores _ _, fun _ _ => trivial⟩

theorem Obeys.executed {P : List OpEntry → Op → Prop} {s : RunState} (obeys : Obeys P s)
    {e : Execution} (member : e ∈ s.executed) : Follows P e.history :=
  (RunState.mem_executed.mp member).elim (obeys.past e) (obeys.follows e)

end AgentRuntime
