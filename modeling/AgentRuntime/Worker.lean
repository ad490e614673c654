import Mathlib.Logic.Function.Basic
import AgentRuntime.Library.Machines
import AgentRuntime.Transactions

/-! The running system: API processes, any number of workers and the checkpointed
threads, over one database. Each step commits at most one transaction, so a run of the
machine is an interleaving of the transactions of `run_once`, `execute_job`,
`execute_run_sync`, the heartbeat loop and the API requests. -/
namespace AgentRuntime
open Machines Tables

structure WorkerConfig where
  leaseSeconds : Nat := 60
  retryDelaySeconds : Nat := 5

structure Config where
  py : Builtins
  worker : WorkerId → WorkerConfig

/-- What the executions of a run see of its checkpoint thread: the inputs merged into
it and the pending interrupt. -/
structure Thread where
  inputs : List String := []
  outstanding : Option Interrupt := none

/-- Where the graph stands between two awaits. -/
inductive GraphPhase where
  | ready
  | inNode (node : NodeId)
  | gated (node : NodeId) (raised : Interrupt)

/-- Where the job handler stands: `execute_job` around `execute_run_sync`. -/
inductive HandlerPhase where
  | loadJob
  | loadRun (inputText : String)
  | start (inputText : String) (entry : Entry)
  | launch (inputText : String) (entry : Entry)
  | graph (resume : Option ResumeValue) (phase : GraphPhase)
  | record (outcome : Outcome)

/-- Where `run_once` stands, after `claim_next` returned a job. -/
inductive Phase where
  | setRunning
  | handling (handler : HandlerPhase)
  | handled (result : HandlerResult)
  | complete (status : RunStatus)
  | promote
  | failWithoutRetry (error : String)
  | setFailed (error : String)
  | emitFailed (error : String)
  | fail (error : String)
  | setRetry (error : String)
  | emitRetry (error : String)

/-- The heartbeat task: waiting for its interval, about to commit with the clock reading
it took, or ended. -/
inductive Heartbeat where
  | waiting
  | beating (now : Time)
  | stopped
  deriving DecidableEq

/-- One `run_once` of a worker. `leaseUntil` is no variable of the source: it is the
expiry that this worker last wrote to the job, and none once it released the job. -/
structure Attempt where
  job : JobRow
  phase : Phase := .setRunning
  heartbeat : Heartbeat := .stopped
  leaseLost : Bool := false
  leaseUntil : Option Time

inductive Activity where
  | idle
  | polling (now : Time)
  | busy (attempt : Attempt)

/-- A worker process. Each emitter of the process has a lane of emitted events that its
background tasks have still to store, in emission order; the newest lane is first. -/
structure Worker where
  activity : Activity := .idle
  lanes : List (List RuntimeEvent) := []

/-- The effect of one step of a `run_once`; it has returned when `attempt` is `none`. -/
structure Effect where
  attempt : Option Attempt
  tx : Tx := .idle
  emitted : List RuntimeEvent := []
  opensLane : Bool := false
  thread : Option Thread := none

namespace Attempt

/-- `attempts_exhausted`, from the claimed copy of the job. -/
def exhausted (a : Attempt) : Bool := a.job.budget ≤ a.job.attemptCount

def event (a : Attempt) (type : EventType) (node : Option NodeId := none) (payload : Dict := []) :
    RuntimeEvent := ⟨type, a.job.runId, node, payload⟩

def runFailedEvent (a : Attempt) (error : String) : RuntimeEvent :=
  a.event .runFailed none [("error", .str error), ("attempts", .int a.job.attemptCount)]

def retryingEvent (a : Attempt) (retryDelaySeconds : Nat) : RuntimeEvent :=
  a.event .llmRetrying none [("scope", .str "worker_job"), ("attempt", .int a.job.attemptCount),
    ("retry_in_seconds", .int retryDelaySeconds)]

def goto (a : Attempt) (phase : Phase) : Option Attempt := some { a with phase := phase }

def release (a : Attempt) (phase : Phase) : Option Attempt :=
  some { a with phase := phase, leaseUntil := none }

/-- The branch of `run_once` that the end of the handler selects. -/
def branch : HandlerResult → Phase
  | .returned status => .complete status
  | .raised message => .fail message
  | .notRetryable message => .failWithoutRetry message

/-- The next transaction of `run_once` itself. After the handler ended it first joins
the heartbeat task, so a heartbeat that is committing is awaited. -/
def advance (c : WorkerConfig) (w : WorkerId) (now : Time) (a : Attempt) : Option Effect :=
  match a.phase with
  | .setRunning =>
      some
        { attempt := some { a with phase := .handling .loadJob, heartbeat := .waiting }
          tx := .setRunStatus a.job.runId .running none }
  | .handling _ => none
  | .handled result =>
      match a.heartbeat with
      | .beating _ => none
      | _ => some { attempt := some { a with phase := branch result, heartbeat := .stopped } }
  | .complete status =>
      some
        { attempt := if status = .completed then a.release .promote else none
          tx := .complete w a.job.id now }
  | .promote => some { attempt := none, tx := .setRunStatus a.job.runId .completed none }
  | .failWithoutRetry error =>
      some { attempt := a.release (.setFailed error), tx := .failWithoutRetry w a.job.id error now }
  | .setFailed error =>
      some
        { attempt := a.goto (.emitFailed error)
          tx := .setRunStatus a.job.runId .failed (some error) }
  | .emitFailed error =>
      some { attempt := none, tx := .appendMany a.job.runId [a.runFailedEvent error] }
  | .fail error =>
      some
        { attempt := a.release (.setRetry error)
          tx := .fail w a.job.id error c.retryDelaySeconds now }
  | .setRetry error =>
      some
        { attempt := a.goto (.emitRetry error)
          tx := .setRunStatus a.job.runId (if a.exhausted then .failed else .queued) (some error) }
  | .emitRetry error =>
      some
        { attempt := none
          tx := .appendMany a.job.runId
            [if a.exhausted then a.runFailedEvent error else a.retryingEvent c.retryDelaySeconds] }

/-- The pending statement raises. Outside the `try` of `execute_run_sync` the handler
task ends with the exception; before and after the handler it is caught by
`except Exception`; inside an `except` branch it leaves `run_once`. -/
def raises (message : String) (a : Attempt) : Option Effect :=
  match a.phase with
  | .setRunning | .complete _ | .promote => some { attempt := a.goto (.fail message) }
  | .handling .loadJob | .handling (.loadRun _) | .handling (.record _) =>
      if a.leaseLost then none else some { attempt := a.goto (.handled (.raised message)) }
  | .handling _ | .handled _ => none
  | .failWithoutRetry _ | .setFailed _ | .emitFailed _ | .fail _ | .setRetry _ | .emitRetry _ =>
      some { attempt := none }

end Attempt

def EventType.nodeBody : EventType → Bool
  | .llmRequested | .llmCompleted | .llmFailed | .llmFallback | .toolStarted | .toolCompleted
  | .ragStarted | .ragCompleted | .subagentStarted | .subagentCompleted => true
  | _ => false

/-- A step of the job handler. The behaviour of the graph is left open: which nodes run,
what they emit, which of them ask for an approval and how the graph ends. -/
inductive HandlerMove where
  | load (ties : ApprovalRow → Nat)
  | start
  | launch
  | checkCancel (node : NodeId)
  | emit (event : RuntimeEvent)
  | gate (action : String) (toolName : Option String) (arguments : Dict) (expiresAt : Time)
      (id : ApprovalId)
  | interrupt
  | nodeCompleted
  | finish (output : String)
  | throw (error : ExecError)
  | updateRun

namespace Attempt

def handler (a : Attempt) (phase : HandlerPhase) : Option Attempt := a.goto (.handling phase)

/-- `execute_job` reads the run and returns the status of a terminal one. -/
def loadJob (db : Database) (a : Attempt) : Effect :=
  match db.runs.find? a.job.runId with
  | none => { attempt := a.goto (.handled (.raised ("run not found: " ++ a.job.runId.text))) }
  | some run =>
      if run.status.terminal then { attempt := a.goto (.handled (.returned run.status)) }
      else { attempt := a.handler (.loadRun run.inputText) }

/-- `execute_run_sync` reads the run and decides how to enter the graph. -/
def loadRun (db : Database) (ties : ApprovalRow → Nat) (inputText : String) (a : Attempt) : Effect :=
  match db.admission a.job.runId ties with
  | .notFound => { attempt := a.goto (.handled (.raised ("run not found: " ++ a.job.runId.text))) }
  | .pausedWithoutApproval => { attempt := a.goto (.handled (.returned .paused)) }
  | .enter entry => { attempt := a.handler (.start inputText entry) }

/-- `ainvoke` merges the input and drops the pending interrupt; `aresume` keeps the
thread and hands the value to the interrupt. -/
def launch (thread : Thread) (inputText : String) (entry : Entry) (a : Attempt) : Effect :=
  match entry with
  | .ainvoke =>
      { attempt := a.handler (.graph none .ready)
        thread := some { inputs := thread.inputs ++ [inputText], outstanding := none } }
  | .aresume value => { attempt := a.handler (.graph (some value) .ready) }

/-- The exception is classified, reported and recorded. -/
def throw (error : ExecError) (a : Attempt) : Effect :=
  { attempt := a.handler (.record (classifyFailure error))
    emitted := [a.event .runAttemptFailed none
      [("error", .str (textOr (classifyFailure error).error "")),
        ("termination_reason", .str (classifyFailure error).terminationReason)]] }

/-- Only the cancel check raises `RunCancelledError`. -/
def throws (error : ExecError) (a : Attempt) : Option Effect :=
  if error.cancels then none else some (a.throw error)

theorem throws_eq_some {error : ExecError} {a : Attempt} {e : Effect} :
    a.throws error = some e ↔ error.cancels = false ∧ a.throw error = e := by
  unfold throws
  cases error.cancels <;> simp

/-- The cancel check in front of a node, then `node.started`. -/
def checkCancel (db : Database) (node : NodeId) (resume : Option ResumeValue) (a : Attempt) :
    Effect :=
  if (db.runs.find? a.job.runId).any fun run => run.status = .cancelled then
    a.throw (.runCancelled ("run " ++ a.job.runId.text ++ " cancelled before node " ++ node))
  else
    { attempt := a.handler (.graph resume (.inNode node))
      emitted := [a.event .nodeStarted (some node)] }

/-- `_require_approval` commits the record of the action before it interrupts. -/
def gate (py : Builtins) (db : Database) (node : NodeId) (resume : Option ResumeValue)
    (pending : PendingAction) (id : ApprovalId) (a : Attempt) : Effect :=
  { attempt := a.handler
      (.graph resume (.gated node (pending.interrupt py (db.createPending py pending id).1)))
    tx := .createPending pending id }

/-- `interrupt` returns the resume value to the pending interrupt of the thread, and
otherwise pauses the thread. -/
def interrupt (thread : Thread) (node : NodeId) (raised : Interrupt) (resume : Option ResumeValue)
    (a : Attempt) : Effect :=
  match resume, thread.outstanding with
  | some _, some _ =>
      { attempt := a.handler (.graph none (.inNode node))
        thread := some { thread with outstanding := none } }
  | _, _ =>
      { attempt := a.handler (.record pausedOutcome)
        emitted := [a.event .approvalRequired none
          [("interrupts", .arr [.obj raised.payload])]]
        thread := some { thread with outstanding := some raised } }

def updateRun (outcome : Outcome) (a : Attempt) : Effect :=
  { attempt := a.goto (.handled (handlerResult outcome))
    tx := .updateRun a.job.runId (persistedAttemptStatus outcome) outcome.output outcome.error
      outcome.terminationReason }

def handlerStep (py : Builtins) (db : Database) (thread : Thread) (drained : Bool) (a : Attempt)
    (phase : HandlerPhase) (move : HandlerMove) : Option Effect :=
  match phase, move with
  | .loadJob, .load _ => some (a.loadJob db)
  | .loadRun inputText, .load ties => some (a.loadRun db ties inputText)
  | .start inputText entry, .start =>
      some
        { attempt := a.handler (.launch inputText entry)
          emitted := if db.hasEvent a.job.runId .runStarted then [] else [a.event .runStarted]
          opensLane := true }
  | .launch inputText entry, .launch => some (a.launch thread inputText entry)
  | .graph resume .ready, .checkCancel node => some (a.checkCancel db node resume)
  | .graph resume (.inNode node), .emit event =>
      if event.type.nodeBody then
        some
          { attempt := a.handler (.graph resume (.inNode node))
            emitted := [a.event event.type (some node) event.payload] }
      else none
  | .graph resume (.inNode node), .gate action toolName arguments expiresAt id =>
      if (db.approvals.find? id).isSome then none
      else
        some (a.gate py db node resume
          (pendingAction py a.job.runId node action toolName arguments expiresAt) id)
  | .graph resume (.gated node raised), .interrupt => some (a.interrupt thread node raised resume)
  | .graph resume (.inNode node), .nodeCompleted =>
      some
        { attempt := a.handler (.graph resume .ready)
          emitted := [a.event .nodeCompleted (some node)] }
  | .graph _ .ready, .finish output =>
      some
        { attempt := a.handler (.record (completedOutcome output))
          emitted := [a.event .runCompleted none
            [("termination_reason", .str "supervisor_final")]] }
  | .start _ _, .throw error | .launch _ _, .throw error | .graph _ _, .throw error =>
      a.throws error
  | .record outcome, .updateRun => if drained then some (a.updateRun outcome) else none
  | _, _ => none

/-- A cancelled handler task makes no step of its own. Only the transaction it was
awaiting may still be committed, and the task then ends with the cancellation. -/
def handle (py : Builtins) (db : Database) (thread : Thread) (drained : Bool) (a : Attempt)
    (phase : HandlerPhase) (move : HandlerMove) : Option Effect :=
  if a.leaseLost then
    match move with
    | .gate .. | .updateRun =>
        (a.handlerStep py db thread drained phase move).map fun e => { e with attempt := none }
    | _ => none
  else a.handlerStep py db thread drained phase move

/-- The commit of a heartbeat. When no row was updated the lease is lost, and a handler
that has not ended is cancelled. -/
def beat (c : WorkerConfig) (w : WorkerId) (db : Database) (a : Attempt) : Option Effect :=
  match a.heartbeat with
  | .beating now =>
      some
        { attempt :=
            if db.leaseHeld w a.job.id then
              some { a with heartbeat := .waiting, leaseUntil := some (now + c.leaseSeconds) }
            else some { a with heartbeat := .stopped, leaseLost := true }
          tx := .heartbeat w a.job.id c.leaseSeconds now }
  | _ => none

/-- `CancelledError` reaches `await handler_task` with `lease_lost` set, so `run_once`
raises `JobLeaseLostError` and returns. -/
def cancelHandler (a : Attempt) : Option Effect :=
  match a.phase with
  | .handling _ => if a.leaseLost then some { attempt := none } else none
  | _ => none

end Attempt

inductive Move where
  | poll
  | claim (locked : JobRow → Bool)
  | advance
  | handler (move : HandlerMove)
  | raises (message : String)
  | readClock
  | beat
  | beatRaises
  | cancelHandler
  | persist (lane : Nat)
  | crash

inductive Request where
  | createRun (new : NewRun) (jobId : JobId)
  | cancelRun (id : RunId)
  | resolve (id : ApprovalId) (status : ApprovalStatus) (resolvedBy : String)
      (reason : Option String) (jobId : JobId)
  | enqueue (id : RunId) (jobId : JobId)
  | append (position : Nat)
  | abandon (position : Nat)

inductive Action where
  | tick (seconds : Nat)
  | request (request : Request)
  | work (worker : WorkerId) (move : Move)

/-- `apiEvents` are the events of committed requests that their processes have still to
append. -/
structure Sys where
  clock : Time
  db : Database
  workers : WorkerId → Worker
  threads : RunId → Thread
  apiEvents : List RuntimeEvent

def Sys.start (clock : Time) : Sys :=
  ⟨clock, .empty, fun _ => {}, fun _ => {}, []⟩

namespace Worker

/-- The events of a step join the newest lane, or a new one. -/
def emit (emitted : List RuntimeEvent) (opensLane : Bool) (lanes : List (List RuntimeEvent)) :
    List (List RuntimeEvent) :=
  if opensLane then emitted :: lanes
  else
    match lanes with
    | [] => [emitted]
    | lane :: rest => (lane ++ emitted) :: rest

def drained (worker : Worker) : Bool :=
  match worker.lanes with
  | [] => true
  | lane :: _ => lane.isEmpty

def after (worker : Worker) (e : Effect) : Worker where
  activity := match e.attempt with
    | none => .idle
    | some a => .busy a
  lanes := emit e.emitted e.opensLane worker.lanes

theorem after_busy {worker : Worker} {e : Effect} {a : Attempt} :
    (worker.after e).activity = .busy a ↔ e.attempt = some a := by
  cases next : e.attempt <;> simp [after, next]

end Worker

namespace Sys

def attempt? (s : Sys) (w : WorkerId) : Option Attempt :=
  match (s.workers w).activity with
  | .busy a => some a
  | _ => none

theorem attempt?_eq_some {s : Sys} {w : WorkerId} {a : Attempt} :
    s.attempt? w = some a ↔ (s.workers w).activity = .busy a := by
  unfold attempt?
  split
  next b busy => rw [busy, Option.some.injEq, Activity.busy.injEq]
  next idle => exact ⟨fun found => by contradiction, fun busy => absurd busy (idle a)⟩

def effect (c : Config) (s : Sys) (w : WorkerId) (a : Attempt) : Move → Option Effect
  | .advance => a.advance (c.worker w) w s.clock
  | .handler move =>
      match a.phase with
      | .handling phase =>
          a.handle c.py s.db (s.threads a.job.runId) (s.workers w).drained phase move
      | _ => none
  | .raises message => a.raises message
  | .readClock =>
      match a.heartbeat with
      | .waiting => some { attempt := some { a with heartbeat := .beating s.clock } }
      | _ => none
  | .beat => a.beat (c.worker w) w s.db
  | .beatRaises =>
      match a.heartbeat with
      | .beating _ => some { attempt := some { a with heartbeat := .stopped } }
      | _ => none
  | .cancelHandler => a.cancelHandler
  | .poll | .claim _ | .persist _ | .crash => none

/-- Commit the effect of a step of worker `w` on its attempt of the run `id`. -/
def commit (c : Config) (s : Sys) (w : WorkerId) (id : RunId) (e : Effect) : Sys :=
  { s with
    db := e.tx.apply c.py s.db
    workers := Function.update s.workers w ((s.workers w).after e)
    threads := match e.thread with
      | none => s.threads
      | some thread => Function.update s.threads id thread }

def setWorker (s : Sys) (w : WorkerId) (worker : Worker) : Sys :=
  { s with workers := Function.update s.workers w worker }

/-- `claim_next` with the clock reading taken before its transaction. -/
def claim (c : Config) (s : Sys) (w : WorkerId) (now : Time) (locked : JobRow → Bool) : Sys :=
  let leaseSeconds := (c.worker w).leaseSeconds
  match s.db.claimNext w leaseSeconds now locked with
  | (none, _) => s.setWorker w { s.workers w with activity := .idle }
  | (some job, db) =>
      { s with
        db := db
        workers := Function.update s.workers w
          { s.workers w with
            activity := .busy { job := job, leaseUntil := some (now + leaseSeconds) } } }

/-- A background task stores the oldest event of a lane. -/
def persist (c : Config) (s : Sys) (w : WorkerId) (lane : Nat) : Option Sys :=
  match (s.workers w).lanes[lane]? with
  | some (event :: rest) =>
      some
        { s with
          db := s.db.appendMany c.py event.runId [event]
          workers := Function.update s.workers w
            { s.workers w with lanes := (s.workers w).lanes.set lane rest } }
  | _ => none

def work (c : Config) (s : Sys) (w : WorkerId) (move : Move) : Option Sys :=
  match move with
  | .persist lane => s.persist c w lane
  | .crash => some (s.setWorker w {})
  | .poll =>
      match (s.workers w).activity with
      | .idle => some (s.setWorker w { s.workers w with activity := .polling s.clock })
      | _ => none
  | .claim locked =>
      match (s.workers w).activity with
      | .polling now => some (s.claim c w now locked)
      | _ => none
  | move =>
      match s.attempt? w with
      | some a => (s.effect c w a move).map (s.commit c w a.job.runId)
      | none => none

/-- The transaction of a request, and the event its process appends afterwards. -/
def serve (c : Config) (s : Sys) : Request → Option Sys
  | .createRun new jobId =>
      if (s.db.runs.find? new.id).isSome || (s.db.jobs.find? jobId).isSome then none
      else
        some
          { s with
            db := (Tx.createRun new jobId s.clock).apply c.py s.db
            apiEvents := s.apiEvents ++ [⟨.modelResolved, new.id, none, new.modelDecision⟩] }
  | .cancelRun id =>
      if (s.db.runs.find? id).any fun run => !run.status.terminal then
        some
          { s with
            db := (Tx.cancelRun id).apply c.py s.db
            apiEvents := s.apiEvents ++
              [⟨.runCancelled, id, none, [("reason", .str "user_cancelled")]⟩] }
      else none
  | .resolve id status resolvedBy reason jobId =>
      if (status = .approved ∨ status = .rejected) ∧ s.db.jobs.find? jobId = none then
        some { s with
          db := (Tx.resolveAndEnqueue id status resolvedBy reason s.clock jobId).apply c.py s.db }
      else none
  | .enqueue id jobId =>
      if (s.db.runs.find? id).isSome ∧ s.db.jobs.find? jobId = none then
        some { s with db := (Tx.enqueue id jobId s.clock).apply c.py s.db }
      else none
  | .append position =>
      match s.apiEvents[position]? with
      | some event =>
          some
            { s with
              db := (Tx.appendMany event.runId [event]).apply c.py s.db
              apiEvents := s.apiEvents.eraseIdx position }
      | none => none
  | .abandon position => some { s with apiEvents := s.apiEvents.eraseIdx position }

def step (c : Config) (s : Sys) : Action → Option Sys
  | .tick seconds => some { s with clock := s.clock + seconds }
  | .request request => s.serve c request
  | .work w move => s.work c w move

end Sys

def system (c : Config) : Machine Sys Action where
  init s := ∃ clock, s = .start clock
  step := Sys.step c

section Sample

/-- A deployment with the default settings, for runs on fixed inputs. -/
def sampleConfig : Config where
  py := .onEmpty
  worker _ := {}

/-- `create_run` followed by a claim of its job. -/
def sampleClaim (w : WorkerId) : List Action :=
  [.request (.createRun ⟨sampleRun, "support", ⟨"support", [], [], "START", "END"⟩, [], "hello"⟩
      "job"),
    .work w .poll, .work w (.claim fun _ => false)]

end Sample
end AgentRuntime
