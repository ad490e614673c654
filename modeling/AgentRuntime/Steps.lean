import AgentRuntime.Worker

/-! What one step of the system can do. Every invariant of the system is derived from
these inversions and from the row lemmas of its transactions. -/
namespace AgentRuntime
open Machines Tables

/-- The conditions under which a transaction is issued. -/
def Tx.Issued (s : Sys) : Tx → Prop
  | .createRun new jobId now =>
      now = s.clock ∧ s.db.runs.find? new.id = none ∧ s.db.jobs.find? jobId = none
  | .resolveAndEnqueue _ status _ _ now jobId =>
      now = s.clock ∧ (status = .approved ∨ status = .rejected) ∧ s.db.jobs.find? jobId = none
  | .enqueue id jobId now =>
      now = s.clock ∧ (s.db.runs.find? id).isSome ∧ s.db.jobs.find? jobId = none
  | .createPending _ id => s.db.approvals.find? id = none
  | .claim worker _ now id =>
      (s.workers worker).activity = .polling now ∧
        ∃ job run, s.db.jobs.find? id = some job ∧ s.db.runs.find? job.runId = some run ∧
          claimable now run job = true
  | _ => True

def Tx.worker : Tx → Option WorkerId
  | .claim w .. | .heartbeat w .. | .complete w .. | .fail w .. | .failWithoutRetry w .. => some w
  | _ => none

def Tx.api : Tx → Bool
  | .idle | .createRun .. | .cancelRun _ | .resolveAndEnqueue .. | .enqueue .. | .appendMany .. =>
      true
  | _ => false

def Request.tx (s : Sys) : Request → Tx
  | .createRun new jobId => .createRun new jobId s.clock
  | .cancelRun id => .cancelRun id
  | .resolve id status resolvedBy reason jobId =>
      .resolveAndEnqueue id status resolvedBy reason s.clock jobId
  | .enqueue id jobId => .enqueue id jobId s.clock
  | .append position =>
      match s.apiEvents[position]? with
      | some event => .appendMany event.runId [event]
      | none => .idle
  | .abandon _ => .idle

theorem Request.tx_api (r : Request) (s : Sys) : (r.tx s).api = true := by
  cases r with
  | append position => simp only [tx]; split <;> rfl
  | createRun | cancelRun | resolve | enqueue | abandon => rfl

theorem Tx.worker_of_api {tx : Tx} (api : tx.api = true) : tx.worker = none := by
  cases tx <;> first | rfl | contradiction

namespace Sys

inductive Step (c : Config) (s : Sys) : Action → Sys → Prop
  | tick (seconds : Nat) : Step c s (.tick seconds) { s with clock := s.clock + seconds }
  | request (r events) : (r.tx s).Issued s →
      Step c s (.request r) { s with db := (r.tx s).apply c.py s.db, apiEvents := events }
  | persist {w lane event rest} : (s.workers w).lanes[lane]? = some (event :: rest) →
      Step c s (.work w (.persist lane))
        { s with
          db := (Tx.appendMany event.runId [event]).apply c.py s.db
          workers := Function.update s.workers w
            { s.workers w with lanes := (s.workers w).lanes.set lane rest } }
  | crash (w) : Step c s (.work w .crash) (s.setWorker w {})
  | poll {w} : (s.workers w).activity = .idle →
      Step c s (.work w .poll) (s.setWorker w { s.workers w with activity := .polling s.clock })
  | claimNone {w now locked} : (s.workers w).activity = .polling now →
      s.db.claimCandidate now locked = none →
      Step c s (.work w (.claim locked)) (s.setWorker w { s.workers w with activity := .idle })
  | claim {w now locked job} : (s.workers w).activity = .polling now →
      s.db.claimCandidate now locked = some job →
      Step c s (.work w (.claim locked))
        { s with
          db := (Tx.claim w (c.worker w).leaseSeconds now job.id).apply c.py s.db
          workers := Function.update s.workers w
            { s.workers w with
              activity := .busy
                { job := job.claimedBy w (c.worker w).leaseSeconds now
                  leaseUntil := some (now + (c.worker w).leaseSeconds) } } }
  | effect {w m a e} : s.attempt? w = some a → s.effect c w a m = some e →
      Step c s (.work w m) (s.commit c w a.job.runId e)

/-- The requests of the API, with what each has to find. -/
inductive Served (c : Config) (s : Sys) : Request → Sys → Prop
  | createRun {new jobId} : s.db.runs.find? new.id = none → s.db.jobs.find? jobId = none →
      Served c s (.createRun new jobId)
        { s with
          db := (Tx.createRun new jobId s.clock).apply c.py s.db
          apiEvents := s.apiEvents ++ [⟨.modelResolved, new.id, none, new.modelDecision⟩] }
  | cancelRun {id} : ((s.db.runs.find? id).any fun run => !run.status.terminal) = true →
      Served c s (.cancelRun id)
        { s with
          db := (Tx.cancelRun id).apply c.py s.db
          apiEvents := s.apiEvents ++
            [⟨.runCancelled, id, none, [("reason", .str "user_cancelled")]⟩] }
  | resolve {id status resolvedBy reason jobId} : status = .approved ∨ status = .rejected →
      s.db.jobs.find? jobId = none → Served c s (.resolve id status resolvedBy reason jobId)
        { s with
          db := (Tx.resolveAndEnqueue id status resolvedBy reason s.clock jobId).apply c.py s.db }
  | enqueue {id jobId} : (s.db.runs.find? id).isSome → s.db.jobs.find? jobId = none →
      Served c s (.enqueue id jobId) { s with db := (Tx.enqueue id jobId s.clock).apply c.py s.db }
  | append {position event} : s.apiEvents[position]? = some event →
      Served c s (.append position)
        { s with
          db := (Tx.appendMany event.runId [event]).apply c.py s.db
          apiEvents := s.apiEvents.eraseIdx position }
  | abandon {position} :
      Served c s (.abandon position) { s with apiEvents := s.apiEvents.eraseIdx position }

theorem serve_cases {c : Config} {s s' : Sys} {r : Request} (served : s.serve c r = some s') :
    Served c s r s' := by
  cases r with
  | createRun new jobId =>
      simp only [serve] at served
      split at served
      next => contradiction
      next fresh =>
        cases served
        simp only [Bool.or_eq_true, not_or, Bool.not_eq_true, Option.isSome_eq_false_iff,
          Option.isNone_iff_eq_none] at fresh
        exact .createRun fresh.1 fresh.2
  | cancelRun id =>
      simp only [serve] at served
      split at served
      next live => cases served; exact .cancelRun live
      next => contradiction
  | resolve id status resolvedBy reason jobId =>
      simp only [serve] at served
      split at served
      next issued => cases served; exact .resolve issued.1 issued.2
      next => contradiction
  | enqueue id jobId =>
      simp only [serve] at served
      split at served
      next issued => cases served; exact .enqueue issued.1 issued.2
      next => contradiction
  | append position =>
      simp only [serve] at served
      split at served
      next event found => cases served; exact .append found
      next => contradiction
  | abandon position => cases served; exact .abandon

theorem serve_step {c : Config} {s s' : Sys} {r : Request} (served : s.serve c r = some s') :
    Step c s (.request r) s' := by
  cases serve_cases served with
  | @createRun new jobId unknown fresh =>
      exact .request (.createRun new jobId) _ ⟨rfl, unknown, fresh⟩
  | @cancelRun id => exact .request (.cancelRun id) _ trivial
  | @resolve id status resolvedBy reason jobId decided fresh =>
      exact .request (.resolve id status resolvedBy reason jobId) s.apiEvents ⟨rfl, decided, fresh⟩
  | @enqueue id jobId known fresh =>
      exact .request (.enqueue id jobId) s.apiEvents ⟨rfl, known, fresh⟩
  | @append position event found =>
      have same : (Request.append position).tx s = .appendMany event.runId [event] := by
        simp only [Request.tx, found]
      have step : Step c s (.request (.append position)) _ :=
        .request _ (s.apiEvents.eraseIdx position) (by rw [same]; trivial)
      rwa [same] at step
  | @abandon position => exact .request (.abandon position) _ trivial

theorem claim_step {c : Config} {s : Sys} {w : WorkerId} {now : Time} {locked : JobRow → Bool}
    (polling : (s.workers w).activity = .polling now) :
    Step c s (.work w (.claim locked)) (s.claim c w now locked) := by
  unfold claim Database.claimNext
  cases found : s.db.claimCandidate now locked with
  | none => exact .claimNone polling found
  | some job => exact .claim polling found

theorem step_sound {c : Config} {s s' : Sys} {a : Action} (stepped : s.step c a = some s') :
    Step c s a s' := by
  cases a with
  | tick seconds => cases stepped; exact .tick seconds
  | request r => exact serve_step stepped
  | work w m =>
      have effectful (a : Attempt) (busy : s.attempt? w = some a)
          (applied : (s.effect c w a m).map (s.commit c w a.job.runId) = some s') :
          Step c s (.work w m) s' := by
        obtain ⟨e, effected, rfl⟩ := Option.map_eq_some_iff.mp applied
        exact .effect busy effected
      cases m with
      | persist lane =>
          simp only [step, work, persist] at stepped
          split at stepped
          next event rest at' => cases stepped; exact .persist at'
          next => contradiction
      | crash => cases stepped; exact .crash w
      | poll =>
          simp only [step, work] at stepped
          split at stepped
          next idle => cases stepped; exact .poll idle
          next => contradiction
      | claim locked =>
          simp only [step, work] at stepped
          split at stepped
          next now polling => cases stepped; exact claim_step polling
          next => contradiction
      | advance | handler | raises | readClock | beat | beatRaises | cancelHandler =>
          simp only [step, work] at stepped
          split at stepped
          next a busy => exact effectful a busy stepped
          next => contradiction

end Sys

def Tx.sparesJobs : Tx → Bool
  | .idle | .cancelRun _ | .createPending .. | .setRunStatus .. | .updateRun .. | .appendMany .. =>
      true
  | _ => false

/-- Phases in which the job has not been released. -/
def Phase.holds : Phase → Bool
  | .setRunning | .handling _ | .handled _ | .complete _ | .failWithoutRetry _ => true
  | .promote | .setFailed _ | .emitFailed _ | .fail _ | .setRetry _ | .emitRetry _ => false

/-- Phases in which the heartbeat task may be alive. -/
def Phase.serving : Phase → Bool
  | .handling _ | .handled _ => true
  | _ => false

/-- Phases in the `except` branch, from which an exception leaves `run_once`. -/
def Phase.unguarded : Phase → Bool
  | .failWithoutRetry _ | .setFailed _ | .emitFailed _ | .fail _ | .setRetry _ | .emitRetry _ =>
      true
  | _ => false

theorem Phase.holds_of_serving {phase : Phase} (serving : phase.serving = true) :
    phase.holds = true := by
  cases phase <;> first | rfl | contradiction

/-- The heartbeat is joined before the job is released, and the lease is kept until
then. -/
structure Attempt.Coherent (a : Attempt) : Prop where
  joined : a.phase.serving = false → a.heartbeat = .stopped
  leased : a.phase.holds = true → a.leaseUntil.isSome = true

theorem Tx.sparesJobs_find? {py : Builtins} {db : Database} {tx : Tx}
    (spares : tx.sparesJobs = true)
    (id : JobId) : (tx.apply py db).jobs.find? id = db.jobs.find? id := by
  rw [Tx.find?_jobs]
  cases tx with
  | idle | cancelRun | createPending | setRunStatus | updateRun | appendMany =>
      simp [Tx.onJob, Tx.newJob]
  | createRun | resolveAndEnqueue | enqueue | claim | heartbeat | complete | fail
  | failWithoutRetry => contradiction

namespace Attempt

theorem Coherent.serve {a next : Attempt} (coherent : a.Coherent) (holds : a.phase.holds = true)
    (serving : next.phase.serving = true) (same : next.leaseUntil = a.leaseUntil) :
    next.Coherent where
  joined idle := by rw [serving] at idle; contradiction
  leased _ := by rw [same]; exact coherent.leased holds

theorem Coherent.rest {a next : Attempt} (coherent : a.Coherent)
    (stopped : next.heartbeat = .stopped) (holds : next.phase.holds = true → a.phase.holds = true)
    (same : next.leaseUntil = a.leaseUntil) : next.Coherent where
  joined _ := stopped
  leased held := by rw [same]; exact coherent.leased (holds held)

theorem Coherent.renew {a : Attempt} (coherent : a.Coherent) (expiry : Time)
    (beating : a.heartbeat ≠ .stopped) :
    Attempt.Coherent { a with heartbeat := .waiting, leaseUntil := some expiry } where
  joined idle := absurd (coherent.joined idle) beating
  leased _ := rfl

end Attempt

/-- The transactions of `run_once` itself, with the phase each is issued in. -/
inductive Advanced (c : WorkerConfig) (w : WorkerId) (now : Time) (a : Attempt) : Effect → Prop
  | started : a.phase = .setRunning →
      Advanced c w now a
        { attempt := some { a with phase := .handling .loadJob, heartbeat := .waiting }
          tx := .setRunStatus a.job.runId .running none }
  | joined {result} : a.phase = .handled result → (∀ reading, a.heartbeat ≠ .beating reading) →
      Advanced c w now a
        { attempt := some { a with phase := Attempt.branch result, heartbeat := .stopped } }
  | completed : a.phase = .complete .completed →
      Advanced c w now a { attempt := a.release .promote, tx := .complete w a.job.id now }
  | closed {status} : a.phase = .complete status → status ≠ .completed →
      Advanced c w now a { attempt := none, tx := .complete w a.job.id now }
  | promoted : a.phase = .promote →
      Advanced c w now a { attempt := none, tx := .setRunStatus a.job.runId .completed none }
  | gaveUp {error} : a.phase = .failWithoutRetry error →
      Advanced c w now a
        { attempt := a.release (.setFailed error), tx := .failWithoutRetry w a.job.id error now }
  | reportedGivingUp {error} : a.phase = .setFailed error →
      Advanced c w now a
        { attempt := a.goto (.emitFailed error)
          tx := .setRunStatus a.job.runId .failed (some error) }
  | emittedFailure {error} : a.phase = .emitFailed error →
      Advanced c w now a
        { attempt := none, tx := .appendMany a.job.runId [a.runFailedEvent error] }
  | failed {error} : a.phase = .fail error →
      Advanced c w now a
        { attempt := a.release (.setRetry error)
          tx := .fail w a.job.id error c.retryDelaySeconds now }
  | reportedFailure {error} : a.phase = .setRetry error →
      Advanced c w now a
        { attempt := a.goto (.emitRetry error)
          tx := .setRunStatus a.job.runId (if a.exhausted then .failed else .queued) (some error) }
  | emittedRetry {error} : a.phase = .emitRetry error →
      Advanced c w now a
        { attempt := none
          tx := .appendMany a.job.runId
            [if a.exhausted then a.runFailedEvent error else a.retryingEvent c.retryDelaySeconds] }

theorem Attempt.advance_cases {c : WorkerConfig} {w : WorkerId} {now : Time} {a : Attempt}
    {e : Effect} (advanced : a.advance c w now = some e) : Advanced c w now a e := by
  unfold advance at advanced
  split at advanced
  next at' => cases advanced; exact .started at'
  next => contradiction
  next result at' =>
    split at advanced
    next => contradiction
    next idle => cases advanced; exact .joined at' idle
  next status at' =>
    cases advanced
    by_cases done : status = .completed
    · subst done
      exact .completed at'
    · simpa only [if_neg done] using .closed at' done
  next at' => cases advanced; exact .promoted at'
  next at' => cases advanced; exact .gaveUp at'
  next at' => cases advanced; exact .reportedGivingUp at'
  next at' => cases advanced; exact .emittedFailure at'
  next at' => cases advanced; exact .failed at'
  next at' => cases advanced; exact .reportedFailure at'
  next at' => cases advanced; exact .emittedRetry at'

/-- The steps of a handler task, with what each has to find. -/
inductive Handled (py : Builtins) (db : Database) (thread : Thread) (drained : Bool) (a : Attempt) :
    HandlerPhase → HandlerMove → Effect → Prop
  | missing {phase ties message} : db.runs.find? a.job.runId = none →
      (phase = .loadJob ∨ ∃ inputText, phase = .loadRun inputText) →
      Handled py db thread drained a phase (.load ties)
        { attempt := a.goto (.handled (.raised message)) }
  | ended {ties run} : db.runs.find? a.job.runId = some run → run.status.terminal = true →
      Handled py db thread drained a .loadJob (.load ties)
        { attempt := a.goto (.handled (.returned run.status)) }
  | loaded {ties run} : db.runs.find? a.job.runId = some run → run.status.terminal = false →
      Handled py db thread drained a .loadJob (.load ties)
        { attempt := a.handler (.loadRun run.inputText) }
  | waiting {inputText ties run} : db.runs.find? a.job.runId = some run → run.status = .paused →
      Handled py db thread drained a (.loadRun inputText) (.load ties)
        { attempt := a.goto (.handled (.returned .paused)) }
  | admitted {inputText ties entry} : db.admission a.job.runId ties = .enter entry →
      Handled py db thread drained a (.loadRun inputText) (.load ties)
        { attempt := a.handler (.start inputText entry) }
  | started {inputText entry} : Handled py db thread drained a (.start inputText entry) .start
      { attempt := a.handler (.launch inputText entry)
        emitted := if db.hasEvent a.job.runId .runStarted then [] else [a.event .runStarted]
        opensLane := true }
  | entered {inputText} : Handled py db thread drained a (.launch inputText .ainvoke) .launch
      { attempt := a.handler (.graph none .ready)
        thread := some { inputs := thread.inputs ++ [inputText], outstanding := none } }
  | resumed {inputText value} :
      Handled py db thread drained a (.launch inputText (.aresume value)) .launch
        { attempt := a.handler (.graph (some value) .ready) }
  | cancelled {resume node message run} : db.runs.find? a.job.runId = some run →
      run.status = .cancelled →
      Handled py db thread drained a (.graph resume .ready) (.checkCancel node)
        (a.throw (.runCancelled message))
  | nodeStarted {resume node} :
      ((db.runs.find? a.job.runId).any fun run => run.status = .cancelled) = false →
      Handled py db thread drained a (.graph resume .ready) (.checkCancel node)
        { attempt := a.handler (.graph resume (.inNode node))
          emitted := [a.event .nodeStarted (some node)] }
  | emitted {resume node event} : event.type.nodeBody = true →
      Handled py db thread drained a (.graph resume (.inNode node)) (.emit event)
        { attempt := a.handler (.graph resume (.inNode node))
          emitted := [a.event event.type (some node) event.payload] }
  | gated {resume node action toolName arguments expiresAt id} : db.approvals.find? id = none →
      Handled py db thread drained a (.graph resume (.inNode node))
        (.gate action toolName arguments expiresAt id)
        (a.gate py db node resume
          (pendingAction py a.job.runId node action toolName arguments expiresAt) id)
  | answered {resume node raised value pending} : resume = some value →
      thread.outstanding = some pending →
      Handled py db thread drained a (.graph resume (.gated node raised)) .interrupt
        { attempt := a.handler (.graph none (.inNode node))
          thread := some { thread with outstanding := none } }
  | paused {resume node raised} : resume = none ∨ thread.outstanding = none →
      Handled py db thread drained a (.graph resume (.gated node raised)) .interrupt
        { attempt := a.handler (.record pausedOutcome)
          emitted := [a.event .approvalRequired none
            [("interrupts", .arr [.obj raised.payload])]]
          thread := some { thread with outstanding := some raised } }
  | nodeCompleted {resume node} :
      Handled py db thread drained a (.graph resume (.inNode node)) .nodeCompleted
        { attempt := a.handler (.graph resume .ready)
          emitted := [a.event .nodeCompleted (some node)] }
  | finished {resume output} :
      Handled py db thread drained a (.graph resume .ready) (.finish output)
        { attempt := a.handler (.record (completedOutcome output))
          emitted := [a.event .runCompleted none
            [("termination_reason", .str "supervisor_final")]] }
  | threw {phase error} : (∀ outcome, phase ≠ .record outcome) → error.cancels = false →
      Handled py db thread drained a phase (.throw error) (a.throw error)
  | recorded {outcome} : drained = true →
      Handled py db thread drained a (.record outcome) .updateRun (a.updateRun outcome)

namespace Attempt

theorem handlerStep_cases {py : Builtins} {db : Database} {thread : Thread} {drained : Bool}
    {a : Attempt} {phase : HandlerPhase} {move : HandlerMove} {e : Effect}
    (stepped : a.handlerStep py db thread drained phase move = some e) :
    Handled py db thread drained a phase move e := by
  unfold handlerStep at stepped
  split at stepped
  next =>
    cases stepped
    unfold loadJob
    cases stored : db.runs.find? a.job.runId with
    | none => exact .missing stored (.inl rfl)
    | some run =>
        cases terminal : run.status.terminal with
        | true => simpa only [terminal, if_true] using .ended stored terminal
        | false => simpa [terminal] using .loaded stored terminal
  next inputText ties =>
    cases stepped
    unfold loadRun
    rcases db.admission_cases a.job.runId ties with
      ⟨same, absent⟩ | ⟨same, run, stored, paused⟩ | ⟨entry, same⟩ <;> rw [same]
    · exact .missing absent (.inr ⟨inputText, rfl⟩)
    · exact .waiting stored paused
    · exact .admitted same
  next => cases stepped; exact .started
  next inputText entry =>
    cases stepped
    cases entry with
    | ainvoke => exact .entered
    | aresume value => exact .resumed
  next resume node =>
    cases stepped
    unfold checkCancel
    split
    next any =>
      obtain ⟨run, stored, status⟩ := (Option.any_eq_true _ _).mp any
      exact .cancelled stored (of_decide_eq_true status)
    next none => exact .nodeStarted (by simpa using none)
  next =>
    split at stepped
    next body => cases stepped; exact .emitted body
    next => contradiction
  next =>
    split at stepped
    next => contradiction
    next fresh => cases stepped; exact .gated (Option.not_isSome_iff_eq_none.mp fresh)
  next resume _ _ =>
    cases stepped
    unfold interrupt
    cases resume with
    | none => exact .paused (.inl rfl)
    | some value =>
        cases outstanding : thread.outstanding with
        | none => exact .paused (.inr outstanding)
        | some pending => exact .answered rfl outstanding
  next => cases stepped; exact .nodeCompleted
  next => cases stepped; exact .finished
  next =>
    obtain ⟨spontaneous, rfl⟩ := throws_eq_some.mp stepped
    exact .threw (by simp) spontaneous
  next =>
    obtain ⟨spontaneous, rfl⟩ := throws_eq_some.mp stepped
    exact .threw (by simp) spontaneous
  next =>
    obtain ⟨spontaneous, rfl⟩ := throws_eq_some.mp stepped
    exact .threw (by simp) spontaneous
  next =>
    split at stepped
    next drained => cases stepped; exact .recorded drained
    next => contradiction
  next => contradiction

theorem handlerStep_goto {py : Builtins} {db : Database} {thread : Thread} {drained : Bool}
    {a : Attempt} {phase : HandlerPhase} {move : HandlerMove} {e : Effect}
    (stepped : a.handlerStep py db thread drained phase move = some e) :
    (∃ next : Phase, e.attempt = a.goto next ∧ next.serving = true) ∧
      e.tx.sparesJobs = true := by
  cases handlerStep_cases stepped <;> exact ⟨⟨_, rfl, rfl⟩, rfl⟩

/-- A step of a handler task, of which only the transaction is left after a
cancellation. -/
theorem handle_cases {py : Builtins} {db : Database} {thread : Thread} {drained : Bool}
    {a : Attempt} {phase : HandlerPhase} {move : HandlerMove} {e : Effect}
    (stepped : a.handle py db thread drained phase move = some e) :
    ∃ inner, a.handlerStep py db thread drained phase move = some inner ∧
      ((a.leaseLost = false ∧ e = inner) ∨
        (a.leaseLost = true ∧ e = { inner with attempt := none })) := by
  unfold handle at stepped
  split at stepped
  next lost =>
    have ended (applied : (a.handlerStep py db thread drained phase move).map
        (fun e => { e with attempt := none }) = some e) :
        ∃ inner, a.handlerStep py db thread drained phase move = some inner ∧
          ((a.leaseLost = false ∧ e = inner) ∨
            (a.leaseLost = true ∧ e = { inner with attempt := none })) := by
      obtain ⟨inner, found, rfl⟩ := Option.map_eq_some_iff.mp applied
      exact ⟨inner, found, .inr ⟨lost, rfl⟩⟩
    split at stepped
    · exact ended stepped
    · exact ended stepped
    · contradiction
  next kept => exact ⟨e, stepped, .inl ⟨by simpa using kept, rfl⟩⟩

end Attempt

/-- The steps of a `run_once`, with what each has to find. -/
inductive Effected (c : Config) (s : Sys) (w : WorkerId) (a : Attempt) : Move → Effect → Prop
  | advance {e} : Advanced (c.worker w) w s.clock a e → Effected c s w a .advance e
  | handler {phase move e} : a.phase = .handling phase → a.leaseLost = false →
      a.handlerStep c.py s.db (s.threads a.job.runId) (s.workers w).drained phase move = some e →
      Effected c s w a (.handler move) e
  | unwound {phase move e} : a.phase = .handling phase → a.leaseLost = true →
      a.handlerStep c.py s.db (s.threads a.job.runId) (s.workers w).drained phase move = some e →
      Effected c s w a (.handler move) { e with attempt := none }
  | excepted {message} : a.phase = .setRunning ∨ (∃ status, a.phase = .complete status) ∨
      a.phase = .promote → Effected c s w a (.raises message) { attempt := a.goto (.fail message) }
  | escaped {message phase} : a.phase = .handling phase → a.leaseLost = false →
      (phase = .loadJob ∨ (∃ inputText, phase = .loadRun inputText) ∨
        ∃ outcome, phase = .record outcome) →
      Effected c s w a (.raises message) { attempt := a.goto (.handled (.raised message)) }
  | abandoned {message} : a.phase.unguarded = true →
      Effected c s w a (.raises message) { attempt := none }
  | readClock : a.heartbeat = .waiting →
      Effected c s w a .readClock { attempt := some { a with heartbeat := .beating s.clock } }
  | renewed {now} : a.heartbeat = .beating now → s.db.leaseHeld w a.job.id = true →
      Effected c s w a .beat
        { attempt := some
            { a with heartbeat := .waiting, leaseUntil := some (now + (c.worker w).leaseSeconds) }
          tx := .heartbeat w a.job.id (c.worker w).leaseSeconds now }
  | lost {now} : a.heartbeat = .beating now → s.db.leaseHeld w a.job.id = false →
      Effected c s w a .beat
        { attempt := some { a with heartbeat := .stopped, leaseLost := true }
          tx := .heartbeat w a.job.id (c.worker w).leaseSeconds now }
  | beatRaises {now} : a.heartbeat = .beating now →
      Effected c s w a .beatRaises { attempt := some { a with heartbeat := .stopped } }
  | cancelled {phase} : a.phase = .handling phase → a.leaseLost = true →
      Effected c s w a .cancelHandler { attempt := none }

section Effects
variable {c : Config} {s : Sys} {w : WorkerId} {a : Attempt} {e : Effect}

theorem Attempt.raises_cases {message : String} (raised : a.raises message = some e) :
    Effected c s w a (.raises message) e := by
  cases at' : a.phase with
  | setRunning | promote =>
      simp only [raises, at'] at raised
      cases raised
      exact .excepted (by simp [at'])
  | complete status =>
      simp only [raises, at'] at raised
      cases raised
      exact .excepted (.inr (.inl ⟨status, at'⟩))
  | handling phase =>
      cases phase with
      | loadJob | loadRun | record =>
          simp only [raises, at'] at raised
          split at raised
          next => contradiction
          next kept => cases raised; exact .escaped at' (by simpa using kept) (by simp)
      | start | launch | graph => simp [raises, at'] at raised
  | handled => simp [raises, at'] at raised
  | failWithoutRetry | setFailed | emitFailed | fail | setRetry | emitRetry =>
      simp only [raises, at'] at raised
      cases raised
      exact .abandoned (by rw [at']; rfl)

theorem Sys.effect_cases {m : Move} (effected : s.effect c w a m = some e) :
    Effected c s w a m e := by
  cases m with
  | advance => exact .advance (Attempt.advance_cases effected)
  | handler move =>
      simp only [effect] at effected
      split at effected
      next phase at' =>
        obtain ⟨inner, stepped, ⟨kept, rfl⟩ | ⟨gone, rfl⟩⟩ := Attempt.handle_cases effected
        · exact .handler at' kept stepped
        · exact .unwound at' gone stepped
      next => contradiction
  | raises message => exact Attempt.raises_cases effected
  | readClock =>
      simp only [effect] at effected
      split at effected
      next at' => cases effected; exact .readClock at'
      next => contradiction
  | beat =>
      simp only [effect, Attempt.beat] at effected
      split at effected
      next now at' =>
        cases held : s.db.leaseHeld w a.job.id with
        | true => rw [held] at effected; cases effected; exact .renewed at' held
        | false => rw [held] at effected; cases effected; exact .lost at' held
      next => contradiction
  | beatRaises =>
      simp only [effect] at effected
      split at effected
      next at' => cases effected; exact .beatRaises at'
      next => contradiction
  | cancelHandler =>
      simp only [effect, Attempt.cancelHandler] at effected
      split at effected
      next phase at' =>
        split at effected
        next gone => cases effected; exact .cancelled at' gone
        next => contradiction
      next => contradiction
  | poll | claim | persist | crash => contradiction

end Effects

/-- What a step of a `run_once` does to its hold on the job: nothing, one of the
statements that release the job, or a heartbeat. -/
inductive LeaseStep (c : Config) (s : Sys) (w : WorkerId) (a : Attempt) (e : Effect) : Prop
  | moved (next : Attempt) : e.attempt = some next → e.tx.sparesJobs = true →
      next.job = a.job → next.leaseUntil = a.leaseUntil → next.leaseLost = a.leaseLost →
      (∀ now, next.heartbeat = .beating now → now = s.clock ∨ a.heartbeat = .beating now) →
      (a.Coherent → next.Coherent) → LeaseStep c s w a e
  | ended : e.attempt = none → e.tx.sparesJobs = true → LeaseStep c s w a e
  | renewed (now : Time) : a.heartbeat = .beating now → s.db.leaseHeld w a.job.id = true →
      e.attempt = some
        { a with heartbeat := .waiting, leaseUntil := some (now + (c.worker w).leaseSeconds) } →
      e.tx = .heartbeat w a.job.id (c.worker w).leaseSeconds now → LeaseStep c s w a e
  | lost (now : Time) : a.heartbeat = .beating now → s.db.leaseHeld w a.job.id = false →
      e.attempt = some { a with heartbeat := .stopped, leaseLost := true } →
      e.tx = .heartbeat w a.job.id (c.worker w).leaseSeconds now → LeaseStep c s w a e
  | released : (∀ next, e.attempt = some next →
        ∃ phase : Phase, a.release phase = some next ∧ phase.holds = false) →
      a.phase.serving = false →
      (e.tx = .complete w a.job.id s.clock ∨
        (∃ error, e.tx = .fail w a.job.id error (c.worker w).retryDelaySeconds s.clock) ∨
        ∃ error, e.tx = .failWithoutRetry w a.job.id error s.clock) → LeaseStep c s w a e

section Effects
variable {c : Config} {s : Sys} {w : WorkerId} {a : Attempt} {e : Effect}

theorem LeaseStep.goto {next : Phase} (same : e.attempt = a.goto next)
    (spares : e.tx.sparesJobs = true)
    (coherent : a.Coherent → Attempt.Coherent { a with phase := next }) : LeaseStep c s w a e :=
  .moved { a with phase := next } same spares rfl rfl rfl (fun _ beating => .inr beating) coherent

/-- A transition between phases in which no heartbeat is alive. -/
theorem LeaseStep.rest {next : Phase} (same : e.attempt = a.goto next)
    (spares : e.tx.sparesJobs = true) (idle : a.phase.serving = false)
    (holds : next.holds = true → a.phase.holds = true) : LeaseStep c s w a e :=
  .goto same spares fun coherent => coherent.rest (coherent.joined idle) holds rfl

theorem LeaseStep.job {next : Attempt} (step : LeaseStep c s w a e)
    (after : e.attempt = some next) :
    next.job = a.job := by
  cases step with
  | moved _ same _ job => rw [after] at same; cases same; exact job
  | ended same => rw [after] at same; contradiction
  | renewed _ _ _ same | lost _ _ _ same => rw [after] at same; cases same; rfl
  | released release => obtain ⟨phase, same, _⟩ := release next after; cases same; rfl

namespace Attempt

theorem advance_lease (advanced : Advanced (c.worker w) w s.clock a e) : LeaseStep c s w a e := by
  cases advanced with
  | started at' =>
      exact .moved _ rfl rfl rfl rfl rfl (by simp) fun coherent =>
        coherent.serve (by rw [at']; rfl) rfl rfl
  | joined at' =>
      exact .moved _ rfl rfl rfl rfl rfl (by simp) fun coherent =>
        coherent.rest rfl (fun _ => by rw [at']; rfl) rfl
  | completed at' =>
      exact .released (fun _ found => ⟨_, found, rfl⟩) (by rw [at']; rfl) (.inl rfl)
  | closed at' => exact .released (by simp) (by rw [at']; rfl) (.inl rfl)
  | promoted | emittedFailure | emittedRetry => exact .ended rfl rfl
  | gaveUp at' =>
      exact .released (fun _ found => ⟨_, found, rfl⟩) (by rw [at']; rfl) (.inr (.inr ⟨_, rfl⟩))
  | failed at' =>
      exact .released (fun _ found => ⟨_, found, rfl⟩) (by rw [at']; rfl) (.inr (.inl ⟨_, rfl⟩))
  | reportedGivingUp at' | reportedFailure at' =>
      exact .rest rfl rfl (by rw [at']; rfl) (by simp [Phase.holds])

end Attempt

theorem Sys.effect_lease {m : Move} (effected : s.effect c w a m = some e) :
    LeaseStep c s w a e := by
  cases Sys.effect_cases effected with
  | advance advanced => exact Attempt.advance_lease advanced
  | handler at' _ stepped =>
      obtain ⟨⟨next, same, serving⟩, spares⟩ := Attempt.handlerStep_goto stepped
      exact .goto same spares fun coherent => coherent.serve (by rw [at']; rfl) serving rfl
  | unwound _ _ stepped => exact .ended rfl (Attempt.handlerStep_goto stepped).2
  | excepted at' =>
      refine .rest rfl rfl ?_ (by simp [Phase.holds])
      rcases at' with at' | ⟨status, at'⟩ | at' <;> rw [at'] <;> rfl
  | escaped at' => exact .goto rfl rfl fun coherent => coherent.serve (by rw [at']; rfl) rfl rfl
  | abandoned | cancelled => exact .ended rfl rfl
  | readClock at' =>
      refine .moved _ rfl rfl rfl rfl rfl
        (fun now beating => .inl (Heartbeat.beating.inj beating).symm) fun coherent => ⟨?_, ?_⟩
      · intro idle
        have stopped := coherent.joined idle
        rw [at'] at stopped
        contradiction
      · exact coherent.leased
  | renewed at' held => exact .renewed _ at' held rfl rfl
  | lost at' held => exact .lost _ at' held rfl rfl
  | beatRaises =>
      exact .moved _ rfl rfl rfl rfl rfl (by simp) fun coherent =>
        coherent.rest rfl (fun holds => holds) rfl

inductive PhaseStep (c : Config) (s : Sys) (w : WorkerId) (a : Attempt) :
    Move → Tx → Phase → Prop
  | beat {m tx} : a.heartbeat ≠ .stopped → PhaseStep c s w a m tx a.phase
  | started {tx} : a.phase = .setRunning → PhaseStep c s w a .advance tx (.handling .loadJob)
  | joined {tx result} : a.phase = .handled result →
      PhaseStep c s w a .advance tx (Attempt.branch result)
  | promoted {tx} : a.phase = .complete .completed → PhaseStep c s w a .advance tx .promote
  | gaveUp {tx error} : a.phase = .failWithoutRetry error →
      PhaseStep c s w a .advance tx (.setFailed error)
  | reportedGivingUp {tx error} : a.phase = .setFailed error →
      PhaseStep c s w a .advance tx (.emitFailed error)
  | failed {tx error} : a.phase = .fail error → PhaseStep c s w a .advance tx (.setRetry error)
  | reportedFailure {tx error} : a.phase = .setRetry error →
      PhaseStep c s w a .advance tx (.emitRetry error)
  | excepted {tx message} : a.phase = .setRunning ∨ (∃ status, a.phase = .complete status) ∨
      a.phase = .promote → PhaseStep c s w a (.raises message) tx (.fail message)
  | escaped {tx message phase} : a.phase = .handling phase →
      PhaseStep c s w a (.raises message) tx (.handled (.raised message))
  | handler {tx phase move e next} : a.phase = .handling phase →
      a.handlerStep c.py s.db (s.threads a.job.runId) (s.workers w).drained phase move = some e →
      e.attempt = a.goto next → tx = e.tx → PhaseStep c s w a (.handler move) tx next

theorem Attempt.advance_phase {next : Attempt} (advanced : Advanced (c.worker w) w s.clock a e)
    (after : e.attempt = some next) : PhaseStep c s w a .advance e.tx next.phase := by
  cases advanced with
  | closed | promoted | emittedFailure | emittedRetry => contradiction
  | started at' => cases after; exact .started at'
  | joined at' => cases after; exact .joined at'
  | completed at' => cases after; exact .promoted at'
  | gaveUp at' => cases after; exact .gaveUp at'
  | reportedGivingUp at' => cases after; exact .reportedGivingUp at'
  | failed at' => cases after; exact .failed at'
  | reportedFailure at' => cases after; exact .reportedFailure at'

theorem Sys.effect_phase {m : Move} {next : Attempt} (effected : s.effect c w a m = some e)
    (after : e.attempt = some next) : PhaseStep c s w a m e.tx next.phase := by
  cases Sys.effect_cases effected with
  | advance advanced => exact Attempt.advance_phase advanced after
  | handler at' _ stepped =>
      obtain ⟨⟨reached, same, _⟩, _⟩ := Attempt.handlerStep_goto stepped
      rw [after] at same
      cases same
      exact .handler at' stepped after rfl
  | excepted at' => cases after; exact .excepted at'
  | escaped at' => cases after; exact .escaped at'
  | unwound | abandoned | cancelled => contradiction
  | readClock alive | renewed alive | lost alive | beatRaises alive =>
      cases after
      exact .beat (by rw [alive]; simp)

/-- The transactions of a `run_once` and where it issues each. -/
inductive Issues (c : Config) (s : Sys) (w : WorkerId) (a : Attempt) : Move → Tx → Prop
  | idle {m} : Issues c s w a m .idle
  | setRunning : a.phase = .setRunning →
      Issues c s w a .advance (.setRunStatus a.job.runId .running none)
  | createPending {resume node action toolName arguments expiresAt id} :
      a.phase = .handling (.graph resume (.inNode node)) → s.db.approvals.find? id = none →
      Issues c s w a (.handler (.gate action toolName arguments expiresAt id))
        (.createPending
          (pendingAction c.py a.job.runId node action toolName arguments expiresAt) id)
  | updateRun {outcome} : a.phase = .handling (.record outcome) →
      Issues c s w a (.handler .updateRun)
        (.updateRun a.job.runId (persistedAttemptStatus outcome) outcome.output outcome.error
          outcome.terminationReason)
  | heartbeat {now} : a.heartbeat = .beating now →
      Issues c s w a .beat (.heartbeat w a.job.id (c.worker w).leaseSeconds now)
  | complete {status} : a.phase = .complete status →
      Issues c s w a .advance (.complete w a.job.id s.clock)
  | promote : a.phase = .promote →
      Issues c s w a .advance (.setRunStatus a.job.runId .completed none)
  | failWithoutRetry {error} : a.phase = .failWithoutRetry error →
      Issues c s w a .advance (.failWithoutRetry w a.job.id error s.clock)
  | setFailed {error} : a.phase = .setFailed error →
      Issues c s w a .advance (.setRunStatus a.job.runId .failed (some error))
  | emitFailed {error} : a.phase = .emitFailed error →
      Issues c s w a .advance (.appendMany a.job.runId [a.runFailedEvent error])
  | fail {error} : a.phase = .fail error →
      Issues c s w a .advance (.fail w a.job.id error (c.worker w).retryDelaySeconds s.clock)
  | setRetry {error} : a.phase = .setRetry error →
      Issues c s w a .advance
        (.setRunStatus a.job.runId (if a.exhausted then .failed else .queued) (some error))
  | emitRetry {error} : a.phase = .emitRetry error →
      Issues c s w a .advance
        (.appendMany a.job.runId
          [if a.exhausted then a.runFailedEvent error
            else a.retryingEvent (c.worker w).retryDelaySeconds])

namespace Attempt

theorem advance_issues (advanced : Advanced (c.worker w) w s.clock a e) :
    Issues c s w a .advance e.tx := by
  cases advanced with
  | started at' => exact .setRunning at'
  | joined => exact .idle
  | completed at' | closed at' => exact .complete at'
  | promoted at' => exact .promote at'
  | gaveUp at' => exact .failWithoutRetry at'
  | reportedGivingUp at' => exact .setFailed at'
  | emittedFailure at' => exact .emitFailed at'
  | failed at' => exact .fail at'
  | reportedFailure at' => exact .setRetry at'
  | emittedRetry at' => exact .emitRetry at'

theorem handlerStep_issues {thread : Thread} {drained : Bool} {phase : HandlerPhase}
    {move : HandlerMove} (at' : a.phase = .handling phase)
    (stepped : a.handlerStep c.py s.db thread drained phase move = some e) :
    Issues c s w a (.handler move) e.tx := by
  cases handlerStep_cases stepped with
  | gated fresh => exact .createPending at' fresh
  | recorded => exact .updateRun at'
  | _ => exact .idle

end Attempt

theorem Sys.effect_issues {m : Move} (effected : s.effect c w a m = some e) :
    Issues c s w a m e.tx := by
  cases Sys.effect_cases effected with
  | advance advanced => exact Attempt.advance_issues advanced
  | handler at' _ stepped => exact Attempt.handlerStep_issues at' stepped
  | @unwound _ _ inner at' _ stepped => exact Attempt.handlerStep_issues (e := inner) at' stepped
  | renewed at' | lost at' => exact .heartbeat at'
  | excepted | escaped | abandoned | readClock | beatRaises | cancelled => exact .idle

/-- The statements of a `run_once` insert no run and no job, and claim none. -/
theorem Issues.issued {m : Move} {tx : Tx} (issues : Issues c s w a m tx) : tx.Issued s := by
  cases issues with
  | createPending _ fresh => exact fresh
  | _ => trivial

theorem Issues.worker {m : Move} {tx : Tx} (issues : Issues c s w a m tx) :
    tx.worker = none ∨ tx.worker = some w := by
  cases issues <;> first | exact .inl rfl | exact .inr rfl

theorem Issues.newJob {m : Move} {tx : Tx} (issues : Issues c s w a m tx) (db : Database) :
    tx.newJob db = none := by
  cases issues <;> rfl

end Effects

namespace Sys

/-- The step is the claim of job `id` by worker `w`, at the clock reading `now`. -/
def Claims (s : Sys) (w : WorkerId) (now : Time) (id : JobId) (action : Action) : Prop :=
  ∃ locked job, action = .work w (.claim locked) ∧ (s.workers w).activity = .polling now ∧
    s.db.claimCandidate now locked = some job ∧ job.id = id

variable {c : Config} {s s' : Sys} {action : Action}

/-- The selected job is stored and satisfies the `WHERE` clause with its run. -/
theorem claimCandidate_sound {db : Database} {now : Time} {locked : JobRow → Bool} {job : JobRow}
    (found : db.claimCandidate now locked = some job) :
    db.jobs.find? job.id = some job ∧ ∃ run, db.runs.find? job.runId = some run ∧
      claimable now run job = true := by
  obtain ⟨member, chosen⟩ := firstBy_mem found
  refine ⟨Table.mem_rows_iff.mp member, ?_⟩
  simp only [Bool.and_eq_true, Option.any_eq_true] at chosen
  exact chosen.1

/-- The transaction that an action commits. -/
def transaction (c : Config) (s : Sys) : Action → Tx
  | .tick _ => .idle
  | .request r => r.tx s
  | .work w (.persist lane) =>
      match (s.workers w).lanes[lane]? with
      | some (event :: _) => .appendMany event.runId [event]
      | _ => .idle
  | .work w (.claim locked) =>
      match (s.workers w).activity with
      | .polling now =>
          match s.db.claimCandidate now locked with
          | some job => .claim w (c.worker w).leaseSeconds now job.id
          | none => .idle
      | _ => .idle
  | .work w m =>
      match s.attempt? w with
      | some a => (s.effect c w a m).elim .idle Effect.tx
      | none => .idle

/-- Where the transaction of a step comes from. -/
inductive Origin (c : Config) (s s' : Sys) : Action → Tx → Prop
  | idle {any} : Origin c s s' any .idle
  | persist {w lane id events} : Origin c s s' (.work w (.persist lane)) (.appendMany id events)
  | request (r : Request) : Origin c s s' (.request r) (r.tx s)
  | claim {w now locked job} : (s.workers w).activity = .polling now →
      s.db.claimCandidate now locked = some job →
      Origin c s s' (.work w (.claim locked)) (.claim w (c.worker w).leaseSeconds now job.id)
  | work {w m a e} : s.attempt? w = some a → s.effect c w a m = some e →
      s'.attempt? w = e.attempt → Origin c s s' (.work w m) e.tx

/-- Where the attempt of a worker after a step comes from. -/
inductive AttemptAfter (c : Config) (s : Sys) (v : WorkerId) (b : Attempt) : Action → Tx → Prop
  | kept {any tx} : s.attempt? v = some b → tx.worker ≠ some v → AttemptAfter c s v b any tx
  | stepped {m a e} : s.attempt? v = some a → s.effect c v a m = some e → e.attempt = some b →
      AttemptAfter c s v b (.work v m) e.tx
  | claimed {now locked job} : (s.workers v).activity = .polling now →
      s.db.claimCandidate now locked = some job →
      b = { job := job.claimedBy v (c.worker v).leaseSeconds now
            leaseUntil := some (now + (c.worker v).leaseSeconds) } →
      AttemptAfter c s v b (.work v (.claim locked)) (.claim v (c.worker v).leaseSeconds now job.id)

/-- What became of the attempt `a` of worker `v` in a step. -/
inductive AttemptBefore (c : Config) (s s' : Sys) (v : WorkerId) (a : Attempt) : Action → Prop
  | kept {any} : s'.attempt? v = some a → AttemptBefore c s s' v a any
  | crashed : AttemptBefore c s s' v a (.work v .crash)
  | stepped {m e} : s.effect c v a m = some e → s'.attempt? v = e.attempt →
      s'.db = e.tx.apply c.py s.db → AttemptBefore c s s' v a (.work v m)

/-- Every step is one transaction on the database, and moves the attempt of one worker at
most. -/
structure Commits (c : Config) (s : Sys) (action : Action) (s' : Sys) (tx : Tx) : Prop where
  tx_eq : s.transaction c action = tx
  db : s'.db = tx.apply c.py s.db
  issued : tx.Issued s
  clock : s.clock ≤ s'.clock
  origin : Origin c s s' action tx
  after : ∀ v b, s'.attempt? v = some b → AttemptAfter c s v b action tx
  before : ∀ v a, s.attempt? v = some a → AttemptBefore c s s' v a action

theorem Commits.still {tx : Tx} (same : s.transaction c action = tx)
    (db : s'.db = tx.apply c.py s.db) (issued : tx.Issued s)
    (clock : s.clock ≤ s'.clock) (origin : Origin c s s' action tx) (silent : tx.worker = none)
    (attempts : ∀ v, s'.attempt? v = s.attempt? v) : Commits c s action s' tx where
  tx_eq := same
  db := db
  issued := issued
  clock := clock
  origin := origin
  after v b busy := .kept (attempts v ▸ busy) (by rw [silent]; simp)
  before v a busy := .kept ((attempts v).trans busy)

theorem Commits.moved {tx : Tx} {w : WorkerId} {worker : Worker}
    (same : s.transaction c action = tx)
    (workers : s'.workers = Function.update s.workers w worker)
    (db : s'.db = tx.apply c.py s.db) (issued : tx.Issued s) (clock : s'.clock = s.clock)
    (origin : Origin c s s' action tx) (foreign : ∀ v, v ≠ w → tx.worker ≠ some v)
    (after : ∀ b, worker.activity = .busy b → AttemptAfter c s w b action tx)
    (before : ∀ a, s.attempt? w = some a → AttemptBefore c s s' w a action) :
    Commits c s action s' tx where
  tx_eq := same
  db := db
  issued := issued
  clock := clock.ge
  origin := origin
  after v b busy := by
    rw [attempt?_eq_some, workers] at busy
    by_cases own : v = w
    · subst own
      rw [Function.update_self] at busy
      exact after b busy
    · rw [Function.update_of_ne own] at busy
      exact .kept (attempt?_eq_some.mpr busy) (foreign v own)
  before v a busy := by
    by_cases own : v = w
    · subst own
      exact before a busy
    · refine .kept ?_
      rw [attempt?_eq_some, workers, Function.update_of_ne own]
      exact attempt?_eq_some.mp busy

theorem commit_attempt? (s : Sys) (c : Config) (w : WorkerId) (id : RunId) (e : Effect) :
    (s.commit c w id e).attempt? w = e.attempt := by
  ext a
  rw [attempt?_eq_some]
  simp [commit, Worker.after_busy]

theorem Step.commits (step : Step c s action s') : ∃ tx, Commits c s action s' tx := by
  have unowned (v w : WorkerId) (_ : v ≠ w) : Tx.idle.worker ≠ some v := by simp [Tx.worker]
  cases step with
  | tick seconds =>
      exact ⟨.idle, .still rfl rfl trivial (Nat.le_add_right _ _) .idle rfl fun _ => rfl⟩
  | request r events issued =>
      exact ⟨r.tx s, .still rfl rfl issued (Nat.le_refl _) (.request r)
        (Tx.worker_of_api (r.tx_api s))
        fun _ => rfl⟩
  | @persist w lane event rest found =>
      refine ⟨.appendMany event.runId [event],
        .still (by simp only [transaction, found]) rfl trivial
        (Nat.le_refl _) .persist rfl fun v => ?_⟩
      by_cases own : v = w
      · subst own
        simp [attempt?]
      · simp [attempt?, Function.update_of_ne own]
  | crash w =>
      refine ⟨.idle, .moved ?_ rfl rfl trivial rfl .idle (unowned · w) (by simp)
        fun _ _ => .crashed⟩
      simp only [transaction]
      split <;> rfl
  | @poll w idle =>
      refine ⟨.idle, .moved ?_ rfl rfl trivial rfl .idle (unowned · w) (by simp)
        fun a busy => ?_⟩
      · simp only [transaction, attempt?, idle]
      · rw [attempt?_eq_some, idle] at busy
        contradiction
  | @claimNone w _ _ polling found =>
      refine ⟨.idle, .moved ?_ rfl rfl trivial rfl .idle (unowned · w) (by simp)
        fun a busy => ?_⟩
      · simp only [transaction, polling, found]
      · rw [attempt?_eq_some, polling] at busy
        contradiction
  | @claim w now locked job polling found =>
      obtain ⟨stored, run, runStored, claimable⟩ := claimCandidate_sound found
      refine ⟨.claim w (c.worker w).leaseSeconds now job.id,
        .moved (by simp only [transaction, polling, found]) rfl rfl
        ⟨polling, job, run, stored, runStored, claimable⟩ rfl (.claim polling found)
        (fun v other => by simpa [Tx.worker] using other.symm)
        (fun b busy => .claimed polling found (Activity.busy.inj busy).symm) fun a busy => ?_⟩
      rw [attempt?_eq_some, polling] at busy
      contradiction
  | @effect w m a e before effected =>
      have issues := effect_issues effected
      have reached := s.commit_attempt? c w a.job.runId e
      refine ⟨e.tx, .moved ?_ rfl rfl issues.issued rfl (.work before effected reached)
        (fun v other => ?_) (fun b busy => ?_) fun b busy => ?_⟩
      · cases m with
        | poll | claim | persist | crash => contradiction
        | _ => simp only [transaction, before, effected, Option.elim]
      · rcases issues.worker with none | own
        · rw [none]; simp
        · rw [own]; simpa using other.symm
      · exact .stepped before effected (Worker.after_busy.mp busy)
      · rw [before] at busy
        cases busy
        exact .stepped effected reached rfl

theorem Commits.claims {tx : Tx} (commits : Commits c s action s' tx) {w : WorkerId} {l : Nat}
    {now : Time} {id : JobId} (claim : tx = .claim w l now id) : s.Claims w now id action := by
  cases commits.origin with
  | idle | persist => contradiction
  | request r =>
      have api := r.tx_api s
      rw [claim] at api
      contradiction
  | @claim v taken locked job polling found =>
      cases claim
      exact ⟨locked, job, rfl, polling, found, rfl⟩
  | work _ effected =>
      have issues := effect_issues effected
      rw [claim] at issues
      cases issues

theorem Commits.resolves (commits : Commits c s action s' tx) {id : ApprovalId}
    {status : ApprovalStatus} {resolvedBy : String} {reason : Option String} {now : Time}
    {jobId : JobId} (same : tx = .resolveAndEnqueue id status resolvedBy reason now jobId) :
    now = s.clock ∧ action = .request (.resolve id status resolvedBy reason jobId) := by
  cases commits.origin with
  | idle | persist | claim => contradiction
  | request r =>
      cases r with
      | resolve => cases same; exact ⟨rfl, rfl⟩
      | append =>
          simp only [Request.tx] at same
          split at same <;> contradiction
      | createRun | cancelRun | enqueue | abandon => contradiction
  | work _ effected =>
      have issues := effect_issues effected
      rw [same] at issues
      cases issues

/-- Only a request inserts a job. -/
theorem Commits.newJob_request {tx : Tx} (commits : Commits c s action s' tx) {job : JobRow}
    (inserted : tx.newJob s.db = some job) : ∃ r, action = .request r ∧ tx = r.tx s := by
  cases commits.origin with
  | idle | persist | claim => contradiction
  | request r => exact ⟨r, rfl, rfl⟩
  | work _ effected =>
      rw [(effect_issues effected).newJob] at inserted
      contradiction

end Sys

theorem Tx.newJob_owned {py : Builtins} {s : Sys} {tx : Tx} (issued : tx.Issued s) {job : JobRow}
    (inserted : tx.newJob s.db = some job) :
    ((tx.apply py s.db).runs.find? job.runId).isSome = true := by
  rw [Tx.find?_runs]
  cases tx with
  | createRun new jobId now =>
      cases inserted
      simp [rowAfter, issued.2.1, Tx.newRun]
  | enqueue id jobId now =>
      cases inserted
      obtain ⟨run, found⟩ := Option.isSome_iff_exists.mp issued.2.1
      rw [found, rowAfter_some]
      rfl
  | resolveAndEnqueue id status resolvedBy reason now jobId =>
      obtain ⟨run, woken, rfl⟩ := Option.map_eq_some_iff.mp inserted
      rw [(Database.wakes_stored woken).1, rowAfter_some]
      rfl
  | _ => contradiction

/-- The step is one of an API process, of the clock or of a worker in `ws`. -/
def Action.within (ws : List WorkerId) : Action → Bool
  | .work w _ => ws.contains w
  | _ => true

namespace Sys

def IdleOutside (ws : List WorkerId) (s : Sys) : Prop :=
  ∀ w, w ∉ ws → (s.workers w).activity = .idle

theorem idleOutside_start (ws : List WorkerId) (clock : Time) :
    (Sys.start clock).IdleOutside ws := fun _ _ => rfl

/-- The steps of everybody else leave a worker as it is. -/
theorem Step.worker_kept {c : Config} {s t : Sys} {action : Action} {w : WorkerId}
    (step : Step c s action t) (others : ∀ m, action ≠ .work w m) :
    t.workers w = s.workers w := by
  have apart {v : WorkerId} {m : Move} (others : ∀ n, Action.work v m ≠ .work w n) : w ≠ v := by
    rintro rfl
    exact others m rfl
  cases step with
  | tick | request => rfl
  | persist | crash | poll | claimNone | claim | effect =>
      exact Function.update_of_ne (apart others) _ _

theorem Step.worker_outside {c : Config} {ws : List WorkerId} {s t : Sys} {action : Action}
    (step : Step c s action t) (within : action.within ws = true) {v : WorkerId}
    (outside : v ∉ ws) : t.workers v = s.workers v := by
  refine step.worker_kept fun m same => outside ?_
  rw [same] at within
  simpa [Action.within] using within

theorem IdleOutside.step {c : Config} {ws : List WorkerId} {s s' : Sys} {action : Action}
    (idle : s.IdleOutside ws) (within : action.within ws = true) (step : Step c s action s') :
    s'.IdleOutside ws := by
  intro v outside
  rw [step.worker_outside within outside]
  exact idle v outside

theorem IdleOutside.mem {ws : List WorkerId} {s : Sys} (idle : s.IdleOutside ws) {w : WorkerId}
    {a : Attempt} (busy : s.attempt? w = some a) : w ∈ ws := by
  by_contra outside
  rw [attempt?_eq_some, idle w outside] at busy
  contradiction

/-- A guard that a test decides, on schedules of the workers in `ws`. -/
theorem checks_within (c : Config) (ws : List WorkerId) {G : Guard Sys Action}
    (test : Sys → Action → Bool) (sound : ∀ s a, test s a = true → G s a) :
    Checks (system c) G (IdleOutside ws) (fun s a => a.within ws && test s a) where
  sound s a _ checked := sound s a (Bool.and_eq_true_iff.mp checked).2
  kept _ _ _ idle checked stepped :=
    idle.step (Bool.and_eq_true_iff.mp checked).1 (step_sound stepped)

end Sys
end AgentRuntime
