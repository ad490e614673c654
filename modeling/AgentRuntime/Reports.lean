import AgentRuntime.Timeline

/-! What each step of an attempt means for the timeline of its run: which outcome it is about
to record, and which terminal event it goes on to store. -/
namespace AgentRuntime
open Machines Tables Logs

namespace Attempt

/-- The execution has completed, and is about to record it. -/
def completes (a : Attempt) : Bool :=
  match a.phase with
  | .handling (.record outcome) => outcome.status = .completed
  | _ => false

def cancels (a : Attempt) : Bool :=
  match a.phase with
  | .handling (.record outcome) => outcome.status = .cancelled
  | _ => false

/-- Phases that stand behind a terminal status of the run. -/
def settles (a : Attempt) : Bool :=
  match a.phase with
  | .handled (.returned status) | .complete status => status = .completed
  | .promote | .emitFailed _ => true
  | .emitRetry _ => a.exhausted
  | _ => false

/-- Phases from which `run_once` goes on to append `run.failed`. -/
def failing (a : Attempt) : Bool :=
  match a.phase with
  | .handled (.notRetryable _) | .failWithoutRetry _ | .setFailed _ | .emitFailed _ => true
  | .emitRetry _ => a.exhausted
  | _ => false

/-- What the phase of an attempt tells about its run. The lane is the newest of the worker. -/
structure Tells (db : Database) (lane : List RuntimeEvent) (a : Attempt) : Prop where
  completes : a.completes = true →
    (∃ event ∈ lane, event.type = .runCompleted) ∨ db.terminalEvents a.job.runId ≠ []
  cancels : a.cancels = true → db.Ended a.job.runId
  settles : a.settles = true → db.Ended a.job.runId

/-- What a step of an attempt means for the timeline of its run. -/
structure Report (py : Builtins) (db : Database) (lane : List RuntimeEvent) (a : Attempt)
    (e : Effect) : Prop where
  next : ∀ b, e.attempt = some b → b.job = a.job ∧ b.Tells (e.tx.apply py db) (lane ++ e.emitted)
  completes : a.completes = true →
    (∃ b, e.attempt = some b ∧ b.job = a.job ∧ b.completes = true) ∨
      (lane = [] ∧ (e.tx.apply py db).Ended a.job.runId)
  failing : a.failing = true →
    (∃ b, e.attempt = some b ∧ b.job = a.job ∧ b.failing = true) ∨
      ∃ type, e.tx.announces = some (a.job.runId, type)
  concludes : ∀ id status, e.tx.concludes = some (id, status) → status.terminal = true →
    id = a.job.runId ∧ (db.Ended id ∨ db.terminalEvents id ≠ [] ∨
      ∃ b, e.attempt = some b ∧ b.job = a.job ∧ b.failing = true)
  announces : ∀ id type, e.tx.announces = some (id, type) → db.Ended id
  emitted : ∀ event ∈ e.emitted, event.type.terminal = true → event.type = .runCompleted ∧
    ∃ b, e.attempt = some b ∧ b.job.runId = event.runId ∧ b.completes = true
  opens : e.opensLane = true → a.completes = false

end Attempt

section Reports
variable {c : Config} {s : Sys} {py : Builtins} {db : Database} {lane : List RuntimeEvent}
  {a b : Attempt} {e : Effect} {tx : Tx} {w : WorkerId}

namespace Attempt

theorem Tells.apply (py : Builtins) (tells : a.Tells db lane) (tx : Tx) (more : List RuntimeEvent) :
    a.Tells (tx.apply py db) (lane ++ more) where
  completes done := by
    rcases tells.completes done with ⟨event, member, same⟩ | stored
    · exact .inl ⟨event, List.mem_append_left _ member, same⟩
    · exact .inr (tx.terminalEvents_ne stored)
  cancels done := (tells.cancels done).apply tx
  settles done := (tells.settles done).apply tx

theorem Tells.none (completes : a.completes = false) (cancels : a.cancels = false)
    (settles : a.settles = false) : a.Tells db lane := by
  refine ⟨fun done => ?_, fun done => ?_, fun done => ?_⟩
  · rw [completes] at done
    contradiction
  · rw [cancels] at done
    contradiction
  · rw [settles] at done
    contradiction

/-- A step that emits nothing, in a phase before or behind the record of a completion. -/
theorem Report.plain (idle : a.completes = false) (silent : e.emitted = [])
    (shut : e.opensLane = false)
    (next : ∀ b, e.attempt = some b → b.job = a.job ∧ b.Tells (e.tx.apply py db) lane)
    (failing : a.failing = true → (∃ b, e.attempt = some b ∧ b.job = a.job ∧ b.failing = true) ∨
      ∃ type, e.tx.announces = some (a.job.runId, type))
    (concludes : ∀ id status, e.tx.concludes = some (id, status) → status.terminal = true →
      id = a.job.runId ∧ (db.Ended id ∨ db.terminalEvents id ≠ [] ∨
        ∃ b, e.attempt = some b ∧ b.job = a.job ∧ b.failing = true))
    (announces : ∀ id type, e.tx.announces = some (id, type) → db.Ended id) :
    a.Report py db lane e where
  next := by rwa [silent, List.append_nil]
  completes done := by rw [idle] at done; contradiction
  failing := failing
  concludes := concludes
  announces := announces
  emitted event member := by rw [silent] at member; contradiction
  opens opened := by rw [shut] at opened; contradiction

theorem advance_report (tells : a.Tells s.db lane)
    (housed : (s.db.runs.find? a.job.runId).isSome = true)
    (advanced : Advanced (c.worker w) w s.clock a e) : a.Report c.py s.db lane e := by
  have carry {next : Attempt} (tx : Tx) (completes : next.completes = false)
      (cancels : next.cancels = false) (settles : next.settles = true → s.db.Ended next.job.runId) :
      next.Tells (tx.apply c.py s.db) lane := by
    refine ⟨fun done => ?_, fun done => ?_, fun done => (settles done).apply tx⟩
    · rw [completes] at done
      contradiction
    · rw [cancels] at done
      contradiction
  cases advanced with
  | started at' =>
      refine .plain (by simp [completes, at']) rfl rfl ?_ (by simp [failing, at']) ?_
        (by simp [Tx.announces])
      · rintro b ⟨⟩
        exact ⟨rfl, .none rfl rfl rfl⟩
      · rintro id status ⟨⟩ terminal
        contradiction
  | @joined result at' =>
      refine .plain (by simp [completes, at']) rfl rfl ?_ ?_ (by simp [Tx.concludes])
        (by simp [Tx.announces])
      · rintro b ⟨⟩
        refine ⟨rfl, carry .idle ?_ ?_ fun done => tells.settles ?_⟩
        · cases result <;> rfl
        · cases result <;> rfl
        · cases result with
          | returned status => simpa [settles, at', branch] using done
          | raised | notRetryable => contradiction
      · intro fails
        cases result with
        | notRetryable message => exact .inl ⟨_, rfl, rfl, rfl⟩
        | returned | raised => simp [failing, at'] at fails
  | completed at' =>
      refine .plain (by simp [completes, at']) rfl rfl ?_ (by simp [failing, at'])
        (by simp [Tx.concludes]) (by simp [Tx.announces])
      rintro b ⟨⟩
      exact ⟨rfl, carry _ rfl rfl fun _ => tells.settles (by simp [settles, at'])⟩
  | closed at' =>
      exact .plain (by simp [completes, at']) rfl rfl (by simp) (by simp [failing, at'])
        (by simp [Tx.concludes]) (by simp [Tx.announces])
  | promoted at' =>
      refine .plain (by simp [completes, at']) rfl rfl (by simp) (by simp [failing, at']) ?_
        (by simp [Tx.announces])
      rintro id status ⟨⟩ terminal
      exact ⟨rfl, .inl (tells.settles (by simp [settles, at']))⟩
  | gaveUp at' =>
      refine .plain (by simp [completes, at']) rfl rfl ?_ ?_ (by simp [Tx.concludes])
        (by simp [Tx.announces])
      · rintro b ⟨⟩
        exact ⟨rfl, .none rfl rfl rfl⟩
      · exact fun _ => .inl ⟨_, rfl, rfl, rfl⟩
  | @reportedGivingUp error at' =>
      refine .plain (by simp [completes, at']) rfl rfl ?_ ?_ ?_ (by simp [Tx.announces])
      · rintro b ⟨⟩
        have written : (Tx.setRunStatus a.job.runId .failed (some error)).writes =
            some (a.job.runId, .failed) := rfl
        exact ⟨rfl, fun done => by contradiction, fun done => by contradiction,
          fun _ => Database.Ended.of_write written rfl housed⟩
      · exact fun _ => .inl ⟨_, rfl, rfl, rfl⟩
      · rintro id status ⟨⟩ terminal
        exact ⟨rfl, .inr (.inr ⟨_, rfl, rfl, rfl⟩)⟩
  | emittedFailure at' =>
      refine .plain (by simp [completes, at']) rfl rfl (by simp) ?_ (by simp [Tx.concludes]) ?_
      · exact fun _ => .inr ⟨.runFailed, rfl⟩
      · rintro id type ⟨⟩
        exact tells.settles (by simp [settles, at'])
  | failed at' =>
      refine .plain (by simp [completes, at']) rfl rfl ?_ (by simp [failing, at'])
        (by simp [Tx.concludes]) (by simp [Tx.announces])
      rintro b ⟨⟩
      exact ⟨rfl, .none rfl rfl rfl⟩
  | @reportedFailure error at' =>
      refine .plain (by simp [completes, at']) rfl rfl ?_ (by simp [failing, at']) ?_
        (by simp [Tx.announces])
      · rintro b ⟨⟩
        refine ⟨rfl, fun done => by contradiction, fun done => by contradiction, fun done => ?_⟩
        have spent : a.exhausted = true := done
        have written : (Tx.setRunStatus a.job.runId (if a.exhausted then .failed else .queued)
            (some error)).writes = some (a.job.runId, .failed) := by rw [if_pos spent]; rfl
        exact Database.Ended.of_write written rfl housed
      · rintro id status ⟨⟩ terminal
        have spent : a.exhausted = true := by
          by_contra left
          rw [if_neg left] at terminal
          contradiction
        exact ⟨rfl, .inr (.inr ⟨_, rfl, rfl, spent⟩)⟩
  | emittedRetry at' =>
      refine .plain (by simp [completes, at']) rfl rfl (by simp) ?_ (by simp [Tx.concludes]) ?_
      · intro fails
        have spent : a.exhausted = true := by simpa [failing, at'] using fails
        exact .inr ⟨.runFailed, by rw [if_pos spent]; rfl⟩
      · intro id type announced
        cases spent : a.exhausted with
        | true =>
            rw [if_pos spent] at announced
            cases announced
            exact tells.settles (by simp [settles, at', spent])
        | false =>
            rw [spent] at announced
            contradiction

/-- The steps of a handler, for the timeline: inside the execution, back without an outcome,
with an outcome, and its record. -/
inductive Scene (db : Database) (drained : Bool) (a : Attempt) (phase : HandlerPhase)
    (e : Effect) : Prop
  | inside (next : HandlerPhase) : (∀ outcome, phase ≠ .record outcome) →
      e.attempt = a.handler next → (∀ outcome, next ≠ .record outcome) →
      (∀ event ∈ e.emitted, event.type.terminal = false) → e.tx.announces = none →
      e.tx.concludes = none → Scene db drained a phase e
  | returns (result : HandlerResult) : (∀ outcome, phase ≠ .record outcome) →
      e = { attempt := a.goto (.handled result) } → (∀ message, result ≠ .notRetryable message) →
      (result = .returned .completed → db.Ended a.job.runId) → Scene db drained a phase e
  | outcome (outcome : Outcome) : (∀ outcome, phase ≠ .record outcome) →
      e.attempt = a.handler (.record outcome) → e.tx = .idle → e.opensLane = false →
      (outcome.status = .completed → ∃ event ∈ e.emitted, event.type = .runCompleted) →
      (outcome.status = .cancelled → db.Ended a.job.runId) →
      (∀ event ∈ e.emitted, event.type.terminal = true → event.type = .runCompleted ∧
        event.runId = a.job.runId ∧ outcome.status = .completed) → Scene db drained a phase e
  | records (outcome : Outcome) : phase = .record outcome → drained = true →
      e = a.updateRun outcome → Scene db drained a phase e

theorem classifyFailure_failed {error : ExecError} (spontaneous : error.cancels = false) :
    (classifyFailure error).status = .failed := by
  cases error with
  | runCancelled => contradiction
  | modelCall message category recoverable =>
      simp only [classifyFailure]
      split <;> rfl
  | graphRecursion | graphValidation | toolNotFound | toolPermission | rag | subagent | other =>
      rfl

theorem throw_scene {drained : Bool} {phase : HandlerPhase} {error : ExecError}
    (inside : ∀ outcome, phase ≠ .record outcome)
    (cause : (classifyFailure error).status = .failed ∨
      ((classifyFailure error).status = .cancelled ∧ db.Ended a.job.runId)) :
    Scene db drained a phase (a.throw error) := by
  refine .outcome (classifyFailure error) inside rfl rfl rfl (fun done => ?_) (fun done => ?_) ?_
  · rcases cause with failed | ⟨cancelled, _⟩
    · rw [failed] at done
      contradiction
    · rw [cancelled] at done
      contradiction
  · rcases cause with failed | ⟨_, ended⟩
    · rw [failed] at done
      contradiction
    · exact ended
  · simp [throw, event, EventType.terminal]

theorem handlerStep_scene {thread : Thread} {drained : Bool} {phase : HandlerPhase}
    {move : HandlerMove} (stepped : a.handlerStep py db thread drained phase move = some e) :
    Scene db drained a phase e := by
  cases handlerStep_cases stepped with
  | missing _ at'' =>
      exact .returns _ (by rcases at'' with rfl | ⟨_, rfl⟩ <;> simp) rfl (by simp) (by simp)
  | ended stored terminal =>
      exact .returns _ (by simp) rfl (by simp) fun _ => .of_find? stored terminal
  | waiting => exact .returns _ (by simp) rfl (by simp) (by simp)
  | started =>
      refine .inside _ (by simp) rfl (by simp) ?_ rfl rfl
      dsimp only
      split <;> simp [event, EventType.terminal]
  | cancelled stored status =>
      have terminal : _ = true := congrArg RunStatus.terminal status
      exact throw_scene (by simp) (.inr ⟨rfl, .of_find? stored terminal⟩)
  | @emitted _ _ event body =>
      refine .inside _ (by simp) rfl (by simp) ?_ rfl rfl
      rcases event with ⟨type, _, _, _⟩
      cases type <;> first | contradiction | simp [Attempt.event, EventType.terminal]
  | gated => exact .inside _ (by simp) rfl (by simp) (by simp [gate]) rfl rfl
  | paused =>
      exact .outcome pausedOutcome (by simp) rfl rfl rfl (by simp [pausedOutcome])
        (by simp [pausedOutcome]) (by simp [event, EventType.terminal])
  | nodeStarted | nodeCompleted =>
      exact .inside _ (by simp) rfl (by simp) (by simp [event, EventType.terminal]) rfl rfl
  | finished =>
      exact .outcome (completedOutcome _) (by simp) rfl rfl rfl (by simp [event])
        (by simp [completedOutcome]) (by simp [event, completedOutcome])
  | threw inside spontaneous =>
      exact throw_scene inside (.inl (classifyFailure_failed spontaneous))
  | recorded drained => exact .records _ rfl drained rfl
  | loaded | admitted | entered | resumed | answered =>
      exact .inside _ (by simp) rfl (by simp) (by simp) rfl rfl

theorem handlerResult_completed {outcome : Outcome}
    (returned : handlerResult outcome = .returned .completed) : outcome.status = .completed := by
  unfold handlerResult at returned
  split at returned
  next => split at returned <;> contradiction
  next => exact HandlerResult.returned.inj returned

theorem updateRun_report {outcome : Outcome} (tells : a.Tells db lane)
    (housed : (db.runs.find? a.job.runId).isSome = true)
    (at' : a.phase = .handling (.record outcome)) (drained : lane = []) :
    a.Report py db lane (a.updateRun outcome) := by
  have completed (done : outcome.status = .completed) :
      (persistedAttemptStatus outcome).terminal = true ∧ db.terminalEvents a.job.runId ≠ [] := by
    refine ⟨by simp [persistedAttemptStatus, done, RunStatus.terminal], ?_⟩
    rcases tells.completes (by simp [completes, at', done]) with ⟨_, member, _⟩ | stored
    · rw [drained] at member
      contradiction
    · exact stored
  have ended (done : outcome.status = .completed) :
      ((a.updateRun outcome).tx.apply py db).Ended a.job.runId :=
    Database.Ended.of_write rfl (completed done).1 housed
  refine ⟨?_, ?_, by simp [failing, at'], ?_, by simp [updateRun, Tx.announces],
    by simp [updateRun], by simp [updateRun]⟩
  · rintro b ⟨⟩
    refine ⟨rfl, fun done => by contradiction, fun done => by contradiction, fun done => ended ?_⟩
    cases result : handlerResult outcome with
    | returned status =>
        simp only [settles, result, decide_eq_true_eq] at done
        exact handlerResult_completed (done ▸ result)
    | raised | notRetryable => simp [settles, result] at done
  · intro done
    exact .inr ⟨drained, ended (by simpa [completes, at'] using done)⟩
  · rintro id status ⟨⟩ terminal
    refine ⟨rfl, ?_⟩
    cases status : outcome.status with
    | completed => exact .inr (.inl (completed status).2)
    | cancelled => exact .inl (tells.cancels (by simp [cancels, at', status]))
    | failed =>
        cases retryable : executionIsRetryable outcome.terminationReason with
        | true => simp [persistedAttemptStatus, status, retryable, RunStatus.terminal] at terminal
        | false =>
            refine .inr (.inr ⟨_, rfl, rfl, ?_⟩)
            simp [failing, handlerResult, status, retryable]
    | queued | running | paused =>
        simp [persistedAttemptStatus, status, RunStatus.terminal] at terminal

theorem scene_report {drained : Bool} {phase : HandlerPhase} (tells : a.Tells db lane)
    (housed : (db.runs.find? a.job.runId).isSome = true) (at' : a.phase = .handling phase)
    (scene : Scene db drained a phase e) (flushed : drained = true → lane = []) :
    a.Report py db lane e := by
  have idle (inside : ∀ outcome, phase ≠ .record outcome) : a.completes = false := by
    unfold completes
    rw [at']
    cases phase with
    | record outcome => exact absurd rfl (inside outcome)
    | loadJob | loadRun | start | launch | graph => rfl
  have alive : a.failing = false := by simp [failing, at']
  cases scene with
  | inside next inside same outside quiet announces concludes =>
      refine ⟨fun b after => ?_, fun done => ?_, fun fails => ?_, ?_, ?_, ?_, fun _ => idle inside⟩
      · rw [same] at after
        cases after
        refine ⟨rfl, .none ?_ ?_ rfl⟩ <;>
        · cases next with
          | record outcome => exact absurd rfl (outside outcome)
          | loadJob | loadRun | start | launch | graph => rfl
      · rw [idle inside] at done
        contradiction
      · rw [alive] at fails
        contradiction
      · rw [concludes]
        simp
      · rw [announces]
        simp
      · intro event member ends
        rw [quiet event member] at ends
        contradiction
  | returns result inside same retryable ended =>
      subst same
      refine .plain (idle inside) rfl rfl ?_ (by simp [alive]) (by simp [Tx.concludes])
        (by simp [Tx.announces])
      rintro b ⟨⟩
      refine ⟨rfl, fun done => by contradiction, fun done => by contradiction, fun done => ?_⟩
      cases result with
      | returned status => exact (ended (by rw [of_decide_eq_true done])).apply .idle
      | raised | notRetryable => contradiction
  | outcome outcome inside same tx shut completed cancelled ends =>
      refine ⟨fun b after => ?_, fun done => ?_, fun fails => ?_, ?_, ?_, ?_, fun _ => idle inside⟩
      · rw [same] at after
        cases after
        refine ⟨rfl, fun done => ?_, fun done => ?_, fun done => by contradiction⟩
        · obtain ⟨event, member, type⟩ := completed (of_decide_eq_true done)
          exact .inl ⟨event, List.mem_append_right _ member, type⟩
        · exact (cancelled (of_decide_eq_true done)).apply e.tx
      · rw [idle inside] at done
        contradiction
      · rw [alive] at fails
        contradiction
      · simp [tx, Tx.concludes]
      · simp [tx, Tx.announces]
      · intro event member final
        obtain ⟨type, own, done⟩ := ends event member final
        exact ⟨type, _, same, own.symm, by simp [completes, done]⟩
  | records outcome at'' done same =>
      subst at'' same
      exact updateRun_report tells housed at' (flushed done)

/-- The heartbeat leaves the phase as it is. -/
theorem beat_report {b : Attempt} (tells : a.Tells db lane) (after : e.attempt = some b)
    (phase : b.phase = a.phase) (job : b.job = a.job) (silent : e.emitted = [])
    (shut : e.opensLane = false) (announces : e.tx.announces = none)
    (concludes : e.tx.concludes = none) : a.Report py db lane e := by
  have completes : b.completes = a.completes := by rw [Attempt.completes, phase, Attempt.completes]
  have cancels : b.cancels = a.cancels := by rw [Attempt.cancels, phase, Attempt.cancels]
  have settles : b.settles = a.settles := by
    rw [Attempt.settles, phase, exhausted, job, Attempt.settles, exhausted]
  have failing : b.failing = a.failing := by
    rw [Attempt.failing, phase, exhausted, job, Attempt.failing, exhausted]
  refine ⟨fun next same => ?_, fun done => .inl ⟨b, after, job, completes ▸ done⟩,
    fun fails => .inl ⟨b, after, job, failing ▸ fails⟩, by simp [concludes], by simp [announces],
    by simp [silent], by simp [shut]⟩
  rw [after] at same
  cases same
  have kept := Tells.apply py tells e.tx e.emitted
  refine ⟨job, fun done => ?_, fun done => ?_, fun done => ?_⟩
  · rw [job]
    exact kept.completes (completes ▸ done)
  · rw [job]
    exact kept.cancels (cancels ▸ done)
  · rw [job]
    exact kept.settles (settles ▸ done)

theorem goto_report {next : Phase} (done : a.completes = false) (alive : a.failing = false)
    (calm : Attempt.Tells db lane { a with phase := next }) :
    a.Report py db lane { attempt := a.goto next } := by
  refine .plain done rfl rfl ?_ (by simp [alive]) (by simp [Tx.concludes]) (by simp [Tx.announces])
  rintro b ⟨⟩
  exact ⟨rfl, calm⟩

end Attempt

theorem Sys.effect_report {m : Move} (tells : a.Tells s.db lane)
    (housed : (s.db.runs.find? a.job.runId).isSome = true) (persists : a.persists m = true)
    (flushed : (s.workers w).drained = true → lane = []) (effected : s.effect c w a m = some e) :
    a.Report c.py s.db lane e := by
  cases Sys.effect_cases effected with
  | advance advanced => exact Attempt.advance_report tells housed advanced
  | handler at' _ stepped =>
      exact Attempt.scene_report tells housed at' (Attempt.handlerStep_scene stepped) flushed
  | unwound _ lost => simp [Attempt.persists, lost] at persists
  | excepted at' =>
      refine Attempt.goto_report ?_ ?_ (.none rfl rfl rfl)
      · rcases at' with at' | ⟨_, at'⟩ | at' <;> simp [Attempt.completes, at']
      · rcases at' with at' | ⟨_, at'⟩ | at' <;> simp [Attempt.failing, at']
  | escaped at' _ reads =>
      rcases reads with rfl | ⟨_, rfl⟩ | ⟨_, rfl⟩
      · exact Attempt.goto_report (by simp [Attempt.completes, at'])
          (by simp [Attempt.failing, at']) (.none rfl rfl rfl)
      · exact Attempt.goto_report (by simp [Attempt.completes, at'])
          (by simp [Attempt.failing, at']) (.none rfl rfl rfl)
      · simp [Attempt.persists, at'] at persists
  | abandoned unguarded =>
      cases at' : a.phase <;> simp [at', Phase.unguarded, Attempt.persists] at unguarded persists
  | readClock | renewed | lost | beatRaises =>
      exact Attempt.beat_report tells rfl rfl rfl rfl rfl rfl rfl
  | cancelled => contradiction

end Reports

end AgentRuntime
