import AgentRuntime.Fencing

/-! The answer of a completed run. The condition of `_update_run` lets a completed run be
written with the status it has, so a second attempt that finished too may replace the
answer of the first. The guard `unanswered` names the schedules without such a write. -/
namespace AgentRuntime
open Machines Tables

/-- The run `id` is stored as completed, with the answer `output`. -/
def Database.Answered (db : Database) (id : RunId) (output : Option String) : Prop :=
  ∃ run, db.runs.find? id = some run ∧ run.status = .completed ∧ run.outputText = output

/-- Once a run is stored as completed, no later step of the schedule changes its answer. -/
def OutputFinal (c : Config) (s : Sys) (actions : List Action) : Prop :=
  ∀ id output, Lasting (system c) (fun s => s.db.Answered id output) s actions

/-- An attempt that finished records its output only while its run is not completed, or is
completed with this very output. -/
def unanswered : Guard Sys Action := fun s action =>
  ∀ w a outcome, action = .work w (.handler .updateRun) → s.attempt? w = some a →
    a.phase = .handling (.record outcome) → outcome.status = .completed →
    ∀ output, s.db.Answered a.job.runId output → output = some outcome.output

theorem persistedAttemptStatus_completed {outcome : Outcome} :
    persistedAttemptStatus outcome = .completed ↔ outcome.status = .completed := by
  unfold persistedAttemptStatus
  split
  next failed =>
    simp only [Bool.and_eq_true, decide_eq_true_eq] at failed
    simp [failed.1]
  next => rfl

/-- Only `_update_run` writes the answer of a stored run, and a completed one is written
with its status alone. -/
theorem Tx.RunWrite.answer {db : Database} {tx : Tx} {run after : RunRow}
    (write : RunWrite db tx run after) (completed : run.status = .completed) :
    after.outputText = run.outputText ∨
      ∃ output error reason, tx = .updateRun run.id .completed output error reason ∧
        after.outputText = some output := by
  cases write with
  | kept | cancelled | set | requeued => exact .inl rfl
  | updated status output error reason same kept =>
      have status_eq := kept (by rw [completed]; rfl)
      rw [completed] at status_eq
      subst status_eq
      exact .inr ⟨output, error, reason, same, rfl⟩

/-- A completed run takes the answer of a further attempt that finished. -/
theorem Database.Answered.overwritten {py : Builtins} {db : Database} {id : RunId}
    {before : Option String} (answered : db.Answered id before) (output : String)
    (error : Option String) (reason : String) :
    ((Tx.updateRun id .completed output error reason).apply py db).Answered id (some output) := by
  obtain ⟨run, stored, completed, _⟩ := answered
  have key : run.id = id := Table.key_of_find? stored
  refine ⟨(Tx.updateRun id .completed output error reason).onRun db run, ?_, ?_⟩
  · rw [Tx.find?_runs, stored, rowAfter_some]
  · constructor <;> simp [Tx.onRun, key, completed]

namespace Sys
variable {c : Config} {s t : Sys} {action : Action}

/-- The transaction `_update_run` belongs to an attempt that records its outcome. -/
theorem Commits.records {tx : Tx} (commits : Commits c s action t tx) {id : RunId}
    {status : RunStatus} {output : String} {error : Option String} {reason : String}
    (same : tx = .updateRun id status output error reason) :
    ∃ w a outcome, action = .work w (.handler .updateRun) ∧ s.attempt? w = some a ∧
      a.phase = .handling (.record outcome) ∧ id = a.job.runId ∧
      status = persistedAttemptStatus outcome ∧ output = outcome.output := by
  cases commits.origin with
  | idle | persist | claim => contradiction
  | request r =>
      have api := r.tx_api s
      rw [same] at api
      contradiction
  | @work w m a e busy effected =>
      have issues := effect_issues effected
      rw [same] at issues
      cases issues with
      | @updateRun outcome at' => exact ⟨w, a, outcome, rfl, busy, at', rfl, rfl, rfl⟩

theorem answered_next (guarded : unanswered s action) {id : RunId} {output : Option String}
    (answered : s.db.Answered id output) (stepped : (system c).step s action = some t) :
    t.db.Answered id output := by
  obtain ⟨tx, commits⟩ := (step_sound stepped).commits
  obtain ⟨run, stored, completed, rfl⟩ := answered
  have key : run.id = id := Table.key_of_find? stored
  subst key
  have write := tx.onRun_write s.db run
  refine ⟨tx.onRun s.db run, ?_, ?_, ?_⟩
  · rw [commits.db, Tx.find?_runs, stored, rowAfter_some]
  · exact (write.terminal stored (by rw [completed]; rfl)).trans completed
  · rcases write.answer completed with kept | ⟨output, error, reason, same, after⟩
    · exact kept
    · obtain ⟨w, a, outcome, rfl, busy, at', id, status, rfl⟩ := commits.records same
      have done := persistedAttemptStatus_completed.mp status.symm
      have own := guarded w a outcome rfl busy at' done run.outputText
        (id ▸ ⟨run, stored, completed, rfl⟩)
      rw [after, own]

theorem effect_records {w : WorkerId} {a : Attempt} {outcome : Outcome} {e : Effect}
    (at' : a.phase = .handling (.record outcome))
    (effected : s.effect c w a (.handler .updateRun) = some e) :
    e.tx = .updateRun a.job.runId (persistedAttemptStatus outcome) outcome.output outcome.error
      outcome.terminationReason := by
  have recorded {phase : HandlerPhase} (inner : Effect) (here : a.phase = .handling phase)
      (stepped : a.handlerStep c.py s.db (s.threads a.job.runId) (s.workers w).drained phase
        .updateRun = some inner) :
      inner.tx = .updateRun a.job.runId (persistedAttemptStatus outcome) outcome.output
        outcome.error outcome.terminationReason := by
    rw [at'] at here
    cases here
    cases Attempt.handlerStep_cases stepped with
    | recorded => rfl
  cases effect_cases effected with
  | handler here _ stepped => exact recorded e here stepped
  | @unwound _ _ inner here _ stepped => exact recorded inner here stepped

/-- The record of an attempt that finished takes effect on a completed run. -/
theorem answered_replaced {w : WorkerId} {a : Attempt} {outcome : Outcome}
    {output : Option String} (busy : s.attempt? w = some a)
    (at' : a.phase = .handling (.record outcome)) (done : outcome.status = .completed)
    (answered : s.db.Answered a.job.runId output)
    (stepped : (system c).step s (.work w (.handler .updateRun)) = some t) :
    t.db.Answered a.job.runId (some outcome.output) := by
  have step : Step c s (.work w (.handler .updateRun)) t := step_sound stepped
  cases step with
  | effect before effected =>
      rw [busy] at before
      cases before
      have status := persistedAttemptStatus_completed.mpr done
      simp only [commit]
      rw [effect_records at' effected, status]
      exact answered.overwritten _ _ _

theorem unanswered_iff (stepped : (system c).step s action = some t) :
    unanswered s action ↔ ∀ (of : RunId × Option String),
      s.db.Answered of.1 of.2 → t.db.Answered of.1 of.2 := by
  constructor
  · intro guarded of answered
    exact answered_next guarded answered stepped
  · intro kept w a outcome same busy at' done output answered
    subst same
    obtain ⟨run, stored, _, own⟩ := kept (a.job.runId, output) answered
    obtain ⟨other, found, _, written⟩ := answered_replaced busy at' done answered stepped
    rw [stored] at found
    cases found
    exact own.symm.trans written

end Sys

/-- The answer of a completed run is final exactly in the schedules without a further
attempt that records another one. -/
theorem output_final_iff (c : Config) {s u : Sys} {actions : List Action}
    (reached : Reachable (system c) anyStep s) (run : Run (system c) anyStep s actions u) :
    OutputFinal c s actions ↔ Run (system c) unanswered s actions u := by
  have uncurried : OutputFinal c s actions ↔ ∀ of : RunId × Option String,
      Lasting (system c) (fun s => s.db.Answered of.1 of.2) s actions := by
    rw [OutputFinal, Prod.forall]
  rw [uncurried, run.lasting_iff]
  refine Run.iff_of_reachable (fun s a t _ stepped => ?_) reached
  rw [Sys.unanswered_iff stepped]
  constructor
  · intro kept
    exact kept t stepped
  · intro kept t' stepped'
    rw [stepped] at stepped'
    cases stepped'
    exact kept

def Database.answer? (db : Database) (id : RunId) : Option (RunStatus × Option String) :=
  (db.runs.find? id).map fun run => (run.status, run.outputText)

theorem Database.answered_iff {db : Database} {id : RunId} {output : Option String} :
    db.Answered id output ↔ db.answer? id = some (.completed, output) := by
  simp [Answered, answer?]

instance (db : Database) (id : RunId) (output : Option String) :
    Decidable (db.Answered id output) := decidable_of_iff' _ Database.answered_iff


def unansweredTest (s : Sys) : Action → Bool
  | .work w (.handler .updateRun) =>
      (s.attempt? w).all fun a =>
        match a.phase with
        | .handling (.record outcome) =>
            outcome.status ≠ .completed ||
              (s.db.answer? a.job.runId).all fun answer =>
                answer.1 ≠ .completed || answer.2 = some outcome.output
        | _ => true
  | _ => true

theorem unansweredTest_checks (c : Config) :
    Checks (system c) unanswered (fun _ => True) unansweredTest where
  sound s action _ tested := by
    intro w a outcome same busy at' done output answered
    subst same
    rw [Database.answered_iff] at answered
    simpa [unansweredTest, busy, at', done, answered] using tested
  kept _ _ _ _ _ _ := trivial

/-- The one attempt of a run answers it, and the promotion by `run_once` changes nothing. -/
theorem single_answer_final :
    ∃ u actions, Run (system sampleConfig) anyStep (.start 100) actions u ∧
      u.db.Answered sampleRun (some "done") ∧ OutputFinal sampleConfig (.start 100) actions := by
  let actions := sampleClaim "w1" ++
    [.work "w1" .advance, .work "w1" (.handler (.load fun _ => 0)),
      .work "w1" (.handler (.load fun _ => 0)), .work "w1" (.handler .start),
      .work "w1" (.handler .launch), .work "w1" (.handler (.finish "done")),
      .work "w1" (.persist 0), .work "w1" (.persist 0), .work "w1" (.handler .updateRun),
      .work "w1" .advance, .work "w1" .advance, .work "w1" .advance]
  obtain ⟨u, run, _, answered⟩ := (unansweredTest_checks sampleConfig).of_test
    (s := .start 100) trivial actions (fun u => u.db.Answered sampleRun (some "done")) (by decide)
  exact ⟨u, actions, run.anyStep, answered,
    (output_final_iff sampleConfig (.start ⟨100, rfl⟩) run.anyStep).mpr run⟩

/-- The attempt of `w2` goes on after the one of `w1` completed the run. -/
def secondCompletion : List Action :=
  takeoverAtUpdate ++
    [.work "w2" .advance, .work "w2" (.handler (.load fun _ => 0)),
      .work "w2" (.handler (.load fun _ => 0)), .work "w2" (.handler .start),
      .work "w2" (.handler .launch), .work "w2" (.handler (.finish "other")),
      .work "w2" (.persist 0), .work "w1" (.handler .updateRun)]

/-- The late attempt of `w2` replaces the answer of the completed run. -/
theorem second_answer_replaces :
    ¬ ∀ s actions u, Reachable (system sampleConfig) anyStep s →
      Run (system sampleConfig) anyStep s actions u → OutputFinal sampleConfig s actions := by
  intro final
  obtain ⟨t, run, answered, replaced⟩ := Run.of_test (M := system sampleConfig) (.start 100)
    secondCompletion
    (fun t => t.db.Answered sampleRun (some "done") ∧
      ((system sampleConfig).step t (.work "w2" (.handler .updateRun))).any (fun u =>
        u.db.Answered sampleRun (some "other")) = true)
    (by decide)
  obtain ⟨u, stepped, other⟩ := (Option.any_eq_true _ _).mp replaced
  have last : Run (system sampleConfig) anyStep t [.work "w2" (.handler .updateRun)] u :=
    .single trivial stepped
  have kept : u.db.Answered sampleRun (some "done") :=
    final (.start 100) _ u (.start ⟨100, rfl⟩) (run.append last) sampleRun (some "done")
      secondCompletion _ [] t u (by rw [List.append_nil]) run last answered
  rw [Database.answered_iff] at kept
  have written := Database.answered_iff.mp (of_decide_eq_true other)
  rw [kept] at written
  simp at written

end AgentRuntime
