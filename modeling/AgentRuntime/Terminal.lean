import AgentRuntime.Steps

/-! Terminal runs are absorbing. Every writer of a run keeps a terminal status, whoever
issues it and however late, so the argument needs no invariant of the workers. -/
namespace AgentRuntime
open Machines Tables

/-- A terminal status is written again at most by itself. -/
theorem Tx.RunWrite.terminal {db : Database} {tx : Tx} {run after : RunRow}
    (write : RunWrite db tx run after) (stored : db.runs.find? run.id = some run)
    (terminal : run.status.terminal = true) : after.status = run.status := by
  cases write with
  | kept => rfl
  | cancelled _ live => rw [terminal] at live; contradiction
  | set _ _ _ same | updated _ _ _ _ _ same => exact (same terminal).symm
  | requeued _ _ _ _ _ _ woken _ found same =>
      -- only a paused run is put back, and the table holds one row of this key
      obtain ⟨wokenStored, paused⟩ := Database.wakes_stored found
      rw [same, stored] at wokenStored
      cases wokenStored
      rw [paused] at terminal
      contradiction

/-- The run `id` is stored with the terminal status `status`. -/
def Database.Settled (db : Database) (id : RunId) (status : RunStatus) : Prop :=
  status.terminal = true ∧ ∃ run, db.runs.find? id = some run ∧ run.status = status

namespace Database.Settled
variable {py : Builtins} {db : Database} {id : RunId} {status : RunStatus}

theorem apply (settled : db.Settled id status) (tx : Tx) : (tx.apply py db).Settled id status := by
  obtain ⟨terminal, run, stored, rfl⟩ := settled
  have key : run.id = id := Table.key_of_find? stored
  subst key
  refine ⟨terminal, tx.onRun db run, ?_, (tx.onRun_write db run).terminal stored terminal⟩
  rw [Tx.find?_runs, stored, rowAfter_some]

theorem not_claimed (settled : db.Settled id status) {now : Time} {locked : JobRow → Bool}
    {job : JobRow} (found : db.claimCandidate now locked = some job) : job.runId ≠ id := by
  obtain ⟨terminal, run, stored, rfl⟩ := settled
  obtain ⟨_, other, otherStored, claimable'⟩ := Sys.claimCandidate_sound found
  rintro rfl
  rw [stored] at otherStored
  cases otherStored
  simp [claimable, terminal] at claimable'

theorem not_woken (settled : db.Settled id status) (approval : ApprovalId) (now : Time) :
    ∀ run ∈ db.wakes approval now, run.id ≠ id := by
  obtain ⟨terminal, run, stored, rfl⟩ := settled
  intro woken found same
  obtain ⟨wokenStored, paused⟩ := Database.wakes_stored found
  rw [same, stored] at wokenStored
  cases wokenStored
  rw [paused] at terminal
  contradiction

end Database.Settled

/-- The terminal status of a stored run is the status of the run after every schedule;
no claim takes a job of the run, and no resolution adds one. -/
theorem terminal_runs_absorbing (c : Config) {s t : Sys} {actions : List Action} {id : RunId}
    {status : RunStatus} (settled : s.db.Settled id status)
    (run : Run (system c) anyStep s actions t) :
    t.db.Settled id status ∧
      (∀ w now job, ∀ action, t.Claims w now job action →
        ∀ row, t.db.jobs.find? job = some row → row.runId ≠ id) ∧
      ∀ approval decision resolvedBy reason jobId u,
        (system c).step t (.request (.resolve approval decision resolvedBy reason jobId)) = some u →
        ∀ k row, u.db.jobs.find? k = some row → row.runId = id → t.db.jobs.find? k = some row := by
  have after : t.db.Settled id status := run.invariant (I := fun s => s.db.Settled id status)
    (fun s a t settled _ stepped => by
      obtain ⟨tx, commits⟩ := (Sys.step_sound stepped).commits
      rw [commits.db]
      exact settled.apply tx) settled
  refine ⟨after, ?_, ?_⟩
  · rintro w now job action ⟨locked, row, rfl, _, found, rfl⟩ other stored
    rw [(Sys.claimCandidate_sound found).1] at stored
    cases stored
    exact after.not_claimed found
  · intro approval decision resolvedBy reason jobId u stepped k row stored same
    simp only [system, Sys.step, Sys.serve] at stepped
    split at stepped
    next =>
      cases stepped
      rw [Tx.find?_jobs] at stored
      obtain ⟨old, before, rfl⟩ | ⟨_, inserted, _⟩ := rowAfter_cases stored
      · exact before
      · simp only [Tx.newJob, Option.map_eq_some_iff] at inserted
        obtain ⟨woken, found, rfl⟩ := inserted
        exact absurd same (after.not_woken approval _ woken found)
    next => contradiction

/-- A worker that claimed the job before the run was cancelled goes on. -/
theorem cancelled_run_absorbing :
    ∃ s t, Run (system sampleConfig) anyStep (.start 100)
        (sampleClaim "w1" ++ [.request (.cancelRun sampleRun)]) s ∧
      Run (system sampleConfig) anyStep s
        [.work "w1" .advance, .work "w1" (.handler (.load fun _ => 0)), .work "w1" .advance] t ∧
      t.db.Settled sampleRun .cancelled := by
  obtain ⟨s, run, cancelled, continues⟩ := Run.of_test (M := system sampleConfig) (.start 100)
    (sampleClaim "w1" ++ [.request (.cancelRun sampleRun)])
    (fun s =>
      (s.db.runs.find? sampleRun).map RunRow.status = some .cancelled ∧
        ((system sampleConfig).replay s
          [.work "w1" .advance, .work "w1" (.handler (.load fun _ => 0)),
            .work "w1" .advance]).isSome = true)
    (by decide)
  obtain ⟨t, replayed⟩ := Option.isSome_iff_exists.mp continues
  refine ⟨s, t, run, .of_replay replayed, ?_⟩
  exact (terminal_runs_absorbing sampleConfig ⟨rfl, Option.map_eq_some_iff.mp cancelled⟩
    (.of_replay replayed)).1

end AgentRuntime
