import AgentRuntime.Wakeup

/-! One execution per run. A lease protects a job, and nothing protects the run: the resolution
of an approval queues a second job without a look at the first, which its worker releases only
after it has recorded the pause. While no job is added to a run that still has one, the run has
one live job at most, and so one lease. -/
namespace AgentRuntime
open Machines Tables

/-- The job is executed under a lease that has not expired. -/
def Sys.Executing (s : Sys) (id : RunId) (job : JobRow) : Prop :=
  s.db.jobs.find? job.id = some job ∧ job.runId = id ∧ job.status = .running ∧
    ∃ expiry, job.leaseExpiresAt = some expiry ∧ s.clock ≤ expiry

def OneExecution (s : Sys) : Prop :=
  ∀ id job job', s.Executing id job → s.Executing id job' → job = job'

/-- A run is resumed, or queued once more, only when the job before has been released for
good. -/
def releasedFirst : Guard Sys Action := fun s action =>
  (∀ id status resolvedBy reason jobId run,
    action = .request (.resolve id status resolvedBy reason jobId) →
      s.db.wakes id s.clock = some run → ¬ s.db.HasLive run.id) ∧
  ∀ id jobId, action = .request (.enqueue id jobId) → ¬ s.db.HasLive id

/-- Every job belongs to a stored run, which has one live job at most. -/
structure Sole (s : Sys) : Prop where
  leased : s.Leased
  owned : ∀ id job, s.db.jobs.find? id = some job → (s.db.runs.find? job.runId).isSome = true
  sole : ∀ id id' job job', s.db.jobs.find? id = some job → s.db.jobs.find? id' = some job' →
    job.live = true → job'.live = true → job.runId = job'.runId → id = id'

theorem Database.hasLive_of_find? {db : Database} {id : JobId} {job : JobRow}
    (stored : db.jobs.find? id = some job) (live : job.live = true) : db.HasLive job.runId :=
  ⟨job, (Table.find?_eq_some.mp stored).1, rfl, live⟩

theorem JobRow.live_iff {job : JobRow} : job.live = true ↔ ¬ job.done := by
  unfold live done
  cases job.status <;> simp

section Steps
variable {c : Config} {s t : Sys} {action : Action} {tx : Tx}

/-- A new job comes from a request, and its run has no live job. -/
theorem Sole.newJob (sole : Sole s) (allowed : releasedFirst s action)
    (commits : Sys.Commits c s action t tx) {job : JobRow} (inserted : tx.newJob s.db = some job) :
    ¬ s.db.HasLive job.runId := by
  obtain ⟨r, rfl, rfl⟩ := commits.newJob_request inserted
  have issued := commits.issued
  cases r with
  | createRun new jobId =>
      cases inserted
      rintro ⟨old, member, same, _⟩
      have stored := sole.owned old.id old (Table.mem_rows_iff.mp member)
      have absent : s.db.runs.find? new.id = none := issued.2.1
      rw [same] at stored
      simp [absent] at stored
  | resolve id status resolvedBy reason jobId =>
      obtain ⟨run, woken, rfl⟩ := Option.map_eq_some_iff.mp inserted
      exact allowed.1 id status resolvedBy reason jobId run rfl woken
  | enqueue id jobId =>
      cases inserted
      exact allowed.2 id jobId rfl
  | cancelRun | abandon => contradiction
  | append position =>
      simp only [Request.tx] at inserted
      split at inserted <;> contradiction

/-- A live job after a step was live before, in the same run, or is the new one. -/
theorem Sole.liveBefore (sole : Sole s) (commits : Sys.Commits c s action t tx) {id : JobId}
    {job : JobRow} (stored : t.db.jobs.find? id = some job) (live : job.live = true) :
    (∃ old, s.db.jobs.find? id = some old ∧ old.live = true ∧ old.runId = job.runId) ∨
      (tx.newJob s.db = some job ∧ job.id = id) := by
  rw [commits.db, Tx.find?_jobs] at stored
  obtain ⟨old, before, rfl⟩ | ⟨_, inserted, key⟩ := rowAfter_cases stored
  · refine .inl ⟨old, before, ?_, (tx.onJob_step old).fixed.2.1.symm⟩
    have key : old.id = id := Table.key_of_find? before
    subst key
    refine JobRow.live_iff.mpr fun done => JobRow.live_iff.mp live ?_
    have kept := (tx.onJob_step old).done (sole.leased.formed _ _ before) done
      fun w l now claim => (sole.leased.claims commits.issued before claim).1
    rw [kept]
    exact done
  · exact .inr ⟨inserted, key⟩

theorem Sole.step (sole : Sole s) (allowed : releasedFirst s action)
    (step : Sys.Step c s action t) : Sole t := by
  obtain ⟨tx, commits⟩ := step.commits
  refine ⟨sole.leased.step step, ?_, ?_⟩
  · intro id job stored
    rw [commits.db, Tx.find?_jobs] at stored
    obtain ⟨old, before, rfl⟩ | ⟨_, inserted, _⟩ := rowAfter_cases stored
    · obtain ⟨run, found⟩ := Option.isSome_iff_exists.mp (sole.owned id old before)
      rw [commits.db, (tx.onJob_step old).fixed.2.1, Tx.find?_runs, found, rowAfter_some]
      rfl
    · rw [commits.db]
      exact Tx.newJob_owned commits.issued inserted
  · intro id id' job job' stored stored' live live' same
    rcases sole.liveBefore commits stored live with ⟨old, before, lived, run⟩ | ⟨new, key⟩
    · rcases sole.liveBefore commits stored' live' with ⟨old', before', lived', run'⟩ | ⟨new, _⟩
      · exact sole.sole id id' old old' before before' lived lived' (by rw [run, run', same])
      · have none := sole.newJob allowed commits new
        rw [← same, ← run] at none
        exact absurd (Database.hasLive_of_find? before lived) none
    · rcases sole.liveBefore commits stored' live' with ⟨old', before', lived', run'⟩ | ⟨new', key'⟩
      · have none := sole.newJob allowed commits new
        rw [same, ← run'] at none
        exact absurd (Database.hasLive_of_find? before' lived') none
      · rw [new] at new'
        cases new'
        exact key.symm.trans key'

theorem sole_inductive (c : Config) : Inductive (system c) releasedFirst Sole where
  init s first := by
    obtain ⟨clock, rfl⟩ := first
    refine ⟨.start clock, ?_, ?_⟩
    · intro id job stored
      contradiction
    · intro id id' job job' stored
      contradiction
  step _ _ _ sole allowed stepped := sole.step allowed (Sys.step_sound stepped)

theorem Sole.one (sole : Sole s) : OneExecution s := by
  rintro id job job' ⟨stored, rfl, running, _⟩ ⟨stored', same, running', _⟩
  have live {job : JobRow} (running : job.status = .running) : job.live = true := by
    simp [JobRow.live, running]
  have key := sole.sole job.id job'.id job job' stored stored' (live running) (live running')
    same.symm
  rw [key, stored'] at stored
  exact (Option.some.inj stored).symm

end Steps

/-- While no job is added to a run with a live job, every run is executed once at a time. -/
theorem one_execution_per_run (c : Config) {s : Sys}
    (reached : Reachable (system c) releasedFirst s) : OneExecution s :=
  ((sole_inductive c).reachable reached).one

section Sample

/-- The guard, as a test. -/
def releasedCheck (s : Sys) : Action → Bool
  | .request (.resolve id _ _ _ _) => (s.db.wakes id s.clock).all fun run => !s.db.HasLive run.id
  | .request (.enqueue id _) => !s.db.HasLive id
  | _ => true

theorem released_checks (c : Config) :
    Checks (system c) releasedFirst (fun _ => True) releasedCheck where
  sound s action _ passed := by
    refine ⟨?_, ?_⟩
    · rintro id status resolvedBy reason jobId run rfl woken
      simpa [releasedCheck, woken] using passed
    · rintro id jobId rfl
      simpa [releasedCheck] using passed
  kept _ _ _ _ _ _ := trivial

def sampleSecond : List Action :=
  [sampleApprove, .work "w2" .poll, .work "w2" (.claim fun _ => false)]

/-- The job that paused the run is completed, and the approval queues the next. -/
theorem resumed_execution_alone :
    ∃ s, OneExecution s ∧ (s.db.jobs.find? "resume").map JobRow.status = some .running := by
  obtain ⟨s, run, _, running⟩ := (released_checks sampleConfig).of_test (s := .start 100) trivial
    (samplePause ++ sampleSecond)
    (fun s => (s.db.jobs.find? "resume").map JobRow.status = some .running) (by decide)
  exact ⟨s, one_execution_per_run sampleConfig ⟨_, _, ⟨100, rfl⟩, run⟩, running⟩

/-- The pause is recorded, the approval given and its job claimed, all before the first job
is completed. -/
theorem approved_before_release_twice :
    ¬ ∀ s, Reachable (system sampleConfig) anyStep s → OneExecution s := by
  intro one
  obtain ⟨s, run, first, second⟩ := Run.of_test (M := system sampleConfig) (.start 100)
    (sampleGate ++ sampleRecord.take 5 ++ sampleSecond)
    (fun s =>
      (s.db.jobs.find? "job").any (fun job =>
        job.runId = sampleRun && job.status = .running && job.leaseExpiresAt.any (s.clock ≤ ·)) ∧
      (s.db.jobs.find? "resume").any fun job =>
        job.runId = sampleRun && job.status = .running && job.leaseExpiresAt.any (s.clock ≤ ·))
    (by decide)
  have executing {id : JobId} (runs : (s.db.jobs.find? id).any (fun job =>
      job.runId = sampleRun && job.status = .running && job.leaseExpiresAt.any (s.clock ≤ ·)) =
        true) : ∃ job, job.id = id ∧ s.Executing sampleRun job := by
    obtain ⟨job, stored, holds⟩ := (Option.any_eq_true _ _).mp runs
    simp only [Bool.and_eq_true, decide_eq_true_eq, Option.any_eq_true] at holds
    obtain ⟨⟨own, running⟩, expiry, written, unexpired⟩ := holds
    have key : job.id = id := Table.key_of_find? stored
    exact ⟨job, key, key ▸ stored, own, running, expiry, written, unexpired⟩
  obtain ⟨job, key, executes⟩ := executing first
  obtain ⟨other, key', executes'⟩ := executing second
  have same := one s ⟨_, _, ⟨100, rfl⟩, run⟩ sampleRun job other executes executes'
  rw [same, key'] at key
  exact absurd key (by decide)

end Sample
end AgentRuntime
