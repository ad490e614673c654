import AgentRuntime.Lease

/-! The attempt budget. `fail` and the failure branch of `run_once` count the attempts, but
`claim_next` spends them, and takes an expired lease over whatever the counter says. So the
budget holds exactly as long as no job is reclaimed behind its last attempt. -/
namespace AgentRuntime
open Machines Tables

def BudgetKept (s : Sys) : Prop :=
  ∀ id job, s.db.jobs.find? id = some job → 1 ≤ job.maxAttempts →
    job.attemptCount ≤ job.maxAttempts

/-- A job is taken over from an expired lease only while attempts are left. -/
def reclaimsInBudget : Guard Sys Action := fun s action =>
  ∀ w now id job, s.Claims w now id action → s.db.jobs.find? id = some job →
    job.status = .running → 1 ≤ job.maxAttempts → job.attemptCount < job.maxAttempts

/-- Jobs with any budgets, none of which was claimed so far. -/
def Sys.Unclaimed (s : Sys) : Prop :=
  ∀ id job, s.db.jobs.find? id = some job → job.status = .queued ∧ job.attemptCount = 0

/-- What a job that waits for a claim has spent, and what any job has. -/
structure JobRow.Budgeted (job : JobRow) : Prop where
  queued : job.status = .queued → job.attemptCount = 0
  waiting : job.status = .retryWait → job.attemptCount < job.budget
  spent : 1 ≤ job.maxAttempts → job.attemptCount ≤ job.maxAttempts

namespace JobRow.Budgeted
variable {job job' : JobRow} {tx : Tx}

theorem fresh (queued : job.status = .queued) (unspent : job.attemptCount = 0) :
    job.Budgeted := by
  refine ⟨fun _ => unspent, fun waits => ?_, fun _ => by omega⟩
  rw [queued] at waits
  contradiction

theorem budget_eq (limited : 1 ≤ job.maxAttempts) : job.budget = job.maxAttempts := by
  rw [budget, if_neg (by omega)]

theorem claimedBy (limited : 1 ≤ job.maxAttempts → job.attemptCount < job.maxAttempts)
    (w : WorkerId) (leaseSeconds : Nat) (now : Time) :
    (job.claimedBy w leaseSeconds now).Budgeted := by
  refine ⟨fun queued => ?_, fun waits => ?_, fun positive => limited positive⟩
  · contradiction
  · contradiction

theorem failedWith (budgeted : job.Budgeted) (error : String) (delay : Nat) (now : Time) :
    (job.failedWith error delay now).Budgeted := by
  unfold JobRow.failedWith
  split
  next left =>
    refine ⟨fun queued => ?_, fun _ => left, budgeted.spent⟩
    contradiction
  next =>
    refine ⟨fun queued => ?_, fun waits => ?_, budgeted.spent⟩
    · contradiction
    · contradiction

/-- Only a claim spends an attempt. -/
theorem step (budgeted : job.Budgeted) (step : JobStep tx job job')
    (claims : ∀ w l now, tx = .claim w l now job.id →
      1 ≤ job.maxAttempts → job.attemptCount < job.maxAttempts) : job'.Budgeted := by
  cases step with
  | kept => exact budgeted
  | claimed w l now same => exact claimedBy (claims w l now same) w l now
  | renewed => exact ⟨budgeted.queued, budgeted.waiting, budgeted.spent⟩
  | failed w error delay now => exact budgeted.failedWith error delay now
  | completed | failedWithoutRetry =>
      refine ⟨fun queued => ?_, fun waits => ?_, budgeted.spent⟩
      · contradiction
      · contradiction

end JobRow.Budgeted

def Sys.Budgeted (s : Sys) : Prop := ∀ id job, s.db.jobs.find? id = some job → job.Budgeted

section Steps
variable {c : Config} {s t : Sys} {action : Action}

/-- A claimed job is queued, waits for a retry, or is reclaimed. -/
theorem Sys.Budgeted.claimed (budgeted : s.Budgeted) (allowed : reclaimsInBudget s action)
    {w : WorkerId} {now : Time} {id : JobId} {job : JobRow} (claims : s.Claims w now id action)
    (stored : s.db.jobs.find? id = some job) (limited : 1 ≤ job.maxAttempts) :
    job.attemptCount < job.maxAttempts := by
  have row := budgeted id job stored
  have reclaimed := allowed w now id job claims stored
  obtain ⟨locked, candidate, rfl, polling, found, rfl⟩ := claims
  obtain ⟨candidateStored, run, _, chosen⟩ := Sys.claimCandidate_sound found
  rw [stored] at candidateStored
  cases candidateStored
  cases status : job.status with
  | queued =>
      have unspent := row.queued status
      omega
  | retryWait =>
      have waits := row.waiting status
      rwa [JobRow.Budgeted.budget_eq limited] at waits
  | running => exact reclaimed status limited
  | completed => exact absurd (.inl status) (claimable_not_done chosen)
  | failed => exact absurd (.inr status) (claimable_not_done chosen)

theorem Sys.Budgeted.step (budgeted : s.Budgeted) (allowed : reclaimsInBudget s action)
    (step : Sys.Step c s action t) : t.Budgeted := by
  obtain ⟨tx, commits⟩ := step.commits
  intro id job stored
  rw [commits.db, Tx.find?_jobs] at stored
  obtain ⟨old, before, rfl⟩ | ⟨_, inserted, _⟩ := rowAfter_cases stored
  · have key : old.id = id := Table.key_of_find? before
    subst key
    refine (budgeted _ _ before).step (tx.onJob_step old) fun w l now claim => ?_
    exact budgeted.claimed allowed (commits.claims claim) before
  · obtain ⟨_, _, _, rfl⟩ := Tx.newJob_eq inserted
    exact .fresh rfl rfl

/-- A stored job keeps its budget, and no attempt is given back. -/
theorem attempts_grow (step : Sys.Step c s action t) {id : JobId} {job : JobRow}
    (stored : s.db.jobs.find? id = some job) :
    ∃ job', t.db.jobs.find? id = some job' ∧ job'.maxAttempts = job.maxAttempts ∧
      job.attemptCount ≤ job'.attemptCount := by
  obtain ⟨tx, commits⟩ := step.commits
  refine ⟨tx.onJob job, by rw [commits.db, Tx.find?_jobs, stored, rowAfter_some], ?_⟩
  have row := tx.onJob_step job
  refine ⟨row.fixed.2.2, ?_⟩
  rcases row.attemptCount with same | ⟨w, l, now, _, same⟩
  · exact same.ge
  · rw [same]
    exact Nat.le_succ _

end Steps

/-- The budget holds at the end of a run exactly when no expired lease was taken over behind
the last attempt of its job. -/
theorem attempts_within_budget_iff (c : Config) {s u : Sys} {actions : List Action}
    (unclaimed : s.Unclaimed) (run : Run (system c) anyStep s actions u) :
    BudgetKept u ↔ Run (system c) reclaimsInBudget s actions u := by
  constructor
  · intro kept
    refine run.guarded (I := fun _ => True) (P := fun s => ¬ BudgetKept s)
      (fun _ _ _ _ _ _ => trivial) ?_ ?_ trivial (not_not.mpr kept)
    · intro s a t _ _ stepped broken after
      refine broken fun id job stored limited => ?_
      obtain ⟨job', stored', same, grows⟩ := attempts_grow (Sys.step_sound stepped) stored
      have bound := after id job' stored' (by omega)
      omega
    · intro s a t _ _ stepped outside after
      simp only [reclaimsInBudget, not_forall] at outside
      obtain ⟨w, now, id, job, claims, stored, running, limited, spent⟩ := outside
      have claimed := after id _ (Sys.claims_stored (Sys.step_sound stepped) claims stored) limited
      simp only [JobRow.claimedBy] at claimed
      omega
  · intro guarded id job stored limited
    have budgeted : u.Budgeted := guarded.invariant (I := Sys.Budgeted)
      (fun s a t budgeted allowed stepped => budgeted.step allowed (Sys.step_sound stepped))
      fun id job stored => .fresh (unclaimed id job stored).1 (unclaimed id job stored).2
    exact (budgeted id job stored).spent limited

section Sample

/-- The guard, as a test. -/
def reclaimCheck (s : Sys) : Action → Bool
  | .work w (.claim locked) =>
      match (s.workers w).activity with
      | .polling now =>
          (s.db.claimCandidate now locked).all fun job =>
            job.status ≠ .running || job.attemptCount < job.maxAttempts
      | _ => true
  | _ => true

theorem reclaim_checks (c : Config) :
    Checks (system c) reclaimsInBudget (fun _ => True) reclaimCheck where
  sound s action _ passed := by
    rintro w now id job ⟨locked, chosen, rfl, polling, found, rfl⟩ stored running _
    rw [(Sys.claimCandidate_sound found).1] at stored
    cases stored
    simpa [reclaimCheck, polling, found, running] using passed
  kept _ _ _ _ _ _ := trivial

/-- The worker crashes, its lease expires, and the job is claimed again. -/
def sampleReclaim : List Action :=
  [.work "w1" .crash, .tick 61, .work "w1" .poll, .work "w1" (.claim fun _ => false)]

theorem start_unclaimed (clock : Time) : (Sys.start clock).Unclaimed := by
  intro id job stored
  contradiction

/-- Two crashes leave the third and last attempt. -/
theorem crashes_within_budget :
    ∃ s, BudgetKept s ∧ (s.db.jobs.find? "job").map JobRow.attemptCount = some 3 := by
  obtain ⟨s, run, _, attempts⟩ := (reclaim_checks sampleConfig).of_test (s := .start 100) trivial
    (sampleClaim "w1" ++ sampleReclaim ++ sampleReclaim)
    (fun s => (s.db.jobs.find? "job").map JobRow.attemptCount = some 3) (by decide)
  exact ⟨s, (attempts_within_budget_iff sampleConfig (start_unclaimed 100) run.anyStep).mpr run,
    attempts⟩

/-- The third crash is followed by a fourth attempt. -/
theorem crash_exceeds_budget :
    ¬ ∀ s, Reachable (system sampleConfig) anyStep s → BudgetKept s := by
  intro kept
  obtain ⟨s, run, attempts⟩ := Run.of_test (M := system sampleConfig) (.start 100)
    (sampleClaim "w1" ++ sampleReclaim ++ sampleReclaim ++ sampleReclaim)
    (fun s => (s.db.jobs.find? "job").any fun job =>
      job.maxAttempts = 3 && job.attemptCount = 4) (by decide)
  obtain ⟨job, stored, counts⟩ := (Option.any_eq_true _ _).mp attempts
  simp only [Bool.and_eq_true, decide_eq_true_eq] at counts
  have bound := kept s ⟨_, _, ⟨100, rfl⟩, run⟩ "job" job stored (by omega)
  omega

end Sample
end AgentRuntime
