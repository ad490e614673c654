import AgentRuntime.Budget

/-! The order of the job queue. `claim_next` takes the oldest claimable job, so a job is passed
over only for an older one, and every time it is, the older one spends an attempt. Jobs have
three attempts, and no later job becomes an older one. -/
namespace AgentRuntime
open Machines Tables

theorem JobStep.createdAt {tx : Tx} {job job' : JobRow} (step : JobStep tx job job') :
    job'.createdAt = job.createdAt := by
  cases step with
  | failed w error delay now =>
      unfold JobRow.failedWith
      split <;> rfl
  | _ => rfl

/-- The jobs that `ORDER BY created_at` may place before a job. -/
def Database.ahead (db : Database) (job : JobRow) : List JobRow :=
  db.jobs.rows.filter fun other => other.id ≠ job.id && other.createdAt ≤ job.createdAt

def Database.attemptsOf (db : Database) (id : JobId) : Nat :=
  (db.jobs.find? id).elim 0 JobRow.attemptCount

/-- The attempts that jobs have spent together. -/
def Database.attempts (db : Database) : List JobId → Nat
  | [] => 0
  | id :: ids => db.attemptsOf id + db.attempts ids

namespace Sys

/-- In this step `claim_next` may take the job, which is claimable and not locked. -/
def offers (s : Sys) (id : JobId) : Action → Bool
  | .work w (.claim locked) =>
      match (s.workers w).activity with
      | .polling now => (s.db.jobs.find? id).any fun job =>
          (s.db.runs.find? job.runId).any (claimable now · job) && !locked job
      | _ => false
  | _ => false

/-- In this step `claim_next` takes the job. -/
def takes (s : Sys) (id : JobId) : Action → Bool
  | .work w (.claim locked) =>
      match (s.workers w).activity with
      | .polling now => (s.db.claimCandidate now locked).any fun job => job.id = id
      | _ => false
  | _ => false

/-- In this step `claim_next` takes another job in its place. -/
def passes (s : Sys) (id : JobId) (action : Action) : Bool :=
  s.offers id action && !s.takes id action

/-- Every job has the default budget and has kept to it. -/
structure InBudget (s : Sys) : Prop where
  budgeted : s.Budgeted
  default : ∀ id job, s.db.jobs.find? id = some job → job.maxAttempts = 3

end Sys

section Steps
variable {c : Config} {s t : Sys} {action : Action}

theorem inBudget_inductive (c : Config) :
    Inductive (system c) reclaimsInBudget Sys.InBudget where
  init s first := by
    obtain ⟨clock, rfl⟩ := first
    constructor <;> intro id job stored <;> contradiction
  step s action t kept allowed stepped := by
    have step := Sys.step_sound stepped
    refine ⟨kept.budgeted.step allowed step, fun id job stored => ?_⟩
    obtain ⟨tx, commits⟩ := step.commits
    rw [commits.db, Tx.find?_jobs] at stored
    obtain ⟨old, before, rfl⟩ | ⟨_, inserted, _⟩ := rowAfter_cases stored
    · exact (tx.onJob_step old).fixed.2.2.trans (kept.default id old before)
    · obtain ⟨_, _, _, rfl⟩ := Tx.newJob_eq inserted
      rfl

theorem Sys.InBudget.attemptsOf_le {s : Sys} (kept : s.InBudget) (id : JobId) :
    s.db.attemptsOf id ≤ 3 := by
  unfold Database.attemptsOf
  cases stored : s.db.jobs.find? id with
  | none => exact Nat.zero_le _
  | some job =>
      have default := kept.default id job stored
      have spent := (kept.budgeted id job stored).spent (by omega)
      simp only [Option.elim]
      omega

theorem Sys.InBudget.attempts_le {s : Sys} (kept : s.InBudget) (ids : List JobId) :
    s.db.attempts ids ≤ 3 * ids.length := by
  induction ids with
  | nil => exact Nat.le_refl _
  | cons id ids ih =>
      have first := kept.attemptsOf_le id
      simp only [Database.attempts, List.length_cons]
      omega

theorem Request.newJob_createdAt (r : Request) {job : JobRow}
    (inserted : (r.tx s).newJob s.db = some job) : job.createdAt = s.clock := by
  cases r with
  | createRun | enqueue => cases inserted; rfl
  | resolve =>
      obtain ⟨_, _, rfl⟩ := Option.map_eq_some_iff.mp inserted
      rfl
  | append =>
      simp only [Request.tx] at inserted
      split at inserted <;> contradiction
  | cancelRun | abandon => contradiction

/-- A stored job stays, with the time of its creation. -/
theorem createdAt_kept (step : Sys.Step c s action t) {id : JobId} {job : JobRow}
    (stored : s.db.jobs.find? id = some job) :
    ∃ job', t.db.jobs.find? id = some job' ∧ job'.createdAt = job.createdAt := by
  obtain ⟨tx, commits⟩ := step.commits
  refine ⟨tx.onJob job, ?_, (tx.onJob_step job).createdAt⟩
  rw [commits.db, Tx.find?_jobs, stored, rowAfter_some]

theorem createdAt_lasts {u : Sys} {actions : List Action} {G : Guard Sys Action}
    (run : Run (system c) G s actions u) {id : JobId} {job : JobRow}
    (stored : s.db.jobs.find? id = some job) :
    ∃ job', u.db.jobs.find? id = some job' ∧ job'.createdAt = job.createdAt := by
  refine run.invariant (I := fun s => ∃ row, s.db.jobs.find? id = some row ∧
    row.createdAt = job.createdAt) ?_ ⟨job, stored, rfl⟩
  rintro s action t ⟨row, found, same⟩ _ stepped
  obtain ⟨row', found', same'⟩ := createdAt_kept (Sys.step_sound stepped) found
  exact ⟨row', found', same'.trans same⟩

/-- Attempts are never given back. -/
theorem attemptsOf_le_step (step : Sys.Step c s action t) (id : JobId) :
    s.db.attemptsOf id ≤ t.db.attemptsOf id := by
  unfold Database.attemptsOf
  cases stored : s.db.jobs.find? id with
  | none => exact Nat.zero_le _
  | some job =>
      obtain ⟨job', stored', _, grows⟩ := attempts_grow step stored
      simpa only [stored', Option.elim] using grows

theorem attempts_le_step (step : Sys.Step c s action t) (ids : List JobId) :
    s.db.attempts ids ≤ t.db.attempts ids := by
  induction ids with
  | nil => exact Nat.le_refl _
  | cons id ids ih => exact Nat.add_le_add (attemptsOf_le_step step id) ih

/-- The claim of a job spends an attempt of it. -/
theorem attempts_lt_claim (step : Sys.Step c s action t) {w : WorkerId} {now : Time}
    {job : JobRow} (claims : s.Claims w now job.id action)
    (stored : s.db.jobs.find? job.id = some job) {ids : List JobId} (among : job.id ∈ ids) :
    s.db.attempts ids < t.db.attempts ids := by
  have spends : s.db.attemptsOf job.id < t.db.attemptsOf job.id := by
    simp only [Database.attemptsOf, Sys.claims_stored step claims stored, stored, Option.elim]
    exact Nat.lt_succ_self _
  induction ids with
  | nil => contradiction
  | cons id ids ih =>
      simp only [Database.attempts]
      have first := attemptsOf_le_step step id
      have others := attempts_le_step step ids
      rcases List.mem_cons.mp among with rfl | later
      · omega
      · have rest := ih later
        omega

/-- A job is passed over for one that was created no later. -/
theorem passes_claims {id : JobId} {job : JobRow} (stored : s.db.jobs.find? id = some job)
    (passed : s.passes id action = true) :
    ∃ w now other, s.Claims w now other.id action ∧ s.db.jobs.find? other.id = some other ∧
      other.id ≠ id ∧ other.createdAt ≤ job.createdAt := by
  obtain ⟨offered, other⟩ := Bool.and_eq_true_iff.mp passed
  unfold Sys.offers at offered
  split at offered
  next w locked =>
    split at offered
    next now polling =>
      simp only [stored, Option.any_some] at offered
      cases found : s.db.claimCandidate now locked with
      | none =>
          have missed := firstBy_eq_none.mp found job (Table.find?_eq_some.mp stored).1
          rw [offered] at missed
          contradiction
      | some taken =>
          have apart : taken.id ≠ id := by
            simpa [Sys.takes, polling, found] using other
          have older := firstBy_le found (Table.find?_eq_some.mp stored).1 offered
          exact ⟨w, now, taken, ⟨locked, taken, rfl, polling, found, rfl⟩,
            (Sys.claimCandidate_sound found).1, apart, older⟩
    next => contradiction
  next => contradiction

end Steps

theorem Database.mem_ahead {db : Database} {job : JobRow} {id : JobId} :
    id ∈ (db.ahead job).map JobRow.id ↔
      id ≠ job.id ∧ ∃ other, db.jobs.find? id = some other ∧
        other.createdAt ≤ job.createdAt := by
  simp only [Database.ahead, List.mem_map, List.mem_filter, Bool.and_eq_true, decide_eq_true_eq]
  constructor
  · rintro ⟨other, ⟨member, apart, older⟩, rfl⟩
    exact ⟨apart, other, Table.mem_rows_iff.mp member, older⟩
  · rintro ⟨apart, other, stored, older⟩
    have named : other.id = id := Table.key_of_find? stored
    subst named
    exact ⟨other, ⟨Table.mem_rows_iff.mpr stored, apart, older⟩, rfl⟩

theorem Database.ahead_nodup (db : Database) (job : JobRow) :
    ((db.ahead job).map JobRow.id).Nodup :=
  db.jobs.unique.sublist (List.filter_sublist.map _)

section Steps
variable {c : Config} {s t : Sys} {action : Action}

/-- A job that is created later does not come to stand ahead. -/
theorem ahead_step (step : Sys.Step c s action t) {job : JobRow} (waited : job.createdAt < s.clock)
    (id : JobId) : id ∈ (t.db.ahead job).map JobRow.id ↔ id ∈ (s.db.ahead job).map JobRow.id := by
  rw [Database.mem_ahead, Database.mem_ahead]
  refine and_congr_right fun _ => ⟨?_, ?_⟩
  · rintro ⟨other, stored, older⟩
    obtain ⟨tx, commits⟩ := step.commits
    rw [commits.db, Tx.find?_jobs] at stored
    obtain ⟨old, before, rfl⟩ | ⟨_, inserted, _⟩ := rowAfter_cases stored
    · exact ⟨old, before, (tx.onJob_step old).createdAt ▸ older⟩
    · obtain ⟨r, _, rfl⟩ := commits.newJob_request inserted
      rw [r.newJob_createdAt inserted] at older
      exact absurd older (Nat.not_le.mpr waited)
  · rintro ⟨other, stored, older⟩
    obtain ⟨other', stored', same⟩ := createdAt_kept step stored
    exact ⟨other', stored', same ▸ older⟩

theorem ahead_lasts {G : Guard Sys Action} {u : Sys} {actions : List Action}
    (run : Run (system c) G s actions u) {job : JobRow} (waited : job.createdAt < s.clock) :
    (u.db.ahead job).length = (s.db.ahead job).length := by
  have same : job.createdAt < u.clock ∧ ∀ id, id ∈ (u.db.ahead job).map JobRow.id ↔
      id ∈ (s.db.ahead job).map JobRow.id := by
    refine run.invariant (I := fun t => job.createdAt < t.clock ∧
      ∀ id, id ∈ (t.db.ahead job).map JobRow.id ↔ id ∈ (s.db.ahead job).map JobRow.id)
      ?_ ⟨waited, fun _ => Iff.rfl⟩
    rintro t action t' ⟨waits, same⟩ _ stepped
    have step := Sys.step_sound stepped
    obtain ⟨tx, commits⟩ := step.commits
    exact ⟨waits.trans_le commits.clock, fun id => (ahead_step step waits id).trans (same id)⟩
  have perm := (List.perm_ext_iff_of_nodup (u.db.ahead_nodup job) (s.db.ahead_nodup job)).mpr
    same.2
  simpa only [List.length_map] using perm.length_eq

/-- Every `claim_next` that passes over a job spends an attempt of a job ahead. -/
theorem passes_le_attempts {G : Guard Sys Action} {u : Sys} {actions : List Action}
    (run : Run (system c) G s actions u) {job : JobRow}
    (stored : s.db.jobs.find? job.id = some job) :
    s.db.attempts ((u.db.ahead job).map JobRow.id) +
        (system c).tally (fun s => s.passes job.id) s actions ≤
      u.db.attempts ((u.db.ahead job).map JobRow.id) := by
  refine (run.onward.within (I := fun s => ∃ row, s.db.jobs.find? job.id = some row ∧
    row.createdAt = job.createdAt) ?_ ⟨job, stored, rfl⟩).tally_le
      (fun s => s.db.attempts ((u.db.ahead job).map JobRow.id)) ?_
  · rintro s action t ⟨row, found, same⟩ _ stepped
    obtain ⟨next, after, created⟩ := createdAt_kept (Sys.step_sound stepped) found
    exact ⟨next, after, created.trans same⟩
  · rintro s action t ⟨⟨_, onward⟩, row, found, same⟩ stepped
    have step := Sys.step_sound stepped
    cases passed : s.passes job.id action with
    | false => exact attempts_le_step step _
    | true =>
        obtain ⟨w, now, other, claims, stored', apart, older⟩ := passes_claims found passed
        obtain ⟨rest, later⟩ := onward t stepped
        obtain ⟨next, after, created⟩ := createdAt_kept step stored'
        obtain ⟨last, final, remains⟩ := createdAt_lasts later after
        have among : other.id ∈ (u.db.ahead job).map JobRow.id := by
          rw [Database.mem_ahead]
          refine ⟨apart, last, final, ?_⟩
          rw [remains, created]
          exact older.trans same.le
        exact attempts_lt_claim step claims stored' among

end Steps

/-- While no expired job is reclaimed beyond its attempts, `claim_next` passes over a job at most
three times for each job that was created no later. As soon as time has passed since its creation,
these are the jobs there are, and however many come, the bound stays. -/
theorem jobs_overtaken_boundedly (c : Config) {s u : Sys} {actions : List Action} {job : JobRow}
    (reached : Reachable (system c) reclaimsInBudget s)
    (stored : s.db.jobs.find? job.id = some job)
    (run : Run (system c) reclaimsInBudget s actions u) :
    (system c).tally (fun s => s.passes job.id) s actions ≤ 3 * (u.db.ahead job).length ∧
      (job.createdAt < s.clock → (u.db.ahead job).length = (s.db.ahead job).length) := by
  refine ⟨?_, ahead_lasts run⟩
  have kept := (inBudget_inductive c).reachable (reached.run run)
  have spent := kept.attempts_le ((u.db.ahead job).map JobRow.id)
  have passed := passes_le_attempts run stored
  rw [List.length_map] at spent
  omega

section Sample

def laterRun : RunId := ⟨"7e3c4f0e-8b1a-4c7d-9e2f-0a1b2c3d4e5f", by decide⟩

/-- A second run is created while the first is claimed, and time passes. -/
def sampleWaiting : List Action :=
  sampleClaim "w1" ++
    [.tick 1, .request (.createRun
      ⟨laterRun, "support", ⟨"support", [], [], "START", "END"⟩, [], "hello"⟩ "later"), .tick 1]

/-- Both jobs are claimable after each crash, and the older one is claimed twice more. -/
theorem later_job_passed_twice : ∃ s u actions job,
    Reachable (system sampleConfig) reclaimsInBudget s ∧
      s.db.jobs.find? "later" = some job ∧
      Run (system sampleConfig) reclaimsInBudget s actions u ∧
      (system sampleConfig).tally (fun s => s.passes job.id) s actions = 2 ∧
      (system sampleConfig).tally (fun s => s.passes job.id) s actions ≤
        3 * (u.db.ahead job).length ∧
      (u.db.ahead job).length = (s.db.ahead job).length := by
  have checks := reclaim_checks sampleConfig
  obtain ⟨s, before, _, job, stored, named, waited, passed, runs⟩ :=
    checks.of_test (s := .start 100) trivial sampleWaiting
      (fun s => ∃ job ∈ s.db.jobs.find? "later", job.id = "later" ∧ job.createdAt < s.clock ∧
        (system sampleConfig).tally (fun s => s.passes "later") s
          (sampleReclaim ++ sampleReclaim) = 2 ∧
        ((system sampleConfig).replayChecked reclaimCheck s
          (sampleReclaim ++ sampleReclaim)).isSome) (by decide +kernel)
  obtain ⟨u, replayed⟩ := Option.isSome_iff_exists.mp runs
  have run := (checks.run trivial replayed).1
  have reached : Reachable (system sampleConfig) reclaimsInBudget s :=
    ⟨_, _, ⟨100, rfl⟩, before⟩
  have bounded := jobs_overtaken_boundedly sampleConfig reached
    (by rw [named]; exact Option.mem_def.mp stored) run
  refine ⟨s, u, _, job, reached, stored, run, ?_, bounded.1, bounded.2 waited⟩
  rw [named]
  exact passed

end Sample
end AgentRuntime
