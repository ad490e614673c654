import AgentRuntime.Terminal

/-! The lease discipline of the job queue. The columns of a job determine each other, and
the last expiry a worker wrote is the stored one until another claim of the job, which
waits for it to pass. -/
namespace AgentRuntime
open Machines Tables

structure JobRow.WellFormed (job : JobRow) : Prop where
  owned : job.leaseOwner.isSome = true ↔ job.status = .running
  leased : job.leaseExpiresAt.isSome = true ↔ job.status = .running
  waiting : job.nextAttemptAt.isSome = true ↔ job.status = .retryWait
  finished : job.finishedAt.isSome = true ↔ job.status = .completed ∨ job.status = .failed

def JobRow.done (job : JobRow) : Prop := job.status = .completed ∨ job.status = .failed

namespace JobRow.WellFormed
variable {job : JobRow}

theorem fresh (id : JobId) (runId : RunId) (now : Time) :
    JobRow.WellFormed { id := id, runId := runId, createdAt := now } := by
  constructor <;> simp

theorem running_of_owner (formed : job.WellFormed) {w : WorkerId}
    (owner : job.leaseOwner = some w) :
    job.status = .running := formed.owned.mp (by rw [owner]; rfl)

theorem claimedBy (formed : job.WellFormed) (live : ¬ job.done) (w : WorkerId)
    (leaseSeconds : Nat) (now : Time) : (job.claimedBy w leaseSeconds now).WellFormed where
  owned := by simp [JobRow.claimedBy]
  leased := by simp [JobRow.claimedBy]
  waiting := by simp [JobRow.claimedBy]
  finished := by
    have unfinished : job.finishedAt.isSome = false := by
      simpa using mt formed.finished.mp live
    simp [JobRow.claimedBy, unfinished]

theorem failedWith (formed : job.WellFormed) (running : job.status = .running) (error : String)
    (delay : Nat) (now : Time) : (job.failedWith error delay now).WellFormed := by
  have waiting : job.nextAttemptAt = none := by
    simpa [running] using formed.waiting
  have unfinished : job.finishedAt = none := by
    simpa [running] using formed.finished
  unfold JobRow.failedWith
  split
  · constructor <;> simp [unfinished]
  · constructor <;> simp [waiting]

end JobRow.WellFormed

theorem claimable_not_done {now : Time} {run : RunRow} {job : JobRow}
    (chosen : claimable now run job = true) : ¬ job.done := by
  rintro (done | done) <;> simp [claimable, done] at chosen

theorem JobRow.heldBy_iff {job : JobRow} {id : JobId} {w : WorkerId} :
    job.heldBy id w = true ↔ job.id = id ∧ job.leaseOwner = some w := by
  simp [heldBy]

/-- What a transaction does to a stored job: nothing, a claim, or a write of the worker
that owns the lease. -/
inductive JobStep (tx : Tx) (job : JobRow) : JobRow → Prop
  | kept : JobStep tx job job
  | claimed (w l now) : tx = .claim w l now job.id → JobStep tx job (job.claimedBy w l now)
  | renewed (w l now) : tx = .heartbeat w job.id l now → job.leaseOwner = some w →
      JobStep tx job { job with heartbeatAt := some now, leaseExpiresAt := some (now + l) }
  | completed (w now) : tx = .complete w job.id now → job.leaseOwner = some w →
      JobStep tx job
        { job with
          status := .completed
          finishedAt := some now
          leaseOwner := none
          leaseExpiresAt := none }
  | failed (w error delay now) : tx = .fail w job.id error delay now → job.leaseOwner = some w →
      JobStep tx job (job.failedWith error delay now)
  | failedWithoutRetry (w error now) : tx = .failWithoutRetry w job.id error now →
      job.leaseOwner = some w →
      JobStep tx job
        { job with
          status := .failed
          error := some error
          finishedAt := some now
          leaseOwner := none
          leaseExpiresAt := none }

theorem Tx.onJob_step (tx : Tx) (job : JobRow) : JobStep tx job (tx.onJob job) := by
  cases tx with
  | claim w l now id =>
      simp only [onJob]
      split
      next same => subst same; exact .claimed w l now rfl
      next => exact .kept
  | heartbeat w id l now =>
      simp only [onJob]
      split
      next held =>
        simp only [Bool.and_eq_true, JobRow.heldBy_iff] at held
        obtain ⟨⟨rfl, owner⟩, _⟩ := held
        exact .renewed w l now rfl owner
      next => exact .kept
  | complete w id now =>
      simp only [onJob]
      split
      next held =>
        obtain ⟨rfl, owner⟩ := JobRow.heldBy_iff.mp held
        exact .completed w now rfl owner
      next => exact .kept
  | fail w id error delay now =>
      simp only [onJob]
      split
      next held =>
        obtain ⟨rfl, owner⟩ := JobRow.heldBy_iff.mp held
        exact .failed w error delay now rfl owner
      next => exact .kept
  | failWithoutRetry w id error now =>
      simp only [onJob]
      split
      next held =>
        obtain ⟨rfl, owner⟩ := JobRow.heldBy_iff.mp held
        exact .failedWithoutRetry w error now rfl owner
      next => exact .kept
  | idle | createRun | cancelRun | resolveAndEnqueue | enqueue | createPending | setRunStatus
  | updateRun | appendMany => exact .kept

namespace JobStep
variable {tx : Tx} {job job' : JobRow}

theorem failedWith_columns (job : JobRow) (error : String) (delay : Nat) (now : Time) :
    (job.failedWith error delay now).runId = job.runId ∧
      (job.failedWith error delay now).maxAttempts = job.maxAttempts ∧
      (job.failedWith error delay now).attemptCount = job.attemptCount ∧
      (job.failedWith error delay now).leaseOwner = none ∧
      (job.failedWith error delay now).leaseExpiresAt = none := by
  unfold JobRow.failedWith
  split <;> exact ⟨rfl, rfl, rfl, rfl, rfl⟩

theorem fixed (step : JobStep tx job job') :
    job'.id = job.id ∧ job'.runId = job.runId ∧ job'.maxAttempts = job.maxAttempts := by
  cases step with
  | failed w error delay now _ _ =>
      exact ⟨job.failedWith_id error delay now, (failedWith_columns job error delay now).1,
        (failedWith_columns job error delay now).2.1⟩
  | _ => exact ⟨rfl, rfl, rfl⟩

theorem wellFormed (step : JobStep tx job job') (formed : job.WellFormed)
    (live : ∀ w l now, tx = .claim w l now job.id → ¬ job.done) : job'.WellFormed := by
  cases step with
  | kept => exact formed
  | claimed w l now same => exact formed.claimedBy (live w l now same) w l now
  | renewed w l now _ owner =>
      have running := formed.running_of_owner owner
      exact ⟨formed.owned, by simp [running], formed.waiting, formed.finished⟩
  | completed w now _ owner =>
      have running := formed.running_of_owner owner
      have waiting : job.nextAttemptAt = none := by simpa [running] using formed.waiting
      constructor <;> simp [waiting]
  | failed w error delay now _ owner =>
      exact formed.failedWith (formed.running_of_owner owner) error delay now
  | failedWithoutRetry w error now _ owner =>
      have running := formed.running_of_owner owner
      have waiting : job.nextAttemptAt = none := by simpa [running] using formed.waiting
      constructor <;> simp [waiting]

theorem done (step : JobStep tx job job') (formed : job.WellFormed) (done : job.done)
    (live : ∀ w l now, tx = .claim w l now job.id → ¬ job.done) : job' = job := by
  have unowned (w : WorkerId) : job.leaseOwner ≠ some w := by
    intro owner
    have running := formed.running_of_owner owner
    rcases done with done | done <;> rw [running] at done <;> contradiction
  cases step with
  | kept => rfl
  | claimed w l now same => exact absurd done (live w l now same)
  | renewed w _ _ _ owner | completed w _ _ owner | failed w _ _ _ _ owner
  | failedWithoutRetry w _ _ _ owner => exact absurd owner (unowned w)

theorem attemptCount (step : JobStep tx job job') :
    job'.attemptCount = job.attemptCount ∨ ∃ w l now, tx = .claim w l now job.id ∧
      job' = job.claimedBy w l now := by
  cases step with
  | claimed w l now same => exact .inr ⟨w, l, now, same, rfl⟩
  | failed w error delay now _ _ => exact .inl (failedWith_columns job error delay now).2.2.1
  | _ => exact .inl rfl

end JobStep

/-- The bond of a worker in attempt `a` with the stored row of its job. While the row
still counts this attempt as its last, the lease columns are those the worker wrote.
Afterwards the worker is not the owner, and the expiry it wrote has passed. -/
structure Attempt.Bound (clock : Time) (w : WorkerId) (a : Attempt) (row : JobRow) : Prop where
  run : row.runId = a.job.runId
  budget : row.maxAttempts = a.job.maxAttempts
  behind : a.job.attemptCount ≤ row.attemptCount
  current : a.job.attemptCount = row.attemptCount →
    row.leaseOwner = a.leaseUntil.map (fun _ => w) ∧ row.leaseExpiresAt = a.leaseUntil
  displaced : a.job.attemptCount < row.attemptCount →
    row.leaseOwner ≠ some w ∧ ∀ expiry ∈ a.leaseUntil, expiry < clock
  lost : a.leaseLost = true → a.job.attemptCount < row.attemptCount

namespace Attempt.Bound
variable {clock clock' : Time} {w : WorkerId} {a next : Attempt} {row row' : JobRow}

theorem later (bound : a.Bound clock w row) (passes : clock ≤ clock') : a.Bound clock' w row :=
  { bound with
    displaced := fun taken =>
      ⟨(bound.displaced taken).1, fun expiry written =>
        Nat.lt_of_lt_of_le ((bound.displaced taken).2 expiry written) passes⟩ }

theorem moved (bound : a.Bound clock w row) (job : next.job = a.job)
    (lease : next.leaseUntil = a.leaseUntil) (lost : next.leaseLost = a.leaseLost) :
    next.Bound clock w row := by
  obtain ⟨run, budget, behind, current, displaced, lostBehind⟩ := bound
  constructor
  all_goals rw [job]
  · exact run
  · exact budget
  · exact behind
  · rw [lease]; exact current
  · rw [lease]; exact displaced
  · rw [lost]; exact lostBehind

theorem current_of_owner (bound : a.Bound clock w row) (owner : row.leaseOwner = some w) :
    a.job.attemptCount = row.attemptCount := by
  rcases Nat.lt_or_eq_of_le bound.behind with taken | same
  · exact absurd owner (bound.displaced taken).1
  · exact same

theorem displaced_of_owner (bound : a.Bound clock w row) {v : WorkerId}
    (owner : row.leaseOwner = some v) (other : v ≠ w) :
    a.job.attemptCount < row.attemptCount := by
  refine Nat.lt_of_le_of_ne bound.behind fun same => ?_
  have written := (bound.current same).1
  rw [owner, eq_comm, Option.map_eq_some_iff] at written
  obtain ⟨_, _, rfl⟩ := written
  exact other rfl

/-- A displaced worker stays displaced while the counter does not fall and the row does
not become its own. -/
theorem rewritten (bound : a.Bound clock w row) (taken : a.job.attemptCount < row.attemptCount)
    (run : row'.runId = row.runId) (budget : row'.maxAttempts = row.maxAttempts)
    (count : row'.attemptCount = row.attemptCount) (owner : row'.leaseOwner ≠ some w) :
    a.Bound clock w row' where
  run := run.trans bound.run
  budget := budget.trans bound.budget
  behind := count ▸ bound.behind
  current same := absurd (same.trans count) (Nat.ne_of_lt taken)
  displaced _ := ⟨owner, (bound.displaced taken).2⟩
  lost _ := count ▸ taken

theorem claimed (bound : a.Bound clock w row) {v : WorkerId} (other : v ≠ w) (l : Nat) (now : Time)
    (expired : ∀ expiry, row.leaseExpiresAt = some expiry → expiry < clock) :
    a.Bound clock w (row.claimedBy v l now) where
  run := bound.run
  budget := bound.budget
  behind := Nat.le_succ_of_le bound.behind
  current same := by
    have behind := bound.behind
    simp only [JobRow.claimedBy] at same
    omega
  displaced _ := by
    refine ⟨by simpa [JobRow.claimedBy] using other, fun expiry written => ?_⟩
    rcases Nat.lt_or_eq_of_le bound.behind with taken | same
    · exact (bound.displaced taken).2 expiry written
    · exact expired expiry ((bound.current same).2.trans written)
  lost _ := Nat.lt_succ_of_le bound.behind

end Attempt.Bound

namespace Attempt.Bound
variable {clock : Time} {w : WorkerId} {a next : Attempt} {row row' : JobRow} {tx : Tx}

/-- The statements of other workers keep the bond; a claim finds the lease expired. -/
theorem foreign (bound : a.Bound clock w row) (step : JobStep tx row row')
    (other : tx.worker ≠ some w)
    (expired : ∀ v l now, tx = .claim v l now row.id →
      ∀ expiry, row.leaseExpiresAt = some expiry → expiry < clock) :
    a.Bound clock w row' := by
  have differs {v : WorkerId} (same : tx.worker = some v) : v ≠ w := by
    rintro rfl
    exact other same
  cases step with
  | kept => exact bound
  | claimed v l now same =>
      exact bound.claimed (differs (by rw [same]; rfl)) l now (expired v l now same)
  | renewed v l now same owner =>
      have apart := differs (v := v) (by rw [same]; rfl)
      exact bound.rewritten (bound.displaced_of_owner owner apart) rfl rfl rfl
        (by rw [owner]; simpa using apart)
  | completed v now same owner =>
      have apart := differs (v := v) (by rw [same]; rfl)
      exact bound.rewritten (bound.displaced_of_owner owner apart) rfl rfl rfl (by simp)
  | failed v error delay now same owner =>
      have apart := differs (v := v) (by rw [same]; rfl)
      obtain ⟨run, budget, count, unowned, _⟩ := JobStep.failedWith_columns row error delay now
      exact bound.rewritten (bound.displaced_of_owner owner apart) run budget count
        (by rw [unowned]; simp)
  | failedWithoutRetry v error now same owner =>
      have apart := differs (v := v) (by rw [same]; rfl)
      exact bound.rewritten (bound.displaced_of_owner owner apart) rfl rfl rfl (by simp)

theorem renewed (bound : a.Bound clock w row) (owner : row.leaseOwner = some w) (l : Nat)
    (now : Time) (heartbeat : Heartbeat) :
    Attempt.Bound clock w { a with heartbeat := heartbeat, leaseUntil := some (now + l) }
      { row with heartbeatAt := some now, leaseExpiresAt := some (now + l) } where
  run := bound.run
  budget := bound.budget
  behind := bound.behind
  current _ := ⟨owner, rfl⟩
  displaced taken := absurd (bound.current_of_owner owner) (Nat.ne_of_lt taken)
  lost isLost := bound.lost isLost

theorem reportedLost (bound : a.Bound clock w row) (coherent : a.Coherent) (formed : row.WellFormed)
    {now : Time} (beating : a.heartbeat = .beating now)
    (unheld : ¬ (row.status = .running ∧ row.leaseOwner = some w)) :
    Attempt.Bound clock w { a with heartbeat := .stopped, leaseLost := true } row := by
  refine { bound with lost := fun _ => Nat.lt_of_le_of_ne bound.behind fun same => ?_ }
  have serving : a.phase.serving = true := by
    cases serving : a.phase.serving with
    | true => rfl
    | false =>
        have stopped := coherent.joined serving
        rw [beating] at stopped
        contradiction
  obtain ⟨expiry, written⟩ :=
    Option.isSome_iff_exists.mp (coherent.leased (Phase.holds_of_serving serving))
  have owner : row.leaseOwner = some w := by
    rw [(bound.current same).1, written]
    rfl
  exact unheld ⟨formed.running_of_owner owner, owner⟩

theorem released (bound : a.Bound clock w row) (phase : Phase)
    (fixed : row'.runId = row.runId ∧ row'.maxAttempts = row.maxAttempts ∧
      row'.attemptCount = row.attemptCount)
    (mine : row.leaseOwner = some w → row'.leaseOwner = none ∧ row'.leaseExpiresAt = none)
    (others : row.leaseOwner ≠ some w → row' = row) :
    Attempt.Bound clock w { a with phase := phase, leaseUntil := none } row' where
  run := fixed.1.trans bound.run
  budget := fixed.2.1.trans bound.budget
  behind := fixed.2.2 ▸ bound.behind
  current same := by
    by_cases owner : row.leaseOwner = some w
    · exact mine owner
    · have kept := others owner
      subst kept
      have current := bound.current same
      cases written : a.leaseUntil with
      | none => rw [written] at current; exact current
      | some expiry => rw [written] at current; exact absurd current.1 owner
  displaced taken := by
    have before : a.job.attemptCount < row.attemptCount := fixed.2.2 ▸ taken
    have kept := others (bound.displaced before).1
    subst kept
    exact ⟨(bound.displaced before).1, by simp⟩
  lost isLost := fixed.2.2 ▸ bound.lost isLost

end Attempt.Bound

namespace Sys

structure Leased (s : Sys) : Prop where
  formed : ∀ id row, s.db.jobs.find? id = some row → row.WellFormed
  polled : ∀ w now, (s.workers w).activity = .polling now → now ≤ s.clock
  bound : ∀ w a, s.attempt? w = some a →
    a.Coherent ∧ ∃ row, s.db.jobs.find? a.job.id = some row ∧ a.Bound s.clock w row

variable {c : Config} {s : Sys} {tx : Tx}

theorem Leased.claims (leased : s.Leased) (issued : tx.Issued s) {row : JobRow}
    (stored : s.db.jobs.find? row.id = some row) {w : WorkerId} {l : Nat} {now : Time}
    (same : tx = .claim w l now row.id) :
    ¬ row.done ∧ ∀ expiry, row.leaseExpiresAt = some expiry → expiry < s.clock := by
  subst same
  obtain ⟨polling, job, run, found, _, chosen⟩ := issued
  rw [stored] at found
  cases found
  refine ⟨claimable_not_done chosen, fun expiry written => ?_⟩
  have running := (leased.formed _ _ stored).leased.mp (by rw [written]; rfl)
  have passed : expiry < now := by
    have := chosen
    simp [claimable, running, written] at this
    exact this.2
  exact Nat.lt_of_lt_of_le passed (leased.polled w now polling)

theorem Leased.formed_after (leased : s.Leased) (issued : tx.Issued s) (id : JobId) (row : JobRow)
    (stored : (tx.apply c.py s.db).jobs.find? id = some row) : row.WellFormed := by
  rw [Tx.find?_jobs] at stored
  obtain ⟨old, before, rfl⟩ | ⟨_, inserted, _⟩ := rowAfter_cases stored
  · have same : old.id = id := Table.key_of_find? before
    subst same
    exact (tx.onJob_step old).wellFormed (leased.formed _ _ before)
      fun w l now same => (leased.claims issued before same).1
  · obtain ⟨id, runId, now, rfl⟩ := Tx.newJob_eq inserted
    exact .fresh id runId now

theorem Leased.foreign (tx : Tx) (leased : s.Leased) (issued : tx.Issued s) {w : WorkerId}
    {a : Attempt}
    (busy : s.attempt? w = some a) (other : tx.worker ≠ some w) :
    a.Coherent ∧ ∃ row, (tx.apply c.py s.db).jobs.find? a.job.id = some row ∧
      a.Bound s.clock w row := by
  obtain ⟨coherent, row, stored, bound⟩ := leased.bound w a busy
  have same : row.id = a.job.id := Table.key_of_find? stored
  refine ⟨coherent, tx.onJob row, by rw [Tx.find?_jobs, stored, rowAfter_some], ?_⟩
  refine bound.foreign (tx.onJob_step row) other fun v l now claim => ?_
  exact (leased.claims issued (same ▸ stored) claim).2

def BoundIn (db : Database) (clock : Time) (w : WorkerId) (a : Attempt) : Prop :=
  a.Coherent ∧ ∃ row, db.jobs.find? a.job.id = some row ∧ a.Bound clock w row

theorem Leased.update (tx : Tx) (leased : s.Leased) (issued : tx.Issued s) {w : WorkerId}
    (others : ∀ v, v ≠ w → tx.worker ≠ some v) {worker : Worker} (threads : RunId → Thread)
    (apiEvents : List RuntimeEvent)
    (polled : ∀ now, worker.activity = .polling now → now ≤ s.clock)
    (own : ∀ a, worker.activity = .busy a → BoundIn (tx.apply c.py s.db) s.clock w a) :
    Leased
      ⟨s.clock, tx.apply c.py s.db, Function.update s.workers w worker, threads, apiEvents⟩ where
  formed := leased.formed_after issued
  polled := by
    apply (Function.forall_update_iff s.workers fun _ worker =>
      ∀ now, worker.activity = .polling now → now ≤ s.clock).mpr
    exact ⟨polled, fun v _ => leased.polled v⟩
  bound := by
    simp only [attempt?_eq_some]
    apply (Function.forall_update_iff s.workers fun v worker => ∀ a, worker.activity = .busy a →
      BoundIn (tx.apply c.py s.db) s.clock v a).mpr
    refine ⟨own, fun v other a busy => ?_⟩
    exact leased.foreign tx issued (attempt?_eq_some.mpr busy) (others v other)

theorem Leased.effect (leased : s.Leased) {w : WorkerId} {a next : Attempt} {e : Effect}
    (busy : s.attempt? w = some a) (step : LeaseStep c s w a e)
    (after : e.attempt = some next) : BoundIn (e.tx.apply c.py s.db) s.clock w next := by
  obtain ⟨coherent, row, stored, bound⟩ := leased.bound w a busy
  have formed := leased.formed _ _ stored
  have key : row.id = a.job.id := Table.key_of_find? stored
  have stored' : (e.tx.apply c.py s.db).jobs.find? a.job.id = some (e.tx.onJob row) := by
    rw [Tx.find?_jobs, stored, rowAfter_some]
  cases step with
  | moved _ same spares job lease lost _ coherent' =>
      rw [after] at same
      cases same
      refine ⟨coherent' coherent, row, ?_, bound.moved job lease lost⟩
      rw [job, Tx.sparesJobs_find? spares]
      exact stored
  | ended same _ => rw [after] at same; contradiction
  | renewed now beating held same tx =>
      rw [after] at same
      cases same
      obtain ⟨found, foundStored, heldRow⟩ := (Option.any_eq_true _ _).mp held
      rw [stored] at foundStored
      cases foundStored
      simp only [Bool.and_eq_true, decide_eq_true_eq] at heldRow
      have written : e.tx.onJob row = { row with
          heartbeatAt := some now, leaseExpiresAt := some (now + (c.worker w).leaseSeconds) } := by
        simp [tx, Tx.onJob, JobRow.heldBy_iff, key, heldRow]
      refine ⟨coherent.renew _ (by rw [beating]; simp), _, stored', ?_⟩
      rw [written]
      exact bound.renewed heldRow.2 _ _ _
  | lost now beating unheld same tx =>
      rw [after] at same
      cases same
      have missed : ¬ (row.status = .running ∧ row.leaseOwner = some w) := by
        rintro ⟨running, owner⟩
        simp [Database.leaseHeld, stored, running, owner] at unheld
      have kept : e.tx.onJob row = row := by
        simp only [tx, Tx.onJob]
        rw [if_neg]
        simp only [Bool.and_eq_true, decide_eq_true_eq, JobRow.heldBy_iff]
        rintro ⟨⟨_, owner⟩, running⟩
        exact missed ⟨running, owner⟩
      rw [kept] at stored'
      exact ⟨coherent.rest rfl (fun holds => holds) rfl, row, stored',
        bound.reportedLost coherent formed beating missed⟩
  | released release idle tx =>
      obtain ⟨phase, same, unheld⟩ := release next after
      cases same
      have stopped := coherent.joined idle
      refine ⟨⟨fun _ => stopped, fun holds => ?_⟩, e.tx.onJob row, stored',
        bound.released phase ?_ ?_ ?_⟩
      · rw [unheld] at holds
        contradiction
      · obtain tx | ⟨_, tx⟩ | ⟨_, tx⟩ := tx
        all_goals
          simp only [tx, Tx.onJob]
          split
        all_goals first
          | exact ⟨rfl, rfl, rfl⟩
          | exact ⟨(JobStep.failedWith_columns _ _ _ _).1, (JobStep.failedWith_columns _ _ _ _).2.1,
              (JobStep.failedWith_columns _ _ _ _).2.2.1⟩
      · intro owner
        have held : row.heldBy a.job.id w = true := JobRow.heldBy_iff.mpr ⟨key, owner⟩
        obtain tx | ⟨_, tx⟩ | ⟨_, tx⟩ := tx
        · simp [tx, Tx.onJob, held]
        · simpa [tx, Tx.onJob, held] using (JobStep.failedWith_columns _ _ _ _).2.2.2
        · simp [tx, Tx.onJob, held]
      · intro owner
        have unheldRow : row.heldBy a.job.id w = false := by
          simpa [JobRow.heldBy] using fun _ => owner
        obtain tx | ⟨_, tx⟩ | ⟨_, tx⟩ := tx
        all_goals simp [tx, Tx.onJob, unheldRow]

theorem Leased.step {s' : Sys} {action : Action} (leased : s.Leased) (step : Step c s action s') :
    s'.Leased := by
  cases step with
  | tick seconds =>
      have passes := Nat.le_add_right s.clock seconds
      refine ⟨leased.formed, fun w now polling => (leased.polled w now polling).trans passes, ?_⟩
      intro w a busy
      obtain ⟨coherent, row, stored, bound⟩ := leased.bound w a busy
      exact ⟨coherent, row, stored, bound.later passes⟩
  | request r events issued =>
      refine ⟨leased.formed_after issued, leased.polled, fun w a busy => ?_⟩
      exact leased.foreign _ issued busy (by rw [Tx.worker_of_api (r.tx_api s)]; simp)
  | @persist w lane event rest _ =>
      refine leased.update (.appendMany _ _) trivial (fun _ _ => by simp [Tx.worker]) _ _
        (leased.polled w) fun a busy => ?_
      exact leased.foreign (.appendMany _ _) trivial (attempt?_eq_some.mpr busy)
        (by simp [Tx.worker])
  | crash w =>
      exact leased.update (c := c) .idle trivial (fun _ _ => by simp [Tx.worker]) _ _
        (by simp) (by simp)
  | @poll w _ =>
      exact leased.update (c := c) .idle trivial (fun _ _ => by simp [Tx.worker]) _ _
        (by simp) (by simp)
  | @claimNone w now locked _ _ =>
      exact leased.update (c := c) .idle trivial (fun _ _ => by simp [Tx.worker]) _ _
        (by simp) (by simp)
  | @claim w now locked job polling found =>
      obtain ⟨stored, run, runStored, chosen⟩ := claimCandidate_sound found
      refine leased.update (.claim _ _ _ _) ⟨polling, job, run, stored, runStored, chosen⟩
        (fun v other => by simpa [Tx.worker] using other.symm) _ _ (by simp) ?_
      intro a busy
      cases busy
      refine ⟨⟨fun _ => rfl, fun _ => rfl⟩, job.claimedBy w (c.worker w).leaseSeconds now, ?_, ?_⟩
      · rw [JobRow.claimedBy_id, Tx.find?_jobs, stored, rowAfter_some]
        simp [Tx.onJob]
      · exact ⟨rfl, rfl, Nat.le_refl _, fun _ => ⟨rfl, rfl⟩,
          fun taken => absurd taken (Nat.lt_irrefl _),
          by simp⟩
  | @effect w m a e busy effected =>
      have issues := effect_issues effected
      refine leased.update e.tx issues.issued (fun v other => ?_) _ _ ?_ ?_
      · rcases issues.worker with api | same
        · rw [api]; simp
        · rw [same]; simpa using other.symm
      · intro now polling
        simp only [Worker.after] at polling
        split at polling <;> contradiction
      · intro next after
        exact leased.effect busy (effect_lease effected) (Worker.after_busy.mp after)

theorem Leased.start (clock : Time) : (Sys.start clock).Leased where
  formed _ _ stored := by contradiction
  polled _ _ polling := by contradiction
  bound _ _ busy := by contradiction

theorem leased_inductive (c : Config) : Inductive (system c) anyStep Leased where
  init s first := by
    obtain ⟨clock, rfl⟩ := first
    exact .start clock
  step _ _ _ leased _ stepped := leased.step (step_sound stepped)

/-- Worker `w` is in an attempt on the job `id` whose lease, as the worker last wrote it,
has not passed. -/
def HoldsLease (s : Sys) (w : WorkerId) (id : JobId) : Prop :=
  ∃ a expiry, s.attempt? w = some a ∧ a.job.id = id ∧ a.leaseUntil = some expiry ∧
    s.clock ≤ expiry

theorem Leased.stored_of_holds (leased : s.Leased) {w : WorkerId} {id : JobId}
    (holds : s.HoldsLease w id) :
    ∃ row, s.db.jobs.find? id = some row ∧ row.leaseOwner = some w := by
  obtain ⟨a, expiry, busy, rfl, written, unexpired⟩ := holds
  obtain ⟨_, row, stored, bound⟩ := leased.bound w a busy
  refine ⟨row, stored, ?_⟩
  rcases Nat.lt_or_eq_of_le bound.behind with taken | same
  · exact absurd ((bound.displaced taken).2 expiry written) (Nat.not_lt.mpr unexpired)
  · rw [(bound.current same).1, written]
    rfl

theorem Leased.holder_unique (leased : s.Leased) {v w : WorkerId} {id : JobId}
    (first : s.HoldsLease v id) (second : s.HoldsLease w id) : v = w := by
  obtain ⟨row, stored, owner⟩ := leased.stored_of_holds first
  obtain ⟨other, stored', owner'⟩ := leased.stored_of_holds second
  rw [stored] at stored'
  cases stored'
  exact Option.some.inj (owner.symm.trans owner')

theorem claims_stored {s' : Sys} {action : Action} (step : Step c s action s') {w : WorkerId}
    {now : Time} {id : JobId} {job : JobRow} (claims : s.Claims w now id action)
    (stored : s.db.jobs.find? id = some job) :
    s'.db.jobs.find? id = some (job.claimedBy w (c.worker w).leaseSeconds now) := by
  obtain ⟨locked, chosen, rfl, polling, found, rfl⟩ := claims
  have chosenStored := (claimCandidate_sound found).1
  rw [stored] at chosenStored
  cases chosenStored
  cases step with
  | claimNone polling' missed =>
      rw [polling] at polling'
      cases polling'
      rw [found] at missed
      contradiction
  | claim polling' found' =>
      rw [polling] at polling'
      cases polling'
      rw [found] at found'
      cases found'
      rw [Tx.find?_jobs, stored, rowAfter_some]
      simp [Tx.onJob]
  | effect _ effected => contradiction

theorem Leased.claims_step (leased : s.Leased) {s' : Sys} {action : Action}
    (step : Step c s action s') {w : WorkerId} {now : Time} {id : JobId} {job : JobRow}
    (claims : s.Claims w now id action) (stored : s.db.jobs.find? id = some job) :
    s'.db.jobs.find? id = some (job.claimedBy w (c.worker w).leaseSeconds now) ∧
      ¬ job.done ∧ ∀ expiry, job.leaseExpiresAt = some expiry → expiry < s.clock := by
  refine ⟨claims_stored step claims stored, ?_⟩
  obtain ⟨locked, chosen, rfl, polling, found, rfl⟩ := claims
  obtain ⟨chosenStored, run, runStored, fits⟩ := claimCandidate_sound found
  rw [stored] at chosenStored
  cases chosenStored
  have issued : (Tx.claim w (c.worker w).leaseSeconds now job.id).Issued s :=
    ⟨polling, job, run, stored, runStored, fits⟩
  exact leased.claims issued stored rfl

theorem Leased.done_step (leased : s.Leased) {s' : Sys} {action : Action}
    (step : Step c s action s') {id : JobId} {job : JobRow}
    (stored : s.db.jobs.find? id = some job) (done : job.done) :
    s'.db.jobs.find? id = some job := by
  obtain ⟨tx, commits⟩ := step.commits
  have key : job.id = id := Table.key_of_find? stored
  subst key
  rw [commits.db, Tx.find?_jobs, stored, rowAfter_some]
  exact congrArg some ((tx.onJob_step job).done (leased.formed _ _ stored) done
    fun w l now claim => (leased.claims commits.issued stored claim).1)

end Sys

/-- The lease discipline: the lease columns agree with the status, a finished job is
never written again, only claims count attempts, a claim finds the lease of the previous
owner expired, and no two workers hold an unexpired lease on one job. -/
theorem job_lease_discipline (c : Config) {s : Sys} (reached : Reachable (system c) anyStep s) :
    (∀ id job, s.db.jobs.find? id = some job → job.WellFormed) ∧
      (∀ id job actions t, s.db.jobs.find? id = some job → job.done →
        Run (system c) anyStep s actions t → t.db.jobs.find? id = some job) ∧
      (∀ id job action t, s.db.jobs.find? id = some job → (system c).step s action = some t →
        ∃ job', t.db.jobs.find? id = some job' ∧
          ((∀ w now, s.Claims w now id action →
              job'.attemptCount = job.attemptCount + 1 ∧ job'.leaseOwner = some w ∧
                ∀ v, job.leaseOwner = some v →
                  ∃ expiry, job.leaseExpiresAt = some expiry ∧ expiry < s.clock) ∧
            ((∀ w now, ¬ s.Claims w now id action) → job'.attemptCount = job.attemptCount))) ∧
      ∀ v w id, s.HoldsLease v id → s.HoldsLease w id → v = w := by
  have leased := (Sys.leased_inductive c).reachable reached
  refine ⟨leased.formed, ?_, ?_, fun v w id => leased.holder_unique⟩
  · intro id job actions t stored done run
    have kept := (run.strengthen reached).invariant
      (I := fun s => s.db.jobs.find? id = some job)
      (fun s a t stored allowed stepped =>
        ((Sys.leased_inductive c).reachable allowed.2).done_step (Sys.step_sound stepped) stored
          done)
    exact kept stored
  · intro id job action t stored stepped
    have step := Sys.step_sound stepped
    obtain ⟨tx, commits⟩ := step.commits
    have key : job.id = id := Table.key_of_find? stored
    subst key
    refine ⟨tx.onJob job, by rw [commits.db, Tx.find?_jobs, stored, rowAfter_some], ?_, ?_⟩
    · intro w now claims
      obtain ⟨after, _, expired⟩ := leased.claims_step step claims stored
      rw [commits.db, Tx.find?_jobs, stored, rowAfter_some, Option.some.injEq] at after
      rw [after]
      refine ⟨rfl, rfl, fun v owner => ?_⟩
      have formed := leased.formed _ _ stored
      obtain ⟨expiry, written⟩ :=
        Option.isSome_iff_exists.mp (formed.leased.mpr (formed.running_of_owner owner))
      exact ⟨expiry, written, expired expiry written⟩
    · intro unclaimed
      rcases (tx.onJob_step job).attemptCount with same | ⟨w, l, now, claim, _⟩
      · exact same
      · exact absurd (commits.claims claim) (unclaimed w now)

/-- A worker lets its lease pass and another worker claims the job as attempt 2. -/
theorem lease_discipline_after_takeover :
    ∃ s, Run (system sampleConfig) anyStep (.start 100)
        (sampleClaim "w1" ++ [.tick 61, .work "w2" .poll, .work "w2" (.claim fun _ => false)]) s ∧
      (s.db.jobs.find? "job").map JobRow.attemptCount = some 2 ∧
      ∀ id job, s.db.jobs.find? id = some job → job.WellFormed := by
  obtain ⟨s, run, attempts⟩ := Run.of_test (M := system sampleConfig) (.start 100)
    (sampleClaim "w1" ++ [.tick 61, .work "w2" .poll, .work "w2" (.claim fun _ => false)])
    (fun s => (s.db.jobs.find? "job").map JobRow.attemptCount = some 2) (by decide)
  exact ⟨s, run, attempts,
    (job_lease_discipline sampleConfig ⟨.start 100, _, ⟨100, rfl⟩, run⟩).1⟩

end AgentRuntime
