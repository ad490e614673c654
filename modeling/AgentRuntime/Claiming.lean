import AgentRuntime.Library.Pools
import AgentRuntime.Lease

/-! The statements of `claim_next` among any number of concurrent calls: the `SELECT` that
locks the oldest claimable job it can, the write of the lease and the reload of the job. Other
transactions come in between and wait for the locked rows. Together the calls do what
`claimNext` does in one step. -/
namespace AgentRuntime
open Machines Tables Pools

inductive ClaimPhase where
  | called
  | scanning (rest : List JobRow)
  | locked (job : JobRow)
  | committed (id : JobId)
  | returned (job : Option JobRow)
  | raised

/-- Nothing is committed in these phases. -/
def ClaimPhase.open : ClaimPhase → Bool
  | .called | .scanning _ | .locked _ => true
  | .committed _ | .returned _ | .raised => false

/-- A call of `claim_next`, with the jobs its `SELECT` found, those it has passed over, and the
claim it has committed. -/
structure ClaimCall where
  worker : WorkerId
  leaseSeconds : Nat
  now : Time
  phase : ClaimPhase := .called
  found : List JobRow := []
  passed : List JobRow := []
  claim : Option JobRow := none

/-- The database and the claims committed so far, in their order. -/
structure ClaimLog where
  db : Database
  claims : List JobRow

namespace Database

/-- The `WHERE` clause of `claim_next`. -/
def awaits (db : Database) (now : Time) (job : JobRow) : Bool :=
  (db.runs.find? job.runId).any (claimable now · job)

/-- The rows of the snapshot by `created_at`. -/
def awaiting (db : Database) (now : Time) : List JobRow :=
  (db.jobs.rows.filter (db.awaits now)).insertionSort fun a b => a.createdAt ≤ b.createdAt

/-- The columns of the loaded job, written back. -/
def flushClaim (db : Database) (loaded : JobRow) (worker : WorkerId) (leaseSeconds : Nat)
    (now : Time) : Database :=
  { db with
    jobs := db.jobs.updateWhere (fun job => job.id = loaded.id) fun job =>
      { job with
        status := .running
        leaseOwner := some worker
        claimedAt := some now
        heartbeatAt := some now
        leaseExpiresAt := some (now + leaseSeconds)
        attemptCount := loaded.attemptCount + 1
        nextAttemptAt := none } }

end Database

inductive ClaimChoice where
  | next
  | skip
  | abort

namespace ClaimCall

/-- The job whose row and whose run's row the call has locked. -/
def locked? (call : ClaimCall) : Option JobRow :=
  match call.phase with
  | .locked job => some job
  | _ => none

def pass (call : ClaimCall) (job : JobRow) (rest : List JobRow) : ClaimCall :=
  { call with phase := .scanning rest, passed := call.passed ++ [job] }

/-- The next row of the scan. It is locked in its current version if no other call has a lock
on it and the condition still holds of it. -/
def visit (call : ClaimCall) (db : Database) (others : List ClaimCall) (job : JobRow)
    (rest : List JobRow) : ClaimCall :=
  match db.jobs.find? job.id with
  | none => call.pass job rest
  | some current =>
      if others.any fun other =>
          other.locked?.any fun held => held.id = current.id || held.runId = current.runId then
        call.pass job rest
      else if db.awaits call.now current then { call with phase := .locked current }
      else call.pass job rest

/-- The next statement of a call. Any other transaction may hold the row of a scan, and any
statement may fail, which undoes what is not committed. -/
def advance (choice : ClaimChoice) (s : ClaimLog) (others : List ClaimCall) (call : ClaimCall) :
    Option (ClaimLog × ClaimCall) :=
  match choice, call.phase with
  | .next, .called =>
      let found := s.db.awaiting call.now
      some (s, { call with phase := .scanning found, found := found, passed := [] })
  | .next, .scanning [] => some (s, { call with phase := .returned none })
  | .next, .scanning (job :: rest) => some (s, call.visit s.db others job rest)
  | .next, .locked job =>
      let claim := job.claimedBy call.worker call.leaseSeconds call.now
      some
        ({ db := s.db.flushClaim job call.worker call.leaseSeconds call.now
           claims := s.claims ++ [claim] },
          { call with phase := .committed job.id, claim := some claim })
  | .next, .committed id => some (s, { call with phase := .returned (s.db.jobs.find? id) })
  | .skip, .scanning (job :: rest) => some (s, call.pass job rest)
  | .skip, _ => none
  | _, .returned _ => none
  | _, .raised => none
  | .abort, _ => some (s, { call with phase := .raised })

end ClaimCall

namespace Tx

def isClaim : Tx → Bool
  | .claim .. => true
  | _ => false

/-- The job row the transaction writes. -/
def job? : Tx → Option JobId
  | .claim _ _ _ id | .heartbeat _ id _ _ | .complete _ id _ | .fail _ id _ _ _
  | .failWithoutRetry _ id _ _ => some id
  | _ => none

/-- The run row the transaction writes. -/
def run? (db : Database) : Tx → Option RunId
  | .cancelRun id | .setRunStatus id _ _ | .updateRun id _ _ _ _ => some id
  | .resolveAndEnqueue id _ _ _ now _ => (db.wakes id now).map RunRow.id
  | _ => none

/-- The transaction waits for a row of the locked job. -/
def waitsFor (tx : Tx) (db : Database) (job : JobRow) : Bool :=
  tx.job? = some job.id || tx.run? db = some job.runId

end Tx

/-- Concurrent calls of `claim_next`, and the other transactions of the system. -/
def claiming (py : Builtins) : Pool ClaimLog ClaimCall ClaimChoice Tx where
  init s := s = ⟨.empty, []⟩
  fresh call := match call with
    | ⟨_, _, _, .called, [], [], none⟩ => true
    | _ => false
  advance := ClaimCall.advance
  around tx s calls :=
    if tx.isClaim || calls.any fun call => call.locked?.any (tx.waitsFor s.db) then none
    else some { s with db := tx.apply py s.db }

inductive QueueAction where
  | claimNext (worker : WorkerId) (leaseSeconds : Nat) (now : Time) (locked : JobRow → Bool)
  | commit (tx : Tx)

/-- The queue with `claim_next` in one step. -/
def queue (py : Builtins) : Machine ClaimLog QueueAction where
  init s := s = ⟨.empty, []⟩
  step s
    | .claimNext worker leaseSeconds now locked =>
        let (claim, db) := s.db.claimNext worker leaseSeconds now locked
        some ⟨db, s.claims ++ claim.toList⟩
    | .commit tx => if tx.isClaim then none else some { s with db := tx.apply py s.db }


section Counted
variable {py : Builtins} {db : Database}

namespace Tx

theorem onJob_of_ne {tx : Tx} {job : JobRow} (apart : tx.job? ≠ some job.id) :
    tx.onJob job = job := by
  generalize after : tx.onJob job = written
  have step := tx.onJob_step job
  rw [after] at step
  cases step with
  | kept => rfl
  | claimed _ _ _ same | renewed _ _ _ same | completed _ _ same | failed _ _ _ _ same
  | failedWithoutRetry _ _ _ same =>
      rw [same] at apart
      exact absurd rfl apart

theorem onRun_of_ne {tx : Tx} {run : RunRow} (apart : tx.run? db ≠ some run.id) :
    tx.onRun db run = run := by
  generalize after : tx.onRun db run = written
  have write := tx.onRun_write db run
  rw [after] at write
  cases write with
  | kept => rfl
  | cancelled same | set _ _ same | updated _ _ _ _ same =>
      rw [same] at apart
      exact absurd rfl apart
  | requeued _ _ _ _ _ _ _ same woken own =>
      rw [same] at apart
      simp [run?, woken, own] at apart

theorem attemptCount_of_not_claim {tx : Tx} (other : tx.isClaim = false) (job : JobRow) :
    (tx.onJob job).attemptCount = job.attemptCount := by
  rcases (tx.onJob_step job).attemptCount with same | ⟨_, _, _, same, _⟩
  · exact same
  · rw [same] at other
    contradiction

end Tx

/-- The claims of a job are numbered in their order, and the last one has the stored number at
most. -/
structure ClaimLog.Counted (s : ClaimLog) : Prop where
  ordered : s.claims.Pairwise fun a b => a.id = b.id → a.attemptCount < b.attemptCount
  stored : ∀ claim ∈ s.claims, ∃ job, s.db.jobs.find? claim.id = some job ∧
    claim.attemptCount ≤ job.attemptCount

namespace ClaimLog.Counted
variable {s : ClaimLog}

theorem commit (counted : s.Counted) {tx : Tx} (other : tx.isClaim = false) :
    ClaimLog.Counted { s with db := tx.apply py s.db } where
  ordered := counted.ordered
  stored claim member := by
    obtain ⟨job, found, less⟩ := counted.stored claim member
    refine ⟨tx.onJob job, by rw [Tx.find?_jobs, found, rowAfter_some], ?_⟩
    rw [Tx.attemptCount_of_not_claim other]
    exact less

theorem claim (counted : s.Counted) {job : JobRow} (found : s.db.jobs.find? job.id = some job)
    (worker : WorkerId) (leaseSeconds : Nat) (now : Time) :
    ClaimLog.Counted ⟨s.db.claim worker leaseSeconds now job.id,
      s.claims ++ [job.claimedBy worker leaseSeconds now]⟩ := by
  have below : ∀ claim ∈ s.claims, claim.id = job.id →
      claim.attemptCount < job.attemptCount + 1 := by
    intro claim member same
    obtain ⟨row, at', less⟩ := counted.stored claim member
    rw [same, found] at at'
    cases at'
    exact Nat.lt_succ_of_le less
  refine ⟨?_, fun claim member => ?_⟩
  · refine List.pairwise_append.mpr ⟨counted.ordered, List.pairwise_singleton _ _, ?_⟩
    intro claim before new member
    rw [List.mem_singleton.mp member]
    exact below claim before
  · simp only [Database.claim, Table.find?_updateWhere]
    rcases List.mem_append.mp member with before | new
    · obtain ⟨row, at', less⟩ := counted.stored claim before
      refine ⟨_, by rw [at', Option.map_some], ?_⟩
      split
      next => exact Nat.le_succ_of_le less
      next => exact less
    · rw [List.mem_singleton.mp new]
      refine ⟨job.claimedBy worker leaseSeconds now, ?_, Nat.le_refl _⟩
      simp [JobRow.claimedBy_id, found]

end ClaimLog.Counted

theorem claimNext_some {worker : WorkerId} {leaseSeconds : Nat} {now : Time} {job : JobRow}
    {locked : JobRow → Bool} (first : db.claimCandidate now locked = some job) :
    db.claimNext worker leaseSeconds now locked =
      (some (job.claimedBy worker leaseSeconds now), db.claim worker leaseSeconds now job.id) := by
  simp only [Database.claimNext, first]

theorem queue_counted (py : Builtins) : Inductive (queue py) anyStep ClaimLog.Counted where
  init s first := by
    subst first
    exact ⟨List.Pairwise.nil, fun claim member => by contradiction⟩
  step s action t counted _ stepped := by
    cases action with
    | commit tx =>
        simp only [queue] at stepped
        split at stepped
        next => contradiction
        next other =>
          cases stepped
          exact counted.commit (by simpa using other)
    | claimNext worker leaseSeconds now locked =>
        simp only [queue] at stepped
        cases stepped
        cases first : s.db.claimCandidate now locked with
        | none =>
            simp only [Database.claimNext, first, Option.toList_none, List.append_nil]
            exact counted
        | some job =>
            simp only [claimNext_some first, Option.toList_some]
            exact counted.claim (Sys.claimCandidate_sound first).1 worker leaseSeconds now

end Counted

namespace Database
variable {db : Database} {job : JobRow} {now : Time}

theorem flushClaim_eq (found : db.jobs.find? job.id = some job) (worker : WorkerId)
    (leaseSeconds : Nat) (now : Time) :
    db.flushClaim job worker leaseSeconds now = db.claim worker leaseSeconds now job.id := by
  unfold flushClaim claim
  congr 1
  refine Table.updateWhere_congr _ _ _ _ fun row member same => ?_
  have stored := Table.mem_rows_iff.mp member
  rw [key_job, of_decide_eq_true same, found] at stored
  cases stored
  rfl

/-- Where all other jobs count as locked, the candidate is the locked job. -/
theorem claimCandidate_locked (found : db.jobs.find? job.id = some job)
    (waits : db.awaits now job = true) :
    db.claimCandidate now (fun other => other.id ≠ job.id) = some job := by
  refine firstBy_unique (Table.find?_eq_some.mp found).1 ?_ fun other member chosen => ?_
  · simpa [awaits] using waits
  · simp only [Bool.and_eq_true, Bool.not_eq_true', decide_eq_false_iff_not, not_not] at chosen
    have stored := Table.mem_rows_iff.mp member
    rw [key_job, chosen.2, found] at stored
    exact (Option.some.inj stored).symm

theorem awaits_eq_true : db.awaits now job = true ↔
    ∃ run, db.runs.find? job.runId = some run ∧ claimable now run job = true := by
  simp [awaits, Option.any_eq_true]

theorem awaiting_sorted (db : Database) (now : Time) :
    (db.awaiting now).Pairwise fun a b => a.createdAt ≤ b.createdAt :=
  List.pairwise_insertionSort _ _

end Database

namespace ClaimCall

/-- The job is one the `SELECT` found, and those before it in its order were passed over. -/
def Oldest (call : ClaimCall) (id : JobId) : Prop :=
  ∃ job ∈ call.found, job.id = id ∧
    ∀ other ∈ call.found, other.createdAt < job.createdAt → other ∈ call.passed

/-- What a call relies on while it runs: its locked job is as it was read and still claimable,
and its own claim is committed. -/
structure Steady (s : ClaimLog) (call : ClaimCall) : Prop where
  sorted : call.found.Pairwise fun a b => a.createdAt ≤ b.createdAt
  scanned : ∀ rest, call.phase = .scanning rest → call.found = call.passed ++ rest
  locked : ∀ job, call.phase = .locked job → s.db.jobs.find? job.id = some job ∧
    s.db.awaits call.now job = true ∧ call.Oldest job.id
  unclaimed : call.phase.open = true → call.claim = none
  claimed : ∀ claim, call.claim = some claim → claim ∈ s.claims ∧
    claim.leaseOwner = some call.worker ∧ call.Oldest claim.id
  committed : ∀ id, call.phase = .committed id → ∃ claim, call.claim = some claim ∧ claim.id = id
  returned : ∀ job, call.phase = .returned (some job) → ∃ claim, call.claim = some claim ∧
    claim.id = job.id ∧ claim.attemptCount ≤ job.attemptCount

/-- Two calls lock no common row and have no common claim. -/
structure Apart (a b : ClaimCall) : Prop where
  locks : ∀ x y, a.locked? = some x → b.locked? = some y → x.id ≠ y.id ∧ x.runId ≠ y.runId
  claims : ∀ x y, a.claim = some x → b.claim = some y → x.id = y.id →
    x.attemptCount ≠ y.attemptCount

theorem Apart.symm {a b : ClaimCall} (apart : Apart a b) : Apart b a where
  locks x y first second := (apart.locks y x second first).imp Ne.symm Ne.symm
  claims x y first second same := (apart.claims y x second first same.symm).symm

theorem locked?_eq_some {call : ClaimCall} {job : JobRow} :
    call.locked? = some job ↔ call.phase = .locked job := by
  unfold locked?
  cases call.phase <;> simp

/-- What the statements of a call do. -/
inductive Statement (s : ClaimLog) (others : List ClaimCall) (call : ClaimCall) :
    ClaimLog → ClaimCall → Prop
  | select : call.phase = .called → Statement s others call s
      { call with
        phase := .scanning (s.db.awaiting call.now)
        found := s.db.awaiting call.now
        passed := [] }
  | passed (job rest) : call.phase = .scanning (job :: rest) →
      Statement s others call s (call.pass job rest)
  | lock (job rest current) : call.phase = .scanning (job :: rest) →
      s.db.jobs.find? job.id = some current → s.db.awaits call.now current = true →
      (∀ other ∈ others, ∀ held, other.locked? = some held →
        held.id ≠ current.id ∧ held.runId ≠ current.runId) →
      Statement s others call s { call with phase := .locked current }
  | commit (job) : call.phase = .locked job →
      Statement s others call
        { db := s.db.flushClaim job call.worker call.leaseSeconds call.now
          claims := s.claims ++ [job.claimedBy call.worker call.leaseSeconds call.now] }
        { call with
          phase := .committed job.id
          claim := some (job.claimedBy call.worker call.leaseSeconds call.now) }
  | refresh (id) : call.phase = .committed id →
      Statement s others call s { call with phase := .returned (s.db.jobs.find? id) }
  | ended (phase) : phase = .returned none ∨ phase = .raised →
      Statement s others call s { call with phase := phase }

section Statements
variable {s t : ClaimLog} {others : List ClaimCall} {call next : ClaimCall}

theorem visit_statement {job : JobRow} {rest : List JobRow}
    (scanning : call.phase = .scanning (job :: rest)) :
    Statement s others call s (call.visit s.db others job rest) := by
  unfold visit
  split
  next => exact .passed job rest scanning
  next current found =>
    split
    next => exact .passed job rest scanning
    next free =>
      split
      next waits =>
        refine .lock job rest current scanning found waits fun other member held holds => ?_
        simp only [List.any_eq_true, not_exists, not_and, Bool.not_eq_true] at free
        simpa [holds] using free other member
      next => exact .passed job rest scanning

theorem advance_statement {choice : ClaimChoice}
    (moved : call.advance choice s others = some (t, next)) : Statement s others call t next := by
  unfold advance at moved
  split at moved
  next called => cases moved; exact .select called
  next => cases moved; exact .ended _ (.inl rfl)
  next job rest scanning => cases moved; exact visit_statement scanning
  next job locked => cases moved; exact .commit job locked
  next id committed => cases moved; exact .refresh id committed
  next job rest scanning => cases moved; exact .passed job rest scanning
  next => contradiction
  next => contradiction
  next => contradiction
  next => cases moved; exact .ended _ (.inr rfl)

end Statements
end ClaimCall

namespace ClaimCall
variable {s t : ClaimLog} {others : List ClaimCall} {call next : ClaimCall}

theorem Steady.undisturbed (steady : call.Steady s) (claims : s.claims ⊆ t.claims)
    (kept : ∀ job, call.locked? = some job → s.db.jobs.find? job.id = some job →
      s.db.awaits call.now job = true → t.db.jobs.find? job.id = some job ∧
        t.db.runs.find? job.runId = s.db.runs.find? job.runId) : call.Steady t where
  sorted := steady.sorted
  scanned := steady.scanned
  locked job locked := by
    obtain ⟨stored, waits, oldest⟩ := steady.locked job locked
    obtain ⟨stored', run⟩ := kept job (locked?_eq_some.mpr locked) stored waits
    refine ⟨stored', ?_, oldest⟩
    rw [Database.awaits, run]
    exact waits
  unclaimed := steady.unclaimed
  claimed claim own := by
    obtain ⟨member, owner, oldest⟩ := steady.claimed claim own
    exact ⟨claims member, owner, oldest⟩
  committed := steady.committed
  returned := steady.returned

/-- The row a scan has come to is the oldest but for those it has passed over. -/
theorem Steady.oldest (steady : call.Steady s) {job : JobRow} {rest : List JobRow}
    (scanning : call.phase = .scanning (job :: rest)) : call.Oldest job.id := by
  have found := steady.scanned _ scanning
  have sorted := steady.sorted
  rw [found] at sorted
  have later := (List.pairwise_cons.mp (List.pairwise_append.mp sorted).2.1).1
  refine ⟨job, by rw [found]; simp, rfl, fun other member older => ?_⟩
  rw [found, List.mem_append, List.mem_cons] at member
  rcases member with before | rfl | after
  · exact before
  · exact absurd older (Nat.lt_irrefl _)
  · exact absurd older (Nat.not_lt.mpr (later other after))

/-- A call that has not committed yet, in its next phase. -/
theorem Steady.unclaimed_next (unclaimed : call.claim = none) (same : next.claim = call.claim)
    (sorted : next.found.Pairwise fun a b => a.createdAt ≤ b.createdAt)
    (scanned : ∀ rest, next.phase = .scanning rest → next.found = next.passed ++ rest)
    (locked : ∀ job, next.phase = .locked job → s.db.jobs.find? job.id = some job ∧
      s.db.awaits next.now job = true ∧ next.Oldest job.id)
    (opened : next.phase.open = true) : next.Steady s where
  sorted := sorted
  scanned := scanned
  locked := locked
  unclaimed _ := same.trans unclaimed
  claimed claim own := by
    rw [same, unclaimed] at own
    contradiction
  committed id at' := by
    rw [at'] at opened
    contradiction
  returned job at' := by
    rw [at'] at opened
    contradiction

theorem Statement.steady (statement : Statement s others call t next) (steady : call.Steady s)
    (counted : s.Counted) : next.Steady t := by
  cases statement with
  | select called =>
      refine .unclaimed_next (steady.unclaimed (by rw [called]; rfl)) rfl
        (s.db.awaiting_sorted call.now) ?_ (fun _ _ => by contradiction) rfl
      intro rest scanning
      cases scanning
      rfl
  | passed job rest scanning =>
      refine .unclaimed_next (steady.unclaimed (by rw [scanning]; rfl)) rfl steady.sorted ?_
        (fun _ _ => by contradiction) rfl
      intro later scanning'
      cases scanning'
      simp [pass, steady.scanned _ scanning]
  | lock job rest current scanning found waits free =>
      refine .unclaimed_next (steady.unclaimed (by rw [scanning]; rfl)) rfl steady.sorted
        (fun _ _ => by contradiction) ?_ rfl
      intro held locked
      cases locked
      have same : current.id = job.id := Table.key_of_find? found
      rw [same]
      exact ⟨found, waits, steady.oldest scanning⟩
  | commit job locked =>
      obtain ⟨_, _, oldest⟩ := steady.locked job locked
      refine ⟨steady.sorted, fun _ _ => by contradiction, fun _ _ => by contradiction,
        fun opened => by contradiction, ?_, ?_, fun _ _ => by contradiction⟩
      · intro claim own
        cases own
        exact ⟨List.mem_append_right _ (List.mem_singleton_self _), rfl, oldest⟩
      · intro id committed
        cases committed
        exact ⟨_, rfl, rfl⟩
  | refresh id committed =>
      refine ⟨steady.sorted, fun _ _ => by contradiction, fun _ _ => by contradiction,
        fun opened => by contradiction, steady.claimed, fun _ _ => by contradiction, ?_⟩
      intro job returned
      obtain ⟨claim, own, same⟩ := steady.committed id committed
      obtain ⟨row, stored, less⟩ := counted.stored claim (steady.claimed claim own).1
      simp only [ClaimPhase.returned.injEq] at returned
      rw [same, returned] at stored
      cases stored
      exact ⟨claim, own, same.trans (Table.key_of_find? returned).symm, less⟩
  | ended phase last =>
      have closed : phase.open = false ∧ (∀ rest, phase ≠ .scanning rest) ∧
          (∀ job, phase ≠ .locked job) ∧ (∀ id, phase ≠ .committed id) ∧
          ∀ job, phase ≠ .returned (some job) := by
        rcases last with rfl | rfl <;> simp [ClaimPhase.open]
      obtain ⟨shut, unscanned, unlocked, uncommitted, empty⟩ := closed
      exact ⟨steady.sorted, fun rest at' => absurd at' (unscanned rest),
        fun job at' => absurd at' (unlocked job), fun opened => by simp [shut] at opened,
        steady.claimed, fun id at' => absurd at' (uncommitted id),
        fun job at' => absurd at' (empty job)⟩

/-- The lock that a statement takes is on rows nobody else has locked. -/
theorem Statement.locks (statement : Statement s others call t next) {x : JobRow}
    (locked : next.locked? = some x) {other : ClaimCall} (member : other ∈ others) {y : JobRow}
    (held : other.locked? = some y) : x.id ≠ y.id ∧ x.runId ≠ y.runId := by
  cases statement with
  | lock job rest current _ _ _ free =>
      cases locked
      exact (free other member y held).imp Ne.symm Ne.symm
  | ended phase last => rcases last with rfl | rfl <;> contradiction
  | _ => contradiction

/-- The claim of a call is an old one or numbered behind all claims of its job. -/
theorem Statement.claim (statement : Statement s others call t next) (steady : call.Steady s)
    (counted : s.Counted) :
    next.claim = call.claim ∨ ∃ new, next.claim = some new ∧
      ∀ claim ∈ s.claims, claim.id = new.id → claim.attemptCount < new.attemptCount := by
  cases statement with
  | commit job locked =>
      refine .inr ⟨_, rfl, fun claim member same => ?_⟩
      obtain ⟨row, stored, less⟩ := counted.stored claim member
      rw [same, JobRow.claimedBy_id, (steady.locked job locked).1] at stored
      cases stored
      exact Nat.lt_succ_of_le less
  | _ => exact .inl rfl

theorem Statement.apart (statement : Statement s others call t next) (steady : call.Steady s)
    (counted : s.Counted) {other : ClaimCall} (member : other ∈ others)
    (kept : other.Steady s) (apart : call.Apart other) : next.Apart other where
  locks x y locked held := statement.locks locked member held
  claims x y own foreign same := by
    rcases statement.claim steady counted with before | ⟨new, after, last⟩
    · exact apart.claims x y (before ▸ own) foreign same
    · rw [after] at own
      cases own
      exact Ne.symm (Nat.ne_of_lt (last y (kept.claimed y foreign).1 same.symm))

end ClaimCall

namespace ClaimCall
variable {s t : ClaimLog} {others : List ClaimCall} {call next : ClaimCall}

/-- What the statement does to the database is a step of the queue, or nothing. -/
theorem Statement.queue (py : Builtins) (statement : Statement s others call t next)
    (steady : call.Steady s) :
    t = s ∨ ∃ locked, (queue py).step s
      (.claimNext call.worker call.leaseSeconds call.now locked) = some t := by
  cases statement with
  | commit job locked =>
      obtain ⟨stored, waits, _⟩ := steady.locked job locked
      refine .inr ⟨fun other => other.id ≠ job.id, ?_⟩
      have first := Database.claimCandidate_locked stored waits
      simp only [AgentRuntime.queue, claimNext_some first, Option.toList_some,
        Database.flushClaim_eq stored]
  | _ => exact .inl rfl

/-- A statement of a call does not disturb the others. -/
theorem Statement.undisturbed (statement : Statement s others call t next)
    {other : ClaimCall} (kept : other.Steady s) (apart : call.Apart other) : other.Steady t := by
  cases statement with
  | commit job locked =>
      refine kept.undisturbed (List.subset_append_left _ _) fun held holds stored _ => ?_
      have differs := (apart.locks job held (locked?_eq_some.mpr locked) holds).1
      simp [Database.flushClaim, stored, Ne.symm differs]
  | _ => exact kept

end ClaimCall

theorem claiming_sound (py : Builtins) :
    (claiming py).Sound (Reachable (queue py) anyStep) ClaimCall.Steady ClaimCall.Apart where
  symm := ClaimCall.Apart.symm
  init s first := .start first
  fresh s call _ fresh := by
    simp only [claiming] at fresh
    split at fresh
    next =>
      refine ⟨⟨List.Pairwise.nil, fun _ _ => by contradiction, fun _ _ => by contradiction,
        fun _ => rfl, fun _ _ => by contradiction, fun _ _ => by contradiction,
        fun _ _ => by contradiction⟩, fun other => ⟨fun _ _ _ => by contradiction,
        fun _ _ _ => by contradiction⟩⟩
    next => contradiction
  advance choice s others call t next reached steady compatible moved := by
    have counted := (queue_counted py).reachable reached
    have statement := ClaimCall.advance_statement moved
    refine ⟨?_, statement.steady steady counted, fun other member => ?_⟩
    · rcases statement.queue py steady with same | ⟨locked, stepped⟩
      · rwa [same]
      · exact reached.next trivial stepped
    · obtain ⟨kept, apart⟩ := compatible other member
      exact ⟨statement.undisturbed kept apart, statement.apart steady counted member kept apart⟩
  around tx s calls t reached steady moved := by
    simp only [claiming] at moved
    split at moved
    next => contradiction
    next admitted =>
      cases moved
      simp only [Bool.or_eq_true, List.any_eq_true, not_or, not_exists, not_and,
        Bool.not_eq_true] at admitted
      refine ⟨?_, fun call member => ?_⟩
      · refine reached.next (a := .commit tx) trivial ?_
        simp only [queue, admitted.1, Bool.false_eq_true, if_false]
      · refine (steady call member).undisturbed (List.Subset.refl _)
          fun job holds stored waits => ?_
        have free := admitted.2 call member
        simp only [holds, Option.any_some, Tx.waitsFor, Bool.or_eq_false_iff,
          decide_eq_false_iff_not] at free
        obtain ⟨run, found, _⟩ := Database.awaits_eq_true.mp waits
        have own : run.id = job.runId := Table.key_of_find? found
        refine ⟨?_, ?_⟩
        · rw [Tx.find?_jobs, stored, rowAfter_some, Tx.onJob_of_ne free.1]
        · rw [Tx.find?_runs, found, rowAfter_some, Tx.onRun_of_ne (own ▸ free.2)]

/-- Whatever calls run at a time and whatever is committed between their statements, the
database is one that `claim_next` in one step produces. No attempt of a job is given to two
calls, and a call returns a job that it has claimed itself, the oldest but for those it passed
over. -/
theorem claim_next_serializes (py : Builtins) {s : Calls ClaimLog ClaimCall}
    (reached : Reachable (claiming py).machine anyStep s) :
    Reachable (queue py) anyStep s.shared ∧
      (s.shared.claims.Pairwise fun a b => a.id = b.id → a.attemptCount < b.attemptCount) ∧
      (s.calls.Pairwise fun a b => ∀ x y, a.claim = some x → b.claim = some y → x.id = y.id →
        x.attemptCount ≠ y.attemptCount) ∧
      ∀ call ∈ s.calls, ∀ job, call.phase = .returned (some job) →
        ∃ claim ∈ s.shared.claims, call.claim = some claim ∧ claim.id = job.id ∧
          claim.leaseOwner = some call.worker ∧ claim.attemptCount ≤ job.attemptCount ∧
          call.Oldest job.id := by
  have holds := (claiming_sound py).reachable reached
  refine ⟨holds.shared, ((queue_counted py).reachable holds.shared).ordered,
    holds.pairs.imp fun apart => apart.claims, fun call member job returned => ?_⟩
  have steady := holds.each call member
  obtain ⟨claim, own, same, less⟩ := steady.returned job returned
  obtain ⟨committed, owner, oldest⟩ := steady.claimed claim own
  exact ⟨claim, committed, own, same, owner, less, same ▸ oldest⟩

section Sample

def sampleQueued : NewRun :=
  ⟨sampleRun, "support", ⟨"support", [], [], "START", "END"⟩, [], "hello"⟩

def sampleClaimCall (worker : WorkerId) : ClaimCall :=
  { worker := worker, leaseSeconds := 60, now := 5 }

/-- Two workers ask for the one queued job. The second finds it locked. -/
def sampleClaims : List (PoolMove ClaimCall ClaimChoice Tx) :=
  [.around (.createRun sampleQueued "job" 3),
    .call (sampleClaimCall "w1"), .call (sampleClaimCall "w2"),
    .advance 0 .next, .advance 1 .next, .advance 0 .next, .advance 1 .next, .advance 1 .next,
    .advance 0 .next, .advance 0 .next]

theorem locked_job_claimed_once :
    ∃ s : Calls ClaimLog ClaimCall,
      s.calls.map (fun call => call.claim.map JobRow.attemptCount) = [some 1, none] ∧
        Reachable (queue .onEmpty) anyStep s.shared := by
  obtain ⟨s, run, claimed⟩ := Run.of_test (M := (claiming .onEmpty).machine)
    ⟨⟨.empty, []⟩, []⟩ sampleClaims
    (fun s => s.calls.map (fun call => call.claim.map JobRow.attemptCount) = [some 1, none])
    (by decide)
  exact ⟨s, claimed,
    (claim_next_serializes .onEmpty ⟨⟨⟨.empty, []⟩, []⟩, sampleClaims, ⟨rfl, rfl⟩, run⟩).1⟩

end Sample

end AgentRuntime
