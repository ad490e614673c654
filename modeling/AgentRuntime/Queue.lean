import AgentRuntime.Store

/-! The transactions of the PostgreSQL job queue. Each is one atomic statement, or one
row-locked read followed by the write of that row. -/
namespace AgentRuntime
open Tables

/-- `max_attempts or 3`. -/
def JobRow.budget (job : JobRow) : Nat := if job.maxAttempts = 0 then 3 else job.maxAttempts

/-- The `WHERE` clause of `claim_next` on a job joined with its run. -/
def claimable (now : Time) (run : RunRow) (job : JobRow) : Bool :=
  !run.status.terminal &&
    (job.status = .queued ||
      (job.status = .retryWait && job.nextAttemptAt.all (· ≤ now)) ||
      (job.status = .running && job.leaseExpiresAt.any (· < now)))

/-- The columns `claim_next` assigns. -/
def JobRow.claimedBy (job : JobRow) (worker : WorkerId) (leaseSeconds : Nat) (now : Time) : JobRow :=
  { job with
    status := .running
    leaseOwner := some worker
    claimedAt := some now
    heartbeatAt := some now
    leaseExpiresAt := some (now + leaseSeconds)
    attemptCount := job.attemptCount + 1
    nextAttemptAt := none }

/-- The columns `fail` assigns: another attempt after the delay while the budget
lasts. -/
def JobRow.failedWith (job : JobRow) (error : String) (retryDelaySeconds : Nat) (now : Time) : JobRow :=
  if job.attemptCount < job.budget then
    { job with
      error := some error
      leaseOwner := none
      leaseExpiresAt := none
      status := .retryWait
      nextAttemptAt := some (now + retryDelaySeconds) }
  else
    { job with
      error := some error
      leaseOwner := none
      leaseExpiresAt := none
      status := .failed
      finishedAt := some now }

/-- `job.id = .. AND job.lease_owner = ..`. -/
def JobRow.heldBy (job : JobRow) (id : JobId) (worker : WorkerId) : Bool :=
  job.id = id && job.leaseOwner = some worker

theorem JobRow.claimedBy_id (job : JobRow) (worker : WorkerId) (leaseSeconds : Nat) (now : Time) :
    (job.claimedBy worker leaseSeconds now).id = job.id := rfl

theorem JobRow.failedWith_id (job : JobRow) (error : String) (delay : Nat) (now : Time) :
    (job.failedWith error delay now).id = job.id := by
  unfold failedWith
  split <;> rfl

namespace Database

def enqueue (db : Database) (runId : RunId) (jobId : JobId) (now : Time) : Database :=
  { db with jobs := db.jobs.insert { id := jobId, runId := runId, createdAt := now } }

/-- The job `claim_next` selects: the oldest claimable one that no other transaction
has locked, itself or its run. -/
def claimCandidate (db : Database) (now : Time) (locked : JobRow → Bool) : Option JobRow :=
  firstBy (fun job => (db.runs.find? job.runId).any (claimable now · job) && !locked job)
    JobRow.createdAt db.jobs.rows

def claim (db : Database) (worker : WorkerId) (leaseSeconds : Nat) (now : Time) (id : JobId) :
    Database :=
  { db with
    jobs := db.jobs.updateWhere (fun job => job.id = id)
      (fun job => job.claimedBy worker leaseSeconds now)
      fun job => job.claimedBy_id worker leaseSeconds now }

/-- `claim_next` at the clock reading `now`. -/
def claimNext (db : Database) (worker : WorkerId) (leaseSeconds : Nat) (now : Time)
    (locked : JobRow → Bool) : Option JobRow × Database :=
  match db.claimCandidate now locked with
  | none => (none, db)
  | some job =>
      (some (job.claimedBy worker leaseSeconds now), db.claim worker leaseSeconds now job.id)

def complete (db : Database) (worker : WorkerId) (id : JobId) (now : Time) : Database :=
  { db with
    jobs := db.jobs.updateWhere (fun job => job.heldBy id worker) fun job =>
      { job with
        status := .completed
        finishedAt := some now
        leaseOwner := none
        leaseExpiresAt := none } }

def fail (db : Database) (worker : WorkerId) (id : JobId) (error : String)
    (retryDelaySeconds : Nat) (now : Time) : Database :=
  { db with
    jobs := db.jobs.updateWhere (fun job => job.heldBy id worker)
      (fun job => job.failedWith error retryDelaySeconds now)
      fun job => job.failedWith_id error retryDelaySeconds now }

/-- The `WHERE` clause of `heartbeat`. -/
def leaseHeld (db : Database) (worker : WorkerId) (id : JobId) : Bool :=
  (db.jobs.find? id).any fun job => job.status = .running && job.leaseOwner = some worker

/-- `heartbeat` at the clock reading `now`. It reports whether a row was updated. -/
def heartbeat (db : Database) (worker : WorkerId) (id : JobId) (leaseSeconds : Nat) (now : Time) :
    Bool × Database :=
  (db.leaseHeld worker id,
    { db with
      jobs := db.jobs.updateWhere (fun job => job.heldBy id worker && job.status = .running)
        fun job =>
          { job with heartbeatAt := some now, leaseExpiresAt := some (now + leaseSeconds) } })

def failWithoutRetry (db : Database) (worker : WorkerId) (id : JobId) (error : String) (now : Time) :
    Database :=
  { db with
    jobs := db.jobs.updateWhere (fun job => job.heldBy id worker) fun job =>
      { job with
        status := .failed
        error := some error
        finishedAt := some now
        leaseOwner := none
        leaseExpiresAt := none } }

/-- `_set_run_status`: a terminal run is only rewritten with its own status. -/
def setRunStatus (db : Database) (id : RunId) (status : RunStatus) (error : Option String) :
    Database :=
  { db with
    runs := db.runs.updateWhere
      (fun run => run.id = id && (!run.status.terminal || run.status = status))
      fun run => { run with status := status, error := error } }

end Database
end AgentRuntime
