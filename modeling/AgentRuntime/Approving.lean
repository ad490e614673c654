import AgentRuntime.Claiming

/-! The statements of `create_pending` and `resolve_and_enqueue` among any number of concurrent
calls: the read of a record and its insert under the unique action identifier, the row locks of
an approval and of its run, the commit and the reload. Each commit has the effect of the
operation in one step. -/
namespace AgentRuntime
open Machines Tables Pools

inductive PendingPhase where
  | called
  | absent
  | inserted
  | committed
  | returned (approval : ApprovalRow)
  | raised

/-- A call of `create_pending`; `id` is the identifier it generates. -/
structure CreatePending where
  action : PendingAction
  id : ApprovalId
  phase : PendingPhase := .called

inductive ResolvePhase where
  | called
  | locked (approval : ApprovalRow)
  | deciding (approval : ApprovalRow) (now : Time) (run : RunRow)
  | committed
  | returned (approval : Option ApprovalRow)
  | raised

/-- A call of `resolve_and_enqueue`; `jobId` is the identifier it generates for a job. -/
structure ResolveApproval where
  id : ApprovalId
  status : ApprovalStatus
  resolvedBy : String
  reason : Option String
  jobId : JobId
  phase : ResolvePhase := .called

inductive ApprovalCall where
  | create (call : CreatePending)
  | resolve (call : ResolveApproval)

/-- The database and the transactions committed so far, in their order. -/
structure CommitLog where
  db : Database
  txs : List Tx

/-- What a transaction of the approval repository is about. -/
inductive Subject where
  | action (actionId : String)
  | approval (id : ApprovalId)
  deriving DecidableEq

def Tx.subject : Tx → Option Subject
  | .createPending action _ => some (.action action.actionId)
  | .resolveAndEnqueue id _ _ _ _ _ => some (.approval id)
  | _ => none

/-- Each transaction in one step. -/
def Database.replay (py : Builtins) (txs : List Tx) : Database :=
  txs.foldl (Tx.apply py) .empty

def CommitLog.commit (s : CommitLog) (db : Database) (tx : Tx) : CommitLog :=
  ⟨db, s.txs ++ [tx]⟩

/-- The unique constraints of the table. -/
def ApprovalRow.collides (a b : ApprovalRow) : Bool := a.actionId = b.actionId || a.id = b.id

namespace ApprovalCall

/-- The row the call has inserted and not committed yet. -/
def inserted? (py : Builtins) : ApprovalCall → Option ApprovalRow
  | .create ⟨action, id, .inserted⟩ => some (action.row py id)
  | _ => none

/-- The approval whose row the call has locked. -/
def approval? : ApprovalCall → Option ApprovalId
  | .resolve ⟨id, _, _, _, _, .locked _⟩ | .resolve ⟨id, _, _, _, _, .deciding ..⟩ => some id
  | _ => none

/-- The run whose row the call has locked. -/
def run? : ApprovalCall → Option RunId
  | .resolve ⟨_, _, _, _, _, .deciding _ _ run⟩ => some run.id
  | _ => none

end ApprovalCall

namespace CreatePending

/-- The next statement of the call. An `INSERT` waits for a colliding row of another call, and
fails on one that is committed. -/
def advance (py : Builtins) (s : CommitLog) (others : List ApprovalCall) (call : CreatePending) :
    Option (CommitLog × CreatePending) :=
  let row := call.action.row py call.id
  match call.phase with
  | .called =>
      match s.db.approvalFor? call.action.actionId with
      | some existing => some (s, { call with phase := .returned existing })
      | none => some (s, { call with phase := .absent })
  | .absent =>
      if others.any fun other => (other.inserted? py).any row.collides then none
      else if s.db.approvals.rows.any row.collides then some (s, { call with phase := .raised })
      else some (s, { call with phase := .inserted })
  | .inserted =>
      some (s.commit { s.db with approvals := s.db.approvals.insert row }
        (.createPending call.action call.id), { call with phase := .committed })
  | .committed =>
      match s.db.approvals.find? call.id with
      | some stored => some (s, { call with phase := .returned stored })
      | none => some (s, { call with phase := .raised })
  | .returned _ | .raised => none

def abort (call : CreatePending) : Option CreatePending :=
  match call.phase with
  | .returned _ | .raised => none
  | _ => some { call with phase := .raised }

end CreatePending

namespace ResolveApproval

def tx (call : ResolveApproval) (now : Time) : Tx :=
  .resolveAndEnqueue call.id call.status call.resolvedBy call.reason now call.jobId

/-- The next statement of the call, which may read the clock. A `SELECT .. FOR UPDATE` waits for
the lock. -/
def advance (now : Time) (s : CommitLog) (others : List ApprovalCall) (call : ResolveApproval) :
    Option (CommitLog × ResolveApproval) :=
  match call.phase with
  | .called =>
      if call.status ≠ .approved ∧ call.status ≠ .rejected then
        some (s, { call with phase := .raised })
      else if others.any fun other => other.approval? = some call.id then none
      else
        match s.db.approvals.find? call.id with
        | none => some (s, { call with phase := .returned none })
        | some approval => some (s, { call with phase := .locked approval })
  | .locked approval =>
      if approval.status ≠ .pending then
        some (s, { call with phase := .returned (some approval) })
      else if approval.expiresAt.any (· ≤ now) then
        some (s.commit (s.db.expire call.id now) (call.tx now),
          { call with
            phase := .returned (some
              { approval with status := .expired, resolvedAt := some now }) })
      else if others.any fun other => other.run? = some approval.runId then none
      else
        match s.db.runs.find? approval.runId with
        | none => some (s, { call with phase := .raised })
        | some run => some (s, { call with phase := .deciding approval now run })
  | .deciding _ now run =>
      let resolved := s.db.resolve call.id call.status call.resolvedBy call.reason now
      if run.status = .paused then
        if (s.db.jobs.find? call.jobId).isSome then some (s, { call with phase := .raised })
        else
          some (s.commit (resolved.requeue run.id call.jobId now) (call.tx now),
            { call with phase := .committed })
      else some (s.commit resolved (call.tx now), { call with phase := .committed })
  | .committed =>
      match s.db.approvals.find? call.id with
      | some stored => some (s, { call with phase := .returned (some stored) })
      | none => some (s, { call with phase := .raised })
  | .returned _ | .raised => none

def abort (call : ResolveApproval) : Option ResolveApproval :=
  match call.phase with
  | .returned _ | .raised => none
  | _ => some { call with phase := .raised }

end ResolveApproval

inductive ApprovalChoice where
  | next (now : Time)
  | abort

namespace ApprovalCall

/-- The next statement of a call. Any statement may fail, which undoes what is not committed. -/
def advance (py : Builtins) (choice : ApprovalChoice) (s : CommitLog) (others : List ApprovalCall)
    (call : ApprovalCall) : Option (CommitLog × ApprovalCall) :=
  match choice, call with
  | .next _, .create call =>
      (call.advance py s others).map fun after => (after.1, .create after.2)
  | .next now, .resolve call =>
      (call.advance now s others).map fun after => (after.1, .resolve after.2)
  | .abort, .create call => call.abort.map fun after => (s, .create after)
  | .abort, .resolve call => call.abort.map fun after => (s, .resolve after)

def called : ApprovalCall → Bool
  | .create ⟨_, _, .called⟩ | .resolve ⟨_, _, _, _, _, .called⟩ => true
  | _ => false

end ApprovalCall

/-- Concurrent calls of the approval repository, and the other transactions of the system,
which wait for a run that a call has locked. -/
def approving (py : Builtins) : Pool CommitLog ApprovalCall ApprovalChoice Tx where
  init s := s = ⟨.empty, []⟩
  fresh := ApprovalCall.called
  advance := ApprovalCall.advance py
  around tx s calls :=
    if tx.subject.isSome || calls.any fun call => call.run?.any (tx.run? s.db = some ·) then none
    else some (s.commit (tx.apply py s.db) tx)

/-- The action has its record, or the approval is settled. -/
def Database.Done (db : Database) : Subject → Prop
  | .action actionId => ∃ row ∈ db.approvals.rows, row.actionId = actionId
  | .approval id => ∃ row, db.approvals.find? id = some row ∧ row.status ≠ .pending

section Transactions
variable {py : Builtins} {db : Database} {id : ApprovalId} {approval : ApprovalRow}

theorem ApprovalRow.collides_comm (a b : ApprovalRow) : a.collides b = b.collides a := by
  simp only [collides, eq_comm]

namespace Tx

variable (py) in
/-- No approval is deleted, and its action is never written again. -/
theorem approval_kept (tx : Tx) (stored : db.approvals.find? id = some approval) :
    (tx.apply py db).approvals.find? id = some (tx.onApproval db approval) ∧
      (tx.onApproval db approval).actionId = approval.actionId := by
  obtain ⟨_, _, _, _, decided⟩ := tx.onApproval_decision db approval
  exact ⟨by rw [find?_approvals, stored, rowAfter_some], by rw [decided]⟩

theorem keeps_done (tx : Tx) {subject : Subject} (done : db.Done subject) :
    (tx.apply py db).Done subject := by
  cases subject with
  | action actionId =>
      obtain ⟨row, member, own⟩ := done
      obtain ⟨stored, same⟩ := tx.approval_kept py (Table.mem_rows_iff.mp member)
      exact ⟨_, (Table.find?_eq_some.mp stored).1, same.trans own⟩
  | approval id =>
      obtain ⟨row, stored, settled⟩ := done
      exact ⟨row, tx.keeps_settled stored settled, settled⟩

theorem onApproval_other {tx : Tx} (other : tx.subject = none) :
    tx.onApproval db approval = approval := by
  cases tx with
  | resolveAndEnqueue => contradiction
  | _ => rfl

theorem newApproval_other {tx : Tx} (other : tx.subject = none) : tx.newApproval py db = none := by
  cases tx with
  | createPending => contradiction
  | _ => rfl

end Tx

/-- Each action has one record. -/
def Database.SingleActions (db : Database) : Prop :=
  ∀ a ∈ db.approvals.rows, ∀ b ∈ db.approvals.rows, a.actionId = b.actionId → a = b

theorem Database.SingleActions.apply (single : db.SingleActions) (tx : Tx) :
    (tx.apply py db).SingleActions := by
  intro a memberA b memberB same
  rcases approval_after memberA with ⟨oldA, inA, rewritten, _, actionA⟩ | ⟨newA, freshA⟩
  · rcases approval_after memberB with ⟨oldB, inB, rewritten', _, actionB⟩ | ⟨newB, freshB⟩
    · have unchanged := single oldA inA oldB inB (actionA ▸ actionB ▸ same)
      rw [rewritten, rewritten', unchanged]
    · exact absurd (actionA.symm.trans same) (freshB oldA inA)
  · rcases approval_after memberB with ⟨oldB, inB, _, _, actionB⟩ | ⟨newB, _⟩
    · exact absurd (actionB.symm.trans same.symm) (freshA oldB inB)
    · rw [newA] at newB
      exact Option.some.inj newB

end Transactions

/-- Each commit is a transaction in one step. An action is recorded by one of them at most, and
an approval settled by one. -/
structure CommitLog.Serial (py : Builtins) (s : CommitLog) : Prop where
  replayed : s.db = .replay py s.txs
  once : (s.txs.filterMap Tx.subject).Nodup
  done : ∀ tx ∈ s.txs, ∀ subject, tx.subject = some subject → s.db.Done subject
  single : s.db.SingleActions

theorem CommitLog.Serial.commit {py : Builtins} {s : CommitLog} (serial : s.Serial py) {tx : Tx}
    (first : ∀ subject, tx.subject = some subject →
      ¬ s.db.Done subject ∧ (tx.apply py s.db).Done subject) :
    (s.commit (tx.apply py s.db) tx).Serial py where
  replayed := by
    simp only [CommitLog.commit, Database.replay, List.foldl_append, List.foldl_cons,
      List.foldl_nil]
    rw [serial.replayed, Database.replay]
  once := by
    simp only [CommitLog.commit, List.filterMap_append]
    refine List.nodup_append.mpr ⟨serial.once, ?_, fun subject before other new => ?_⟩
    · cases about : tx.subject <;> simp [about]
    · rintro rfl
      obtain ⟨earlier, member, about⟩ := List.mem_filterMap.mp before
      obtain ⟨last, member', about'⟩ := List.mem_filterMap.mp new
      rw [List.mem_singleton.mp member'] at about'
      exact (first subject about').1 (serial.done earlier member subject about)
  done earlier member subject about := by
    rcases List.mem_append.mp member with before | new
    · exact tx.keeps_done (serial.done earlier before subject about)
    · rw [List.mem_singleton.mp new] at about
      exact (first subject about).2
  single := serial.single.apply tx

namespace ApprovalCall

/-- What a call relies on while it runs. -/
def Steady (py : Builtins) (db : Database) : ApprovalCall → Prop
  | .create ⟨action, id, phase⟩ =>
      match phase with
      | .called | .absent | .raised => True
      | .inserted => ∀ k row, db.approvals.find? k = some row →
          (action.row py id).collides row = false
      | .committed => ∃ row, db.approvals.find? id = some row ∧ row.actionId = action.actionId
      | .returned row => row.actionId = action.actionId ∧
          ∃ stored, db.approvals.find? row.id = some stored ∧ stored.actionId = action.actionId
  | .resolve ⟨id, status, _, _, _, phase⟩ =>
      match phase with
      | .called | .raised | .returned none => True
      | .locked approval => db.approvals.find? id = some approval ∧ status ≠ .pending
      | .deciding approval now run => db.approvals.find? id = some approval ∧ status ≠ .pending ∧
          approval.status = .pending ∧ approval.expiresAt.any (· ≤ now) = false ∧
          db.runs.find? approval.runId = some run
      | .committed => db.Done (.approval id)
      | .returned (some row) => db.approvals.find? id = some row ∧ row.status ≠ .pending

/-- Two calls hold no common lock, and what they have inserted does not collide. -/
structure Apart (py : Builtins) (a b : ApprovalCall) : Prop where
  inserted : ∀ x y, a.inserted? py = some x → b.inserted? py = some y → x.collides y = false
  approvals : ∀ i j, a.approval? = some i → b.approval? = some j → i ≠ j
  runs : ∀ i j, a.run? = some i → b.run? = some j → i ≠ j

theorem Apart.symm {py : Builtins} {a b : ApprovalCall} (apart : a.Apart py b) : b.Apart py a where
  inserted x y first second := by
    rw [ApprovalRow.collides_comm]
    exact apart.inserted y x second first
  approvals i j first second := (apart.approvals j i second first).symm
  runs i j first second := (apart.runs j i second first).symm

/-- A transaction that the call commits: the first about its subject, which writes only rows
the call has locked, and inserts only what the call has. -/
structure Commits (py : Builtins) (db : Database) (call : ApprovalCall) (tx : Tx) : Prop where
  first : ∀ subject, tx.subject = some subject → ¬ db.Done subject ∧ (tx.apply py db).Done subject
  rows : ∀ id row, db.approvals.find? id = some row → call.approval? ≠ some id →
    tx.onApproval db row = row
  runs : ∀ id run, db.runs.find? id = some run → call.run? ≠ some id → tx.onRun db run = run
  new : ∀ row, tx.newApproval py db = some row → call.inserted? py = some row

section Steady
variable {py : Builtins} {db : Database} {call other : ApprovalCall}

/-- A transaction that spares the locked rows and inserts nothing that collides keeps what the
call relies on. -/
theorem Steady.apply (steady : call.Steady py db) (tx : Tx)
    (rows : ∀ id row, call.approval? = some id → db.approvals.find? id = some row →
      tx.onApproval db row = row)
    (runs : ∀ id run, call.run? = some id → db.runs.find? id = some run → tx.onRun db run = run)
    (new : ∀ x row, call.inserted? py = some x → tx.newApproval py db = some row →
      x.collides row = false) : call.Steady py (tx.apply py db) := by
  have locked {id : ApprovalId} {row : ApprovalRow} (held : call.approval? = some id)
      (stored : db.approvals.find? id = some row) :
      (tx.apply py db).approvals.find? id = some row := by
    rw [(tx.approval_kept _ stored).1, rows id row held stored]
  match call, steady with
  | .create ⟨_, _, .called⟩, _ | .create ⟨_, _, .absent⟩, _ | .create ⟨_, _, .raised⟩, _
  | .resolve ⟨_, _, _, _, _, .called⟩, _ | .resolve ⟨_, _, _, _, _, .raised⟩, _
  | .resolve ⟨_, _, _, _, _, .returned none⟩, _ => trivial
  | .create ⟨action, id, .inserted⟩, free =>
      intro k row stored
      rw [Tx.find?_approvals] at stored
      rcases rowAfter_cases stored with ⟨old, before, rfl⟩ | ⟨_, inserted, _⟩
      · obtain ⟨_, _, _, _, decided⟩ := tx.onApproval_decision db old
        rw [decided]
        exact free k old before
      · exact new _ row rfl inserted
  | .create ⟨action, id, .committed⟩, ⟨row, stored, own⟩ =>
      obtain ⟨stored', same⟩ := tx.approval_kept py stored
      exact ⟨_, stored', same.trans own⟩
  | .create ⟨action, id, .returned row⟩, ⟨own, stored, found, same⟩ =>
      obtain ⟨found', same'⟩ := tx.approval_kept py found
      exact ⟨own, _, found', same'.trans same⟩
  | .resolve ⟨id, _, _, _, _, .locked approval⟩, ⟨stored, decisive⟩ =>
      exact ⟨locked rfl stored, decisive⟩
  | .resolve ⟨id, _, _, _, _, .deciding approval now run⟩,
      ⟨stored, decisive, pending, live, found⟩ =>
      refine ⟨locked rfl stored, decisive, pending, live, ?_⟩
      have key : run.id = approval.runId := Table.key_of_find? found
      rw [Tx.find?_runs, found, rowAfter_some, runs _ run rfl (key ▸ found)]
  | .resolve ⟨id, _, _, _, _, .committed⟩, settled =>
      have done : db.Done (.approval id) := settled
      exact tx.keeps_done done
  | .resolve ⟨id, _, _, _, _, .returned (some row)⟩, ⟨stored, settled⟩ =>
      exact ⟨tx.keeps_settled stored settled, settled⟩

/-- What a call commits does not disturb the others. -/
theorem Steady.undisturbed (steady : other.Steady py db) (apart : call.Apart py other) {tx : Tx}
    (commits : call.Commits py db tx) : other.Steady py (tx.apply py db) := by
  refine steady.apply tx (fun id row held stored => ?_) (fun id run held stored => ?_)
    fun x row inserted new => ?_
  · exact commits.rows id row stored fun own => apart.approvals id id own held rfl
  · exact commits.runs id run stored fun own => apart.runs id id own held rfl
  · rw [ApprovalRow.collides_comm]
    exact apart.inserted row x (commits.new row new) inserted

end Steady
end ApprovalCall

namespace CreatePending

/-- What the statements of a call do. -/
inductive Statement (py : Builtins) (s : CommitLog) (others : List ApprovalCall)
    (call : CreatePending) : CommitLog → CreatePending → Prop
  | found (existing) : s.db.approvalFor? call.action.actionId = some existing →
      Statement py s others call s { call with phase := .returned existing }
  | absent : Statement py s others call s { call with phase := .absent }
  | inserted : (∀ other ∈ others, ∀ x, other.inserted? py = some x →
        (call.action.row py call.id).collides x = false) →
      (∀ row ∈ s.db.approvals.rows, (call.action.row py call.id).collides row = false) →
      Statement py s others call s { call with phase := .inserted }
  | commit : call.phase = .inserted →
      Statement py s others call
        (s.commit { s.db with approvals := s.db.approvals.insert (call.action.row py call.id) }
          (.createPending call.action call.id)) { call with phase := .committed }
  | refresh (stored) : call.phase = .committed → s.db.approvals.find? call.id = some stored →
      Statement py s others call s { call with phase := .returned stored }
  | raised : Statement py s others call s { call with phase := .raised }

variable {py : Builtins} {s t : CommitLog} {others : List ApprovalCall} {call next : CreatePending}

theorem advance_statement (moved : call.advance py s others = some (t, next)) :
    Statement py s others call t next := by
  simp only [advance] at moved
  split at moved
  next =>
    split at moved
    next existing found => cases moved; exact .found existing found
    next => cases moved; exact .absent
  next =>
    split at moved
    next => contradiction
    next free =>
      split at moved
      next => cases moved; exact .raised
      next clear =>
        cases moved
        simp only [List.any_eq_true, not_exists, not_and, Bool.not_eq_true] at free clear
        refine .inserted (fun other member x inserted => ?_) clear
        simpa [inserted] using free other member
  next inserted => cases moved; exact .commit inserted
  next committed =>
    split at moved
    next stored found => cases moved; exact .refresh stored committed found
    next => cases moved; exact .raised
  next => contradiction
  next => contradiction

theorem inserted_free {db : Database} {action : PendingAction} {id : ApprovalId}
    (steady : ApprovalCall.Steady py db (.create ⟨action, id, .inserted⟩)) :
    db.approvalFor? action.actionId = none ∧ db.approvals.find? id = none := by
  have free : ∀ k row, db.approvals.find? k = some row →
    (action.row py id).collides row = false := steady
  refine ⟨Database.approvalFor?_eq_none.mpr fun row member same => ?_, ?_⟩
  · have clear := free _ row (Table.mem_rows_iff.mp member)
    simp [ApprovalRow.collides, PendingAction.row, same] at clear
  · cases stored : db.approvals.find? id with
    | none => rfl
    | some row =>
        have clear := free id row stored
        have key : row.id = id := Table.key_of_find? stored
        simp [ApprovalRow.collides, PendingAction.row, key] at clear

theorem find?_created {db : Database} {action : PendingAction} {id : ApprovalId}
    (fresh : db.approvals.find? id = none) :
    (db.approvals.insert (action.row py id)).find? id = some (action.row py id) := by
  rw [Table.find?_insert, fresh, Option.none_or]
  exact if_pos rfl

theorem Statement.effect (statement : Statement py s others call t next)
    (steady : ApprovalCall.Steady py s.db (.create call)) :
    t = s ∨ ∃ tx, t = s.commit (tx.apply py s.db) tx ∧
      ApprovalCall.Commits py s.db (.create call) tx := by
  cases statement with
  | commit inserted =>
      obtain ⟨action, id, phase⟩ := call
      cases inserted
      obtain ⟨absent, fresh⟩ := inserted_free steady
      have applied : (Tx.createPending action id).apply py s.db =
          { s.db with approvals := s.db.approvals.insert (action.row py id) } := by
        simp only [Tx.apply, Database.createPending, absent]
      refine .inr ⟨.createPending action id, by rw [applied], ?_, fun _ _ _ _ => rfl,
        fun _ _ _ _ => rfl, fun row new => ?_⟩
      · rintro subject about
        cases about
        refine ⟨?_, ?_⟩
        · rintro ⟨row, member, same⟩
          exact Database.approvalFor?_eq_none.mp absent row member same
        · rw [applied]
          exact ⟨action.row py id, (Table.find?_eq_some.mp (find?_created fresh)).1, rfl⟩
      · simp only [Tx.newApproval, absent, Option.isNone_none, if_true] at new
        rw [← new]
        rfl
  | _ => exact .inl rfl

theorem Statement.steady (statement : Statement py s others call t next)
    (steady : ApprovalCall.Steady py s.db (.create call)) :
    ApprovalCall.Steady py t.db (.create next) := by
  cases statement with
  | absent | raised => trivial
  | found existing found =>
      have own : existing.actionId = call.action.actionId := by
        simpa using List.find?_some found
      exact ⟨own, existing, Table.mem_rows_iff.mp (List.mem_of_find?_eq_some found), own⟩
  | inserted _ clear =>
      intro k row stored
      exact clear row (Table.find?_eq_some.mp stored).1
  | commit inserted =>
      obtain ⟨action, id, phase⟩ := call
      cases inserted
      exact ⟨action.row py id, find?_created (inserted_free steady).2, rfl⟩
  | refresh stored committed found =>
      obtain ⟨action, id, phase⟩ := call
      cases committed
      obtain ⟨row, stored', own⟩ := steady
      rw [found] at stored'
      cases stored'
      have key : stored.id = id := Table.key_of_find? found
      exact ⟨own, stored, by rw [key]; exact found, own⟩

theorem Statement.apart (statement : Statement py s others call t next) {other : ApprovalCall}
    (member : other ∈ others) : ApprovalCall.Apart py (.create next) other where
  inserted x y own foreign := by
    cases statement with
    | inserted free _ =>
        cases own
        exact free other member y foreign
    | _ => contradiction
  approvals _ _ own _ := by contradiction
  runs _ _ own _ := by contradiction

end CreatePending

section Resolution
variable {py : Builtins} {db : Database} {id : ApprovalId} {approval : ApprovalRow} {run : RunRow}
  {status : ApprovalStatus} {resolvedBy : String} {reason : Option String} {now : Time}
  {jobId : JobId}

theorem Tx.onApproval_apart {row : ApprovalRow} (apart : row.id ≠ id) :
    (Tx.resolveAndEnqueue id status resolvedBy reason now jobId).onApproval db row = row :=
  if_pos apart

/-- A resolution puts no run but that of the approval back into the queue. -/
theorem Tx.onRun_apart (stored : db.approvals.find? id = some approval)
    (apart : approval.expiresAt.any (· ≤ now) = true ∨ run.id ≠ approval.runId) :
    (Tx.resolveAndEnqueue id status resolvedBy reason now jobId).onRun db run = run := by
  simp only [Tx.onRun]
  refine if_neg ?_
  rw [Bool.not_eq_true, ← Bool.not_eq_true, Option.any_eq_true]
  rintro ⟨woken, wakes, same⟩
  obtain ⟨found, stored', _, live, own, _⟩ := Database.wakes_eq_some.mp wakes
  rw [stored] at stored'
  cases stored'
  rcases apart with dead | other
  · rw [live] at dead
    contradiction
  · exact other ((of_decide_eq_true same).trans (Table.key_of_find? own))

/-- A resolution that finds the approval pending and its run stored settles it. -/
theorem Tx.done_after (stored : db.approvals.find? id = some approval)
    (pending : approval.status = .pending) (decisive : status ≠ .pending)
    (known : approval.expiresAt.any (· ≤ now) = true ∨
      (db.runs.find? approval.runId).isSome = true) :
    ((Tx.resolveAndEnqueue id status resolvedBy reason now jobId).apply py db).Done
      (.approval id) := by
  have key : approval.id = id := Table.key_of_find? stored
  refine ⟨_, (Tx.approval_kept _ _ stored).1, ?_⟩
  simp only [Tx.onApproval, key, ne_eq, not_true_eq_false, if_false]
  by_cases dead : approval.expiresAt.any (· ≤ now) = true
  · rw [if_pos (by simp [Database.expires, stored, pending, dead])]
    exact fun same => by contradiction
  · rw [Bool.not_eq_true] at dead
    rw [if_neg (by simp [Database.expires, stored, pending, dead]), if_pos]
    · exact decisive
    · simpa [Database.decides, stored, pending, dead, Option.filter] using
        known.resolve_left (by simp [dead])

theorem pending_not_done (stored : db.approvals.find? id = some approval)
    (pending : approval.status = .pending) : ¬ db.Done (.approval id) := by
  rintro ⟨row, stored', settled⟩
  rw [stored] at stored'
  cases stored'
  exact settled pending

end Resolution

namespace ResolveApproval

/-- What the statements of a call do. -/
inductive Statement (s : CommitLog) (others : List ApprovalCall) (call : ResolveApproval) :
    CommitLog → ResolveApproval → Prop
  | missing : Statement s others call s { call with phase := .returned none }
  | lock (approval) : call.status ≠ .pending →
      (∀ other ∈ others, other.approval? ≠ some call.id) →
      s.db.approvals.find? call.id = some approval →
      Statement s others call s { call with phase := .locked approval }
  | settled (approval) : call.phase = .locked approval → approval.status ≠ .pending →
      Statement s others call s { call with phase := .returned (some approval) }
  | expire (approval now) : call.phase = .locked approval → approval.status = .pending →
      approval.expiresAt.any (· ≤ now) = true →
      Statement s others call (s.commit (s.db.expire call.id now) (call.tx now))
        { call with
          phase := .returned (some
            { approval with status := .expired, resolvedAt := some now }) }
  | decide (approval now run) : call.phase = .locked approval → approval.status = .pending →
      approval.expiresAt.any (· ≤ now) = false →
      (∀ other ∈ others, other.run? ≠ some approval.runId) →
      s.db.runs.find? approval.runId = some run →
      Statement s others call s { call with phase := .deciding approval now run }
  | requeue (approval now run) : call.phase = .deciding approval now run → run.status = .paused →
      Statement s others call
        (s.commit ((s.db.resolve call.id call.status call.resolvedBy call.reason now).requeue
          run.id call.jobId now) (call.tx now)) { call with phase := .committed }
  | resolve (approval now run) : call.phase = .deciding approval now run →
      run.status ≠ .paused →
      Statement s others call
        (s.commit (s.db.resolve call.id call.status call.resolvedBy call.reason now)
          (call.tx now)) { call with phase := .committed }
  | refresh (stored) : call.phase = .committed → s.db.approvals.find? call.id = some stored →
      Statement s others call s { call with phase := .returned (some stored) }
  | raised : Statement s others call s { call with phase := .raised }

variable {py : Builtins} {s t : CommitLog} {others : List ApprovalCall}
  {call next : ResolveApproval} {now : Time}

theorem advance_statement (moved : call.advance now s others = some (t, next)) :
    Statement s others call t next := by
  simp only [advance] at moved
  split at moved
  next =>
    split at moved
    next => cases moved; exact .raised
    next valid =>
      split at moved
      next => contradiction
      next free =>
        split at moved
        next => cases moved; exact .missing
        next approval stored =>
          cases moved
          simp only [List.any_eq_true, not_exists, not_and, decide_eq_true_eq] at free
          refine .lock approval (fun pending => valid ?_) free stored
          rw [pending]
          exact ⟨fun same => by contradiction, fun same => by contradiction⟩
  next approval locked =>
    split at moved
    next settled => cases moved; exact .settled approval locked settled
    next pending =>
      rw [not_not] at pending
      split at moved
      next dead => cases moved; exact .expire approval now locked pending dead
      next live =>
        split at moved
        next => contradiction
        next free =>
          split at moved
          next => cases moved; exact .raised
          next run found =>
            cases moved
            simp only [List.any_eq_true, not_exists, not_and, decide_eq_true_eq] at free
            exact .decide approval now run locked pending (by simpa using live) free found
  next approval now' run deciding =>
    split at moved
    next paused =>
      split at moved
      next => cases moved; exact .raised
      next => cases moved; exact .requeue approval now' run deciding paused
    next awake => cases moved; exact .resolve approval now' run deciding awake
  next committed =>
    split at moved
    next stored found => cases moved; exact .refresh stored committed found
    next => cases moved; exact .raised
  next => contradiction
  next => contradiction

/-- The transaction of a call that holds the lock of a pending approval. -/
theorem commits_tx {approval : ApprovalRow} (stored : s.db.approvals.find? call.id = some approval)
    (pending : approval.status = .pending) (decisive : call.status ≠ .pending)
    (held : (ApprovalCall.resolve call).approval? = some call.id)
    (known : approval.expiresAt.any (· ≤ now) = true ∨
      (s.db.runs.find? approval.runId).isSome = true ∧
        (ApprovalCall.resolve call).run? = some approval.runId) :
    ApprovalCall.Commits py s.db (.resolve call) (call.tx now) where
  first subject about := by
    cases about
    exact ⟨pending_not_done stored pending,
      Tx.done_after stored pending decisive (known.imp_right And.left)⟩
  rows id row found unlocked := by
    have key : row.id = id := Table.key_of_find? found
    refine Tx.onApproval_apart fun same => unlocked ?_
    rw [held, ← same, key]
  runs id run found unlocked := by
    have key : run.id = id := Table.key_of_find? found
    refine Tx.onRun_apart stored (known.imp_right fun both same => unlocked ?_)
    rw [both.2, ← same, key]
  new row new := by contradiction

/-- A decision under the locks is the resolution in one step. -/
theorem decided_apply {approval : ApprovalRow} {run : RunRow}
    (stored : s.db.approvals.find? call.id = some approval) (pending : approval.status = .pending)
    (live : approval.expiresAt.any (· ≤ now) = false)
    (found : s.db.runs.find? approval.runId = some run) :
    (call.tx now).apply py s.db =
      if run.status = .paused then
        (s.db.resolve call.id call.status call.resolvedBy call.reason now).requeue run.id
          call.jobId now
      else s.db.resolve call.id call.status call.resolvedBy call.reason now := by
  simp [tx, Tx.apply, Database.resolveAndEnqueue, stored, pending, live, found]

theorem deciding_commits {approval : ApprovalRow} {run : RunRow}
    (at' : call.phase = .deciding approval now run)
    (steady : ApprovalCall.Steady py s.db (.resolve call)) :
    ApprovalCall.Commits py s.db (.resolve call) (call.tx now) ∧
      (call.tx now).apply py s.db =
        if run.status = .paused then
          (s.db.resolve call.id call.status call.resolvedBy call.reason now).requeue run.id
            call.jobId now
        else s.db.resolve call.id call.status call.resolvedBy call.reason now := by
  obtain ⟨id, status, resolvedBy, reason, jobId, phase⟩ := call
  cases at'
  obtain ⟨stored, decisive, pending, live, found⟩ := steady
  have key : run.id = approval.runId := Table.key_of_find? found
  refine ⟨commits_tx stored pending decisive rfl (.inr ⟨by rw [found]; rfl, ?_⟩),
    decided_apply stored pending live found⟩
  exact congrArg some key

theorem Statement.effect (statement : Statement s others call t next)
    (steady : ApprovalCall.Steady py s.db (.resolve call)) :
    t = s ∨ ∃ tx, t = s.commit (tx.apply py s.db) tx ∧
      ApprovalCall.Commits py s.db (.resolve call) tx := by
  cases statement with
  | expire approval now locked pending dead =>
      obtain ⟨id, status, resolvedBy, reason, jobId, phase⟩ := call
      cases locked
      obtain ⟨stored, decisive⟩ := steady
      refine .inr ⟨_, ?_, commits_tx stored pending decisive rfl (.inl dead)⟩
      simp [tx, Tx.apply, Database.resolveAndEnqueue, stored, pending, dead]
  | requeue approval now run at' paused =>
      obtain ⟨commits, applied⟩ := deciding_commits at' steady
      exact .inr ⟨_, by rw [applied, if_pos paused], commits⟩
  | resolve approval now run at' awake =>
      obtain ⟨commits, applied⟩ := deciding_commits at' steady
      exact .inr ⟨_, by rw [applied, if_neg awake], commits⟩
  | _ => exact .inl rfl

theorem Statement.steady (statement : Statement s others call t next)
    (steady : ApprovalCall.Steady py s.db (.resolve call)) :
    ApprovalCall.Steady py t.db (.resolve next) := by
  cases statement with
  | requeue approval now run at' paused =>
      obtain ⟨commits, applied⟩ := deciding_commits at' steady
      have done := (commits.first _ rfl).2
      rwa [applied, if_pos paused] at done
  | resolve approval now run at' awake =>
      obtain ⟨commits, applied⟩ := deciding_commits at' steady
      have done := (commits.first _ rfl).2
      rwa [applied, if_neg awake] at done
  | missing | raised => trivial
  | lock approval decisive _ stored => exact ⟨stored, decisive⟩
  | settled approval locked settled =>
      obtain ⟨id, status, resolvedBy, reason, jobId, phase⟩ := call
      cases locked
      exact ⟨steady.1, settled⟩
  | expire approval now locked pending dead =>
      obtain ⟨id, status, resolvedBy, reason, jobId, phase⟩ := call
      cases locked
      have stored := steady.1
      refine ⟨?_, fun same => by contradiction⟩
      have key : approval.id = id := Table.key_of_find? stored
      simp [CommitLog.commit, Database.expire, stored, key]
  | decide approval now run locked pending live _ found =>
      obtain ⟨id, status, resolvedBy, reason, jobId, phase⟩ := call
      cases locked
      exact ⟨steady.1, steady.2, pending, live, found⟩
  | refresh stored committed found =>
      obtain ⟨id, status, resolvedBy, reason, jobId, phase⟩ := call
      cases committed
      obtain ⟨row, stored', settled⟩ := steady
      rw [found] at stored'
      cases stored'
      exact ⟨found, settled⟩

theorem Statement.apart (statement : Statement s others call t next) {other : ApprovalCall}
    (member : other ∈ others) (apart : ApprovalCall.Apart py (.resolve call) other) :
    ApprovalCall.Apart py (.resolve next) other where
  inserted _ _ own _ := by contradiction
  approvals i j own foreign := by
    cases statement with
    | lock approval _ free _ =>
        cases own
        rintro rfl
        exact free other member foreign
    | decide approval now run locked _ _ _ _ =>
        cases own
        refine apart.approvals _ j ?_ foreign
        obtain ⟨id, status, resolvedBy, reason, jobId, phase⟩ := call
        cases locked
        rfl
    | _ => contradiction
  runs i j own foreign := by
    cases statement with
    | decide approval now run _ _ _ free found =>
        cases own
        rintro rfl
        have key : run.id = approval.runId := Table.key_of_find? found
        exact free other member (key ▸ foreign)
    | _ => contradiction

end ResolveApproval

namespace ApprovalCall
variable {py : Builtins} {s t : CommitLog} {others : List ApprovalCall} {call next : ApprovalCall}

/-- What a call does next: a statement that commits nothing, or the commit of its own
transaction. -/
structure Moves (py : Builtins) (s : CommitLog) (others : List ApprovalCall) (call : ApprovalCall)
    (t : CommitLog) (next : ApprovalCall) : Prop where
  effect : t = s ∨ ∃ tx, t = s.commit (tx.apply py s.db) tx ∧ call.Commits py s.db tx
  steady : next.Steady py t.db
  apart : ∀ other ∈ others, call.Apart py other → next.Apart py other

theorem advance_moves {choice : ApprovalChoice} (steady : call.Steady py s.db)
    (moved : call.advance py choice s others = some (t, next)) : Moves py s others call t next := by
  cases choice with
  | next now =>
      cases call with
      | create call =>
          obtain ⟨⟨_, after⟩, advanced, same⟩ := Option.map_eq_some_iff.mp moved
          cases same
          have statement := CreatePending.advance_statement advanced
          exact ⟨statement.effect steady, statement.steady steady,
            fun other member _ => statement.apart member⟩
      | resolve call =>
          obtain ⟨⟨_, after⟩, advanced, same⟩ := Option.map_eq_some_iff.mp moved
          cases same
          have statement := ResolveApproval.advance_statement advanced
          exact ⟨statement.effect steady, statement.steady steady,
            fun other member apart => statement.apart member apart⟩
  | abort =>
      cases call with
      | create call =>
          obtain ⟨after, aborted, same⟩ := Option.map_eq_some_iff.mp moved
          cases same
          have statement : CreatePending.Statement py s others call s after := by
            unfold CreatePending.abort at aborted
            split at aborted
            · contradiction
            · contradiction
            · cases aborted; exact .raised
          exact ⟨.inl rfl, statement.steady steady, fun other member _ => statement.apart member⟩
      | resolve call =>
          obtain ⟨after, aborted, same⟩ := Option.map_eq_some_iff.mp moved
          cases same
          have statement : ResolveApproval.Statement s others call s after := by
            unfold ResolveApproval.abort at aborted
            split at aborted
            · contradiction
            · contradiction
            · cases aborted; exact .raised
          exact ⟨.inl rfl, statement.steady steady,
            fun other member apart => statement.apart member apart⟩

theorem called_idle (db : Database) (called : call.called = true) :
    call.Steady py db ∧ call.inserted? py = none ∧ call.approval? = none ∧ call.run? = none := by
  cases call with
  | create call =>
      obtain ⟨action, id, phase⟩ := call
      cases phase <;> first | contradiction | exact ⟨trivial, rfl, rfl, rfl⟩
  | resolve call =>
      obtain ⟨id, status, resolvedBy, reason, jobId, phase⟩ := call
      cases phase <;> first | contradiction | exact ⟨trivial, rfl, rfl, rfl⟩

end ApprovalCall

theorem approving_sound (py : Builtins) :
    (approving py).Sound (CommitLog.Serial py) (fun s call => call.Steady py s.db)
      (ApprovalCall.Apart py) where
  symm := ApprovalCall.Apart.symm
  init s first := by
    subst first
    exact ⟨rfl, List.nodup_nil, fun tx member => by contradiction,
      fun a member => by contradiction⟩
  fresh s call _ fresh := by
    obtain ⟨steady, unwritten, unlocked, free⟩ := ApprovalCall.called_idle s.db fresh
    exact ⟨steady, fun other => ⟨fun _ _ own _ => by simp [unwritten] at own,
      fun _ _ own _ => by simp [unlocked] at own, fun _ _ own _ => by simp [free] at own⟩⟩
  advance choice s others call t next serial steady compatible moved := by
    have moves := ApprovalCall.advance_moves steady moved
    rcases moves.effect with same | ⟨tx, same, commits⟩
    · subst same
      exact ⟨serial, moves.steady, fun other member =>
        ⟨(compatible other member).1, moves.apart other member (compatible other member).2⟩⟩
    · subst same
      refine ⟨serial.commit commits.first, moves.steady, fun other member => ?_⟩
      obtain ⟨kept, apart⟩ := compatible other member
      exact ⟨kept.undisturbed apart commits, moves.apart other member apart⟩
  around tx s calls t serial steady moved := by
    simp only [approving] at moved
    split at moved
    next => contradiction
    next admitted =>
      cases moved
      simp only [Bool.or_eq_true, Option.isSome_iff_ne_none, ne_eq, List.any_eq_true, not_or,
        not_not, not_exists, not_and, Bool.not_eq_true] at admitted
      obtain ⟨other, free⟩ := admitted
      refine ⟨serial.commit fun subject about => by rw [other] at about; contradiction,
        fun call member => ?_⟩
      refine (steady call member).apply tx (fun _ _ _ _ => Tx.onApproval_other other)
        (fun id run held stored => ?_) fun x row _ new => ?_
      · have spared := free call member
        have key : run.id = id := Table.key_of_find? stored
        simp only [held, Option.any_some, decide_eq_false_iff_not] at spared
        exact Tx.onRun_of_ne (key ▸ spared)
      · rw [Tx.newApproval_other other] at new
        contradiction

/-- Whatever calls run at a time and whatever is committed between their statements, the
database is that of the committed transactions, each in one step and in their order. One of them
at most records an action, and one settles an approval. All calls that return a record of an
action return the same one, and all that return a resolved approval the same decision, which is
the stored one. -/
theorem approval_calls_serialize (py : Builtins) {s : Calls CommitLog ApprovalCall}
    (reached : Reachable (approving py).machine anyStep s) :
    s.shared.db = .replay py s.shared.txs ∧
      (s.shared.txs.filterMap Tx.subject).Nodup ∧
      (∀ a b x y, .create a ∈ s.calls → .create b ∈ s.calls → a.phase = .returned x →
        b.phase = .returned y → a.action.actionId = b.action.actionId →
        x.id = y.id ∧ ∃ row, s.shared.db.approvals.find? x.id = some row ∧
          row.actionId = a.action.actionId) ∧
      ∀ a b x y, .resolve a ∈ s.calls → .resolve b ∈ s.calls → a.phase = .returned (some x) →
        b.phase = .returned (some y) → a.id = b.id →
        x = y ∧ s.shared.db.approvals.find? a.id = some x ∧ x.status ≠ .pending := by
  obtain ⟨serial, each, _⟩ := (approving_sound py).reachable reached
  refine ⟨serial.replayed, serial.once, ?_, ?_⟩
  · rintro ⟨action, i, _⟩ ⟨action', j, _⟩ x y first second ⟨⟩ ⟨⟩ same
    obtain ⟨_, row, stored, own⟩ := each _ first
    obtain ⟨_, row', stored', own'⟩ := each _ second
    obtain ⟨member, key⟩ := Table.find?_eq_some.mp stored
    obtain ⟨member', key'⟩ := Table.find?_eq_some.mp stored'
    have unique : row = row' :=
      serial.single row member row' member' (own.trans (same.trans own'.symm))
    exact ⟨key.symm.trans ((congrArg ApprovalRow.id unique).trans key'), row, stored, own⟩
  · rintro ⟨i, _, _, _, _, _⟩ ⟨j, _, _, _, _, _⟩ x y first second ⟨⟩ ⟨⟩ same
    obtain ⟨stored, settled⟩ := each _ first
    obtain ⟨stored', _⟩ := each _ second
    cases same
    rw [stored] at stored'
    exact ⟨Option.some.inj stored', stored, settled⟩

section Sample

def sampleCreate (id : ApprovalId) : ApprovalCall :=
  .create ⟨⟨"action", sampleRun, "call", "call", none, [], "sensitive", 100⟩, id, .called⟩

def sampleResolve (status : ApprovalStatus) (jobId : JobId) : ApprovalCall :=
  .resolve ⟨"first", status, "operator", none, jobId, .called⟩

def ApprovalCall.answer : ApprovalCall → Option (ApprovalId × ApprovalStatus)
  | .create ⟨_, _, .returned row⟩ | .resolve ⟨_, _, _, _, _, .returned (some row)⟩ =>
      some (row.id, row.status)
  | _ => none

/-- Two executions record one action, and two operators decide it. The second record fails on the
first, and the rejection returns the approval. -/
def sampleApprovals : List (PoolMove ApprovalCall ApprovalChoice Tx) :=
  [.around (.createRun sampleQueued "job" 3), .around (.setRunStatus sampleRun .paused none),
    .call (sampleCreate "first"), .call (sampleCreate "second")] ++
    [0, 1, 0, 0, 1, 0].map (fun position => .advance position (.next 5)) ++
    [.call (sampleResolve .approved "one"), .call (sampleResolve .rejected "two")] ++
    [2, 2, 2, 3, 2, 3].map fun position => .advance position (.next 5)

theorem race_decided_once :
    ∃ s : Calls CommitLog ApprovalCall,
      s.calls.map ApprovalCall.answer =
        [some ("first", .pending), none, some ("first", .approved), some ("first", .approved)] ∧
        (s.shared.txs.filterMap Tx.subject).Nodup := by
  obtain ⟨s, run, answered⟩ := Run.of_test (M := (approving .onEmpty).machine)
    ⟨⟨.empty, []⟩, []⟩ sampleApprovals
    (fun s => s.calls.map ApprovalCall.answer =
      [some ("first", .pending), none, some ("first", .approved), some ("first", .approved)])
    (by decide)
  exact ⟨s, answered,
    (approval_calls_serialize .onEmpty ⟨⟨⟨.empty, []⟩, []⟩, sampleApprovals, ⟨rfl, rfl⟩, run⟩).2.1⟩

end Sample
end AgentRuntime
