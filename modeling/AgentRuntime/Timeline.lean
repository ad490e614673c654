import AgentRuntime.Resolution
import AgentRuntime.Wakeup

/-! The terminal status of a run and its terminal event. They are stored in two transactions,
`run.completed` before its status and the other two behind it, and a second terminal event is
dropped. While each is stored behind a matching other one, or first, they agree at rest. -/
namespace AgentRuntime
open Machines Tables Logs

/-- The event that reports a terminal status. -/
def RunStatus.ending : RunStatus → Option EventType
  | .completed => some .runCompleted
  | .failed => some .runFailed
  | .cancelled => some .runCancelled
  | _ => none

theorem RunStatus.ending_of_terminal {status : RunStatus} (terminal : status.terminal = true) :
    ∃ type, status.ending = some type ∧ type.terminal = true := by
  cases status with
  | completed | failed | cancelled => exact ⟨_, rfl, rfl⟩
  | queued | running | paused => contradiction

theorem RunStatus.terminal_of_ending {status : RunStatus} {type : EventType}
    (ending : status.ending = some type) : status.terminal = true := by
  cases status <;> first | rfl | contradiction

def Database.terminalEvents (db : Database) (id : RunId) : List EventType :=
  (finals db.events id).map EventRow.type

/-- A run has a terminal status exactly when the one terminal event stored for it reports that
status. -/
def Database.Agrees (db : Database) : Prop :=
  ∀ id run, db.runs.find? id = some run → ∀ type : EventType, type.terminal = true →
    (run.status.ending = some type ↔ db.terminalEvents id = [type])

/-- The first terminal event of a transaction. -/
def Tx.announces : Tx → Option (RunId × EventType)
  | .appendMany id events => (events.find? (·.type.terminal)).map fun event => (id, event.type)
  | _ => none

/-- The status that a transaction writes to a run that has not ended. -/
def Tx.concludes : Tx → Option (RunId × RunStatus)
  | .cancelRun id => some (id, .cancelled)
  | .setRunStatus id status _ | .updateRun id status _ _ _ => some (id, status)
  | _ => none

/-- The steps of operations that run to their end: no process crashes, no statement raises
outside the `try` of `run_once`, and no handler is cancelled. -/
def Attempt.persists (a : Attempt) : Move → Bool
  | .crash | .cancelHandler => false
  | .handler _ => !a.leaseLost
  | .raises _ =>
      match a.phase with
      | .setRunning | .complete _ | .promote | .handling .loadJob | .handling (.loadRun _) => true
      | _ => false
  | _ => true

def unbroken : Guard Sys Action := fun s action =>
  (∀ position, action ≠ .request (.abandon position)) ∧ (∀ w, action ≠ .work w .crash) ∧
    ∀ w m a, action = .work w m → s.attempt? w = some a → a.persists m = true

/-- The first terminal event of a run is stored on no other terminal status, and a terminal
status is written on no other terminal event. -/
def inOrder (c : Config) : Guard Sys Action := fun s action =>
  (∀ id type status, (s.transaction c action).announces = some (id, type) →
    s.db.terminalEvents id = [] → s.db.Settled id status → status.ending = some type) ∧
  ∀ id status run, (s.transaction c action).concludes = some (id, status) →
    status.terminal = true → s.db.runs.find? id = some run → run.status.terminal = false →
    ∀ type ∈ s.db.terminalEvents id, status.ending = some type

section Transactions
variable {py : Builtins} {db : Database} {tx : Tx} {id : RunId} {type : EventType}

theorem eventRows_first (py : Builtins) (id : RunId) (events : List RuntimeEvent) (n : Nat) :
    (((eventRows py id events n).filter final).take 1).map EventRow.type =
      ((events.find? (·.type.terminal)).map RuntimeEvent.type).toList := by
  induction events generalizing n with
  | nil => rfl
  | cons event rest ih =>
      rw [eventRows_cons]
      cases ends : event.type.terminal with
      | true => simp [RuntimeEvent.row, ends]
      | false =>
          rw [List.filter_cons_of_neg (by simp [RuntimeEvent.row, ends]),
            List.find?_cons_of_neg (by simp [ends]), ih]

theorem Tx.announces_single {event : RuntimeEvent} {k : RunId}
    (announced : (Tx.appendMany id [event]).announces = some (k, type)) :
    id = k ∧ event.type = type ∧ event.type.terminal = true := by
  cases ends : event.type.terminal with
  | true => simpa [announces, ends] using announced
  | false => simp [announces, ends] at announced

/-- Only `append_many` writes to the log. -/
theorem Tx.events_cases (py : Builtins) (db : Database) (tx : Tx) :
    (tx.apply py db).events = db.events ∨ ∃ id events, tx = .appendMany id events := by
  cases tx with
  | appendMany id events => exact .inr ⟨id, events, rfl⟩
  | createPending action id =>
      left
      simp only [apply, Database.createPending]
      split <;> rfl
  | resolveAndEnqueue id status resolvedBy reason now jobId =>
      left
      rcases db.resolveAndEnqueue_cases id status resolvedBy reason now jobId with
        ⟨same, _⟩ | ⟨same, _⟩ | ⟨same, _⟩ | ⟨run, same, _⟩
      all_goals exact (congrArg Database.events same).trans rfl
  | idle | createRun | cancelRun | enqueue | claim | heartbeat | complete | fail
  | failWithoutRetry | setRunStatus | updateRun => exact .inl rfl

theorem Tx.events_prefix (py : Builtins) (db : Database) (tx : Tx) :
    db.events <+: (tx.apply py db).events := by
  rcases tx.events_cases py db with same | ⟨id, events, rfl⟩
  · exact ⟨[], by rw [List.append_nil, same]⟩
  · obtain ⟨kept, whole, _⟩ := insertAll_append db.events (eventRows py id events (db.nextSeq id))
    exact ⟨kept, whole.symm⟩

/-- The terminal events of a run after a transaction. -/
theorem Tx.terminalEvents_apply (py : Builtins) (db : Database) (tx : Tx) (id : RunId) :
    (tx.apply py db).terminalEvents id = db.terminalEvents id ∨
      ∃ type, tx.announces = some (id, type) ∧ db.terminalEvents id = [] ∧
        (tx.apply py db).terminalEvents id = [type] := by
  rcases tx.events_cases py db with same | ⟨other, events, rfl⟩
  · exact .inl (by rw [Database.terminalEvents, same, Database.terminalEvents])
  · have batch := eventRows_batch py other events (db.nextSeq other)
    have after := congrArg (List.map EventRow.type)
      (finals_insertAll batch (Behind.of_next batch) id)
    split at after
    next mine =>
      obtain ⟨rfl, empty⟩ := mine
      rw [eventRows_first] at after
      cases first : events.find? (·.type.terminal) with
      | none =>
          rw [first] at after
          exact .inl (after.trans (by simp [Database.terminalEvents, empty]))
      | some event =>
          rw [first] at after
          exact .inr ⟨event.type, by simp [announces, first],
            by simp [Database.terminalEvents, empty], after⟩
    next => exact .inl after

theorem Tx.terminalEvents_mem (tx : Tx) (stored : type ∈ db.terminalEvents id) :
    type ∈ (tx.apply py db).terminalEvents id := by
  rcases tx.terminalEvents_apply py db id with same | ⟨_, _, empty, _⟩
  · rwa [same]
  · rw [empty] at stored
    contradiction

theorem Tx.terminalEvents_ne (tx : Tx) (stored : db.terminalEvents id ≠ []) :
    (tx.apply py db).terminalEvents id ≠ [] := by
  obtain ⟨type, member⟩ := List.exists_mem_of_ne_nil _ stored
  exact List.ne_nil_of_mem (tx.terminalEvents_mem member)

/-- A run has a terminal event once one has been announced. -/
theorem Tx.terminalEvents_announced (py : Builtins) (db : Database)
    (announced : tx.announces = some (id, type)) :
    (tx.apply py db).terminalEvents id ≠ [] := by
  by_cases empty : db.terminalEvents id = []
  · cases tx with
    | appendMany other events =>
        obtain ⟨event, first, same⟩ := Option.map_eq_some_iff.mp announced
        cases same
        have batch := eventRows_batch py id events (db.nextSeq id)
        have after := congrArg (List.map EventRow.type)
          (finals_insertAll batch (Behind.of_next batch) id)
        have none : finals db.events id = [] := by
          simpa [Database.terminalEvents] using empty
        rw [if_pos ⟨rfl, none⟩, eventRows_first, first] at after
        exact fun gone => by
          have clash : [event.type] = [] := after.symm.trans gone
          contradiction
    | _ => contradiction
  · exact tx.terminalEvents_ne empty

/-- A run that has just ended was ended by the transaction. -/
theorem Tx.concludes_of_ended {status : RunStatus} (open' : ¬ db.Ended id)
    (settled : (tx.apply py db).Settled id status) : tx.concludes = some (id, status) ∧
      ∃ run, db.runs.find? id = some run ∧ run.status.terminal = false := by
  obtain ⟨terminal, after, stored, rfl⟩ := settled
  rw [Tx.find?_runs] at stored
  obtain ⟨run, before, rfl⟩ | ⟨_, inserted, _⟩ := rowAfter_cases stored
  · have key : run.id = id := Table.key_of_find? before
    have live : run.status.terminal = false := by
      simpa using fun ends => open' (.of_find? before ends)
    refine ⟨?_, run, before, live⟩
    have write := tx.onRun_write db run
    generalize tx.onRun db run = after at write terminal ⊢
    cases write with
    | kept => rw [live] at terminal; contradiction
    | cancelled issued | set _ _ issued | updated _ _ _ _ issued => rw [issued, ← key]; rfl
    | requeued => contradiction
  · cases tx with
    | createRun new jobId now => cases inserted; contradiction
    | _ => contradiction

theorem Tx.settled_of_concludes {status : RunStatus} {run : RunRow}
    (concludes : tx.concludes = some (id, status)) (terminal : status.terminal = true)
    (stored : db.runs.find? id = some run) (live : run.status.terminal = false) :
    (tx.apply py db).Settled id status := by
  have key : run.id = id := Table.key_of_find? stored
  refine ⟨terminal, tx.onRun db run, by rw [Tx.find?_runs, stored, rowAfter_some], ?_⟩
  cases tx with
  | cancelRun | setRunStatus | updateRun => cases concludes; simp [onRun, key, live]
  | _ => contradiction

end Transactions

/-- A terminal event and a terminal status that do not fit are both there to stay. -/
def Sys.Contradicts (s : Sys) : Prop :=
  ∃ id status type, s.db.Settled id status ∧ type ∈ s.db.terminalEvents id ∧
    status.ending ≠ some type

section Steps
variable {c : Config} {s t : Sys} {action : Action} {tx : Tx}

theorem Sys.Contradicts.step (contradicts : s.Contradicts) (step : Sys.Step c s action t) :
    t.Contradicts := by
  obtain ⟨id, status, type, settled, stored, differs⟩ := contradicts
  obtain ⟨tx, commits⟩ := step.commits
  refine ⟨id, status, type, ?_, ?_, differs⟩
  · rw [commits.db]
    exact settled.apply tx
  · rw [commits.db]
    exact tx.terminalEvents_mem stored

theorem Sys.Contradicts.of_disorder (step : Sys.Step c s action t)
    (disorder : ¬ inOrder c s action) : t.Contradicts := by
  obtain ⟨tx, commits⟩ := step.commits
  rw [inOrder, commits.tx_eq, not_and_or] at disorder
  rcases disorder with late | late
  · simp only [not_forall] at late
    obtain ⟨id, type, status, announced, empty, settled, differs⟩ := late
    refine ⟨id, status, type, commits.db ▸ settled.apply tx, ?_, differs⟩
    have some := tx.terminalEvents_announced c.py s.db announced
    rw [commits.db]
    rcases tx.terminalEvents_apply c.py s.db id with same | ⟨_, found, _, after⟩
    · rw [same] at some
      exact absurd empty some
    · rw [announced] at found
      cases found
      rw [after]
      exact List.mem_singleton_self _
  · simp only [not_forall] at late
    obtain ⟨id, status, run, concludes, terminal, stored, live, type, member, differs⟩ := late
    refine ⟨id, status, type, ?_, ?_, differs⟩
    · rw [commits.db]
      exact tx.settled_of_concludes concludes terminal stored live
    · rw [commits.db]
      exact tx.terminalEvents_mem member

theorem Database.Agrees.consistent (agrees : s.db.Agrees) : ¬ s.Contradicts := by
  rintro ⟨id, status, type, ⟨terminal, run, stored, rfl⟩, member, differs⟩
  obtain ⟨reported, ending, final⟩ := RunStatus.ending_of_terminal terminal
  have only := (agrees id run stored reported final).mp ending
  rw [only, List.mem_singleton] at member
  rw [ending, member] at differs
  exact differs rfl

end Steps
end AgentRuntime
