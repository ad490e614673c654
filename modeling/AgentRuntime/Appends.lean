import AgentRuntime.Library.Machines
import AgentRuntime.Events

/-! The steps of `append_many` among any number of concurrent calls: the advisory lock of the
run, the read of the largest number, the inserts and the commit. The lock covers all of them,
so a commit has the effect of `appendMany` in one step. -/
namespace AgentRuntime
open Machines Logs

inductive AppendPhase where
  | waiting
  | locked
  | inserting (pending stored : List EventRow)
  | returned

/-- A call of `append_many`. The rows it has stored are seen by others after its commit. -/
structure Append where
  runId : RunId
  events : List RuntimeEvent
  phase : AppendPhase := .waiting

structure EventStore where
  committed : List EventRow
  calls : List Append

inductive AppendAction where
  | call (id : RunId) (events : List RuntimeEvent)
  | advance (position : Nat)
  | abort (position : Nat)

/-- `hashtext` may give two runs one key. -/
structure AppendConfig where
  py : Builtins
  hashtext : RunId → Int

def Append.holdsLock (call : Append) : Bool :=
  match call.phase with
  | .locked | .inserting .. => true
  | .waiting | .returned => false

def Append.uncommitted (call : Append) : List EventRow :=
  match call.phase with
  | .inserting _ stored => stored
  | _ => []

/-- The rows of the call, numbered behind a log. -/
def Append.rows (call : Append) (py : Builtins) (log : List EventRow) : List EventRow :=
  eventRows py call.runId call.events (next log call.runId)

namespace EventStore

def others (s : EventStore) (position : Nat) : List Append := s.calls.eraseIdx position

def move (s : EventStore) (position : Nat) (call : Append) (phase : AppendPhase) : EventStore :=
  { s with calls := s.calls.set position { call with phase := phase } }

/-- The next statement of a call. It waits for a lock that another call holds, and an insert
waits for a conflicting row that is not committed yet. -/
def advance (c : AppendConfig) (s : EventStore) (position : Nat) (call : Append) :
    Option EventStore :=
  match call.phase with
  | .waiting =>
      if (s.others position).any fun other =>
          other.holdsLock && c.hashtext other.runId = c.hashtext call.runId then none
      else some (s.move position call .locked)
  | .locked => some (s.move position call (.inserting (call.rows c.py s.committed) []))
  | .inserting (row :: pending) stored =>
      if (s.others position).any fun other => other.uncommitted.any (conflicts row) then none
      else if (s.committed ++ stored).any (conflicts row) then
        some (s.move position call (.inserting pending stored))
      else some (s.move position call (.inserting pending (stored ++ [row])))
  | .inserting [] stored =>
      some { s.move position call .returned with committed := s.committed ++ stored }
  | .returned => none

def step (c : AppendConfig) (s : EventStore) : AppendAction → Option EventStore
  | .call id events =>
      if events.isEmpty then some s
      else some { s with calls := s.calls ++ [⟨id, events, .waiting⟩] }
  | .advance position =>
      match s.calls[position]? with
      | some call => s.advance c position call
      | none => none
  | .abort position =>
      match s.calls[position]? with
      | some call => some (s.move position call .returned)
      | none => none

end EventStore

def appends (c : AppendConfig) : Machine EventStore AppendAction where
  init s := s = ⟨[], []⟩
  step := EventStore.step c

namespace EventStore

inductive Step (c : AppendConfig) (s : EventStore) : AppendAction → EventStore → Prop
  | empty {id} : Step c s (.call id []) s
  | call {id events} : Step c s (.call id events)
      { s with calls := s.calls ++ [⟨id, events, .waiting⟩] }
  | abort {position call} : s.calls[position]? = some call →
      Step c s (.abort position) (s.move position call .returned)
  | lock {position call} : s.calls[position]? = some call → call.phase = .waiting →
      (∀ other ∈ s.others position, other.holdsLock = true →
        c.hashtext other.runId ≠ c.hashtext call.runId) →
      Step c s (.advance position) (s.move position call .locked)
  | read {position call} : s.calls[position]? = some call → call.phase = .locked →
      Step c s (.advance position)
        (s.move position call (.inserting (call.rows c.py s.committed) []))
  | insert {position call row pending stored} : s.calls[position]? = some call →
      call.phase = .inserting (row :: pending) stored →
      Step c s (.advance position) (s.move position call (.inserting pending
        (if (s.committed ++ stored).any (conflicts row) then stored else stored ++ [row])))
  | commit {position call stored} : s.calls[position]? = some call →
      call.phase = .inserting [] stored →
      Step c s (.advance position)
        { s.move position call .returned with committed := s.committed ++ stored }

theorem step_sound {c : AppendConfig} {s t : EventStore} {action : AppendAction}
    (stepped : s.step c action = some t) : Step c s action t := by
  cases action with
  | call id events =>
      simp only [step] at stepped
      split at stepped
      next empty =>
        cases stepped
        rw [List.isEmpty_iff.mp empty]
        exact .empty
      next => cases stepped; exact .call
  | abort position =>
      simp only [step] at stepped
      split at stepped
      next call found => cases stepped; exact .abort found
      next => contradiction
  | advance position =>
      simp only [step] at stepped
      split at stepped
      next call found =>
        unfold advance at stepped
        split at stepped
        next waiting =>
          split at stepped
          next => contradiction
          next free =>
            cases stepped
            refine .lock found waiting fun other member holds => ?_
            simp only [List.any_eq_true, not_exists, not_and, Bool.not_eq_true] at free
            simpa [holds] using free other member
        next locked => cases stepped; exact .read found locked
        next row pending stored inserting =>
          split at stepped
          next => contradiction
          next =>
            have same := Step.insert (c := c) found inserting
            split at stepped
            next taken => cases stepped; rwa [if_pos taken] at same
            next free => cases stepped; rwa [if_neg free] at same
        next stored inserting => cases stepped; exact .commit found inserting
        next => contradiction
      next => contradiction

/-- One call holds a lock at a time, and what it has stored is what `appendMany` would store
so far. -/
structure Serial (c : AppendConfig) (s : EventStore) : Prop where
  sequential : Sequential s.committed
  exclusive : ∀ (i j : Nat) (a b : Append), s.calls[i]? = some a → s.calls[j]? = some b →
    a.holdsLock = true → b.holdsLock = true → c.hashtext a.runId = c.hashtext b.runId → i = j
  inserting : ∀ (i : Nat) (a : Append) pending stored, s.calls[i]? = some a →
    a.phase = .inserting pending stored →
    ∃ done, a.rows c.py s.committed = done ++ pending ∧
      insertAll s.committed done = s.committed ++ stored

/-- The row is the event, with its payload redacted. -/
structure Records (py : Builtins) (id : RunId) (event : RuntimeEvent) (row : EventRow) : Prop where
  run : row.runId = id
  type : row.type = event.type
  node : row.node = event.node
  payload : row.payload = redactFields py event.payload

theorem eventRows_records (py : Builtins) (id : RunId) (events : List RuntimeEvent) (next : Nat) :
    List.Forall₂ (Records py id) events (eventRows py id events next) := by
  induction events generalizing next with
  | nil => exact .nil
  | cons event events ih => exact .cons ⟨rfl, rfl, rfl, rfl⟩ (ih (next + 1))

/-- The effect of a commit on the log: that of `appendMany` in one step, which appends the
batch in its order, but for terminal events of a run that has one. -/
structure Committed (c : AppendConfig) (call : Append) (log after : List EventRow) : Prop where
  records : List.Forall₂ (Records c.py call.runId) call.events (call.rows c.py log)
  atomic : ∀ db : Database, db.events = log →
    (db.appendMany c.py call.runId call.events).events = after
  appended : ∃ kept, after = log ++ kept ∧ kept.Sublist (call.rows c.py log) ∧
    ∀ row ∈ call.rows c.py log, row ∉ kept → row.type.terminal = true ∧
      ∃ other ∈ after, other.runId = row.runId ∧ other.type.terminal = true ∧ other.seq < row.seq

section Steps
variable {c : AppendConfig} {s t : EventStore} {action : AppendAction} {position : Nat}
  {call : Append} {phase : AppendPhase}

theorem move_calls {j : Nat} {b : Append} (found : s.calls[position]? = some call)
    (after : (s.move position call phase).calls[j]? = some b) :
    (j = position ∧ b = { call with phase := phase }) ∨ (j ≠ position ∧ s.calls[j]? = some b) := by
  simp only [move, List.getElem?_set] at after
  have inside : position < s.calls.length := (List.getElem?_eq_some_iff.mp found).1
  by_cases same : position = j
  · subst same
    rw [if_pos rfl, if_pos inside] at after
    exact .inl ⟨rfl, (Option.some.inj after).symm⟩
  · rw [if_neg same] at after
    exact .inr ⟨Ne.symm same, after⟩

theorem Serial.move_exclusive (serial : Serial c s) (found : s.calls[position]? = some call)
    (kept : call.holdsLock = true ∨ Append.holdsLock { call with phase := phase } = false) :
    ∀ (i j : Nat) (a b : Append), (s.move position call phase).calls[i]? = some a →
      (s.move position call phase).calls[j]? = some b → a.holdsLock = true → b.holdsLock = true →
      c.hashtext a.runId = c.hashtext b.runId → i = j := by
  have held (a : Append) (same : a = { call with phase := phase }) (holds : a.holdsLock = true) :
      call.holdsLock = true ∧ a.runId = call.runId := by
    subst same
    rcases kept with kept | lost
    · exact ⟨kept, rfl⟩
    · rw [lost] at holds
      contradiction
  intro i j a b first second holds holds' key
  rcases move_calls found first with ⟨rfl, same⟩ | ⟨_, before⟩
  · obtain ⟨holds, id⟩ := held a same holds
    rcases move_calls found second with ⟨rfl, _⟩ | ⟨_, before'⟩
    · rfl
    · exact serial.exclusive i j call b found before' holds holds' (id ▸ key)
  · rcases move_calls found second with ⟨rfl, same'⟩ | ⟨_, before'⟩
    · obtain ⟨holds', id⟩ := held b same' holds'
      exact serial.exclusive i j a call before found holds holds' (id ▸ key)
    · exact serial.exclusive i j a b before before' holds holds' key

/-- The invariant across a step that commits nothing. -/
theorem Serial.move (serial : Serial c s) (found : s.calls[position]? = some call)
    (exclusive : ∀ (i j : Nat) (a b : Append), (s.move position call phase).calls[i]? = some a →
      (s.move position call phase).calls[j]? = some b → a.holdsLock = true → b.holdsLock = true →
      c.hashtext a.runId = c.hashtext b.runId → i = j)
    (inserting : ∀ pending stored, phase = .inserting pending stored →
      ∃ done, call.rows c.py s.committed = done ++ pending ∧
        insertAll s.committed done = s.committed ++ stored) :
    Serial c (s.move position call phase) where
  sequential := serial.sequential
  exclusive := exclusive
  inserting i a pending stored after at' := by
    rcases move_calls found after with ⟨_, rfl⟩ | ⟨_, before⟩
    · exact inserting pending stored at'
    · exact serial.inserting i a pending stored before at'

/-- All rows of the call are inserted. -/
theorem Serial.whole (serial : Serial c s) {stored : List EventRow}
    (found : s.calls[position]? = some call) (at' : call.phase = .inserting [] stored) :
    insertAll s.committed (call.rows c.py s.committed) = s.committed ++ stored := by
  obtain ⟨done, rows, inserted⟩ := serial.inserting position call [] stored found at'
  rw [rows, List.append_nil, inserted]

theorem rows_batch (c : AppendConfig) (call : Append) (log : List EventRow) :
    Batch call.runId (next log call.runId) (call.rows c.py log) :=
  eventRows_batch c.py call.runId call.events _

theorem Serial.committed (serial : Serial c s) {stored : List EventRow}
    (found : s.calls[position]? = some call) (at' : call.phase = .inserting [] stored) :
    Committed c call s.committed (s.committed ++ stored) := by
  have whole := serial.whole found at'
  refine ⟨eventRows_records _ _ _ _, fun db same => ?_, ?_⟩
  · rw [← whole, ← same]
    rfl
  · have batch := rows_batch c call s.committed
    obtain ⟨kept, appended, sub, dropped⟩ := insertAll_batch batch (.of_next batch)
    refine ⟨kept, whole ▸ appended, sub, fun row member absent => ?_⟩
    obtain ⟨ends, other, final, less⟩ := dropped row member absent
    obtain ⟨stored', own, last⟩ := mem_finals.mp final
    rw [← whole, appended]
    exact ⟨ends, other, stored', own.trans (batch.owned row member).symm, last, less⟩

theorem Serial.commit (serial : Serial c s) {stored : List EventRow}
    (found : s.calls[position]? = some call) (at' : call.phase = .inserting [] stored) :
    Serial c { s.move position call .returned with committed := s.committed ++ stored } := by
  have whole := serial.whole found at'
  have batch := rows_batch c call s.committed
  have own : ∀ row ∈ stored, row.runId = call.runId := by
    obtain ⟨kept, appended, sub⟩ := insertAll_append s.committed (call.rows c.py s.committed)
    rw [whole] at appended
    rw [List.append_cancel_left appended]
    intro row member
    exact batch.owned row (sub.subset member)
  have holds : call.holdsLock = true := by simp [Append.holdsLock, at']
  refine ⟨?_, serial.move_exclusive found (.inr rfl), fun j b pending other after at'' => ?_⟩
  · rw [← whole]
    exact serial.sequential.insertAll batch (.of_next batch)
  · rcases move_calls found after with ⟨_, rfl⟩ | ⟨apart, before⟩
    · contradiction
    · -- the lock is held by this call, so the other one appends to another run
      have differs : b.runId ≠ call.runId := by
        intro same
        have holds' : b.holdsLock = true := by simp [Append.holdsLock, at'']
        exact apart (serial.exclusive j position b call before found holds' holds (by rw [same]))
      have foreign : ∀ row ∈ stored, owner row ≠ b.runId :=
        fun row member => by rw [owner_event, own row member]; exact Ne.symm differs
      obtain ⟨done, rows, inserted⟩ := serial.inserting j b pending other before at''
      refine ⟨done, ?_, ?_⟩
      · rw [Append.rows, next_append_other foreign]
        exact rows
      · have same (row : EventRow) (mine : owner row = b.runId) :
            row ∈ s.committed ↔ row ∈ s.committed ++ stored := by
          rw [List.mem_append]
          exact (or_iff_left fun member => foreign row member mine).symm
        refine insertAll_same (fun row member => ?_) same inserted
        exact (rows_batch c b s.committed).owned row (rows ▸ List.mem_append_left _ member)

theorem Serial.step (serial : Serial c s) (step : Step c s action t) : Serial c t := by
  cases step with
  | empty => exact serial
  | @call id events =>
      have before {i : Nat} {a : Append}
          (after : (s.calls ++ [⟨id, events, .waiting⟩])[i]? = some a)
          (busy : a.phase ≠ .waiting) : s.calls[i]? = some a := by
        rw [List.getElem?_append] at after
        split at after
        next => exact after
        next =>
          rw [List.mem_singleton.mp (List.mem_of_getElem? after)] at busy
          exact absurd rfl busy
      have moving {a : Append} (holds : a.holdsLock = true) : a.phase ≠ .waiting := by
        intro waiting
        simp [Append.holdsLock, waiting] at holds
      refine ⟨serial.sequential, fun i j a b first second holds holds' key => ?_,
        fun i a pending stored after at' => ?_⟩
      · exact serial.exclusive i j a b (before first (moving holds)) (before second (moving holds'))
          holds holds' key
      · exact serial.inserting i a pending stored (before after (by simp [at'])) at'
  | abort found =>
      exact serial.move found (serial.move_exclusive found (.inr rfl)) fun _ _ same => by
        contradiction
  | @lock position call found waiting free =>
      refine serial.move found (fun i j a b first second holds holds' key => ?_)
        fun _ _ same => by contradiction
      have apart {j : Nat} {b : Append} (differs : j ≠ position) (before : s.calls[j]? = some b)
          (holds : b.holdsLock = true) : c.hashtext b.runId ≠ c.hashtext call.runId :=
        free b (List.mem_eraseIdx_iff_getElem?.mpr ⟨j, differs, before⟩) holds
      rcases move_calls found first with ⟨rfl, rfl⟩ | ⟨differs, before⟩
      · rcases move_calls found second with ⟨rfl, _⟩ | ⟨differs', before'⟩
        · rfl
        · exact absurd key.symm (apart differs' before' holds')
      · rcases move_calls found second with ⟨rfl, rfl⟩ | ⟨_, before'⟩
        · exact absurd key (apart differs before holds)
        · exact serial.exclusive i j a b before before' holds holds' key
  | read found locked =>
      refine serial.move found (serial.move_exclusive found (.inl ?_)) fun pending stored same => ?_
      · simp [Append.holdsLock, locked]
      · cases same
        exact ⟨[], rfl, by simp [insertAll]⟩
  | @insert position call row pending stored found inserting =>
      refine serial.move found (serial.move_exclusive found (.inl ?_)) fun later stored' same => ?_
      · simp [Append.holdsLock, inserting]
      · cases same
        obtain ⟨done, rows, inserted⟩ := serial.inserting position call _ stored found inserting
        refine ⟨done ++ [row], by rw [rows, List.append_assoc, List.singleton_append], ?_⟩
        rw [insertAll_concat, inserted, Logs.insert]
        split
        · rfl
        · exact List.append_assoc _ _ _
  | commit found inserting => exact serial.commit found inserting

theorem serial_inductive (c : AppendConfig) : Inductive (appends c) anyStep (Serial c) where
  init s first := by
    subst first
    refine ⟨⟨.nil, fun k => Nat.zero_le _⟩, fun i j a b found => ?_,
      fun i a pending stored found => ?_⟩
    · simp at found
    · simp at found
  step _ _ _ serial _ stepped := serial.step (step_sound stepped)

/-- A step leaves the log as it is, or commits a call. -/
theorem committed_step (serial : Serial c s) (step : Step c s action t) :
    t.committed = s.committed ∨
      ∃ position call stored, action = .advance position ∧ s.calls[position]? = some call ∧
        call.phase = .inserting [] stored ∧ Committed c call s.committed t.committed := by
  cases step with
  | commit found inserting =>
      exact .inr ⟨_, _, _, rfl, found, inserting, serial.committed found inserting⟩
  | empty | call | abort | lock | read | insert => exact .inl rfl

theorem Serial.grows (serial : Serial c s) (step : Step c s action t) :
    s.committed <+: t.committed := by
  rcases committed_step serial step with same | ⟨_, call, _, _, _, _, committed⟩
  · exact ⟨[], by rw [List.append_nil, same]⟩
  · obtain ⟨kept, appended, _⟩ := committed.appended
    rw [appended]
    exact List.prefix_append _ _

theorem committed_prefix {actions : List AppendAction} (reached : Reachable (appends c) anyStep s)
    (run : Run (appends c) anyStep s actions t) : s.committed <+: t.committed := by
  refine (run.strengthen reached).invariant (I := fun u => s.committed <+: u.committed) ?_
    List.prefix_rfl
  intro u action v before allowed stepped
  have serial := (serial_inductive c).reachable allowed.2
  exact before.trans (serial.grows (step_sound stepped))

/-- What a call that has returned has committed, between two states of the log. -/
def Recorded (c : AppendConfig) (s t : EventStore) (call : Append) : Prop :=
  ∃ log after, s.committed <+: log ∧ after <+: t.committed ∧ Committed c call log after

theorem Recorded.grows {u : EventStore} (recorded : Recorded c s t call)
    (grown : t.committed <+: u.committed) : Recorded c s u call := by
  obtain ⟨log, after, behind, within, committed⟩ := recorded
  exact ⟨log, after, behind, within.trans grown, committed⟩

/-- A step after which a call has returned is its commit, unless it had returned or is aborted. -/
theorem returned_step {c : AppendConfig} {s t : EventStore} {action : AppendAction} {position : Nat}
    {call : Append} (serial : Serial c s) (step : Step c s action t)
    (unaborted : action ≠ .abort position) (found : t.calls[position]? = some call)
    (returned : call.phase = .returned) :
    s.calls[position]? = some call ∨ Committed c call s.committed t.committed := by
  cases step with
  | empty => exact .inl found
  | @call id events =>
      rw [List.getElem?_append] at found
      split at found
      next => exact .inl found
      next =>
        rw [List.mem_singleton.mp (List.mem_of_getElem? found)] at returned
        contradiction
  | abort moved =>
      rcases move_calls moved found with ⟨rfl, _⟩ | ⟨_, before⟩
      · contradiction
      · exact .inl before
  | lock moved | read moved | insert moved =>
      rcases move_calls moved found with ⟨_, rfl⟩ | ⟨_, before⟩
      · contradiction
      · exact .inl before
  | commit moved inserting =>
      rcases move_calls moved found with ⟨_, rfl⟩ | ⟨_, before⟩
      · have committed := serial.committed moved inserting
        exact .inr ⟨committed.records, committed.atomic, committed.appended⟩
      · exact .inl before

/-- Along a run that does not abort it, a call returns with its batch in the log. -/
theorem returned_recorded {actions : List AppendAction} (reached : Reachable (appends c) anyStep s)
    (run : Run (appends c) anyStep s actions t) (unaborted : .abort position ∉ actions)
    (unreturned : ∀ call, s.calls[position]? = some call → call.phase ≠ .returned)
    (found : t.calls[position]? = some call) (returned : call.phase = .returned) :
    Recorded c s t call := by
  have whole := (run.strengthen reached).labelled.invariant
    (I := fun u => s.committed <+: u.committed ∧ ∀ call, u.calls[position]? = some call →
      call.phase = .returned → Recorded c s u call) ?_
    ⟨List.prefix_rfl, fun call stored ended => absurd ended (unreturned call stored)⟩
  · exact whole.2 call found returned
  · rintro u action v ⟨behind, recorded⟩ ⟨⟨_, before⟩, taken⟩ stepped
    have serial := (serial_inductive c).reachable before
    have step := step_sound stepped
    have grown := serial.grows step
    refine ⟨behind.trans grown, fun call stored ended => ?_⟩
    have kept : action ≠ .abort position := fun same => unaborted (same ▸ taken)
    rcases returned_step serial step kept stored ended with earlier | committed
    · exact (recorded call earlier ended).grows grown
    · exact ⟨u.committed, v.committed, behind, List.prefix_rfl, committed⟩

end Steps
end EventStore

/-- The log only grows, by whole batches, in the order of their numbers, and with one terminal
event of a run at most, whatever calls of `append_many` run at the same time. A call that has its
rows inserted commits them, and so has every call that has returned and was not aborted. -/
theorem event_log_append_only (c : AppendConfig) {s : EventStore}
    (reached : Reachable (appends c) anyStep s) :
    Sequential s.committed ∧
      (∀ actions t, Run (appends c) anyStep s actions t → s.committed <+: t.committed ∧
        ∀ position call, .abort position ∉ actions → t.calls[position]? = some call →
          (∀ early, s.calls[position]? = some early → early.phase ≠ .returned) →
          call.phase = .returned → EventStore.Recorded c s t call) ∧
      (∀ position call stored, s.calls[position]? = some call → call.phase = .inserting [] stored →
        ∃ t, (appends c).step s (.advance position) = some t ∧
          t.calls[position]? = some { call with phase := .returned } ∧
          EventStore.Committed c call s.committed t.committed) ∧
      ∀ action t, (appends c).step s action = some t →
        t.committed = s.committed ∨
          ∃ position call stored, action = .advance position ∧ s.calls[position]? = some call ∧
            call.phase = .inserting [] stored ∧
            EventStore.Committed c call s.committed t.committed := by
  have serial := (EventStore.serial_inductive c).reachable reached
  refine ⟨serial.sequential, fun actions t run => ⟨EventStore.committed_prefix reached run, ?_⟩,
    fun position call stored found inserting =>
      ⟨{ s.move position call .returned with committed := s.committed ++ stored }, ?_, ?_,
        serial.committed found inserting⟩,
    fun action t stepped => EventStore.committed_step serial (EventStore.step_sound stepped)⟩
  · intro position call unaborted found unreturned returned
    exact EventStore.returned_recorded reached run unaborted unreturned found returned
  · simp only [appends, EventStore.step, found, EventStore.advance, inserting]
  · have inside : position < s.calls.length := (List.getElem?_eq_some_iff.mp found).1
    exact List.getElem?_set_self inside

section Sample

def sampleAppends : AppendConfig := ⟨.onEmpty, fun _ => 0⟩

def sampleEvent (type : EventType) : RuntimeEvent := ⟨type, sampleRun, none, []⟩

/-- Two calls on one run, each with a terminal event; the second waits for the lock. -/
def sampleBatches : List AppendAction :=
  [.call sampleRun [sampleEvent .runStarted, sampleEvent .runCompleted],
    .call sampleRun [sampleEvent .runFailed, sampleEvent .llmRetrying]] ++
    List.replicate 5 (.advance 0) ++ List.replicate 5 (.advance 1)

/-- The second terminal event is dropped, and the event behind it stored. -/
theorem second_terminal_dropped :
    ∃ s, Reachable (appends sampleAppends) anyStep s ∧
      s.committed.map (fun row => (row.seq, row.type)) =
        [(0, .runStarted), (1, .runCompleted), (3, .llmRetrying)] ∧ Sequential s.committed := by
  obtain ⟨s, run, stored⟩ := Run.of_test (M := appends sampleAppends) ⟨[], []⟩ sampleBatches
    (fun s => s.committed.map (fun row => (row.seq, row.type)) =
      [(0, .runStarted), (1, .runCompleted), (3, .llmRetrying)]) (by decide)
  have reached : Reachable (appends sampleAppends) anyStep s := ⟨_, _, rfl, run⟩
  exact ⟨s, reached, stored, (event_log_append_only sampleAppends reached).1⟩

end Sample
end AgentRuntime
