import Mathlib.Data.List.Sort
import AgentRuntime.Library.Cursors
import AgentRuntime.Runs

/-! `stream_run_events`: the generator behind a stream replays the stored events of a run and
then tails them. It asks for events and for the status of the run in two separate reads. -/
namespace AgentRuntime
open Tables Logs

/-- `{"paused", "completed", "failed", "cancelled"}`. -/
def RunStatus.terminalOrPaused : RunStatus → Bool
  | .paused | .completed | .failed | .cancelled => true
  | .queued | .running => false

namespace Database

/-- The events of the run behind `after_seq`, `ORDER BY seq`. -/
def listAfter (db : Database) (id : RunId) (afterSeq : Int) : List EventRow :=
  (after db.events id afterSeq).insertionSort fun a b => a.seq ≤ b.seq

def runExists (db : Database) (id : RunId) : Bool := (db.runs.find? id).isSome

def runIsTerminalOrPaused (db : Database) (id : RunId) : Bool :=
  (db.runs.find? id).any fun run => run.status.terminalOrPaused

theorem listAfter_eq {db : Database} (sequential : Sequential db.events) (id : RunId)
    (afterSeq : Int) : db.listAfter id afterSeq = after db.events id afterSeq := by
  refine List.Pairwise.insertionSort_eq ((sequential.after_upward id afterSeq).imp ?_)
  intro a b less
  exact Nat.le_of_lt less

end Database

/-- The `id:` line of the frame of an event. -/
def EventRow.eventId (row : EventRow) : String := row.seq.repr

inductive StreamEnd where
  | disconnected
  | terminalEvent
  | terminalOrPaused
  deriving DecidableEq

/-- Where the generator stands: before `list_after`, in the loop over its result, before
`run_is_terminal_or_paused`, or at its end. -/
inductive StreamPhase where
  | polling
  | delivering (pending : List EventRow)
  | checking
  | returned (how : StreamEnd)

/-- A stream, with the cursor it started from and the events it has yielded. -/
structure Stream where
  runId : RunId
  start : Int
  cursor : Int
  yielded : List EventRow := []
  phase : StreamPhase := .polling

/-- `disconnect` is the end of the request, which the generator sees at the top of its loop or
by its cancellation. -/
inductive StreamMove where
  | advance
  | disconnect
  deriving DecidableEq

/-- The cursor of a connection. A malformed `Last-Event-ID` is ignored. -/
def startCursor (py : Builtins) (afterSeq : Int) (headerId : Option String) : Int :=
  (headerId.bind py.parseInt).getD afterSeq

/-- None where the run is unknown (404). -/
def streamRunEvents (py : Builtins) (db : Database) (id : RunId) (afterSeq : Int)
    (headerId : Option String) : Option Stream :=
  if db.runExists id then
    some { runId := id
           start := startCursor py afterSeq headerId
           cursor := startCursor py afterSeq headerId }
  else none

namespace Stream

/-- `for event in pending`, from its next event on. -/
def deliver (stream : Stream) (event : EventRow) (pending : List EventRow) : Stream :=
  { stream with
    cursor := event.seq
    yielded := stream.yielded ++ [event]
    phase :=
      if event.type.terminal then .returned .terminalEvent
      else if pending.isEmpty then .polling
      else .delivering pending }

/-- The next read or the next event of the generator. -/
def advance (db : Database) (stream : Stream) : Option Stream :=
  match stream.phase with
  | .polling =>
      match db.listAfter stream.runId stream.cursor with
      | [] => some { stream with phase := .checking }
      | event :: pending => some { stream with phase := .delivering (event :: pending) }
  | .delivering (event :: pending) => some (stream.deliver event pending)
  | .delivering [] => some { stream with phase := .polling }
  | .checking =>
      if db.runIsTerminalOrPaused stream.runId then
        some { stream with phase := .returned .terminalOrPaused }
      else some { stream with phase := .polling }
  | .returned _ => none

def move (db : Database) (stream : Stream) : StreamMove → Option Stream
  | .advance => stream.advance db
  | .disconnect =>
      match stream.phase with
      | .returned _ => none
      | _ => some { stream with phase := .returned .disconnected }

/-- The events the generator has read and not yielded. -/
def pending (stream : Stream) : List EventRow :=
  match stream.phase with
  | .delivering pending => pending
  | _ => []

/-- The generator keeps to the log: what it has yielded and is about to yield comes next behind
its start, and it returns behind the first terminal event it yields. -/
structure Tails (db : Database) (stream : Stream) : Prop where
  follows : Follows db.events stream.runId stream.start stream.cursor stream.yielded stream.pending
  silent : (∀ how, stream.phase ≠ .returned how) ∨ stream.phase = .returned .terminalOrPaused →
    ∀ row ∈ stream.yielded, row.type.terminal = false
  closing : stream.phase = .returned .terminalEvent →
    ∃ row, stream.yielded.getLast? = some row ∧ row.type.terminal = true

section Moves
variable {db db' : Database} {stream next : Stream} {m : StreamMove}

theorem Tails.opened {py : Builtins} {id : RunId} {afterSeq : Int} {headerId : Option String}
    (opened : streamRunEvents py db id afterSeq headerId = some stream) : Tails db stream := by
  simp only [streamRunEvents, Option.ite_none_right_eq_some, Option.some.injEq] at opened
  obtain ⟨_, rfl⟩ := opened
  exact ⟨.fresh _ _ _, fun _ _ member => by contradiction, fun phase => by contradiction⟩

theorem Tails.grow (tails : Tails db stream) (grown : db.events <+: db'.events) :
    Tails db' stream := ⟨tails.follows.grow grown, tails.silent, tails.closing⟩

theorem Tails.deliver (tails : Tails db stream) {event : EventRow} {pending : List EventRow}
    (phase : stream.phase = .delivering (event :: pending)) :
    Tails db (stream.deliver event pending) := by
  have follows := tails.follows
  simp only [Stream.pending, phase] at follows
  have quiet := tails.silent (.inl (by simp [phase]))
  have delivered := follows.deliver
  unfold Stream.deliver
  split
  next ends =>
    refine ⟨delivered.discard, fun open' => ?_, fun _ => ⟨event, by simp, ends⟩⟩
    simp at open'
  next goes =>
    have silent : ∀ row ∈ stream.yielded ++ [event], row.type.terminal = false := by
      intro row member
      rcases List.mem_append.mp member with before | last
      · exact quiet row before
      · rw [List.mem_singleton.mp last]
        simpa using goes
    split
    next => exact ⟨delivered.discard, fun _ => silent, fun phase => by contradiction⟩
    next => exact ⟨delivered, fun _ => silent, fun phase => by contradiction⟩

theorem Tails.advance (tails : Tails db stream) (sequential : Sequential db.events)
    (moved : stream.advance db = some next) : Tails db next := by
  have idle {phase : StreamPhase} (open' : ∀ how, stream.phase ≠ .returned how)
      (same : ∀ pending, phase ≠ .delivering pending) (quiet : phase ≠ .returned .terminalEvent) :
      Tails db { stream with phase := phase } := by
    refine ⟨?_, fun _ => tails.silent (.inl open'), fun ended => absurd ended quiet⟩
    have none : Stream.pending { stream with phase := phase } = [] := by
      cases phase with
      | delivering pending => exact absurd rfl (same pending)
      | polling | checking | returned => rfl
    rw [none]
    exact tails.follows.discard
  unfold Stream.advance at moved
  split at moved
  next phase =>
    rw [Database.listAfter_eq sequential] at moved
    split at moved
    next => cases moved; exact idle (by simp [phase]) (by simp) (by simp)
    next event pending read =>
      cases moved
      have follows := tails.follows
      simp only [Stream.pending, phase] at follows
      have polled := follows.poll sequential
      rw [read] at polled
      exact ⟨polled, fun _ => tails.silent (.inl (by simp [phase])), fun phase => by contradiction⟩
  next event pending phase => cases moved; exact tails.deliver phase
  next phase => cases moved; exact idle (by simp [phase]) (by simp) (by simp)
  next phase =>
    split at moved
    all_goals cases moved; exact idle (by simp [phase]) (by simp) (by simp)
  next => contradiction

theorem Tails.move (tails : Tails db stream) (sequential : Sequential db.events)
    (moved : stream.move db m = some next) : Tails db next := by
  cases m with
  | advance => exact tails.advance sequential moved
  | disconnect =>
      simp only [Stream.move] at moved
      split at moved
      next => contradiction
      next =>
        cases moved
        exact ⟨tails.follows.discard, by simp, by simp⟩

end Moves
end Stream
end AgentRuntime
