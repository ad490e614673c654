import AgentRuntime.Appends
import AgentRuntime.Streaming

/-! A client that follows a run over any number of connections, while calls of `append_many`
commit and every other table changes. It takes a prefix of what a connection yields, and comes
back with the last id it has received. -/
namespace AgentRuntime
open Machines Tables Logs

structure Connection where
  stream : Stream
  taken : Nat := 0

/-- `earlier` are the events received over the connections that are closed. -/
structure Client where
  runId : RunId
  afterSeq : Int
  lastEventId : Option String := none
  earlier : List EventRow := []
  connection : Option Connection := none

inductive ClientMove where
  | connect
  | stream (m : StreamMove)
  | receive
  | drop

namespace Client

def received (client : Client) : List EventRow :=
  client.earlier ++
    match client.connection with
    | some connection => connection.stream.yielded.take connection.taken
    | none => []

/-- The `Last-Event-ID` of the next connection. -/
def headerId (client : Client) : Option String :=
  match client.received.getLast? with
  | some row => some row.eventId
  | none => client.lastEventId

/-- The cursor of the first connection. -/
def start (py : Builtins) (client : Client) : Int := startCursor py client.afterSeq client.lastEventId

def move (py : Builtins) (db : Database) (client : Client) : ClientMove → Option Client
  | .connect =>
      match client.connection with
      | none =>
          (streamRunEvents py db client.runId client.afterSeq client.headerId).map fun stream =>
            { client with connection := some { stream := stream } }
      | some _ => none
  | .stream m =>
      match client.connection with
      | some connection =>
          (connection.stream.move db m).map fun next =>
            { client with connection := some { connection with stream := next } }
      | none => none
  | .receive =>
      match client.connection with
      | some connection =>
          if connection.taken < connection.stream.yielded.length then
            some { client with connection := some { connection with taken := connection.taken + 1 } }
          else none
      | none => none
  | .drop =>
      match client.connection with
      | some _ => some { client with earlier := client.received, connection := none }
      | none => none

end Client

/-- The event log with its callers, the other tables, and one client. -/
structure Followed where
  store : EventStore
  tables : Database
  client : Client

inductive FollowAction where
  | append (action : AppendAction)
  | tables (db : Database)
  | client (m : ClientMove)

namespace Followed

def db (s : Followed) : Database := { s.tables with events := s.store.committed }

def step (c : AppendConfig) (s : Followed) : FollowAction → Option Followed
  | .append action => ((appends c).step s.store action).map fun store => { s with store := store }
  | .tables db => some { s with tables := db }
  | .client m => (s.client.move c.py s.db m).map fun client => { s with client := client }

end Followed

def followed (c : AppendConfig) : Machine Followed FollowAction where
  init s := (appends c).init s.store ∧ s.client.earlier = [] ∧ s.client.connection = none
  step := Followed.step c

namespace Stream

theorem move_keeps {db : Database} {stream next : Stream} {m : StreamMove}
    (moved : stream.move db m = some next) :
    next.runId = stream.runId ∧ next.start = stream.start := by
  cases m with
  | advance =>
      simp only [move, advance] at moved
      split at moved
      next => split at moved <;> cases moved <;> exact ⟨rfl, rfl⟩
      next => cases moved; exact ⟨rfl, rfl⟩
      next => cases moved; exact ⟨rfl, rfl⟩
      next => split at moved <;> cases moved <;> exact ⟨rfl, rfl⟩
      next => contradiction
  | disconnect =>
      simp only [move] at moved
      split at moved
      next => contradiction
      next => cases moved; exact ⟨rfl, rfl⟩

end Stream

namespace Client

/-- The closed connections have brought what comes first behind the start, and the open one
starts behind it. -/
structure Keeps (py : Builtins) (db : Database) (client : Client) : Prop where
  earlier : client.earlier <+: after db.events client.runId (client.start py)
  connection : ∀ connection, client.connection = some connection →
    connection.stream.runId = client.runId ∧
      connection.stream.start = reached (client.start py) client.earlier ∧
      connection.stream.Tails db

section Moves
variable {py : Builtins} {db db' : Database} {client next : Client} {m : ClientMove}

theorem Keeps.grow (keeps : Keeps py db client) (grown : db.events <+: db'.events) :
    Keeps py db' client where
  earlier := keeps.earlier.trans (after_growing grown)
  connection connection found := by
    obtain ⟨id, start, tails⟩ := keeps.connection connection found
    exact ⟨id, start, tails.grow grown⟩

theorem Keeps.received (keeps : Keeps py db client) (sequential : Sequential db.events) :
    client.received <+: after db.events client.runId (client.start py) := by
  unfold Client.received
  split
  next connection found =>
    obtain ⟨id, start, tails⟩ := keeps.connection connection found
    have yielded := tails.follows.handed
    rw [id, start] at yielded
    rw [sequential.after_reached keeps.earlier, List.prefix_append_right_inj]
    exact (List.take_prefix _ _).trans yielded
  next =>
    rw [List.append_nil]
    exact keeps.earlier

/-- A connection starts at the last id received. -/
theorem startCursor_headerId (py : Builtins) (client : Client) :
    startCursor py client.afterSeq client.headerId = reached (client.start py) client.received := by
  unfold headerId reached
  split
  next row last => simp [startCursor, EventRow.eventId, py.parseInt_repr, last]
  next none => simp [start, none]

theorem Keeps.move (keeps : Keeps py db client) (sequential : Sequential db.events)
    (moved : client.move py db m = some next) : Keeps py db next := by
  cases m with
  | connect =>
      simp only [Client.move] at moved
      split at moved
      next closed =>
        obtain ⟨stream, opened, rfl⟩ := Option.map_eq_some_iff.mp moved
        refine ⟨keeps.earlier, fun connection found => ?_⟩
        cases found
        have tails := Stream.Tails.opened opened
        simp only [streamRunEvents, Option.ite_none_right_eq_some, Option.some.injEq] at opened
        obtain ⟨_, rfl⟩ := opened
        refine ⟨rfl, ?_, tails⟩
        have all : client.received = client.earlier := by
          simp [Client.received, closed]
        rw [← all]
        exact startCursor_headerId py client
      next => contradiction
  | stream m =>
      simp only [Client.move] at moved
      split at moved
      next connection found =>
        obtain ⟨stream, advanced, rfl⟩ := Option.map_eq_some_iff.mp moved
        obtain ⟨id, start, tails⟩ := keeps.connection connection found
        refine ⟨keeps.earlier, fun after found' => ?_⟩
        cases found'
        obtain ⟨sameId, sameStart⟩ := Stream.move_keeps advanced
        exact ⟨sameId.trans id, sameStart.trans start, tails.move sequential advanced⟩
      next => contradiction
  | receive =>
      simp only [Client.move] at moved
      split at moved
      next connection found =>
        split at moved
        next =>
          cases moved
          refine ⟨keeps.earlier, fun after found' => ?_⟩
          cases found'
          exact keeps.connection connection found
        next => contradiction
      next => contradiction
  | drop =>
      have all := keeps.received sequential
      simp only [Client.move] at moved
      split at moved
      next => cases moved; exact ⟨all, fun _ found => by contradiction⟩
      next => contradiction

end Moves
end Client

structure Followed.Kept (c : AppendConfig) (s : Followed) : Prop where
  serial : s.store.Serial c
  client : s.client.Keeps c.py s.db

theorem kept_inductive (c : AppendConfig) : Inductive (followed c) anyStep (Followed.Kept c) where
  init s first := by
    obtain ⟨start, none, closed⟩ := first
    refine ⟨(EventStore.serial_inductive c).init _ start, ?_, ?_⟩
    · rw [none]
      exact List.nil_prefix
    · simp [closed]
  step s action t kept _ stepped := by
    cases action with
    | append action =>
        obtain ⟨store, moved, rfl⟩ := Option.map_eq_some_iff.mp stepped
        have step := EventStore.step_sound moved
        exact ⟨kept.serial.step step, kept.client.grow (kept.serial.grows step)⟩
    | tables db =>
        cases stepped
        exact ⟨kept.serial, kept.client.grow List.prefix_rfl⟩
    | client m =>
        obtain ⟨client, moved, rfl⟩ := Option.map_eq_some_iff.mp stepped
        exact ⟨kept.serial, kept.client.move kept.serial.sequential moved⟩

/-- Over all its connections a client receives the stored events of its run behind the starting
cursor, in their order, each once, and none is left out up to the last id it has received. -/
theorem events_delivered_once (c : AppendConfig) {s : Followed}
    (reached' : Reachable (followed c) anyStep s) :
    s.client.received.Pairwise (fun a b => a.seq < b.seq) ∧
      (s.client.received.map EventRow.seq).Nodup ∧
      (∀ row ∈ s.client.received, row ∈ s.store.committed ∧ row.runId = s.client.runId ∧
        s.client.start c.py < row.seq) ∧
      ∀ row ∈ s.store.committed, row.runId = s.client.runId → s.client.start c.py < row.seq →
        (∃ last, s.client.received.getLast? = some last ∧ row.seq ≤ last.seq) →
        row ∈ s.client.received := by
  have kept := (kept_inductive c).reachable reached'
  have sequential : Sequential s.store.committed := kept.serial.sequential
  have handed : s.client.received <+:
      after s.store.committed s.client.runId (s.client.start c.py) :=
    kept.client.received sequential
  have upward := (sequential.after_upward _ _).sublist handed.sublist
  refine ⟨upward, ?_, fun row member => ?_, fun row stored own behind within => ?_⟩
  · exact List.pairwise_map.mpr (upward.imp Nat.ne_of_lt)
  · exact mem_after.mp (handed.subset member)
  · obtain ⟨last, found, within⟩ := within
    refine sequential.mem_of_le_reached handed stored own behind ?_
    simpa [reached, found] using within

section Sample

/-- Two events are stored. The client receives the first one, loses the second with its
connection, and comes back for it. -/
def sampleFollow : List FollowAction :=
  .tables (Database.empty.createRun
      ⟨sampleRun, "support", ⟨"support", [], [], "START", "END"⟩, [], "hello"⟩ "job" 0) ::
    (.call sampleRun [sampleEvent .runStarted, sampleEvent .runCompleted] ::
      List.replicate 5 (.advance 0)).map FollowAction.append ++
    [.client .connect] ++ List.replicate 3 (.client (.stream .advance)) ++
    [.client .receive, .client .drop, .client .connect] ++
    List.replicate 2 (.client (.stream .advance)) ++ [.client .receive]

def sampleFollowed : Followed :=
  ⟨⟨[], []⟩, .empty, { runId := sampleRun, afterSeq := -1 }⟩

theorem lost_event_delivered :
    ∃ s : Followed, Reachable (followed sampleAppends) anyStep s ∧
      s.client.received.map EventRow.seq = [0, 1] ∧
      s.client.received.Pairwise fun a b => a.seq < b.seq := by
  obtain ⟨s, run, received⟩ :=
    Run.of_test (M := followed sampleAppends) sampleFollowed sampleFollow
      (fun s => s.client.received.map EventRow.seq = [0, 1]) (by decide)
  have reached : Reachable (followed sampleAppends) anyStep s :=
    ⟨sampleFollowed, sampleFollow, ⟨rfl, rfl, rfl⟩, run⟩
  exact ⟨s, reached, received, (events_delivered_once sampleAppends reached).1⟩

end Sample
end AgentRuntime
