import AgentRuntime.Streaming
import AgentRuntime.Timeline

/-! Streams beside the transactions of the workers and the API. The event of a terminal status
is stored in a transaction of its own, and a generator that finds the status first returns
without it. -/
namespace AgentRuntime
open Machines Tables Logs

structure Watched where
  sys : Sys
  streams : List Stream

inductive WatchAction where
  | system (action : Action)
  | connect (id : RunId) (afterSeq : Int) (headerId : Option String)
  | stream (position : Nat) (m : StreamMove)

namespace Watched

def step (c : Config) (s : Watched) : WatchAction → Option Watched
  | .system action => ((system c).step s.sys action).map fun sys => { s with sys := sys }
  | .connect id afterSeq headerId =>
      (streamRunEvents c.py s.sys.db id afterSeq headerId).map fun stream =>
        { s with streams := s.streams ++ [stream] }
  | .stream position m =>
      match s.streams[position]? with
      | some stream =>
          (stream.move s.sys.db m).map fun next =>
            { s with streams := s.streams.set position next }
      | none => none

/-- In the step the generator of the stream returns to a client that is still connected, and
the run has ended. -/
structure Returns (s t : Watched) (position : Nat) (stream : Stream) : Prop where
  running : ∃ before, s.streams[position]? = some before ∧ ∀ how, before.phase ≠ .returned how
  returned : t.streams[position]? = some stream ∧
    ∃ how, stream.phase = .returned how ∧ how ≠ .disconnected
  ended : t.sys.db.Ended stream.runId

end Watched

def watched (c : Config) : Machine Watched WatchAction where
  init s := (system c).init s.sys ∧ s.streams = []
  step := Watched.step c

namespace Stream

/-- The last event delivered is the terminal event of the run. -/
def EndsOn (db : Database) (stream : Stream) : Prop :=
  ∃ row ∈ finals db.events stream.runId, stream.yielded.getLast? = some row

/-- The terminal event of the run is delivered, or stands at or before the cursor that the
client came with. -/
def Reported (db : Database) (stream : Stream) : Prop :=
  stream.EndsOn db ∨ ∃ row ∈ finals db.events stream.runId, row.seq ≤ stream.start

end Stream

def endsOnTerminal (c : Config) : Guard Watched WatchAction := fun s action =>
  ∀ t position stream, (watched c).step s action = some t → s.Returns t position stream →
    stream.EndsOn t.sys.db

def reportsTerminal (c : Config) : Guard Watched WatchAction := fun s action =>
  ∀ t position stream, (watched c).step s action = some t → s.Returns t position stream →
    stream.Reported t.sys.db

/-- The action reads the status of the ended run of a stream, whose last read for events
found none. -/
structure Watched.ChecksEnded (s : Watched) (action : WatchAction) (stream : Stream) : Prop where
  action_eq : ∃ position, action = .stream position .advance ∧ s.streams[position]? = some stream
  checking : stream.phase = .checking
  ended : s.sys.db.Ended stream.runId

def checksLive : Guard Watched WatchAction := fun s action => ∀ stream, ¬ s.ChecksEnded action stream

/-- A run is found to have ended only behind its terminal event. -/
def checksBehindTerminal : Guard Watched WatchAction := fun s action =>
  ∀ stream, s.ChecksEnded action stream →
    ∃ row ∈ finals s.sys.db.events stream.runId, row.seq ≤ stream.cursor

section Transactions
variable {db : Database}

theorem Tx.sequential (py : Builtins) (sequential : Sequential db.events) (tx : Tx) :
    Sequential (tx.apply py db).events := by
  rcases tx.events_cases py db with same | ⟨id, events, rfl⟩
  · rwa [same]
  · have batch := eventRows_batch py id events (db.nextSeq id)
    exact sequential.insertAll batch (.of_next batch)

end Transactions

/-- The log is sequential, and every stream keeps to it. -/
structure Watched.Tailed (s : Watched) : Prop where
  sequential : Sequential s.sys.db.events
  streams : ∀ stream ∈ s.streams, stream.Tails s.sys.db

theorem tailed_inductive (c : Config) : Inductive (watched c) anyStep Watched.Tailed where
  init s first := by
    obtain ⟨⟨clock, start⟩, none⟩ := first
    refine ⟨?_, by simp [none]⟩
    rw [start]
    exact ⟨.nil, fun k => Nat.zero_le _⟩
  step s action t tailed _ stepped := by
    cases action with
    | system action =>
        obtain ⟨sys, moved, rfl⟩ := Option.map_eq_some_iff.mp stepped
        obtain ⟨tx, commits⟩ := (Sys.step_sound moved).commits
        have grown : s.sys.db.events <+: sys.db.events := by
          rw [commits.db]
          exact tx.events_prefix c.py s.sys.db
        refine ⟨?_, fun stream member => (tailed.streams stream member).grow grown⟩
        rw [commits.db]
        exact tx.sequential c.py tailed.sequential
    | connect id afterSeq headerId =>
        obtain ⟨stream, opened, rfl⟩ := Option.map_eq_some_iff.mp stepped
        refine ⟨tailed.sequential, fun other member => ?_⟩
        rcases List.mem_append.mp member with before | last
        · exact tailed.streams other before
        · rw [List.mem_singleton.mp last]
          exact .opened opened
    | stream position m =>
        simp only [watched, Watched.step] at stepped
        split at stepped
        next stream found =>
          obtain ⟨next, moved, rfl⟩ := Option.map_eq_some_iff.mp stepped
          refine ⟨tailed.sequential, fun other member => ?_⟩
          rcases List.mem_or_eq_of_mem_set member with before | rfl
          · exact tailed.streams other before
          · exact (tailed.streams stream (List.mem_of_getElem? found)).move tailed.sequential moved
        next => contradiction

section Returning
variable {c : Config} {db : Database} {s t : Watched} {action : WatchAction} {position : Nat}
  {stream next : Stream} {m : StreamMove} {how : StreamEnd}

/-- A generator returns behind a terminal event or from the status check. -/
theorem Stream.returns_cases (moved : stream.move db m = some next)
    (running : ∀ how, stream.phase ≠ .returned how) (returned : next.phase = .returned how)
    (connected : how ≠ .disconnected) :
    m = .advance ∧
      ((stream.phase = .checking ∧ next = { stream with phase := .returned .terminalOrPaused }) ∨
        ∃ event pending, stream.phase = .delivering (event :: pending) ∧
          event.type.terminal = true ∧ next = stream.deliver event pending) := by
  cases m with
  | disconnect =>
      simp only [Stream.move] at moved
      cases moved
      cases returned
      contradiction
  | advance =>
      refine ⟨rfl, ?_⟩
      simp only [Stream.move, Stream.advance] at moved
      split at moved
      next => split at moved <;> cases moved <;> contradiction
      next event pending phase =>
        cases moved
        refine .inr ⟨event, pending, phase, ?_, rfl⟩
        simp only [Stream.deliver] at returned
        split at returned
        next ends => exact ends
        next => split at returned <;> contradiction
      next => cases moved; contradiction
      next phase =>
        split at moved
        next => cases moved; exact .inl ⟨phase, rfl⟩
        next => cases moved; contradiction
      next how' phase => exact absurd phase (running how')

/-- The only step in which a generator returns is one of its own. -/
theorem Watched.Returns.cases (returns : s.Returns t position next)
    (stepped : (watched c).step s action = some t) :
    action = .stream position .advance ∧ t.sys = s.sys ∧
      ∃ stream, s.streams[position]? = some stream ∧ next.runId = stream.runId ∧
        ((stream.phase = .checking ∧ next = { stream with phase := .returned .terminalOrPaused }) ∨
          ∃ event pending, stream.phase = .delivering (event :: pending) ∧
            event.type.terminal = true ∧ next = stream.deliver event pending) := by
  obtain ⟨⟨before, found, running⟩, ⟨after, how, phase, connected⟩, _⟩ := returns
  have same (kept : t.streams[position]? = s.streams[position]?) : False := by
    rw [kept, found] at after
    cases after
    exact running how phase
  cases action with
  | system action =>
      obtain ⟨sys, _, rfl⟩ := Option.map_eq_some_iff.mp stepped
      exact (same rfl).elim
  | connect id afterSeq headerId =>
      obtain ⟨stream, _, rfl⟩ := Option.map_eq_some_iff.mp stepped
      have inside : position < s.streams.length := (List.getElem?_eq_some_iff.mp found).1
      exact (same (List.getElem?_append_left inside)).elim
  | stream position' m =>
      simp only [watched, Watched.step] at stepped
      split at stepped
      next stream found' =>
        obtain ⟨moved', moved, rfl⟩ := Option.map_eq_some_iff.mp stepped
        by_cases own : position' = position
        · subst own
          rw [found] at found'
          cases found'
          have inside : position' < s.streams.length := (List.getElem?_eq_some_iff.mp found).1
          rw [List.getElem?_set_self inside] at after
          cases after
          obtain ⟨rfl, cases'⟩ := Stream.returns_cases moved running phase connected
          refine ⟨rfl, rfl, before, found, ?_, cases'⟩
          rcases cases' with ⟨_, rfl⟩ | ⟨_, _, _, _, rfl⟩ <;> rfl
        · exact (same (List.getElem?_set_ne own)).elim
      next => contradiction

theorem Stream.Tails.endsOn (tails : stream.Tails db) {event : EventRow} {pending : List EventRow}
    (phase : stream.phase = .delivering (event :: pending)) (ends : event.type.terminal = true) :
    (stream.deliver event pending).EndsOn db := by
  have follows := tails.follows
  simp only [Stream.pending, phase] at follows
  have member : event ∈ after db.events stream.runId stream.start :=
    follows.ahead.subset (by simp)
  obtain ⟨stored, own, _⟩ := mem_after.mp member
  exact ⟨event, mem_finals.mpr ⟨stored, own, ends⟩, by simp [Stream.deliver]⟩

/-- At a status check no terminal event has been delivered. -/
theorem Stream.Tails.silent_check (tails : stream.Tails db) (checking : stream.phase = .checking) :
    ¬ Stream.EndsOn db { stream with phase := .returned .terminalOrPaused } := by
  rintro ⟨row, final, last⟩
  have quiet := tails.silent (.inl (by simp [checking])) row (List.mem_of_getLast? last)
  rw [← final_event, (mem_finals.mp final).2.2] at quiet
  contradiction

/-- Up to the cursor of a status check, a terminal event stands at or before the start. -/
theorem Stream.Tails.before_start (tails : stream.Tails db) (sequential : Sequential db.events)
    (checking : stream.phase = .checking) {row : EventRow}
    (final : row ∈ finals db.events stream.runId) :
    row.seq ≤ stream.cursor ↔ row.seq ≤ stream.start := by
  obtain ⟨stored, own, ends⟩ := mem_finals.mp final
  constructor
  · intro within
    by_contra behind
    have delivered := tails.follows.mem_yielded sequential stored own (not_le.mp behind) within
    have quiet := tails.silent (.inl (by simp [checking])) row delivered
    rw [← final_event, ends] at quiet
    contradiction
  · exact fun within => Int.le_trans within tails.follows.start_le

/-- A status check that finds the run ended is a return of the generator. -/
theorem Watched.ChecksEnded.returns (checks : s.ChecksEnded action stream)
    (stepped : (watched c).step s action = some t) :
    t.sys = s.sys ∧ ∃ position,
      s.Returns t position { stream with phase := .returned .terminalOrPaused } := by
  obtain ⟨⟨position, rfl, found⟩, checking, ended⟩ := checks
  obtain ⟨status, terminal, run, stored, rfl⟩ := ended
  have ends : s.sys.db.runIsTerminalOrPaused stream.runId = true := by
    simp only [Database.runIsTerminalOrPaused, stored, Option.any_some]
    cases status : run.status <;> simp_all [RunStatus.terminal, RunStatus.terminalOrPaused]
  simp only [watched, Watched.step, found, Stream.move, Stream.advance, checking, ends, if_true,
    Option.map_some, Option.some.injEq] at stepped
  subst stepped
  have inside : position < s.streams.length := (List.getElem?_eq_some_iff.mp found).1
  refine ⟨rfl, position, ⟨stream, found, by simp [checking]⟩, ⟨?_, _, rfl, by simp⟩, ?_⟩
  · exact List.getElem?_set_self inside
  · exact ⟨run.status, terminal, run, stored, rfl⟩

theorem Watched.Tailed.endsOnTerminal_iff (tailed : s.Tailed)
    (stepped : (watched c).step s action = some t) :
    endsOnTerminal c s action ↔ checksLive s action := by
  constructor
  · intro ends stream checks
    obtain ⟨same, position, returns⟩ := checks.returns stepped
    obtain ⟨_, _, found⟩ := checks.action_eq
    have tails := tailed.streams stream (List.mem_of_getElem? found)
    have last := ends t position _ stepped returns
    rw [same] at last
    exact tails.silent_check checks.checking last
  · intro live t' position next stepped' returns
    obtain ⟨rfl, same, stream, found, id, cases'⟩ := returns.cases stepped'
    have tails := tailed.streams stream (List.mem_of_getElem? found)
    rcases cases' with ⟨checking, _⟩ | ⟨event, pending, phase, ends, rfl⟩
    · have ended := returns.ended
      rw [same, id] at ended
      exact absurd ⟨⟨position, rfl, found⟩, checking, ended⟩ (live stream)
    · rw [same]
      exact tails.endsOn phase ends

theorem Watched.Tailed.reportsTerminal_iff (tailed : s.Tailed)
    (stepped : (watched c).step s action = some t) :
    reportsTerminal c s action ↔ checksBehindTerminal s action := by
  constructor
  · intro reports stream checks
    obtain ⟨same, position, returns⟩ := checks.returns stepped
    obtain ⟨_, _, found⟩ := checks.action_eq
    have tails := tailed.streams stream (List.mem_of_getElem? found)
    have reported := reports t position _ stepped returns
    rw [same] at reported
    rcases reported with last | ⟨row, final, before⟩
    · exact absurd last (tails.silent_check checks.checking)
    · exact ⟨row, final, (tails.before_start tailed.sequential checks.checking final).mpr before⟩
  · intro behind t' position next stepped' returns
    obtain ⟨rfl, same, stream, found, id, cases'⟩ := returns.cases stepped'
    have tails := tailed.streams stream (List.mem_of_getElem? found)
    rw [same]
    rcases cases' with ⟨checking, rfl⟩ | ⟨event, pending, phase, ends, rfl⟩
    · have ended := returns.ended
      rw [same] at ended
      obtain ⟨row, final, within⟩ := behind stream ⟨⟨position, rfl, found⟩, checking, ended⟩
      exact .inr ⟨row, final, (tails.before_start tailed.sequential checking final).mp within⟩
    · exact .inl (tails.endsOn phase ends)

end Returning

/-- In a run, every stream that returns on an ended run has reported its end exactly if every
status check that finds the run ended does so behind its terminal event; the terminal event is
the last one delivered exactly if no status check finds the run ended. -/
theorem stream_reports_end_iff (c : Config) {s t : Watched} {actions : List WatchAction}
    (first : (watched c).init s) :
    (Run (watched c) (reportsTerminal c) s actions t ↔
      Run (watched c) checksBehindTerminal s actions t) ∧
      (Run (watched c) (endsOnTerminal c) s actions t ↔
        Run (watched c) checksLive s actions t) := by
  have tailed {u : Watched} (reached : Reachable (watched c) anyStep u) : u.Tailed :=
    (tailed_inductive c).reachable reached
  refine ⟨Run.iff_of_reachable ?_ (.start first), Run.iff_of_reachable ?_ (.start first)⟩
  · intro u action v reached stepped
    exact (tailed reached).reportsTerminal_iff stepped
  · intro u action v reached stepped
    exact (tailed reached).endsOnTerminal_iff stepped

section Sample

def Stream.checks (stream : Stream) : Bool :=
  match stream.phase with
  | .checking => true
  | _ => false

def sampleWatched : Watched := ⟨.start 100, []⟩

/-- A run is created, and its first event stored. -/
def sampleWatch : List WatchAction :=
  [.system ((sampleClaim "w1").headD (.tick 0)), .system (.request (.append 0))]

/-- The generator asks for no status. -/
def eventsOnly (s : Watched) : WatchAction → Bool
  | .stream position .advance => !(s.streams[position]?).any Stream.checks
  | _ => true

theorem checksLive_of_eventsOnly {s : Watched} {action : WatchAction}
    (passed : eventsOnly s action = true) : checksLive s action := by
  rintro stream ⟨⟨position, rfl, found⟩, checking, _⟩
  simp [eventsOnly, found, Stream.checks, checking] at passed

/-- The run is cancelled and `run.cancelled` stored, before a stream replays the log. -/
def sampleReplay : List WatchAction :=
  sampleWatch ++ [.system (.request (.cancelRun sampleRun)), .system (.request (.append 0)),
    .connect sampleRun (-1) none] ++ List.replicate 3 (.stream 0 .advance)

theorem cancelled_stream_ends_on_event :
    ∃ t, Run (watched sampleConfig) (endsOnTerminal sampleConfig) sampleWatched sampleReplay t ∧
      (t.streams[0]?).map (fun stream => stream.yielded.map EventRow.type) =
        some [.modelResolved, .runCancelled] := by
  have checks : Checks (watched sampleConfig) checksLive (fun _ => True) eventsOnly :=
    ⟨fun _ _ _ passed => checksLive_of_eventsOnly passed, fun _ _ _ _ _ _ => trivial⟩
  obtain ⟨t, run, _, delivered⟩ := checks.of_test (s := sampleWatched) trivial sampleReplay
    (fun t => (t.streams[0]?).map (fun stream => stream.yielded.map EventRow.type) =
        some [.modelResolved, .runCancelled])
    (by decide)
  exact ⟨t, (stream_reports_end_iff sampleConfig ⟨⟨100, rfl⟩, rfl⟩).2.mpr run, delivered⟩

/-- A stream has read the only event of a run that is not terminal. The run is cancelled before
the stream asks for its status, and the stream returns with `run.cancelled` undelivered. -/
theorem cancelled_stream_closes_early :
    ¬ ∀ s, Reachable (watched sampleConfig) anyStep s →
      ∀ action, reportsTerminal sampleConfig s action := by
  intro reports
  obtain ⟨s, run, found, cancelled, silent⟩ :=
    Run.of_test (M := watched sampleConfig) sampleWatched
      (sampleWatch ++ .connect sampleRun (-1) none :: List.replicate 3 (.stream 0 .advance) ++
        [.system (.request (.cancelRun sampleRun))])
      (fun s =>
        (s.streams[0]?).any (fun stream => stream.runId = sampleRun && stream.checks) = true ∧
          (s.sys.db.runs.find? sampleRun).map RunRow.status = some .cancelled ∧
          finals s.sys.db.events sampleRun = [])
      (by decide)
  obtain ⟨stream, found, fits⟩ := (Option.any_eq_true _ _).mp found
  simp only [Bool.and_eq_true, decide_eq_true_eq] at fits
  obtain ⟨own, checking⟩ := fits
  have phase : stream.phase = .checking := by
    unfold Stream.checks at checking
    split at checking
    next phase => exact phase
    next => contradiction
  obtain ⟨row, stored, status⟩ := Option.map_eq_some_iff.mp cancelled
  have ended : s.sys.db.Ended stream.runId := by
    rw [own]
    exact .of_find? stored (by rw [status]; rfl)
  obtain ⟨t, stepped⟩ : ∃ t, (watched sampleConfig).step s (.stream 0 .advance) = some t := by
    simp only [watched, Watched.step, found, Stream.move, Stream.advance, phase]
    split <;> exact ⟨_, rfl⟩
  have reached : Reachable (watched sampleConfig) anyStep s := ⟨_, _, ⟨⟨100, rfl⟩, rfl⟩, run⟩
  have tailed := (tailed_inductive sampleConfig).reachable reached
  obtain ⟨event, final, _⟩ := (tailed.reportsTerminal_iff stepped).mp (reports s reached _) stream
    ⟨⟨0, rfl, found⟩, phase, ended⟩
  rw [own, silent] at final
  contradiction

end Sample
end AgentRuntime
