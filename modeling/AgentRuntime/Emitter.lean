import AgentRuntime.Library.Locks
import AgentRuntime.Library.Machines
import AgentRuntime.Events

/-! The emitter of an attempt. Each event it emits is stored by a task of its own behind the lock
of the emitter, while the emission goes on and others append to the same log. -/
namespace AgentRuntime
open Machines Logs Locks

/-- An event as `emit` returns it, with the number that its emitter gave it. -/
structure EmittedEvent where
  seq : Nat
  event : RuntimeEvent

/-- What comes of an `append_many`. The connection may be lost when the commit took effect. -/
inductive AppendResult where
  | returned
  | raised
  | raisedAfterCommit
  deriving DecidableEq

def AppendResult.commits (result : AppendResult) : Bool := result ≠ .raised

def AppendResult.raises (result : AppendResult) : Bool := result ≠ .returned

structure DurableEventEmitter where
  events : List EmittedEvent := []
  seq : Nat := 0
  tasks : Lock EmittedEvent AppendResult := {}

/-- What awaiting all of several tasks gives. -/
inductive Gathered where
  | returned
  | raised
  deriving DecidableEq

namespace DurableEventEmitter

def emit (emitter : DurableEventEmitter) (type : EventType) (id : RunId) (node : Option NodeId)
    (payload : Option Dict) : DurableEventEmitter :=
  let event : EmittedEvent := ⟨emitter.seq, ⟨type, id, node, payload.getD []⟩⟩
  { events := emitter.events ++ [event]
    seq := emitter.seq + 1
    tasks := emitter.tasks.create event }

/-- The drain that awaits the first `count` tasks. `gather` raises with the first task that does,
and leaves the others to go on. -/
def drain (emitter : DurableEventEmitter) (count : Nat) : Option Gathered :=
  let settled := emitter.tasks.settled.take count
  if settled.any fun task => task.2.raises then some .raised
  else if count ≤ settled.length then some .returned
  else none

end DurableEventEmitter

/-- The log of all runs. A row of the emitter is tagged with the event it was inserted for. -/
structure EmitterState where
  emitter : DurableEventEmitter := {}
  log : List (Tagged EventRow (Option EmittedEvent)) := []

inductive EmitterAction where
  | emit (type : EventType) (id : RunId) (node : Option NodeId) (payload : Option Dict)
  | start
  | wake
  | append (result : AppendResult)
  | other (id : RunId) (events : List RuntimeEvent)

namespace EmitterState

/-- `append_many` on the tagged log. -/
def appendMany (py : Builtins) (s : EmitterState) (id : RunId) (events : List RuntimeEvent)
    (source : Option EmittedEvent) : List (Tagged EventRow (Option EmittedEvent)) :=
  insertAll s.log ((eventRows py id events (next s.log id)).map fun row => ⟨row, source⟩)

def setTasks (s : EmitterState) (tasks : Lock EmittedEvent AppendResult) : EmitterState :=
  { s with emitter := { s.emitter with tasks := tasks } }

def step (py : Builtins) (s : EmitterState) : EmitterAction → Option EmitterState
  | .emit type id node payload => some { s with emitter := s.emitter.emit type id node payload }
  | .start => s.emitter.tasks.start.map s.setTasks
  | .wake => s.emitter.tasks.wake.map s.setTasks
  | .append result =>
      match s.emitter.tasks.holder with
      | some emitted =>
          let after := s.setTasks (s.emitter.tasks.release emitted result)
          if result.commits then
            let event := emitted.event
            some { after with log := s.appendMany py event.runId [event] (some emitted) }
          else some after
      | none => none
  | .other id events => some { s with log := s.appendMany py id events none }

end EmitterState

def emitting (py : Builtins) : Machine EmitterState EmitterAction where
  init s := s = {}
  step := EmitterState.step py

/-- A non-terminal event of the run. -/
def EmittedEvent.progress (id : RunId) (emitted : EmittedEvent) : Bool :=
  emitted.event.runId = id && !emitted.event.type.terminal

namespace EmitterState

/-- The non-terminal events of the run that the emitter emitted. -/
def emitted (s : EmitterState) (id : RunId) : List EmittedEvent :=
  s.emitter.events.filter (·.progress id)

/-- Those that are stored, in the order of the log. -/
def stored (s : EmitterState) (id : RunId) : List EmittedEvent :=
  (s.log.filter fun entry => owner entry = id && !final entry).filterMap Tagged.tag

/-- Those whose own append took effect, in the order in which they held the lock. -/
def appended (s : EmitterState) (id : RunId) : List EmittedEvent :=
  ((s.emitter.tasks.settled.filter fun task => task.2.commits).map Prod.fst).filter (·.progress id)

/-- The tagged log is the log of the event repository. -/
theorem appendMany_rows (py : Builtins) (s : EmitterState) (db : Database) (id : RunId)
    (events : List RuntimeEvent) (source : Option EmittedEvent)
    (same : s.log.map Tagged.row = db.events) :
    (s.appendMany py id events source).map Tagged.row = (db.appendMany py id events).events := by
  rw [appendMany, insertAll_tagged, same, ← next_tagged, same, List.map_map]
  simp [Database.appendMany, Database.nextSeq, Function.comp_def]

structure Persisting (py : Builtins) (s : EmitterState) : Prop where
  tasks : s.emitter.tasks.tasks = s.emitter.events
  sequential : Sequential s.log
  faithful : ∀ entry ∈ s.log, ∀ e, entry.tag = some e →
    entry.row = e.event.row py e.event.runId entry.row.seq
  stored : ∀ id, s.stored id = s.appended id

section Steps
variable {py : Builtins} {s t : EmitterState}

theorem appendMany_sequential (sequential : Sequential s.log) (id : RunId)
    (events : List RuntimeEvent) (source : Option EmittedEvent) :
    Sequential (s.appendMany py id events source) := by
  have batch := (eventRows_batch py id events (next s.log id)).tagged source
  exact sequential.insertAll batch (.of_next batch)

theorem Persisting.other (persisting : s.Persisting py) (id : RunId)
    (events : List RuntimeEvent) :
    ({ s with log := s.appendMany py id events none } : EmitterState).Persisting py := by
  obtain ⟨kept, whole, sub⟩ := insertAll_append s.log
    ((eventRows py id events (next s.log id)).map fun row => Tagged.mk row none)
  have untagged : ∀ entry ∈ kept, entry.tag = none := by
    intro entry member
    obtain ⟨row, _, same⟩ := List.mem_map.mp (sub.subset member)
    rw [← same]
  refine ⟨persisting.tasks, appendMany_sequential persisting.sequential id events none, ?_, ?_⟩
  · intro entry member e tagged
    rw [appendMany, whole] at member
    rcases List.mem_append.mp member with before | new
    · exact persisting.faithful entry before e tagged
    · rw [untagged entry new] at tagged
      contradiction
  · intro run
    have none : (kept.filter fun entry => owner entry = run && !final entry).filterMap Tagged.tag =
        [] := by
      refine List.filterMap_eq_nil_iff.mpr fun entry member => ?_
      exact untagged entry (List.mem_filter.mp member).1
    have same : s.stored run = s.appended run := persisting.stored run
    rw [EmitterState.stored, appendMany, whole, List.filter_append, List.filterMap_append, none,
      List.append_nil]
    exact same

/-- Behind the rows of its run, a progress event is stored, and in the last place. -/
theorem stored_append (emitted : EmittedEvent) (id : RunId) :
    let event := emitted.event
    ((s.appendMany py event.runId [event] (some emitted)).filter fun entry =>
        owner entry = id && !final entry).filterMap Tagged.tag =
      s.stored id ++ if emitted.progress id then [emitted] else [] := by
  intro event
  let entry : Tagged EventRow (Option EmittedEvent) :=
    ⟨event.row py event.runId (next s.log event.runId), some emitted⟩
  have behind : ∀ other ∈ s.log, owner other = owner entry → number other < number entry :=
    fun other member own => number_lt_next member own
  have whole : s.appendMany py event.runId [event] (some emitted) = insert s.log entry := rfl
  rw [whole]
  have counts : (decide (owner entry = id) && !final entry) = emitted.progress id := rfl
  rcases insert_behind behind with ⟨appended, _⟩ | ⟨dropped, terminal, _⟩
  · rw [appended, List.filter_append, List.filterMap_append, EmitterState.stored,
      List.filter_singleton, counts]
    cases emitted.progress id <;> rfl
  · rw [terminal, Bool.not_true, Bool.and_false] at counts
    rw [dropped, ← counts, EmitterState.stored]
    simp

theorem appended_release (emitted : EmittedEvent) (result : AppendResult) (id : RunId)
    (settled : t.emitter.tasks.settled = s.emitter.tasks.settled ++ [(emitted, result)]) :
    t.appended id =
      s.appended id ++ if result.commits && emitted.progress id then [emitted] else [] := by
  rw [appended, appended, settled, List.filter_append, List.map_append, List.filter_append,
    List.filter_singleton]
  cases result.commits with
  | true => simp [List.filter_singleton]
  | false => simp

theorem Persisting.append (persisting : s.Persisting py) {emitted : EmittedEvent}
    (holds : s.emitter.tasks.holder = some emitted) {result : AppendResult}
    (stepped : s.step py (.append result) = some t) : t.Persisting py := by
  have tasks := (Lock.tasks_release result holds).trans persisting.tasks
  simp only [step, holds] at stepped
  split at stepped
  next commits =>
    cases stepped
    refine ⟨tasks, appendMany_sequential persisting.sequential _ _ _, ?_, fun id => ?_⟩
    · intro entry member e tagged
      rcases mem_insert member with before | new
      · exact persisting.faithful entry before e tagged
      · subst new
        cases tagged
        rfl
    · rw [appended_release emitted result id rfl, commits, Bool.true_and, ← persisting.stored id]
      exact stored_append emitted id
  next lost =>
    cases stepped
    refine ⟨tasks, persisting.sequential, persisting.faithful, fun id => ?_⟩
    rw [appended_release emitted result id rfl, Bool.eq_false_iff.mpr lost, Bool.false_and]
    exact (persisting.stored id).trans (List.append_nil _).symm

/-- A move of the lock that settles no task. -/
theorem Persisting.setTasks (persisting : s.Persisting py)
    {tasks : Lock EmittedEvent AppendResult} (same : tasks.tasks = s.emitter.tasks.tasks)
    (settled : tasks.settled = s.emitter.tasks.settled) : (s.setTasks tasks).Persisting py where
  tasks := same.trans persisting.tasks
  sequential := persisting.sequential
  faithful := persisting.faithful
  stored id := by
    have appended : (s.setTasks tasks).appended id = s.appended id := by
      rw [appended, appended, EmitterState.setTasks, settled]
    rw [appended]
    exact persisting.stored id

theorem persisting_inductive (py : Builtins) :
    Inductive (emitting py) anyStep (Persisting py) where
  init s first := by
    subst first
    exact ⟨rfl, ⟨.nil, fun k => Nat.zero_le _⟩, by simp, fun id => rfl⟩
  step s action t persisting _ stepped := by
    cases action with
    | emit type id node payload =>
        cases stepped
        refine ⟨?_, persisting.sequential, persisting.faithful, persisting.stored⟩
        simp only [DurableEventEmitter.emit]
        rw [Lock.tasks_create, persisting.tasks]
    | start =>
        obtain ⟨tasks, started, rfl⟩ := Option.map_eq_some_iff.mp stepped
        exact persisting.setTasks (Lock.tasks_start started) (Lock.settled_start started)
    | wake =>
        obtain ⟨tasks, woken, rfl⟩ := Option.map_eq_some_iff.mp stepped
        exact persisting.setTasks (Lock.tasks_wake woken) (Lock.settled_wake woken)
    | append result =>
        cases holds : s.emitter.tasks.holder with
        | none => simp [emitting, step, holds] at stepped
        | some emitted => exact persisting.append holds stepped
    | other id events =>
        cases stepped
        exact persisting.other id events

theorem Persisting.oldest (persisting : s.Persisting py) :
    s.emitter.tasks.settled.map Prod.fst <+: s.emitter.events := by
  rw [← persisting.tasks]
  exact s.emitter.tasks.settled_prefix

end Steps
end EmitterState

/-- A drain that returns has seen each event it awaits stored, if it is a progress event. -/
theorem drained_stored (py : Builtins) {s : EmitterState}
    (reached : Reachable (emitting py) anyStep s) {count : Nat}
    (drained : s.emitter.drain count = some .returned) (id : RunId) :
    (s.emitter.events.take count).filter (·.progress id) <+: s.stored id := by
  have persisting := (EmitterState.persisting_inductive py).reachable reached
  let settled := s.emitter.tasks.settled
  have raised : ∀ task ∈ settled.take count, task.2.commits = true := by
    intro task member
    by_contra lost
    have raises : task.2.raises = true := by
      cases result : task.2 <;> simp_all [AppendResult.commits, AppendResult.raises]
    have found : (settled.take count).any (fun task => task.2.raises) = true :=
      List.any_eq_true.mpr ⟨task, member, raises⟩
    simp [DurableEventEmitter.drain, settled, found] at drained
  have whole : count ≤ settled.length := by
    simp only [DurableEventEmitter.drain] at drained
    split at drained
    · contradiction
    · split at drained
      next enough => exact enough.trans (List.length_take_le' _ _)
      next => contradiction
  have first : s.emitter.events.take count = (settled.take count).map Prod.fst := by
    obtain ⟨later, split⟩ := persisting.oldest
    rw [← split, List.take_append_of_le_length (by simpa using whole), List.map_take]
  rw [first, persisting.stored id, EmitterState.appended]
  have kept : settled.take count <+: settled.filter fun task => task.2.commits := by
    have initial := (List.take_prefix count settled).filter fun task => task.2.commits
    rwa [List.filter_eq_self.mpr raised] at initial
  exact (kept.map Prod.fst).filter _


/-- The stored progress events are in the order of their numbers those of a settled prefix whose
own append took effect: all of it where no append failed. -/
theorem stored_events_settled (py : Builtins) {s : EmitterState}
    (reached : Reachable (emitting py) anyStep s) (id : RunId) :
    Sequential s.log ∧ s.stored id = s.appended id ∧
      s.emitter.tasks.settled.map Prod.fst <+: s.emitter.events ∧
      (∀ entry ∈ s.log, ∀ e, entry.tag = some e →
        entry.row = e.event.row py e.event.runId entry.row.seq) ∧
      ((∀ task ∈ s.emitter.tasks.settled, task.2.commits = true) →
        s.stored id <+: s.emitted id) := by
  have persisting := (EmitterState.persisting_inductive py).reachable reached
  have oldest := persisting.oldest
  refine ⟨persisting.sequential, persisting.stored id, oldest, persisting.faithful, ?_⟩
  intro committed
  rw [persisting.stored id, EmitterState.appended, List.filter_eq_self.mpr committed]
  exact oldest.filter _

section Sample

def sampleEmit (type : EventType) : EmitterAction := .emit type sampleRun none none

/-- Three events; the append of the second fails. -/
def sampleGap : List EmitterAction :=
  [sampleEmit .nodeStarted, .start, sampleEmit .nodeCompleted, sampleEmit .nodeStarted, .start,
    .start, .append .returned, .wake, .append .raised, .wake, .append .returned]

/-- The first and the third event are stored, as theirs are the appends that took effect. -/
theorem failed_event_missing :
    ∃ s : EmitterState, s.stored sampleRun = s.appended sampleRun ∧
      (s.stored sampleRun).map EmittedEvent.seq = [0, 2] ∧
      (s.emitted sampleRun).map EmittedEvent.seq = [0, 1, 2] := by
  obtain ⟨s, run, gap⟩ := Run.of_test (M := emitting .onEmpty) {} sampleGap
    (fun s => (s.stored sampleRun).map EmittedEvent.seq = [0, 2] ∧
      (s.emitted sampleRun).map EmittedEvent.seq = [0, 1, 2]) (by decide)
  exact ⟨s, (stored_events_settled .onEmpty ⟨_, _, rfl, run⟩ sampleRun).2.1, gap⟩

/-- A later event is stored although the append of an earlier one failed. -/
theorem stored_behind_failed :
    ¬ ∀ s, Reachable (emitting .onEmpty) anyStep s → ∀ id, s.stored id <+: s.emitted id := by
  intro ordered
  obtain ⟨s, run, stored, emitted⟩ := Run.of_test (M := emitting .onEmpty) {} sampleGap
    (fun s => (s.stored sampleRun).map EmittedEvent.seq = [0, 2] ∧
      (s.emitted sampleRun).map EmittedEvent.seq = [0, 1, 2]) (by decide)
  have initial := (ordered s ⟨_, _, rfl, run⟩ sampleRun).map EmittedEvent.seq
  rw [stored, emitted] at initial
  exact absurd initial (by decide)

end Sample
end AgentRuntime
