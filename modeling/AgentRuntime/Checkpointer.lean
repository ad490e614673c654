import Mathlib.Data.List.Nodup
import AgentRuntime.Library.Pools

/-! The checkpointers that the executions of one worker process open at a time. The schema of a
connection is set up under its lock and remembered; a call may fail or be cancelled wherever it
waits. -/
namespace AgentRuntime
open Machines Pools

/-- `text.replace(old, new, 1)`. -/
def replaceOnce (pattern value : List Char) : List Char → List Char
  | [] => if pattern.isEmpty then value else []
  | c :: rest =>
      if pattern.isPrefixOf (c :: rest) then value ++ (c :: rest).drop pattern.length
      else c :: replaceOnce pattern value rest

def psycopgConnectionString (sqlalchemyUrl : String) : String :=
  String.ofList (replaceOnce "postgresql+asyncpg://".toList "postgresql://".toList
    sqlalchemyUrl.toList)

/-- The globals of the module: the locks by their number, how many were made, and the connections
whose setup is remembered. The setups that returned are kept beside them. -/
structure SetupGlobals where
  setupLocks : List (String × Nat) := []
  locks : Nat := 0
  setupCompleted : List String := []
  setups : List String := []

inductive OpenPhase where
  | called
  | connected
  | waiting (lock : Nat)
  | setting (lock : Nat)
  | yielded
  | closed
  | raised
  deriving DecidableEq

/-- A call of `postgres_checkpointer`. -/
structure CheckpointerCall where
  databaseUrl : String
  setup : Bool := false
  phase : OpenPhase := .called

inductive OpenChoice where
  | next
  | fail

namespace SetupGlobals
variable (s : SetupGlobals)

def lock? (connection : String) : Option Nat :=
  (s.setupLocks.find? fun entry => entry.1 = connection).map Prod.snd

/-- `_setup_locks.setdefault(connection_string, asyncio.Lock())`, which makes a lock anyway. -/
def setDefault (connection : String) : SetupGlobals × Nat :=
  match s.lock? connection with
  | some lock => ({ s with locks := s.locks + 1 }, lock)
  | none =>
      ({ s with setupLocks := s.setupLocks ++ [(connection, s.locks)], locks := s.locks + 1 },
        s.locks)

/-- `_setup_completed.add(connection_string)` behind the setup. -/
def complete (connection : String) : SetupGlobals :=
  { s with
    setupCompleted :=
      if connection ∈ s.setupCompleted then s.setupCompleted
      else s.setupCompleted ++ [connection]
    setups := s.setups ++ [connection] }

end SetupGlobals

namespace CheckpointerCall
variable (call : CheckpointerCall)

def connection : String := psycopgConnectionString call.databaseUrl

def goto (phase : OpenPhase) : CheckpointerCall := { call with phase }

def held? : Option Nat :=
  match call.phase with
  | .setting lock => some lock
  | _ => none

/-- What the call does up to the next point where it waits. -/
def advance (choice : OpenChoice) (s : SetupGlobals) (others : List CheckpointerCall) :
    Option (SetupGlobals × CheckpointerCall) :=
  match choice, call.phase with
  | .next, .called => some (s, call.goto .connected)
  | .next, .connected =>
      if call.setup && call.connection ∉ s.setupCompleted then
        let (s, lock) := s.setDefault call.connection
        some (s, call.goto (.waiting lock))
      else some (s, call.goto .yielded)
  | .next, .waiting lock =>
      if others.any fun other => other.held? = some lock then none
      else if call.connection ∈ s.setupCompleted then some (s, call.goto .yielded)
      else some (s, call.goto (.setting lock))
  | .next, .setting _ => some (s.complete call.connection, call.goto .yielded)
  | .next, .yielded => some (s, call.goto .closed)
  | _, .closed => none
  | _, .raised => none
  | .fail, _ => some (s, call.goto .raised)

end CheckpointerCall

/-- The calls of one process. -/
def checkpointers : Pool SetupGlobals CheckpointerCall OpenChoice Empty where
  init s := s = {}
  fresh call := call.phase = .called
  advance choice s others call := call.advance choice s others
  around event _ _ := nomatch event

/-- Each connection has one lock of its own, and each setup that returned is remembered. -/
structure SetupGlobals.Sound (s : SetupGlobals) : Prop where
  numbered : ∀ entry ∈ s.setupLocks, entry.2 < s.locks
  own : (s.setupLocks.map Prod.snd).Nodup
  once : s.setups.Nodup
  remembered : s.setupCompleted = s.setups

/-- What holds of a call in its phase. -/
def CheckpointerCall.Steady (s : SetupGlobals) (call : CheckpointerCall) : Prop :=
  match call.phase with
  | .waiting lock => call.setup = true ∧ s.lock? call.connection = some lock
  | .setting lock => call.setup = true ∧ s.lock? call.connection = some lock ∧
      call.connection ∉ s.setups
  | .yielded | .closed => call.setup = true → call.connection ∈ s.setups
  | .called | .connected | .raised => True

/-- Two calls do not hold one lock. -/
def CheckpointerCall.Apart (a b : CheckpointerCall) : Prop :=
  ∀ lock, a.held? = some lock → b.held? ≠ some lock

section Rules
variable {s t : SetupGlobals} {call next : CheckpointerCall} {others : List CheckpointerCall}
  {name other : String} {lock : Nat}

theorem lock?_setDefault (s : SetupGlobals) (name other : String) :
    (s.setDefault name).1.lock? other =
      (s.lock? other).or (if name = other then some (s.setDefault name).2 else none) := by
  unfold SetupGlobals.setDefault
  split
  next lock found =>
    by_cases same : name = other
    · subst same
      change s.lock? name = _
      rw [found, Option.some_or]
    · rw [if_neg same, Option.or_none]
      rfl
  next missing =>
    simp only [SetupGlobals.lock?, List.find?_append, Option.map_or, List.find?_singleton]
    by_cases same : name = other <;> simp [same]

theorem setDefault_sound (sound : s.Sound) : (s.setDefault name).1.Sound := by
  unfold SetupGlobals.setDefault
  split
  next =>
    refine ⟨fun entry member => ?_, sound.own, sound.once, sound.remembered⟩
    exact Nat.lt_succ_of_lt (sound.numbered entry member)
  next =>
    refine ⟨fun entry member => ?_, ?_, sound.once, sound.remembered⟩
    · rcases List.mem_append.mp member with old | new
      · exact Nat.lt_succ_of_lt (sound.numbered entry old)
      · rw [List.mem_singleton.mp new]
        exact Nat.lt_succ_self _
    · rw [List.map_append, List.map_singleton]
      refine List.nodup_append.mpr ⟨sound.own, List.nodup_singleton _, ?_⟩
      intro number member newest fresh same
      obtain ⟨entry, stored, rfl⟩ := List.mem_map.mp member
      rw [List.mem_singleton.mp fresh] at same
      exact Nat.lt_irrefl _ (same ▸ sound.numbered entry stored)

/-- A lock belongs to one connection. -/
theorem SetupGlobals.Sound.names (sound : s.Sound) (first : s.lock? name = some lock)
    (second : s.lock? other = some lock) : name = other := by
  obtain ⟨a, found, rfl⟩ := Option.map_eq_some_iff.mp first
  obtain ⟨b, found', same⟩ := Option.map_eq_some_iff.mp second
  have equal : a = b := List.inj_on_of_nodup_map sound.own (List.mem_of_find?_eq_some found)
    (List.mem_of_find?_eq_some found') same.symm
  have own : a.1 = name := by simpa using List.find?_some found
  have own' : b.1 = other := by simpa using List.find?_some found'
  rw [← own, equal, own']

/-- What another call does to the globals: a lock that is known stays, and what was set up stays
set up, and nothing else is while the lock of its connection is held. -/
structure SetupGlobals.Leads (s t : SetupGlobals) (others : List CheckpointerCall) : Prop where
  sound : t.Sound
  locks : ∀ name lock, s.lock? name = some lock → t.lock? name = some lock
  kept : ∀ name, name ∈ s.setups → name ∈ t.setups
  fresh : ∀ name, name ∈ t.setups → name ∈ s.setups ∨
    ∀ other ∈ others, ∀ lock, s.lock? name = some lock → other.held? ≠ some lock

theorem SetupGlobals.Leads.refl (sound : s.Sound) : s.Leads s others :=
  ⟨sound, fun _ _ found => found, fun _ member => member, fun _ member => .inl member⟩

theorem CheckpointerCall.Steady.undisturbed (steady : call.Steady s) (leads : s.Leads t others)
    (member : call ∈ others) : call.Steady t := by
  unfold CheckpointerCall.Steady at steady ⊢
  split at steady
  next => exact ⟨steady.1, leads.locks _ _ steady.2⟩
  next lock setting =>
    obtain ⟨asked, found, missing⟩ := steady
    refine ⟨asked, leads.locks _ _ found, fun done => ?_⟩
    rcases leads.fresh _ done with before | apart
    · exact missing before
    · refine apart call member lock found ?_
      rw [CheckpointerCall.held?, setting]
  next => exact fun asked => leads.kept _ (steady asked)
  next => exact fun asked => leads.kept _ (steady asked)
  next => trivial
  next => trivial
  next => trivial

theorem Apart.idle {phase : OpenPhase} (free : ∀ lock, phase ≠ .setting lock) :
    ∀ other ∈ others, (call.goto phase).Apart other := by
  intro other _ lock held
  cases phase with
  | setting lock => exact absurd rfl (free lock)
  | _ => contradiction

theorem fail_raises (moved : call.advance .fail s others = some (t, next)) :
    t = s ∧ next = call.goto .raised := by
  cases phase : call.phase <;> simp only [CheckpointerCall.advance, phase, Option.some.injEq,
    Prod.mk.injEq] at moved
  all_goals first | contradiction | exact ⟨moved.1.symm, moved.2.symm⟩

/-- What a call does keeps its own assertion and leaves the others theirs. -/
theorem advance_keeps {choice : OpenChoice} (sound : s.Sound) (steady : call.Steady s)
    (compatible : ∀ other ∈ others, other.Steady s ∧ call.Apart other)
    (moved : call.advance choice s others = some (t, next)) :
    next.Steady t ∧ s.Leads t others ∧ ∀ other ∈ others, next.Apart other := by
  cases choice with
  | fail =>
      obtain ⟨rfl, rfl⟩ := fail_raises moved
      exact ⟨trivial, .refl sound, Apart.idle (by simp)⟩
  | next =>
      unfold CheckpointerCall.Steady at steady
      cases phase : call.phase with
      | called =>
          simp only [CheckpointerCall.advance, phase] at moved
          cases moved
          exact ⟨trivial, .refl sound, Apart.idle (by simp)⟩
      | connected =>
          simp only [CheckpointerCall.advance, phase] at moved
          split at moved
          next needed =>
            cases moved
            simp only [Bool.and_eq_true, decide_eq_true_eq] at needed
            refine ⟨⟨needed.1, ?_⟩, ⟨setDefault_sound sound, fun name lock found => ?_, ?_, ?_⟩,
              Apart.idle (by simp)⟩
            · show (s.setDefault call.connection).1.lock? call.connection = _
              rw [lock?_setDefault, if_pos rfl]
              unfold SetupGlobals.setDefault
              split
              next lock found => rw [found, Option.some_or]
              next missing => rw [missing, Option.none_or]
            · rw [lock?_setDefault, found, Option.some_or]
            · unfold SetupGlobals.setDefault
              split <;> exact fun _ member => member
            · unfold SetupGlobals.setDefault
              split <;> exact fun _ member => .inl member
          next needless =>
            cases moved
            refine ⟨fun asked => ?_, .refl sound, Apart.idle (by simp)⟩
            rw [← sound.remembered]
            by_contra missing
            exact needless (by simpa using ⟨asked, missing⟩)
      | waiting lock =>
          rw [phase] at steady
          obtain ⟨asked, found⟩ := steady
          simp only [CheckpointerCall.advance, phase] at moved
          split at moved
          next => contradiction
          next free =>
            split at moved
            next done =>
              cases moved
              exact ⟨fun _ => sound.remembered ▸ done, .refl sound, Apart.idle (by simp)⟩
            next missing =>
              cases moved
              refine ⟨⟨asked, found, sound.remembered ▸ missing⟩, .refl sound, ?_⟩
              rintro other member _ ⟨⟩ held
              exact free (List.any_eq_true.mpr ⟨other, member, decide_eq_true held⟩)
      | setting lock =>
          rw [phase] at steady
          obtain ⟨asked, found, missing⟩ := steady
          simp only [CheckpointerCall.advance, phase] at moved
          cases moved
          refine ⟨fun _ => List.mem_append_right _ (List.mem_singleton_self _),
            ⟨⟨sound.numbered, sound.own, ?_, ?_⟩, fun _ _ found => found,
              fun _ member => List.mem_append_left _ member, fun name done => ?_⟩,
            Apart.idle (by simp)⟩
          · exact List.nodup_append.mpr ⟨sound.once, List.nodup_singleton _, fun name member other
              new same => missing (List.mem_singleton.mp new ▸ same ▸ member)⟩
          · show (if call.connection ∈ s.setupCompleted then _ else _) = _
            rw [if_neg (sound.remembered ▸ missing), sound.remembered]
            rfl
          · refine (List.mem_append.mp done).imp_right fun new other member held same => ?_
            rw [List.mem_singleton.mp new, found, Option.some.injEq] at same
            subst same
            refine (compatible other member).2 lock ?_
            rw [CheckpointerCall.held?, phase]
      | yielded =>
          rw [phase] at steady
          simp only [CheckpointerCall.advance, phase] at moved
          cases moved
          exact ⟨steady, .refl sound, Apart.idle (by simp)⟩
      | closed => simp [CheckpointerCall.advance, phase] at moved
      | raised => simp [CheckpointerCall.advance, phase] at moved

theorem checkpointers_sound :
    checkpointers.Sound SetupGlobals.Sound CheckpointerCall.Steady CheckpointerCall.Apart where
  symm apart := fun lock first second => apart lock second first
  init s first := by
    cases first
    exact ⟨nofun, List.nodup_nil, List.nodup_nil, rfl⟩
  fresh s call _ fresh := by
    have called : call.phase = .called := of_decide_eq_true fresh
    refine ⟨?_, fun other lock held => ?_⟩
    · simp only [CheckpointerCall.Steady, called]
    · rw [CheckpointerCall.held?, called] at held
      contradiction
  advance choice s others call t next sound steady compatible moved := by
    obtain ⟨own, leads, apart⟩ := advance_keeps sound steady compatible moved
    refine ⟨leads.sound, own, fun other member => ⟨?_, apart other member⟩⟩
    exact (compatible other member).1.undisturbed leads member
  around event := nomatch event

/-- However the calls interleave and wherever they fail, no two set up one connection at a time,
each is set up once, a call that asks for the setup gets its checkpointer behind it, and it waits
only for calls of its own connection. -/
theorem setup_runs_once {s : Calls SetupGlobals CheckpointerCall}
    (reached : Reachable checkpointers.machine anyStep s) :
    s.shared.setups.Nodup ∧
      (s.calls.Pairwise fun a b => ∀ x y, a.phase = .setting x → b.phase = .setting y →
        a.connection ≠ b.connection) ∧
      (∀ call ∈ s.calls, ∀ lock, call.phase = .setting lock →
        call.connection ∉ s.shared.setups) ∧
      (∀ call ∈ s.calls, call.setup = true → call.phase = .yielded →
        call.connection ∈ s.shared.setups) ∧
      ∀ a ∈ s.calls, ∀ b ∈ s.calls, ∀ lock, a.phase = .waiting lock → b.phase = .setting lock →
        a.connection = b.connection := by
  have holds := checkpointers_sound.reachable reached
  refine ⟨holds.shared.once, ?_, fun call member lock setting => ?_,
    fun call member asked yielded => ?_, fun a first b second lock waiting setting => ?_⟩
  · refine holds.pairs.imp_of_mem fun {a b} first second apart x y setting setting' same => ?_
    have left := holds.each a first
    have right := holds.each b second
    simp only [CheckpointerCall.Steady, setting] at left
    simp only [CheckpointerCall.Steady, setting'] at right
    have equal : x = y := Option.some.inj (left.2.1.symm.trans (same ▸ right.2.1))
    subst equal
    refine apart x ?_ ?_
    · rw [CheckpointerCall.held?, setting]
    · rw [CheckpointerCall.held?, setting']
  · have steady := holds.each call member
    simp only [CheckpointerCall.Steady, setting] at steady
    exact steady.2.2
  · have steady := holds.each call member
    simp only [CheckpointerCall.Steady, yielded] at steady
    exact steady asked
  · have left := holds.each a first
    have right := holds.each b second
    simp only [CheckpointerCall.Steady, waiting] at left
    simp only [CheckpointerCall.Steady, setting] at right
    exact holds.shared.names left.2 right.2.1

end Rules

section Sample

/-- Two executions open their checkpointers. The setup of the first fails, and the second, which
names the same database by its other URL, goes on to set it up. -/
def sampleOpens : List (PoolMove CheckpointerCall OpenChoice Empty) :=
  [.call { databaseUrl := "postgresql+asyncpg://db", setup := true },
    .call { databaseUrl := "postgresql://db", setup := true },
    .advance 0 .next, .advance 1 .next, .advance 0 .next, .advance 1 .next, .advance 0 .next,
    .advance 0 .fail, .advance 1 .next, .advance 1 .next]

theorem failed_setup_repeated : ∃ s : Calls SetupGlobals CheckpointerCall,
    s.calls.map CheckpointerCall.phase = [.raised, .yielded] ∧
      s.shared.setups = ["postgresql://db"] ∧ s.shared.setups.Nodup := by
  obtain ⟨s, run, phases, setups⟩ := Run.of_test (M := checkpointers.machine) ⟨{}, []⟩ sampleOpens
    (fun s => s.calls.map CheckpointerCall.phase = [.raised, .yielded] ∧
      s.shared.setups = ["postgresql://db"]) (by decide +kernel)
  exact ⟨s, phases, setups, (setup_runs_once ⟨⟨{}, []⟩, sampleOpens, ⟨rfl, rfl⟩, run⟩).1⟩

end Sample
end AgentRuntime
