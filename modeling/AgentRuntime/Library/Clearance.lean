import Mathlib.Data.List.Infix
import AgentRuntime.Library.Programs

/-! Programs that work in turns, each behind a check. A turn begins right behind a check that has
passed, and behind any other check nothing follows. -/
namespace Clearance
open Programs

/-- What an operation is to the turns: the check in front of one, its beginning, a part of it, or
something between two of them. -/
inductive Role where
  | check
  | begins
  | inside
  | between
  deriving DecidableEq

structure Discipline (O : Type) (A : O → Type) (ε : Type) where
  role : O → Role
  passed : Entry O A ε → Prop

variable {O : Type} {A : O → Type} {ε α : Type}

namespace Discipline
variable (D : Discipline O A ε)

def Clears (entry : Entry O A ε) : Prop := D.role entry.op = .check ∧ D.passed entry

/-- The last thing that was asked is a check that has passed. -/
def Cleared (history : List (Entry O A ε)) : Prop :=
  ∃ entry, history.getLast? = some entry ∧ D.Clears entry

/-- The last thing that was asked is no check. -/
def Unchecked (history : List (Entry O A ε)) : Prop :=
  ∀ entry, history.getLast? = some entry → D.role entry.op ≠ .check

/-- The history ends inside the turn behind `opening`, which ends with its check. -/
def Turned (opening history : List (Entry O A ε)) : Prop :=
  D.Cleared opening ∧ ∃ first turn, history = opening ++ first :: turn ∧
    D.role first.op = .begins ∧ ∀ entry ∈ turn, D.role entry.op = .inside

def Rule (history : List (Entry O A ε)) (op : O) : Prop :=
  match D.role op with
  | .check | .between => D.Unchecked history
  | .begins => D.Cleared history
  | .inside => ∃ opening, D.Turned opening history

/-- No turn begins in `later`, but for the one whose check is the last thing in `earlier`, and
behind the next check nothing is asked. -/
structure Closing (earlier later : List (Entry O A ε)) : Prop where
  checked : ∀ front entry back, later = front ++ entry :: back → D.role entry.op = .check →
    back = []
  begun : ∀ front entry back, later = front ++ entry :: back → D.role entry.op = .begins →
    front = [] ∧ D.Cleared earlier
  inside : ∀ front entry back, later = front ++ entry :: back → D.role entry.op = .inside →
    ∃ opening, opening <+: earlier ∧ D.Turned opening (earlier ++ front)

variable {D} {history earlier later opening : List (Entry O A ε)} {entry : Entry O A ε} {op : O}

theorem unchecked_nil : D.Unchecked [] := by
  intro entry last
  contradiction

theorem Unchecked.snoc (other : D.role entry.op ≠ .check) : D.Unchecked (history ++ [entry]) := by
  intro last same
  rw [List.getLast?_concat] at same
  cases same
  exact other

theorem Clears.cleared (clears : D.Clears entry) : D.Cleared (history ++ [entry]) :=
  ⟨entry, List.getLast?_concat, clears⟩

theorem Cleared.turned (cleared : D.Cleared history) (begins : D.role entry.op = .begins) :
    D.Turned history (history ++ [entry]) :=
  ⟨cleared, entry, [], rfl, begins, fun _ member => absurd member List.not_mem_nil⟩

theorem Turned.snoc (turned : D.Turned opening history) (inside : D.role entry.op = .inside) :
    D.Turned opening (history ++ [entry]) := by
  obtain ⟨cleared, first, turn, rfl, begins, within⟩ := turned
  refine ⟨cleared, first, turn ++ [entry], by simp, begins, fun other member => ?_⟩
  rcases List.mem_append.mp member with before | last
  · exact within other before
  · rw [List.mem_singleton.mp last]
    exact inside

theorem Turned.unchecked (turned : D.Turned opening history) : D.Unchecked history := by
  obtain ⟨_, first, turn, rfl, begins, within⟩ := turned
  intro entry last check
  rw [List.getLast?_append_cons] at last
  cases List.mem_of_getLast? last with
  | head =>
      rw [begins] at check
      contradiction
  | tail _ member =>
      rw [within entry member] at check
      contradiction

/-- Behind a check only a turn begins, and only if the check has passed. -/
theorem Rule.behind (rule : D.Rule history op) (last : history.getLast? = some entry)
    (check : D.role entry.op = .check) : D.role op = .begins ∧ D.Clears entry := by
  unfold Rule at rule
  split at rule
  next => exact absurd check (rule entry last)
  next => exact absurd check (rule entry last)
  next begins =>
    obtain ⟨other, same, clears⟩ := rule
    rw [last] at same
    cases same
    exact ⟨begins, clears⟩
  next =>
    obtain ⟨opening, turned⟩ := rule
    exact absurd check (turned.unchecked entry last)

theorem cleared_append (cleared : D.Cleared (earlier ++ later))
    (blocked : ∀ entry ∈ later, ¬ D.Clears entry) : later = [] ∧ D.Cleared earlier := by
  obtain ⟨entry, last, clears⟩ := cleared
  cases empty : later with
  | nil =>
      rw [empty, List.append_nil] at last
      exact ⟨rfl, entry, last, clears⟩
  | cons first rest =>
      rw [empty, List.getLast?_append_cons] at last
      exact absurd clears (blocked entry (empty ▸ List.mem_of_getLast? last))

/-- From where on no check passes, a history that keeps to the rule comes to its close. -/
theorem closing (follows : Follows D.Rule (earlier ++ later))
    (blocked : ∀ entry ∈ later, ¬ D.Clears entry) : D.Closing earlier later := by
  have rule {front back : List (Entry O A ε)} {entry : Entry O A ε}
      (whole : later = front ++ entry :: back) : D.Rule (earlier ++ front) entry.op :=
    follows (earlier ++ front) entry back (by rw [whole, List.append_assoc])
  have unpassed {front back : List (Entry O A ε)} {entry : Entry O A ε}
      (whole : later = front ++ entry :: back) : ∀ other ∈ front, ¬ D.Clears other :=
    fun other member => blocked other (whole ▸ List.mem_append_left _ member)
  constructor
  · intro front entry back whole check
    cases back with
    | nil => rfl
    | cons next rest =>
        have whole' : later = (front ++ [entry]) ++ next :: rest := by simp [whole]
        have last : (earlier ++ (front ++ [entry])).getLast? = some entry := by
          rw [← List.append_assoc, List.getLast?_concat]
        exact absurd ((rule whole').behind last check).2 (blocked entry (by simp [whole]))
  · intro front entry back whole begins
    have cleared := rule whole
    simp only [Rule, begins] at cleared
    exact cleared_append cleared (unpassed whole)
  · intro front entry back whole inside
    have within := rule whole
    simp only [Rule, inside] at within
    obtain ⟨opening, turned⟩ := within
    refine ⟨opening, ?_, turned⟩
    obtain ⟨cleared, first, turn, same, _⟩ := turned
    rcases List.append_eq_append_iff.mp same with ⟨more, split, rest⟩ | ⟨more, split, _⟩
    · rw [split] at cleared
      have within : ∀ other ∈ more, ¬ D.Clears other := fun other member =>
        unpassed whole other (rest ▸ List.mem_append_left _ member)
      have none := (cleared_append cleared within).1
      rw [split, none, List.append_nil]
    · exact ⟨more, split.symm⟩

/-- A program that asks nothing but parts of a turn stays inside it. -/
theorem turn_wp {p : Prog O A ε α} (inside : Within (fun op => D.role op = .inside) p)
    (turned : D.Turned opening history) :
    wp (fun before op => D.Rule before op ∧ D.role op = .inside)
      (fun after _ => D.Turned opening after) history p := by
  induction p generalizing history with
  | pure value => exact turned
  | raise error => trivial
  | ask op next ih =>
      obtain ⟨asks, rest⟩ := inside.next
      refine ⟨⟨?_, asks⟩, fun answer => ih answer (rest answer) (turned.snoc asks)⟩
      simp only [Rule, asks]
      exact ⟨opening, turned⟩

end Discipline
end Clearance
