import Mathlib.Algebra.Order.Floor.Div
import Mathlib.Data.List.Chain
import Mathlib.Tactic.Common

/-! Overlapping windows of a list. Every window but the last is full, and each one begins with the
end of the one in front of it. -/
namespace Windows

variable {α : Type}

/-- The list is cut into these pieces. The next window begins `overlap` in front of the end of
this one. -/
inductive Cut (size overlap : Nat) : List α → List (List α) → Prop
  | last {xs} : xs ≠ [] → xs.length ≤ size → Cut size overlap xs [xs]
  | more {xs pieces} : size < xs.length → Cut size overlap (xs.drop (size - overlap)) pieces →
      Cut size overlap xs (xs.take size :: pieces)

/-- What the pieces tell of the list. -/
structure Covers (size overlap : Nat) (xs : List α) (pieces : List (List α)) : Prop where
  nonempty : ∀ piece ∈ pieces, piece ≠ []
  bounded : ∀ piece ∈ pieces, piece.length ≤ size
  full : ∀ piece ∈ pieces.dropLast, piece.length = size
  overlapping : pieces.IsChain fun a b =>
    b.take overlap = a.drop (a.length - overlap) ∧ overlap < b.length
  joined : (pieces.head?.getD []) ++ (pieces.tail.map (List.drop overlap)).flatten = xs
  counted : size < xs.length → pieces.length = (xs.length - overlap) ⌈/⌉ (size - overlap)

namespace Cut
variable {size overlap : Nat} {xs : List α} {pieces : List (List α)}

theorem ne_nil (cut : Cut size overlap xs pieces) : pieces ≠ [] := by
  cases cut <;> exact List.cons_ne_nil _ _

theorem exists_of_ne_nil (less : overlap < size) (some : xs ≠ []) :
    ∃ pieces, Cut size overlap xs pieces := by
  induction length : xs.length using Nat.strong_induction_on generalizing xs with
  | _ n ih =>
      by_cases short : xs.length ≤ size
      · exact ⟨[xs], .last some short⟩
      · have shorter : (xs.drop (size - overlap)).length < n := by
          rw [List.length_drop]
          omega
        have rest : xs.drop (size - overlap) ≠ [] := by
          intro none
          have := List.drop_eq_nil_iff.mp none
          omega
        obtain ⟨pieces, cut⟩ := ih _ shorter rest rfl
        exact ⟨_, .more (by omega) cut⟩

theorem mem (cut : Cut size overlap xs pieces) (less : overlap < size) :
    ∀ piece ∈ pieces, piece ≠ [] ∧ piece.length ≤ size := by
  induction cut with
  | last some short =>
      intro piece member
      rw [List.mem_singleton] at member
      subst member
      exact ⟨some, short⟩
  | @more xs pieces long _ ih =>
      intro piece member
      rcases List.mem_cons.mp member with rfl | later
      · have length : (xs.take size).length = size := List.length_take_of_le (Nat.le_of_lt long)
        refine ⟨fun none => ?_, Nat.le_of_eq length⟩
        rw [none, List.length_nil] at length
        omega
      · exact ih piece later

theorem full (cut : Cut size overlap xs pieces) :
    ∀ piece ∈ pieces.dropLast, piece.length = size := by
  induction cut with
  | last => simp
  | @more xs pieces long cut ih =>
      intro piece member
      rw [List.dropLast_cons_of_ne_nil cut.ne_nil] at member
      rcases List.mem_cons.mp member with rfl | later
      · exact List.length_take_of_le (Nat.le_of_lt long)
      · exact ih piece later

/-- The first piece is the front of the list. -/
theorem head (cut : Cut size overlap xs pieces) : pieces.head? = some (xs.take size) := by
  cases cut with
  | last _ short => rw [List.head?_cons, List.take_of_length_le short]
  | more => rfl

theorem take_head (cut : Cut size overlap xs pieces) (less : overlap < size) {piece : List α}
    (first : pieces.head? = some piece) : piece.take overlap = xs.take overlap := by
  rw [cut.head, Option.some.injEq] at first
  rw [← first, List.take_take, Nat.min_eq_left (Nat.le_of_lt less)]

theorem overlapping (cut : Cut size overlap xs pieces) (less : overlap < size) :
    pieces.IsChain fun a b =>
      b.take overlap = a.drop (a.length - overlap) ∧ overlap < b.length := by
  induction cut with
  | last => exact List.isChain_singleton _
  | @more xs pieces long cut ih =>
      refine List.isChain_cons.mpr ⟨fun piece first => ?_, ih⟩
      have same := cut.take_head less first
      have head := cut.head
      rw [first, Option.some.injEq] at head
      constructor
      · rw [same, List.length_take_of_le (Nat.le_of_lt long), List.drop_take]
        congr 1
        omega
      · rw [head, List.length_take, List.length_drop]
        omega

theorem joined (cut : Cut size overlap xs pieces) (less : overlap < size) :
    (pieces.head?.getD []) ++ (pieces.tail.map (List.drop overlap)).flatten = xs := by
  induction cut with
  | last => simp
  | @more xs pieces long cut ih =>
      obtain ⟨first, rest, rfl⟩ := List.exists_cons_of_ne_nil cut.ne_nil
      have front : first = (xs.drop (size - overlap)).take size := by
        simpa using cut.head
      have shared : overlap ≤ first.length := by
        rw [front, List.length_take, List.length_drop]
        omega
      have behind : first.drop overlap ++ (rest.map (List.drop overlap)).flatten =
          xs.drop size := by
        have dropped := congrArg (List.drop overlap) ih
        simp only [List.head?_cons, Option.getD_some, List.tail_cons] at dropped
        rw [List.drop_append_of_le_length shared, List.drop_drop] at dropped
        rw [dropped]
        congr 1
        omega
      simp only [List.head?_cons, Option.getD_some, List.tail_cons, List.map_cons,
        List.flatten_cons]
      rw [behind, List.take_append_drop]

/-- Every window but the last adds `size - overlap` elements. -/
theorem length_bounds (cut : Cut size overlap xs pieces) (less : overlap < size)
    (long : overlap < xs.length) :
    xs.length - overlap ≤ pieces.length * (size - overlap) ∧
      (pieces.length - 1) * (size - overlap) < xs.length - overlap := by
  induction cut with
  | last some short =>
      simp only [List.length_singleton, Nat.one_mul, Nat.sub_self, Nat.zero_mul]
      omega
  | @more xs pieces longer cut ih =>
      have positive := List.length_pos_of_ne_nil cut.ne_nil
      have bounds := ih (by rw [List.length_drop]; omega)
      rw [List.length_drop] at bounds
      obtain ⟨n, count⟩ : ∃ n, pieces.length = n + 1 := ⟨pieces.length - 1, by omega⟩
      rw [List.length_cons, count]
      rw [count] at bounds
      simp only [Nat.add_sub_cancel, Nat.add_mul, Nat.one_mul] at bounds ⊢
      omega

theorem counted (cut : Cut size overlap xs pieces) (less : overlap < size)
    (long : overlap < xs.length) :
    pieces.length = (xs.length - overlap) ⌈/⌉ (size - overlap) := by
  have positive : 0 < size - overlap := by omega
  obtain ⟨above, below⟩ := cut.length_bounds less long
  have some := List.length_pos_of_ne_nil cut.ne_nil
  refine Nat.le_antisymm ?_ ?_
  · by_contra fewer
    have upper : (xs.length - overlap) ⌈/⌉ (size - overlap) ≤ pieces.length - 1 := by omega
    have least := (ceilDiv_le_iff_le_mul positive).mp upper
    rw [Nat.mul_comm] at least
    omega
  · refine (ceilDiv_le_iff_le_mul positive).mpr ?_
    rwa [Nat.mul_comm]

theorem length_le (cut : Cut size overlap xs pieces) (less : overlap < size) :
    pieces.length ≤ xs.length := by
  induction cut with
  | last some =>
      have := List.length_pos_of_ne_nil some
      rw [List.length_singleton]
      omega
  | more long _ ih =>
      rw [List.length_drop] at ih
      rw [List.length_cons]
      omega

theorem covers (cut : Cut size overlap xs pieces) (less : overlap < size) :
    Covers size overlap xs pieces where
  nonempty piece member := (cut.mem less piece member).1
  bounded piece member := (cut.mem less piece member).2
  full := cut.full
  overlapping := cut.overlapping less
  joined := cut.joined less
  counted long := cut.counted less (Nat.lt_trans less long)

end Cut
end Windows
