import Mathlib.Tactic.Common

/-! A token that is at one place at most, among any number of places. It may be issued where there
is none, moved and lost. -/
namespace Tokens

variable {ι : Type} {count count' : ι → Nat}

/-- One place holds the token, or none does. -/
def Lone (count : ι → Nat) : Prop := ∃ place, count place ≤ 1 ∧ ∀ i, i ≠ place → count i = 0

theorem Lone.single (lone : Lone count) (i : ι) : count i ≤ 1 := by
  obtain ⟨place, one, others⟩ := lone
  by_cases here : i = place
  · exact here ▸ one
  · rw [others i here]
    exact Nat.zero_le 1

theorem Lone.mono (lone : Lone count) (fewer : ∀ i, count' i ≤ count i) : Lone count' := by
  obtain ⟨place, one, others⟩ := lone
  refine ⟨place, Nat.le_trans (fewer place) one, fun i elsewhere => ?_⟩
  exact Nat.le_zero.mp (others i elsewhere ▸ fewer i)

/-- Where there is no token, one is issued at a place. -/
theorem Lone.issued (none : ∀ i, count i = 0) {place : ι} (one : count' place ≤ 1)
    (fewer : ∀ i, i ≠ place → count' i ≤ count i) : Lone count' :=
  ⟨place, one, fun i elsewhere => Nat.le_zero.mp (none i ▸ fewer i elsewhere)⟩

/-- What one place gives up another takes, or it is lost. -/
theorem Lone.moved (lone : Lone count) {source target : ι} {moved : Nat}
    (given : count' source + moved = count source) (taken : count' target ≤ count target + moved)
    (fewer : ∀ i, i ≠ target → count' i ≤ count i) : Lone count' := by
  obtain ⟨place, one, others⟩ := lone
  by_cases idle : moved = 0
  · refine Lone.mono ⟨place, one, others⟩ fun i => ?_
    by_cases here : i = target
    · subst here
      simpa [idle] using taken
    · exact fewer i here
  · have here : source = place := by
      by_contra elsewhere
      have empty := others source elsewhere
      omega
    subst here
    refine ⟨target, ?_, fun i elsewhere => ?_⟩
    · by_cases same : target = source
      · subst same
        omega
      · rw [others target same] at taken
        omega
    · by_cases same : i = source
      · subst same
        omega
      · exact Nat.le_zero.mp (others i same ▸ fewer i elsewhere)

end Tokens
