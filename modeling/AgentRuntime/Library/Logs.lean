import Mathlib.Tactic.Common
import Mathlib.Data.List.Basic

/-! Append-only logs. Every row has an owner and a number; the rows of an owner are numbered
upward, and one of them at most is final. A row that would break this is not appended. -/
namespace Logs

class Numbered (ρ : Type) (κ : outParam Type) where
  owner : ρ → κ
  number : ρ → Nat
  final : ρ → Bool

export Numbered (owner number final)

variable {ρ κ : Type} [Numbered ρ κ] [DecidableEq κ]

/-- Two rows of one owner with the same number, or both final. -/
def conflicts (a b : ρ) : Bool :=
  owner a = owner b && (number a = number b || (final a && final b))

/-- `INSERT .. ON CONFLICT DO NOTHING`. -/
def insert (log : List ρ) (row : ρ) : List ρ :=
  if log.any (conflicts row) then log else log ++ [row]

def insertAll (log rows : List ρ) : List ρ := rows.foldl insert log

/-- The number behind every row of the owner. -/
def next (log : List ρ) (k : κ) : Nat :=
  (log.filter fun row => owner row = k).foldl (fun n row => max n (number row + 1)) 0

def finals (log : List ρ) (k : κ) : List ρ := log.filter fun row => owner row = k && final row

structure Sequential (log : List ρ) : Prop where
  ordered : log.Pairwise fun a b => owner a = owner b → number a < number b
  closed : ∀ k, (finals log k).length ≤ 1

/-- Rows of the owner `k`, numbered upward from `n`. -/
structure Batch (k : κ) (n : Nat) (rows : List ρ) : Prop where
  owned : ∀ row ∈ rows, owner row = k
  behind : ∀ row ∈ rows, n ≤ number row
  upward : rows.Pairwise fun a b => number a < number b

section Next
variable {log : List ρ} {k : κ} {row : ρ}

omit [DecidableEq κ] in
theorem le_foldl_max (rows : List ρ) (n : Nat) :
    n ≤ rows.foldl (fun n row => max n (number row + 1)) n := by
  induction rows generalizing n with
  | nil => exact Nat.le_refl n
  | cons first rest ih => exact Nat.le_trans (Nat.le_max_left _ _) (ih _)

omit [DecidableEq κ] in
theorem number_lt_foldl {rows : List ρ} (member : row ∈ rows) (n : Nat) :
    number row < rows.foldl (fun n row => max n (number row + 1)) n := by
  induction rows generalizing n with
  | nil => contradiction
  | cons first rest ih =>
      cases member with
      | head => exact Nat.lt_of_lt_of_le (Nat.le_max_right n _) (le_foldl_max rest _)
      | tail _ later => exact ih later _

theorem number_lt_next (member : row ∈ log) (own : owner row = k) : number row < next log k :=
  number_lt_foldl (List.mem_filter.mpr ⟨member, by simpa using own⟩) 0

theorem next_append_other {rows : List ρ} (others : ∀ row ∈ rows, owner row ≠ k) :
    next (log ++ rows) k = next log k := by
  have empty : rows.filter (fun row => owner row = k) = [] := by
    simpa [List.filter_eq_nil_iff] using others
  simp [next, empty]

end Next

section Insert
variable {log : List ρ} {row other : ρ} {k : κ}

theorem conflicts_iff : conflicts row other = true ↔
    owner row = owner other ∧
      (number row = number other ∨ (final row = true ∧ final other = true)) := by
  simp [conflicts]

theorem mem_finals : row ∈ finals log k ↔ row ∈ log ∧ owner row = k ∧ final row = true := by
  simp [finals]

theorem finals_append (rows : List ρ) : finals (log ++ rows) k = finals log k ++ finals rows k := by
  simp [finals]

theorem insert_cases (log : List ρ) (row : ρ) :
    (insert log row = log ++ [row] ∧ ∀ other ∈ log, conflicts row other = false) ∨
      (insert log row = log ∧ ∃ other ∈ log, conflicts row other = true) := by
  unfold insert
  split
  next taken => exact .inr ⟨rfl, List.any_eq_true.mp taken⟩
  next free => exact .inl ⟨rfl, by simpa using free⟩

/-- Behind the rows of its owner, a row is dropped only by another final row. -/
theorem insert_behind
    (behind : ∀ other ∈ log, owner other = owner row → number other < number row) :
    (insert log row = log ++ [row] ∧ (final row = true → finals log (owner row) = [])) ∨
      (insert log row = log ∧ final row = true ∧
        ∃ other ∈ finals log (owner row), number other < number row) := by
  rcases insert_cases log row with ⟨appended, free⟩ | ⟨dropped, other, member, conflict⟩
  · refine .inl ⟨appended, fun ends => List.eq_nil_iff_forall_not_mem.mpr fun other found => ?_⟩
    obtain ⟨member, own, last⟩ := mem_finals.mp found
    have conflict : conflicts row other = true := conflicts_iff.mpr ⟨own.symm, .inr ⟨ends, last⟩⟩
    rw [free other member] at conflict
    contradiction
  · obtain ⟨own, same | ⟨ends, last⟩⟩ := conflicts_iff.mp conflict
    · have less := behind other member own.symm
      omega
    · exact .inr ⟨dropped, ends, other, mem_finals.mpr ⟨member, own.symm, last⟩,
        behind other member own.symm⟩

theorem Sequential.insert (sequential : Sequential log)
    (behind : ∀ other ∈ log, owner other = owner row → number other < number row) :
    Sequential (insert log row) := by
  rcases insert_behind behind with ⟨same, free⟩ | ⟨same, _⟩
  · rw [same]
    refine ⟨?_, fun k => ?_⟩
    · refine List.pairwise_append.mpr ⟨sequential.ordered, List.pairwise_singleton _ _, ?_⟩
      intro other member last found own
      rw [List.mem_singleton.mp found] at own ⊢
      exact behind other member own
    · rw [finals_append, List.length_append]
      by_cases ends : owner row = k ∧ final row = true
      · obtain ⟨rfl, ends⟩ := ends
        rw [free ends, List.length_nil, Nat.zero_add]
        exact List.length_filter_le _ _
      · have none : finals [row] k = [] := by simpa [finals] using ends
        rw [none]
        exact sequential.closed k
  · rw [same]
    exact sequential

theorem mem_insert (found : other ∈ insert log row) : other ∈ log ∨ other = row := by
  rcases insert_cases log row with ⟨same, _⟩ | ⟨same, _⟩
  · rw [same, List.mem_append, List.mem_singleton] at found
    exact found
  · exact .inl (same ▸ found)

end Insert

section InsertAll
variable {log rows : List ρ} {row : ρ} {k : κ} {n : Nat}

/-- The rows stand behind what the log holds of the owner. -/
def Behind (log : List ρ) (k : κ) (rows : List ρ) : Prop :=
  ∀ row ∈ rows, ∀ other ∈ log, owner other = k → number other < number row

theorem Behind.of_next (batch : Batch k (next log k) rows) : Behind log k rows :=
  fun row member _ found own =>
    Nat.lt_of_lt_of_le (number_lt_next found own) (batch.behind row member)

omit [DecidableEq κ] in
theorem Batch.tail (batch : Batch k n (row :: rows)) : Batch k n rows where
  owned other member := batch.owned other (.tail _ member)
  behind other member := batch.behind other (.tail _ member)
  upward := (List.pairwise_cons.mp batch.upward).2

theorem Behind.tail (behind : Behind log k (row :: rows)) (batch : Batch k n (row :: rows)) :
    Behind (insert log row) k rows := by
  intro later member other found own
  rcases mem_insert found with before | rfl
  · exact behind later (.tail _ member) other before own
  · exact (List.pairwise_cons.mp batch.upward).1 later member

theorem insertAll_concat (log rows : List ρ) (row : ρ) :
    insertAll log (rows ++ [row]) = insert (insertAll log rows) row := by
  simp [insertAll]

theorem insertAll_append (log rows : List ρ) :
    ∃ kept, insertAll log rows = log ++ kept ∧ kept.Sublist rows := by
  induction rows generalizing log with
  | nil => exact ⟨[], by simp [insertAll], .slnil⟩
  | cons row rest ih =>
      obtain ⟨kept, whole, sub⟩ := ih (insert log row)
      rw [insertAll, List.foldl_cons, ← insertAll, whole]
      rcases insert_cases log row with ⟨same, _⟩ | ⟨same, _⟩
      · exact ⟨row :: kept, by simp [same], .cons_cons row sub⟩
      · exact ⟨kept, by rw [same], .cons row sub⟩

/-- A batch behind its log is appended in its order; what is dropped is final, and stands
behind a final row of its owner. -/
theorem insertAll_batch (batch : Batch k n rows) (behind : Behind log k rows) :
    ∃ kept, insertAll log rows = log ++ kept ∧ kept.Sublist rows ∧
      ∀ row ∈ rows, row ∉ kept → final row = true ∧
        ∃ other ∈ finals (log ++ kept) k, number other < number row := by
  induction rows generalizing log with
  | nil => exact ⟨[], by simp [insertAll], .slnil, by simp⟩
  | cons row rest ih =>
      obtain ⟨kept, whole, sub, dropped⟩ := ih batch.tail (behind.tail batch)
      have own := batch.owned row List.mem_cons_self
      subst own
      rcases insert_behind (behind row List.mem_cons_self) with ⟨same, _⟩ | ⟨same, ends, found⟩
      · rw [same, List.append_assoc, List.singleton_append] at dropped
        refine ⟨row :: kept, ?_, .cons_cons row sub, fun other member absent => ?_⟩
        · rw [insertAll, List.foldl_cons, ← insertAll, whole, same]
          simp
        · cases member with
          | head => exact absurd List.mem_cons_self absent
          | tail _ later => exact dropped other later fun found => absent (.tail _ found)
      · rw [same] at dropped
        refine ⟨kept, ?_, .cons row sub, fun other member absent => ?_⟩
        · rw [insertAll, List.foldl_cons, ← insertAll, whole, same]
        · cases member with
          | head =>
              obtain ⟨stored, found, less⟩ := found
              rw [finals_append]
              exact ⟨ends, stored, List.mem_append_left _ found, less⟩
          | tail _ later => exact dropped other later absent

theorem Sequential.insertAll (sequential : Sequential log) (batch : Batch k n rows)
    (behind : Behind log k rows) : Sequential (insertAll log rows) := by
  induction rows generalizing log with
  | nil => exact sequential
  | cons row rest ih =>
      have own := batch.owned row List.mem_cons_self
      subst own
      exact ih (sequential.insert (behind row List.mem_cons_self)) batch.tail (behind.tail batch)

/-- The final rows of an owner after a batch: the ones before, or the first of the batch. -/
theorem finals_insertAll (batch : Batch k n rows) (behind : Behind log k rows) (j : κ) :
    finals (insertAll log rows) j =
      if j = k ∧ finals log k = [] then (rows.filter final).take 1 else finals log j := by
  induction rows generalizing log with
  | nil => simp [insertAll]; intro same empty; rw [same, empty]
  | cons row rest ih =>
      have own := batch.owned row List.mem_cons_self
      subst own
      rw [insertAll, List.foldl_cons, ← insertAll, ih batch.tail (behind.tail batch)]
      rcases insert_behind (behind row List.mem_cons_self) with ⟨same, free⟩ | ⟨same, ends, found⟩
      · rw [same]
        simp only [finals_append]
        cases ends : final row with
        | true =>
            have single : finals [row] (owner row) = [row] := by simp [finals, ends]
            simp only [single, List.append_eq_nil_iff, List.cons_ne_nil, and_false, if_false]
            by_cases j = owner row
            next mine => subst mine; simp [free ends, single, ends]
            next other => simp [other, finals, Ne.symm other]
        | false =>
            have none (j : κ) : finals [row] j = [] := by simp [finals, ends]
            simp [none, ends]
      · rw [same]
        obtain ⟨other, found, _⟩ := found
        have full : finals log (owner row) ≠ [] := List.ne_nil_of_mem found
        simp [full]

/-- What is appended depends on the rows of the owner alone. -/
theorem insertAll_same {log' kept : List ρ} (owned : ∀ row ∈ rows, owner row = k)
    (same : ∀ row, owner row = k → (row ∈ log ↔ row ∈ log'))
    (whole : insertAll log rows = log ++ kept) : insertAll log' rows = log' ++ kept := by
  induction rows generalizing log log' kept with
  | nil => simpa [insertAll] using whole
  | cons row rest ih =>
      have own := owned row List.mem_cons_self
      have owned' := fun other member => owned other (.tail _ member)
      have test : log.any (conflicts row) = log'.any (conflicts row) := by
        rw [Bool.eq_iff_iff, List.any_eq_true, List.any_eq_true]
        refine exists_congr fun other => and_congr_left fun conflict => same other ?_
        rw [← own, (conflicts_iff.mp conflict).1]
      rw [insertAll, List.foldl_cons, ← insertAll] at whole ⊢
      unfold insert at whole ⊢
      rw [← test]
      split at whole
      next taken => rw [if_pos taken]; exact ih owned' same whole
      next free =>
        rw [if_neg free]
        obtain ⟨more, rest', _⟩ := insertAll_append (log ++ [row]) rest
        have split : kept = row :: more := by
          rw [rest', List.append_assoc] at whole
          exact (List.append_cancel_left whole).symm
        subst split
        rw [ih owned' (fun other mine => ?_) rest', List.append_assoc, List.singleton_append]
        simp only [List.mem_append, same other mine]

end InsertAll

/-- A row with what it was inserted for, which no index sees. -/
structure Tagged (ρ τ : Type) where
  row : ρ
  tag : τ

section Tagged
variable {τ : Type} {log rows : List (Tagged ρ τ)} {k : κ} {n : Nat}

instance : Numbered (Tagged ρ τ) κ where
  owner entry := owner entry.row
  number entry := number entry.row
  final entry := final entry.row

omit [DecidableEq κ] in
@[simp] theorem owner_tagged (entry : Tagged ρ τ) : owner entry = owner entry.row := rfl
omit [DecidableEq κ] in
@[simp] theorem number_tagged (entry : Tagged ρ τ) : number entry = number entry.row := rfl
omit [DecidableEq κ] in
@[simp] theorem final_tagged (entry : Tagged ρ τ) : final entry = final entry.row := rfl

theorem next_tagged (log : List (Tagged ρ τ)) (k : κ) :
    next (log.map Tagged.row) k = next log k := by
  rw [next, next, List.filter_map, List.foldl_map]
  rfl

theorem insert_tagged (log : List (Tagged ρ τ)) (entry : Tagged ρ τ) :
    (insert log entry).map Tagged.row = insert (log.map Tagged.row) entry.row := by
  have same : (log.map Tagged.row).any (conflicts entry.row) = log.any (conflicts entry) := by
    rw [List.any_map]
    rfl
  rw [insert, insert, same]
  split
  · rfl
  · rw [List.map_append, List.map_singleton]

/-- The tags leave the rows of a log as they are. -/
theorem insertAll_tagged (log rows : List (Tagged ρ τ)) :
    (insertAll log rows).map Tagged.row = insertAll (log.map Tagged.row) (rows.map Tagged.row) := by
  induction rows generalizing log with
  | nil => rfl
  | cons first rest ih =>
      rw [insertAll, List.foldl_cons, ← insertAll, ih, insert_tagged]
      rfl

omit [DecidableEq κ] in
theorem Batch.tagged {rows : List ρ} (batch : Batch k n rows) (tag : τ) :
    Batch k n (rows.map fun row => Tagged.mk row tag) where
  owned := by simpa using batch.owned
  behind := by simpa using batch.behind
  upward := List.pairwise_map.mpr batch.upward

end Tagged
end Logs
