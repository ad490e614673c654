import Mathlib.Data.List.MinMax
import Mathlib.Data.List.Nodup

/-! Relational tables with a primary key. A table carries the uniqueness of its
keys, so a selection by key is a partial function of the key and an `UPDATE`
acts on that function pointwise. -/
namespace Tables

/-- Rows carry their primary key. -/
class Keyed (ρ : Type) (κ : outParam Type) where
  key : ρ → κ

export Keyed (key)

structure Table (ρ : Type) {κ : Type} [Keyed ρ κ] where
  rows : List ρ
  unique : (rows.map key).Nodup

namespace Table

variable {ρ κ : Type} [Keyed ρ κ]

def empty : Table ρ := ⟨[], List.nodup_nil⟩

/-- `SELECT .. WHERE key = k`. -/
def find? [DecidableEq κ] (t : Table ρ) (k : κ) : Option ρ :=
  t.rows.find? fun row => key row = k

/-- `INSERT`. A row whose key is taken is rejected and the table kept. -/
def insert [DecidableEq κ] (t : Table ρ) (row : ρ) : Table ρ :=
  if fresh : key row ∉ t.rows.map key then
    ⟨t.rows ++ [row], by
      rw [List.map_append, List.map_singleton]
      exact List.nodup_append.mpr ⟨t.unique, List.nodup_singleton _, by
        intro k member other same
        rw [List.mem_singleton.mp same]
        rintro rfl
        exact fresh member⟩⟩
  else t

/-- `UPDATE .. SET f WHERE p`, for an assignment `f` that keeps the key. -/
def updateWhere (t : Table ρ) (p : ρ → Bool) (f : ρ → ρ)
    (keeps : ∀ row, key (f row) = key row := by intro _; rfl) : Table ρ :=
  ⟨t.rows.map fun row => if p row then f row else row, by
    have same : (t.rows.map fun row => if p row then f row else row).map key =
        t.rows.map key := by
      rw [List.map_map]
      apply List.map_congr_left
      intro row _
      simp only [Function.comp]
      split
      · exact keeps row
      · rfl
    rw [same]
    exact t.unique⟩

/-- `rows[key row] = row`. A row of that key is replaced in its place. -/
def put [DecidableEq κ] (t : Table ρ) (row : ρ) : Table ρ :=
  if key row ∈ t.rows.map key then
    t.updateWhere (fun other => key other = key row)
      (fun other => if key other = key row then row else other)
      (by
        intro other
        split
        next same => exact same.symm
        next => rfl)
  else t.insert row

/-- Assignments that agree on the selected rows are one update. -/
theorem updateWhere_congr (t : Table ρ) (p : ρ → Bool) {f g : ρ → ρ}
    (keepsF : ∀ row, key (f row) = key row) (keepsG : ∀ row, key (g row) = key row)
    (same : ∀ row ∈ t.rows, p row = true → f row = g row) :
    t.updateWhere p f keepsF = t.updateWhere p g keepsG := by
  have rows : (t.rows.map fun row => if p row then f row else row) =
      t.rows.map fun row => if p row then g row else row := by
    apply List.map_congr_left
    intro row member
    split
    next chosen => exact same row member chosen
    next => rfl
  simp only [updateWhere, rows]

section Select
variable [DecidableEq κ]

@[simp] theorem find?_empty (k : κ) : (empty : Table ρ).find? k = none := rfl

theorem find?_eq_some {t : Table ρ} {k : κ} {row : ρ} :
    t.find? k = some row ↔ row ∈ t.rows ∧ key row = k := by
  constructor
  · intro found
    exact ⟨List.mem_of_find?_eq_some found, by simpa using List.find?_some found⟩
  · rintro ⟨member, rfl⟩
    cases found : t.find? (key row) with
    | none =>
        have differs := List.find?_eq_none.mp found row member
        simp at differs
    | some other =>
        have same : key other = key row := by simpa using List.find?_some found
        have memberOther := List.mem_of_find?_eq_some found
        rw [List.inj_on_of_nodup_map t.unique memberOther member same]

theorem mem_rows_iff {t : Table ρ} {row : ρ} : row ∈ t.rows ↔ t.find? (key row) = some row := by
  rw [find?_eq_some]
  exact (and_iff_left rfl).symm

theorem key_of_find? {t : Table ρ} {k : κ} {row : ρ} (found : t.find? k = some row) :
    key row = k := (find?_eq_some.mp found).2

theorem find?_eq_none {t : Table ρ} {k : κ} : t.find? k = none ↔ k ∉ t.rows.map key := by
  simp [find?, List.find?_eq_none]

/-- An `UPDATE` acts on the selected row alone. -/
@[simp] theorem find?_updateWhere (t : Table ρ) (p : ρ → Bool) (f : ρ → ρ)
    (keeps : ∀ row, key (f row) = key row) (k : κ) :
    (t.updateWhere p f keeps).find? k =
      (t.find? k).map fun row => if p row then f row else row := by
  have keyed : ∀ row, key (if p row then f row else row) = key row := by
    intro row
    split
    · exact keeps row
    · rfl
  simp only [find?, updateWhere, List.find?_map, Function.comp_def, keyed]

/-- The insertion is visible exactly where no row of that key was stored. -/
theorem find?_insert (t : Table ρ) (row : ρ) (k : κ) :
    (t.insert row).find? k = (t.find? k).or (if key row = k then some row else none) := by
  unfold insert
  split
  next fresh =>
    simp only [find?, List.find?_append, List.find?_singleton, decide_eq_true_eq]
  next taken =>
    by_cases same : key row = k
    · subst same
      cases found : t.find? (key row) with
      | none => exact absurd (find?_eq_none.mp found) taken
      | some other => simp
    · simp [same]

/-- Of several insertions of a key the first is kept. -/
theorem find?_foldl_insert (rows : List ρ) (t : Table ρ) (k : κ) :
    (rows.foldl Table.insert t).find? k = (t.find? k).or (rows.find? fun row => key row = k) := by
  induction rows generalizing t with
  | nil => simp
  | cons row rest ih =>
      rw [List.foldl_cons, ih, find?_insert, Option.or_assoc]
      by_cases same : key row = k <;> simp [same]

theorem rows_insert (t : Table ρ) (row : ρ) :
    (t.insert row).rows = if key row ∈ t.rows.map key then t.rows else t.rows ++ [row] := by
  by_cases taken : key row ∈ t.rows.map key
  · rw [if_pos taken, insert, dif_neg (not_not.mpr taken)]
  · rw [if_neg taken, insert, dif_pos taken]

/-- Rows that are changed under their keys are inserted at the same places. -/
theorem rows_foldl_insert_map {f : ρ → ρ} (keeps : ∀ row, key (f row) = key row) (rows : List ρ)
    {t changed : Table ρ} (same : changed.rows = t.rows.map f) :
    ((rows.map f).foldl insert changed).rows = (rows.foldl insert t).rows.map f := by
  induction rows generalizing t changed with
  | nil => exact same
  | cons row rows ih =>
      have keys : changed.rows.map key = t.rows.map key := by
        rw [same, List.map_map]
        exact List.map_congr_left fun row _ => keeps row
      rw [List.map_cons, List.foldl_cons, List.foldl_cons]
      apply ih
      rw [rows_insert, rows_insert, keeps, keys, same]
      split
      · rfl
      · rw [List.map_append, List.map_singleton]

/-- The last row that was put under a key is found. -/
theorem find?_put (t : Table ρ) (row : ρ) (k : κ) :
    (t.put row).find? k = if key row = k then some row else t.find? k := by
  unfold put
  split
  next taken =>
    rw [find?_updateWhere]
    by_cases same : key row = k
    · subst same
      cases found : t.find? (key row) with
      | none => exact absurd taken (find?_eq_none.mp found)
      | some other => simp [key_of_find? found]
    · cases found : t.find? k with
      | none => simp [same]
      | some other => simp [key_of_find? found, same, Ne.symm same]
  next fresh =>
    rw [find?_insert]
    by_cases same : key row = k
    · subst same
      simp [find?_eq_none.mpr fresh]
    · simp [same]

theorem length_put (t : Table ρ) (row : ρ) : (t.put row).rows.length =
    if key row ∈ t.rows.map key then t.rows.length else t.rows.length + 1 := by
  unfold put
  split
  next => simp [updateWhere]
  next fresh => simp [insert, fresh]

theorem mem_keys_put (t : Table ρ) (row : ρ) (k : κ) :
    k ∈ (t.put row).rows.map key ↔ k = key row ∨ k ∈ t.rows.map key := by
  rw [← not_iff_not, ← find?_eq_none, find?_put, not_or, ← find?_eq_none]
  by_cases same : key row = k
  · simp [same]
  · simp [same, Ne.symm same]

theorem length_foldl_put_le (rows : List ρ) (t : Table ρ) :
    (rows.foldl put t).rows.length ≤ t.rows.length + rows.length := by
  induction rows generalizing t with
  | nil => exact Nat.le_refl _
  | cons row rest ih =>
      have later := ih (t.put row)
      rw [length_put] at later
      rw [List.foldl_cons, List.length_cons]
      split at later <;> omega

/-- As many rows are stored as are put exactly when their keys are new and distinct. -/
theorem length_foldl_put_iff (rows : List ρ) (t : Table ρ) :
    (rows.foldl put t).rows.length = t.rows.length + rows.length ↔
      (rows.map key).Nodup ∧ ∀ row ∈ rows, key row ∉ t.rows.map key := by
  induction rows generalizing t with
  | nil => simp
  | cons row rest ih =>
      rw [List.foldl_cons, List.length_cons, List.map_cons, List.nodup_cons, List.forall_mem_cons]
      by_cases taken : key row ∈ t.rows.map key
      · have few := length_foldl_put_le rest (t.put row)
        rw [length_put, if_pos taken] at few
        refine iff_of_false (by omega) fun both => both.2.1 taken
      · have stored := ih (t.put row)
        rw [length_put, if_neg taken, Nat.add_assoc, Nat.add_comm 1] at stored
        rw [stored]
        constructor
        · rintro ⟨distinct, fresh⟩
          refine ⟨⟨fun again => ?_, distinct⟩, taken, fun other member known => ?_⟩
          · obtain ⟨other, member, same⟩ := List.mem_map.mp again
            exact fresh other member ((mem_keys_put _ _ _).mpr (.inl same))
          · exact fresh other member ((mem_keys_put _ _ _).mpr (.inr known))
        · rintro ⟨⟨absent, distinct⟩, _, fresh⟩
          refine ⟨distinct, fun other member known => ?_⟩
          rcases (mem_keys_put _ _ _).mp known with same | known
          · exact absent (same ▸ List.mem_map_of_mem member)
          · exact fresh other member known

/-- Of several rows that are put under a key the last is kept. -/
theorem find?_foldl_put_reverse (rows : List ρ) (t : Table ρ) (k : κ) :
    (rows.foldl put t).find? k =
      (rows.reverse.find? fun row => key row = k).or (t.find? k) := by
  induction rows generalizing t with
  | nil => rfl
  | cons row rest ih =>
      rw [List.foldl_cons, ih, find?_put, List.reverse_cons, List.find?_append,
        List.find?_singleton, Option.or_assoc]
      by_cases same : key row = k <;> simp [same]

/-- The order of the rows does not matter for a key. -/
theorem find?_reverse_rows (t : Table ρ) (k : κ) :
    (t.rows.reverse.find? fun row => key row = k) = t.find? k := by
  have unique : (t.rows.reverse.map key).Nodup := by
    rw [List.map_reverse]
    exact List.nodup_reverse.mpr t.unique
  let reversed : Table ρ := ⟨t.rows.reverse, unique⟩
  have same : reversed.find? k = t.find? k := by
    ext row
    rw [find?_eq_some, find?_eq_some, List.mem_reverse]
  exact same

theorem find?_foldl_put_of_not_mem {rows : List ρ} {k : κ} (absent : k ∉ rows.map key)
    (t : Table ρ) : (rows.foldl put t).find? k = t.find? k := by
  induction rows generalizing t with
  | nil => rfl
  | cons row rest ih =>
      rw [List.map_cons, List.mem_cons, not_or] at absent
      rw [List.foldl_cons, ih absent.2, find?_put, if_neg (Ne.symm absent.1)]

theorem mem_of_find?_foldl_put {rows : List ρ} {t : Table ρ} {k : κ} {row : ρ}
    (found : (rows.foldl put t).find? k = some row) : row ∈ rows ∨ t.find? k = some row := by
  induction rows generalizing t with
  | nil => exact .inr found
  | cons first rest ih =>
      rcases ih found with later | stored
      · exact .inl (List.mem_cons_of_mem _ later)
      · rw [find?_put] at stored
        split at stored
        next =>
          cases stored
          exact .inl List.mem_cons_self
        next => exact .inr stored

/-- With distinct keys every row that was put is found. -/
theorem find?_foldl_put {rows : List ρ} {row : ρ} (distinct : (rows.map key).Nodup)
    (member : row ∈ rows) (t : Table ρ) :
    (rows.foldl put t).find? (key row) = some row := by
  induction rows generalizing t with
  | nil => contradiction
  | cons first rest ih =>
      rw [List.map_cons, List.nodup_cons] at distinct
      rw [List.foldl_cons]
      rcases List.mem_cons.mp member with rfl | later
      · rw [find?_foldl_put_of_not_mem distinct.1, find?_put, if_pos rfl]
      · exact ih distinct.2 later _

end Select
end Table

/-- `ORDER BY rank LIMIT 1` on the rows that satisfy `p`. -/
def firstBy {ρ β : Type} [Preorder β] [DecidableLT β] (p : ρ → Bool) (rank : ρ → β)
    (rows : List ρ) : Option ρ := (rows.filter p).argmin rank

theorem firstBy_mem {ρ β : Type} [Preorder β] [DecidableLT β] {p : ρ → Bool} {rank : ρ → β}
    {rows : List ρ} {row : ρ} (first : firstBy p rank rows = some row) :
    row ∈ rows ∧ p row = true := List.mem_filter.mp (List.argmin_mem first)

theorem firstBy_le {ρ β : Type} [LinearOrder β] {p : ρ → Bool} {rank : ρ → β}
    {rows : List ρ} {row other : ρ} (first : firstBy p rank rows = some row)
    (member : other ∈ rows) (chosen : p other = true) : rank row ≤ rank other :=
  List.le_of_mem_argmin (List.mem_filter.mpr ⟨member, chosen⟩) first

theorem firstBy_eq_none {ρ β : Type} [Preorder β] [DecidableLT β] {p : ρ → Bool} {rank : ρ → β}
    {rows : List ρ} : firstBy p rank rows = none ↔ ∀ row ∈ rows, p row = false := by
  simp [firstBy, List.argmin_eq_none, List.filter_eq_nil_iff]

/-- A row that alone satisfies the condition comes first. -/
theorem firstBy_unique {ρ β : Type} [Preorder β] [DecidableLT β] {p : ρ → Bool} {rank : ρ → β}
    {rows : List ρ} {row : ρ} (member : row ∈ rows) (chosen : p row = true)
    (alone : ∀ other ∈ rows, p other = true → other = row) : firstBy p rank rows = some row := by
  cases first : firstBy p rank rows with
  | none =>
      rw [firstBy_eq_none.mp first row member] at chosen
      contradiction
  | some other =>
      obtain ⟨among, fits⟩ := firstBy_mem first
      rw [alone other among fits]

/-- Rows that are stored in groups, each under the key of its group, are found by the key. -/
theorem filter_flatMap_group {γ ρ κ : Type} [DecidableEq κ] {groups : List γ} {rows : γ → List ρ}
    (name : γ → κ) {owner : ρ → κ} (distinct : (groups.map name).Nodup)
    (owned : ∀ group ∈ groups, ∀ row ∈ rows group, owner row = name group) {group : γ}
    (member : group ∈ groups) :
    (groups.flatMap rows).filter (fun row => owner row = name group) = rows group := by
  have apart : ∀ rest : List γ, (∀ other ∈ rest, other ∈ groups) → name group ∉ rest.map name →
      (rest.flatMap rows).filter (fun row => owner row = name group) = [] := by
    intro rest among absent
    refine List.filter_eq_nil_iff.mpr fun row here => ?_
    obtain ⟨other, inside, own⟩ := List.mem_flatMap.mp here
    rw [owned other (among other inside) row own, decide_eq_true_eq]
    intro same
    exact absent (same ▸ List.mem_map_of_mem inside)
  obtain ⟨before, after, rfl⟩ := List.append_of_mem member
  rw [List.map_append, List.map_cons] at distinct
  obtain ⟨_, second, between⟩ := List.nodup_append.mp distinct
  rw [List.flatMap_append, List.flatMap_cons, List.filter_append, List.filter_append,
    apart before (fun other inside => List.mem_append_left _ inside) ?_,
    apart after (fun other inside => List.mem_append_right _ (List.mem_cons_of_mem _ inside))
      (List.nodup_cons.mp second).1, List.nil_append, List.append_nil]
  · refine List.filter_eq_self.mpr fun row own => decide_eq_true ?_
    exact owned group member row own
  · exact fun inside => between _ inside _ List.mem_cons_self rfl

end Tables
