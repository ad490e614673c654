import Mathlib.Data.List.DropRight
import Mathlib.Tactic.Common

/-! The words of a text, and the text with each run between them squeezed to one separator. The
squeezed text tells its words and nothing else. -/
namespace Words

variable {α : Type} [DecidableEq α] {keep : α → Bool} {sep : α}

/-- The maximal runs of kept characters. -/
def words (keep : α → Bool) (text : List α) : List (List α) :=
  (text.splitOnP fun c => !keep c).filter fun word => !word.isEmpty

/-- Every run of other characters becomes one separator; none in front of the text where it stands
inside a run. -/
def squeeze (keep : α → Bool) (sep : α) : Bool → List α → List α
  | _, [] => []
  | inside, c :: rest =>
      if keep c then c :: squeeze keep sep false rest
      else if inside then squeeze keep sep true rest
      else sep :: squeeze keep sep true rest

/-- Without the separators at both ends. -/
def strip (sep : α) (text : List α) : List α :=
  (text.dropWhile fun c => c = sep).rdropWhile fun c => c = sep

section Strip

theorem rstrip_cons_ne {c : α} (other : c ≠ sep) (text : List α) :
    (c :: text).rdropWhile (fun d => d = sep) = c :: text.rdropWhile fun d => d = sep := by
  induction text using List.reverseRecOn with
  | nil => simp [List.rdropWhile_singleton, other]
  | append_singleton text last ih =>
      rw [← List.cons_append, List.rdropWhile_concat, List.rdropWhile_concat]
      split
      · exact ih
      · rfl

theorem rstrip_cons_sep (text : List α) :
    (sep :: text).rdropWhile (fun d => d = sep) =
      if (text.rdropWhile fun d => d = sep) = [] then []
      else sep :: text.rdropWhile fun d => d = sep := by
  induction text using List.reverseRecOn with
  | nil => simp
  | append_singleton text last ih =>
      rw [← List.cons_append, List.rdropWhile_concat, List.rdropWhile_concat]
      by_cases same : last = sep
      · simpa [same] using ih
      · simp [same]

/-- Inside a run the squeezed text begins with a word. -/
theorem dropWhile_squeeze (other : keep sep = false) (text : List α) :
    (squeeze keep sep true text).dropWhile (fun c => c = sep) = squeeze keep sep true text := by
  induction text with
  | nil => rfl
  | cons c rest ih =>
      rw [squeeze]
      split
      next kept =>
        have differs : c ≠ sep := by
          rintro rfl
          rw [other] at kept
          contradiction
        rw [List.dropWhile_cons_of_neg (by simpa using differs)]
      next => exact ih

theorem dropWhile_squeeze_false (other : keep sep = false) (text : List α) :
    (squeeze keep sep false text).dropWhile (fun c => c = sep) = squeeze keep sep true text := by
  cases text with
  | nil => rfl
  | cons c rest =>
      have inside := dropWhile_squeeze other (c :: rest)
      rw [squeeze] at inside ⊢
      split at inside
      next kept =>
        rw [if_pos kept, inside, squeeze, if_pos kept]
      next dropped =>
        rw [if_neg dropped, squeeze, if_neg dropped]
        simpa using dropWhile_squeeze other rest

end Strip

section Joined

/-- The separator in front of the words, unless there are none. -/
def led (sep : α) (words : List (List α)) : List α :=
  if words = [] then [] else sep :: [sep].intercalate words

omit [DecidableEq α] in
theorem words_cons_dropped {c : α} (dropped : keep c = false) (text : List α) :
    words keep (c :: text) = words keep text := by
  simp [words, List.splitOnP_cons_eq_if_modifyHead, dropped]

omit [DecidableEq α] in
theorem mem_words {text word : List α} (member : word ∈ words keep text) :
    word ≠ [] ∧ ∀ c ∈ word, keep c = true := by
  obtain ⟨split, some⟩ := List.mem_filter.mp member
  refine ⟨by simpa using some, ?_⟩
  clear some member
  induction text generalizing word with
  | nil =>
      rw [List.splitOnP_nil, List.mem_singleton] at split
      simp [split]
  | cons c rest ih =>
      rw [List.splitOnP_cons_eq_if_modifyHead] at split
      split at split
      next =>
        rcases List.mem_cons.mp split with rfl | later
        · simp
        · exact ih later
      next kept =>
        obtain ⟨first, others, same⟩ :=
          List.exists_cons_of_ne_nil (List.splitOnP_ne_nil (fun c => !keep c) rest)
        rw [same, List.modifyHead_cons] at split
        rcases List.mem_cons.mp split with rfl | later
        · intro d among
          rcases List.mem_cons.mp among with rfl | among
          · simpa using kept
          · exact ih (same ▸ List.mem_cons_self) d among
        · exact ih (same ▸ List.mem_cons_of_mem _ later)

omit [DecidableEq α] in
variable (sep) in
theorem intercalate_eq_nil_iff {words : List (List α)} (some : ∀ word ∈ words, word ≠ []) :
    [sep].intercalate words = [] ↔ words = [] := by
  constructor
  · intro empty
    cases words with
    | nil => rfl
    | cons word rest =>
        have first := some word List.mem_cons_self
        cases rest with
        | nil => exact absurd (by simpa using empty) first
        | cons next rest =>
            rw [List.intercalate_cons_cons] at empty
            simp at empty
  · rintro rfl
    rfl

/-- Inside a run the squeezed text joins the words; in front of a text it joins those behind the
first piece to it. -/
theorem rstrip_squeeze (other : keep sep = false) (text : List α) :
    (squeeze keep sep true text).rdropWhile (fun c => c = sep) =
        [sep].intercalate (words keep text) ∧
      ∀ first rest, text.splitOnP (fun c => !keep c) = first :: rest →
        (squeeze keep sep false text).rdropWhile (fun c => c = sep) =
          first ++ led sep (rest.filter fun word => !word.isEmpty) := by
  induction text with
  | nil =>
      refine ⟨rfl, fun first rest split => ?_⟩
      rw [List.splitOnP_nil] at split
      cases split
      rfl
  | cons c text ih =>
      obtain ⟨inside, front⟩ := ih
      by_cases kept : keep c = true
      · have differs : c ≠ sep := by
          rintro rfl
          rw [other] at kept
          contradiction
        obtain ⟨piece, pieces, split⟩ :=
          List.exists_cons_of_ne_nil (List.splitOnP_ne_nil (fun c => !keep c) text)
        have cut : (c :: text).splitOnP (fun c => !keep c) = (c :: piece) :: pieces := by
          rw [List.splitOnP_cons_eq_if_modifyHead, split]
          simp [kept]
        have joined := front piece pieces split
        refine ⟨?_, fun first rest same => ?_⟩
        · rw [squeeze, if_pos kept, rstrip_cons_ne differs, joined, words, cut]
          by_cases last : pieces.filter (fun word => !word.isEmpty) = []
          · simp [led, last]
          · simp only [led, last, if_false, List.filter_cons, List.isEmpty_cons, Bool.not_false,
              if_true]
            rw [List.intercalate_cons_of_ne_nil last]
            simp
        · rw [cut] at same
          cases same
          rw [squeeze, if_pos kept, rstrip_cons_ne differs, joined]
          rfl
      · have dropped : keep c = false := by simpa using kept
        refine ⟨?_, fun first rest same => ?_⟩
        · rw [squeeze, if_neg kept, if_pos rfl, inside, words_cons_dropped dropped]
        · rw [List.splitOnP_cons_eq_if_modifyHead] at same
          simp only [dropped, Bool.not_false, if_true] at same
          cases same
          rw [squeeze, if_neg kept, if_neg Bool.false_ne_true, rstrip_cons_sep, inside,
            List.nil_append, led]
          have empty := intercalate_eq_nil_iff sep
            fun word (member : word ∈ words keep text) => (mem_words member).1
          change _ = if words keep text = [] then _ else _
          simp only [empty]
          rfl

theorem strip_squeeze (other : keep sep = false) (text : List α) :
    strip sep (squeeze keep sep false text) = [sep].intercalate (words keep text) := by
  rw [strip, dropWhile_squeeze_false other, (rstrip_squeeze other text).1]

/-- Two texts are squeezed to the same text exactly when they have the same words. -/
theorem strip_squeeze_eq_iff (other : keep sep = false) {text text' : List α} :
    strip sep (squeeze keep sep false text) = strip sep (squeeze keep sep false text') ↔
      words keep text = words keep text' := by
  rw [strip_squeeze other, strip_squeeze other]
  refine ⟨fun same => ?_, fun same => by rw [same]⟩
  have without (text : List α) : ∀ word ∈ words keep text, sep ∉ word := by
    intro word member among
    rw [(mem_words member).2 sep among] at other
    contradiction
  have some (text : List α) : ∀ word ∈ words keep text, word ≠ [] :=
    fun word member => (mem_words member).1
  by_cases empty : words keep text = []
  · rw [empty, List.intercalate_nil] at same
    rw [empty, (intercalate_eq_nil_iff _ (some text')).mp same.symm]
  · have other' : words keep text' ≠ [] := by
      intro none
      rw [none, List.intercalate_nil] at same
      exact empty ((intercalate_eq_nil_iff _ (some text)).mp same)
    have split := congrArg (List.splitOn sep) same
    rwa [List.splitOn_intercalate sep (without text) empty,
      List.splitOn_intercalate sep (without text') other'] at split

end Joined
end Words
