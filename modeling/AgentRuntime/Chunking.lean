import AgentRuntime.Library.Windows

/-! Chunking a text for the embeddings. A Python text is a list of its characters. -/
namespace AgentRuntime
open Windows

variable {α : Type}

/-- The place a bound of a slice stands for: a negative one counts from the end. -/
def sliceIndex (length : Nat) (bound : Int) : Nat :=
  if bound < 0 then (bound + length).toNat else min bound.toNat length

/-- `text[start:end]`. -/
def slice (text : List α) (start stop : Int) : List α :=
  (text.take (sliceIndex text.length stop)).drop (sliceIndex text.length start)

/-- The loop of `chunk_text` from `start`, and none where the rounds do not suffice. -/
def chunkFrom (text : List α) (chunkSize overlap : Int) :
    Nat → Int → List (List α) → Option (List (List α))
  | 0, _, _ => none
  | rounds + 1, start, chunks =>
      let length : Int := text.length
      if start < length then
        let stop := min (start + chunkSize) length
        let chunks := chunks ++ [slice text start stop]
        if stop ≥ length then some chunks
        else
          let start := stop - overlap
          let start := if start < 0 then 0 else start
          if start ≥ length then some chunks
          else chunkFrom text chunkSize overlap rounds start chunks
      else some chunks

def chunkText (rounds : Nat) (text : List α) (chunkSize overlap : Int) : Option (List (List α)) :=
  if text.isEmpty then some [] else chunkFrom text chunkSize overlap rounds 0 []

theorem sliceIndex_of_le {length n : Nat} (inside : n ≤ length) : sliceIndex length n = n := by
  simp [sliceIndex, inside]

theorem slice_of_le {text : List α} {start stop : Nat} (behind : start ≤ text.length)
    (inside : stop ≤ text.length) :
    slice text start stop = (text.drop start).take (stop - start) := by
  rw [slice, sliceIndex_of_le behind, sliceIndex_of_le inside, List.drop_take]

/-- From a place inside the text the loop cuts the rest of it. -/
theorem chunkFrom_cut {size overlap : Nat} (less : overlap < size) {text rest : List α}
    {pieces : List (List α)} (cut : Cut size overlap rest pieces) {start rounds : Nat}
    (from' : rest = text.drop start) (enough : pieces.length ≤ rounds) (chunks : List (List α)) :
    chunkFrom text size overlap rounds start chunks = some (chunks ++ pieces) := by
  induction cut generalizing start rounds chunks with
  | @last rest some short =>
      subst from'
      obtain ⟨rounds, rfl⟩ : ∃ n, rounds = n + 1 := ⟨rounds - 1, by simp at enough; omega⟩
      have inside : start < text.length := by
        have := List.length_pos_of_ne_nil some
        rw [List.length_drop] at this
        omega
      rw [List.length_drop] at short
      have stop : min ((start : Int) + size) text.length = text.length := by omega
      have piece : slice text start text.length = text.drop start := by
        rw [slice_of_le (Nat.le_of_lt inside) (Nat.le_refl _), List.take_of_length_le]
        rw [List.length_drop]
      simp [chunkFrom, stop, inside, piece]
  | @more rest pieces long cut ih =>
      subst from'
      obtain ⟨rounds, rfl⟩ : ∃ n, rounds = n + 1 := ⟨rounds - 1, by simp at enough; omega⟩
      rw [List.length_drop] at long
      have inside : start < text.length := by omega
      have stop : min ((start : Int) + size) text.length = ((start + size : Nat) : Int) := by omega
      have piece : slice text start ((start + size : Nat) : Int) = (text.drop start).take size := by
        rw [slice_of_le (Nat.le_of_lt inside) (by omega), Nat.add_sub_cancel_left]
      have next : ((start + size : Nat) : Int) - overlap =
          ((start + (size - overlap) : Nat) : Int) := by
        omega
      have dropped : (text.drop start).drop (size - overlap) =
          text.drop (start + (size - overlap)) := List.drop_drop
      have fewer : pieces.length ≤ rounds := Nat.le_of_succ_le_succ enough
      have later := ih dropped fewer (chunks ++ [(text.drop start).take size])
      rw [chunkFrom]
      dsimp only
      rw [if_pos (by omega), stop, piece, if_neg (by omega), next, if_neg (by omega),
        if_neg (by omega), later, List.append_assoc, List.singleton_append]

/-- The loop ends, the chunks are lossless, each of them but the last is full, and neighbours
share the overlap. -/
theorem chunkText_covers (text : List α) {size overlap : Nat} (less : overlap < size) :
    ∃ chunks, (∀ rounds, text.length ≤ rounds →
        chunkText rounds text size overlap = some chunks) ∧
      (chunks = [] ↔ text = []) ∧ Covers size overlap text chunks := by
  by_cases empty : text = []
  · subst empty
    refine ⟨[], fun _ _ => rfl, by simp, ?_⟩
    exact {
      nonempty := by simp
      bounded := by simp
      full := by simp
      overlapping := List.isChain_nil
      joined := rfl
      counted := fun long => absurd long (Nat.not_lt_zero _) }
  · obtain ⟨chunks, cut⟩ := Cut.exists_of_ne_nil less empty
    refine ⟨chunks, fun rounds enough => ?_, by simp [cut.ne_nil, empty], cut.covers less⟩
    have fewer := Nat.le_trans (cut.length_le less) enough
    rw [chunkText, if_neg (by simpa using empty)]
    exact chunkFrom_cut less cut List.drop_zero.symm fewer []

theorem seven_characters_by_three : chunkText 7 "abcdefg".toList 3 1 =
      some ["abc".toList, "cde".toList, "efg".toList] ∧
    Covers 3 1 "abcdefg".toList ["abc".toList, "cde".toList, "efg".toList] := by
  have less : 1 < 3 := by decide
  obtain ⟨chunks, ends, _, covers⟩ := chunkText_covers "abcdefg".toList less
  have cut : chunkText 7 "abcdefg".toList 3 1 =
    some ["abc".toList, "cde".toList, "efg".toList] := rfl
  cases (ends 7 (Nat.le_refl 7)).symm.trans cut
  exact ⟨cut, covers⟩

end AgentRuntime
