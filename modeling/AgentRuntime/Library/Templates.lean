import Mathlib.Tactic.Common

/-! Textual replacement, and templates whose expressions it fills. -/
namespace Templates

variable {α : Type} [DecidableEq α]

/-- Each occurrence of the pattern becomes the value, from the left and without overlaps. The first
characters are skipped. -/
def replaceFrom (pattern value : List α) : Nat → List α → List α
  | _, [] => []
  | skipped + 1, _ :: rest => replaceFrom pattern value skipped rest
  | 0, c :: rest =>
      if pattern.isPrefixOf (c :: rest) then
        value ++ replaceFrom pattern value (pattern.length - 1) rest
      else c :: replaceFrom pattern value 0 rest

/-- `text.replace(pattern, value)`, for a pattern that is not empty. -/
def replace (pattern value text : List α) : List α := replaceFrom pattern value 0 text

section Replace
variable {pattern value : List α} {opening : α}

variable (pattern value) in
theorem replaceFrom_skip (skipped rest : List α) :
    replaceFrom pattern value skipped.length (skipped ++ rest) =
      replaceFrom pattern value 0 rest := by
  induction skipped with
  | nil => rfl
  | cons c skipped ih => exact ih

theorem replace_cons {c : α} {rest : List α} (absent : ¬ pattern <+: c :: rest) :
    replace pattern value (c :: rest) = c :: replace pattern value rest := by
  rw [replace, replaceFrom, if_neg (by rwa [List.isPrefixOf_iff_prefix])]
  rfl

/-- What does not hold the first character of the pattern is kept. -/
theorem replace_append {text : List α} (absent : opening ∉ text) (rest : List α) :
    replace (opening :: pattern) value (text ++ rest) =
      text ++ replace (opening :: pattern) value rest := by
  induction text with
  | nil => rfl
  | cons c text ih =>
      have differs : opening ≠ c := fun same => absent (same ▸ List.mem_cons_self)
      have later := ih fun member => absent (List.mem_cons_of_mem c member)
      rw [List.cons_append, replace_cons fun found => differs (List.cons_prefix_cons.mp found).1,
        later, List.cons_append]

theorem replace_match (rest : List α) :
    replace (opening :: pattern) value (opening :: pattern ++ rest) =
      value ++ replace (opening :: pattern) value rest := by
  have found : (opening :: pattern).isPrefixOf (opening :: (pattern ++ rest)) = true := by
    simp [List.isPrefixOf_iff_prefix]
  have skip := replaceFrom_skip (opening :: pattern) value pattern rest
  rw [List.cons_append, replace, replaceFrom, if_pos found, replace, ← skip]
  rfl

end Replace

/-- A part of a template: a text, or an expression between braces. -/
inductive Part (α : Type) where
  | literal (text : List α)
  | expression (name : List α)

section Parts
variable (opening closing : α)

/-- Neither of the braces is in the text. -/
def Braceless (text : List α) : Prop := opening ∉ text ∧ closing ∉ text

namespace Part

/-- What stands between braces, or outside of them, holds none. -/
def Plain : Part α → Prop
  | .literal text => Braceless opening closing text
  | .expression name => Braceless opening closing name

/-- The part with the value of its expression, where there is one. -/
def bind (values : List α → Option (List α)) : Part α → Part α
  | .literal text => .literal text
  | .expression name => (values name).elim (.expression name) .literal

def render : Part α → List α
  | .literal text => text
  | .expression name => opening :: (name ++ [closing])

end Part

def render (parts : List (Part α)) : List α := parts.flatMap (Part.render opening closing)

/-- The template with every expression that has a value replaced by it, all at once. -/
def fill (values : List α → Option (List α)) (parts : List (Part α)) : List α :=
  render opening closing (parts.map (Part.bind values))

end Parts

section Fill
variable {opening closing : α} {values : List α → Option (List α)} {parts : List (Part α)}

omit [DecidableEq α] in
theorem fill_cons (part : Part α) :
    fill opening closing values (part :: parts) =
      (part.bind values).render opening closing ++ fill opening closing values parts := rfl

/-- The values of one expression. -/
def only (name value : List α) : List α → Option (List α) := fun other =>
  if other = name then some value else none

omit [DecidableEq α] in
/-- Only one name stands in front of the first closing brace. -/
theorem name_eq {name other rest : List α} (absent : closing ∉ name) (absent' : closing ∉ other)
    (found : name ++ [closing] <+: other ++ closing :: rest) : name = other := by
  induction name generalizing other with
  | nil =>
      cases other with
      | nil => rfl
      | cons c other =>
          have same := (List.cons_prefix_cons.mp found).1
          exact absurd (same ▸ List.mem_cons_self) absent'
  | cons c name ih =>
      cases other with
      | nil =>
          have same := (List.cons_prefix_cons.mp found).1
          exact absurd (same ▸ List.mem_cons_self) absent
      | cons d other =>
          obtain ⟨same, later⟩ := List.cons_prefix_cons.mp found
          rw [same, ih (fun member => absent (List.mem_cons_of_mem c member))
            (fun member => absent' (List.mem_cons_of_mem d member)) later]

/-- Replacing the text of one expression fills it and nothing else. -/
theorem replace_render {name : List α} (value : List α) (distinct : opening ≠ closing)
    (braceless : Braceless opening closing name)
    (plain : ∀ part ∈ parts, part.Plain opening closing) :
    replace (opening :: (name ++ [closing])) value (render opening closing parts) =
      fill opening closing (only name value) parts := by
  induction parts with
  | nil => rfl
  | cons part rest ih =>
      have own := plain part List.mem_cons_self
      have later := ih fun other member => plain other (List.mem_cons_of_mem part member)
      rw [fill_cons, ← later, render, List.flatMap_cons]
      cases part with
      | literal text => exact replace_append own.1 _
      | expression other =>
          by_cases same : other = name
          · subst same
            rw [Part.bind, only, if_pos rfl]
            exact replace_match _
          · have absent : opening ∉ other ++ [closing] := by
              simp [own.1, distinct]
            have apart : ¬ opening :: (name ++ [closing]) <+:
                opening :: (other ++ [closing] ++ render opening closing rest) := by
              intro found
              rw [List.append_assoc] at found
              have prefixed := (List.cons_prefix_cons.mp found).2
              exact same (name_eq braceless.2 own.2 prefixed).symm
            rw [Part.bind, only, if_neg same]
            exact (replace_cons apart).trans (congrArg _ (replace_append absent _))

omit [DecidableEq α] in
theorem fill_none : fill opening closing (fun _ => none) parts = render opening closing parts := by
  have same : parts.map (Part.bind fun _ => none) = parts := by
    refine (List.map_congr_left fun part _ => ?_).trans (List.map_id parts)
    cases part <;> rfl
  rw [fill, same]

omit [DecidableEq α] in
/-- Filling twice is filling with the first value that there is. -/
theorem fill_fill (first second : List α → Option (List α)) :
    fill opening closing second (parts.map (Part.bind first)) =
      fill opening closing (fun name => (first name).or (second name)) parts := by
  rw [fill, fill, List.map_map]
  refine congrArg _ (List.map_congr_left fun part _ => ?_)
  cases part with
  | literal text => rfl
  | expression name => cases found : first name <;> simp [Part.bind, found]

omit [DecidableEq α] in
variable (values) in
/-- The parts are plain behind values that are. -/
theorem plain_bind (plain : ∀ part ∈ parts, part.Plain opening closing)
    (values_plain : ∀ name, Part.expression name ∈ parts → ∀ value, values name = some value →
      Braceless opening closing value) :
    ∀ part ∈ parts.map (Part.bind values), part.Plain opening closing := by
  intro part member
  obtain ⟨part, among, rfl⟩ := List.mem_map.mp member
  cases part with
  | literal text => exact plain _ among
  | expression name =>
      cases found : values name with
      | none => simpa [Part.bind, found] using plain _ among
      | some value =>
          rw [Part.bind, found]
          exact values_plain name among value found

omit [DecidableEq α] in
theorem fill_congr {values' : List α → Option (List α)}
    (same : ∀ name, Part.expression name ∈ parts → values name = values' name) :
    fill opening closing values parts = fill opening closing values' parts := by
  refine congrArg _ (List.map_congr_left fun part member => ?_)
  cases part with
  | literal text => rfl
  | expression name => rw [Part.bind, same name member, Part.bind]

section Encode
variable {encode : List α → List α}

omit [DecidableEq α] in
variable (opening closing values) in
theorem length_render_bind_le (longer : ∀ value, value.length ≤ (encode value).length)
    (part : Part α) :
    ((part.bind values).render opening closing).length ≤
      ((part.bind fun name => (values name).map encode).render opening closing).length := by
  cases part with
  | literal text => exact Nat.le_refl _
  | expression name =>
      cases found : values name with
      | none => simp [Part.bind, found]
      | some value => simpa [Part.bind, found, Part.render] using longer value

omit [DecidableEq α] in
variable (opening closing values parts) in
/-- A code that shortens no value shortens no template. -/
theorem length_fill_le (longer : ∀ value, value.length ≤ (encode value).length) :
    (fill opening closing values parts).length ≤
      (fill opening closing (fun name => (values name).map encode) parts).length := by
  induction parts with
  | nil => exact Nat.le_refl _
  | cons part rest ih =>
      rw [fill_cons, fill_cons, List.length_append, List.length_append]
      exact Nat.add_le_add (length_render_bind_le opening closing values longer part) ih

omit [DecidableEq α] in
/-- A template keeps its length only where each of its values does. -/
theorem length_value_of_fill (longer : ∀ value, value.length ≤ (encode value).length)
    (kept : (fill opening closing (fun name => (values name).map encode) parts).length ≤
      (fill opening closing values parts).length) {name value : List α}
    (member : Part.expression name ∈ parts) (found : values name = some value) :
    (encode value).length = value.length := by
  induction parts with
  | nil => contradiction
  | cons part rest ih =>
      rw [fill_cons, fill_cons, List.length_append, List.length_append] at kept
      have first := length_render_bind_le opening closing values longer part
      have later := length_fill_le opening closing values rest longer
      rcases List.mem_cons.mp member with rfl | among
      · simp only [Part.bind, found, Option.map_some, Option.elim_some, Part.render] at kept
        have upper := longer value
        omega
      · exact ih (by omega) among

end Encode
end Fill

end Templates
