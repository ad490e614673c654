import Mathlib.Data.List.DropRight
import Mathlib.Tactic.Common

/-! References to resources: their components, and the resolution of one against a base. -/
namespace Urls

abbrev Text := List Char

structure Reference where
  scheme : Option Text := none
  authority : Option Text := none
  path : Text := []
  query : Option Text := none
  fragment : Option Text := none

def ends (stops : Text) (c : Char) : Bool := c ∉ stops

/-- The text in front of the first of the stops, and the rest from there. -/
def cut (stops text : Text) : Text × Text :=
  (text.takeWhile (ends stops), text.dropWhile (ends stops))

def parseFragment (reference : Reference) : Text → Reference
  | '#' :: rest => { reference with fragment := some rest }
  | _ => reference

def parseQuery (reference : Reference) : Text → Reference
  | '?' :: rest =>
      let (query, rest) := cut ['#'] rest
      parseFragment { reference with query := some query } rest
  | rest => parseFragment reference rest

def parsePath (reference : Reference) (text : Text) : Reference :=
  let (path, rest) := cut ['?', '#'] text
  parseQuery { reference with path := path } rest

def parseAuthority (reference : Reference) : Text → Reference
  | '/' :: '/' :: rest =>
      let (authority, rest) := cut ['/', '?', '#'] rest
      parsePath { reference with authority := some authority } rest
  | rest => parsePath reference rest

/-- The scheme, where there is one, and what stands behind its colon. -/
def splitScheme (text : Text) : Option Text × Text :=
  match cut [':', '/', '?', '#'] text with
  | (c :: scheme, ':' :: rest) => (some (c :: scheme), rest)
  | _ => (none, text)

def parse (text : Text) : Reference :=
  parseAuthority { scheme := (splitScheme text).1 } (splitScheme text).2

/-- A component behind its mark, where it is defined. -/
def marked (mark : Text) : Option Text → Text
  | some text => mark ++ text
  | none => []

def schemeText (scheme : Option Text) : Text := scheme.elim [] fun scheme => scheme ++ [':']

def recompose (reference : Reference) : Text :=
  schemeText reference.scheme ++
    marked ['/', '/'] reference.authority ++ reference.path ++ marked ['?'] reference.query ++
    marked ['#'] reference.fragment

/-- The output without its last segment and the slash in front of it. -/
def dropSegment (output : Text) : Text := (output.rdropWhile (ends ['/'])).dropLast

/-- `remove_dot_segments` on the input behind the output. -/
def removeDots : Nat → Text → Text → Text
  | 0, _, output => output
  | _ + 1, [], output => output
  | rounds + 1, input, output =>
      match input with
      | '.' :: '.' :: '/' :: rest => removeDots rounds rest output
      | '.' :: '/' :: rest => removeDots rounds rest output
      | '/' :: '.' :: '/' :: rest => removeDots rounds ('/' :: rest) output
      | ['/', '.'] => removeDots rounds ['/'] output
      | '/' :: '.' :: '.' :: '/' :: rest => removeDots rounds ('/' :: rest) (dropSegment output)
      | ['/', '.', '.'] => removeDots rounds ['/'] (dropSegment output)
      | ['.'] => removeDots rounds [] output
      | ['.', '.'] => removeDots rounds [] output
      | c :: rest =>
          let (segment, rest) := cut ['/'] rest
          removeDots rounds rest (output ++ c :: segment)
      | [] => output

def removeDotSegments (path : Text) : Text := removeDots path.length path []

/-- The path of the reference in the place of the last segment of the base. -/
def merge (base : Reference) (path : Text) : Text :=
  if base.authority.isSome && base.path.isEmpty then '/' :: path
  else base.path.rdropWhile (ends ['/']) ++ path

def resolve (base reference : Reference) : Reference :=
  if reference.scheme.isSome then
    { reference with path := removeDotSegments reference.path }
  else if reference.authority.isSome then
    { reference with scheme := base.scheme, path := removeDotSegments reference.path }
  else if reference.path.isEmpty then
    { scheme := base.scheme, authority := base.authority, path := base.path,
      query := reference.query.or base.query, fragment := reference.fragment }
  else
    let path := if reference.path.head? = some '/' then reference.path
      else merge base reference.path
    { scheme := base.scheme, authority := base.authority, path := removeDotSegments path,
      query := reference.query, fragment := reference.fragment }

def join (base reference : Text) : Text := recompose (resolve (parse base) (parse reference))

example : join "http://a/b/c/d;p?q".toList "../../g?y#s".toList = "http://a/g?y#s".toList := by
  decide +kernel

def unreserved (c : Char) : Bool := c.isAlphanum || c ∈ ['-', '.', '_', '~']

def hexDigits : Text := "0123456789ABCDEF".toList

/-- `%` and the two digits of the byte. -/
def percent (byte : UInt8) : Text :=
  ['%', hexDigits.getD (byte.toNat / 16) '0', hexDigits.getD (byte.toNat % 16) '0']

/-- The text as one segment: the bytes of its other characters are percent-encoded. -/
def encode (text : Text) : Text :=
  text.flatMap fun c => if unreserved c then [c] else (String.utf8EncodeChar c).flatMap percent

section Encode

theorem encode_of_unreserved {text : Text} (plain : ∀ c ∈ text, unreserved c) :
    encode text = text := by
  induction text with
  | nil => rfl
  | cons c text ih =>
      rw [encode, List.flatMap_cons, if_pos (plain c List.mem_cons_self)]
      exact congrArg (c :: ·) (ih fun d member => plain d (List.mem_cons_of_mem c member))

theorem length_encode_cons (c : Char) (text : Text) :
    (encode (c :: text)).length =
      (if unreserved c then 1 else 3 * c.utf8Size) + (encode text).length := by
  rw [encode, List.flatMap_cons, List.length_append]
  refine congrArg (· + _) ?_
  split
  · rfl
  · simp [percent, Nat.mul_comm]

theorem length_le_encode (text : Text) : text.length ≤ (encode text).length := by
  induction text with
  | nil => exact Nat.le_refl _
  | cons c text ih =>
      have size := c.utf8Size_pos
      rw [length_encode_cons, List.length_cons]
      split <;> omega

theorem unreserved_of_length {text : Text} (kept : (encode text).length = text.length) :
    ∀ c ∈ text, unreserved c := by
  induction text with
  | nil => simp
  | cons c text ih =>
      have size := c.utf8Size_pos
      have longer := length_le_encode text
      rw [length_encode_cons, List.length_cons] at kept
      by_cases plain : unreserved c
      · rw [if_pos plain] at kept
        exact List.forall_mem_cons.mpr ⟨plain, ih (by omega)⟩
      · rw [if_neg plain] at kept
        omega

end Encode

section Components

theorem cut_append_snd (stops text : Text) : (cut stops text).1 ++ (cut stops text).2 = text :=
  List.takeWhile_append_dropWhile

/-- The rest is empty, or begins with a stop. -/
theorem cut_snd (stops text : Text) :
    (cut stops text).2 = [] ∨ ∃ c ∈ stops, ∃ rest, (cut stops text).2 = c :: rest := by
  cases found : (cut stops text).2 with
  | nil => exact .inl rfl
  | cons c rest =>
      have stop := List.head?_dropWhile_not (ends stops) text
      rw [show text.dropWhile (ends stops) = c :: rest from found] at stop
      refine .inr ⟨c, ?_, rest, rfl⟩
      simpa [ends] using stop

theorem not_mem_cut (stops text : Text) {c : Char} (stop : c ∈ stops) :
    c ∉ (cut stops text).1 := by
  intro member
  have kept := List.mem_takeWhile_imp member
  simp [ends, stop] at kept

variable (reference : Reference)

@[simp] theorem parseFragment_scheme (text : Text) :
    (parseFragment reference text).scheme = reference.scheme := by
  unfold parseFragment
  split <;> rfl

@[simp] theorem parseFragment_authority (text : Text) :
    (parseFragment reference text).authority = reference.authority := by
  unfold parseFragment
  split <;> rfl

@[simp] theorem parsePath_scheme (text : Text) :
    (parsePath reference text).scheme = reference.scheme := by
  unfold parsePath parseQuery
  dsimp only
  split <;> simp

@[simp] theorem parsePath_authority (text : Text) :
    (parsePath reference text).authority = reference.authority := by
  unfold parsePath parseQuery
  dsimp only
  split <;> simp

theorem recompose_parseFragment {text : Text} (none : reference.fragment = none)
    (starts : text = [] ∨ ∃ rest, text = '#' :: rest) :
    recompose (parseFragment reference text) = recompose reference ++ text := by
  rcases starts with rfl | ⟨rest, rfl⟩ <;> simp [parseFragment, recompose, none, marked]

theorem recompose_parsePath {text : Text} (path : reference.path = [])
    (query : reference.query = none) (fragment : reference.fragment = none) :
    recompose (parsePath reference text) = recompose reference ++ text := by
  have whole := cut_append_snd ['?', '#'] text
  unfold parsePath
  dsimp only
  rcases cut_snd ['?', '#'] text with empty | ⟨c, stop, rest, found⟩
  · rw [empty, List.append_nil] at whole
    simp [empty, whole, parseQuery, parseFragment, recompose, path, query, fragment, marked]
  · rw [found] at whole ⊢
    rcases List.mem_pair.mp stop with rfl | rfl
    · have behind := cut_append_snd ['#'] rest
      have marks : (cut ['#'] rest).2 = [] ∨ ∃ later, (cut ['#'] rest).2 = '#' :: later := by
        rcases cut_snd ['#'] rest with empty | ⟨d, stop, later, found⟩
        · exact .inl empty
        · exact .inr ⟨later, List.mem_singleton.mp stop ▸ found⟩
      let reference' : Reference :=
        { reference with path := (cut ['?', '#'] text).1, query := some (cut ['#'] rest).1 }
      have parsed := recompose_parseFragment reference' fragment marks
      have pieces : recompose reference' ++ (cut ['#'] rest).2 =
          recompose reference ++ ((cut ['?', '#'] text).1 ++ '?' :: rest) := by
        simp [reference', recompose, path, query, fragment, marked, behind]
      exact parsed.trans (whole ▸ pieces)
    · let reference' : Reference := { reference with path := (cut ['?', '#'] text).1 }
      have parsed := recompose_parseFragment reference' fragment (.inr ⟨rest, rfl⟩)
      have pieces : recompose reference' ++ '#' :: rest =
          recompose reference ++ ((cut ['?', '#'] text).1 ++ '#' :: rest) := by
        simp [reference', recompose, path, query, fragment, marked]
      exact parsed.trans (whole ▸ pieces)

theorem recompose_parseAuthority (scheme : Option Text) (text : Text) :
    recompose (parseAuthority { scheme } text) = schemeText scheme ++ text := by
  unfold parseAuthority
  split
  next rest =>
    rw [recompose_parsePath _ rfl rfl rfl]
    simp [recompose, marked, cut_append_snd]
  next =>
    rw [recompose_parsePath _ rfl rfl rfl]
    simp [recompose, marked]

theorem splitScheme_append (text : Text) :
    schemeText (splitScheme text).1 ++ (splitScheme text).2 = text := by
  have whole := cut_append_snd [':', '/', '?', '#'] text
  unfold splitScheme
  split
  next c scheme rest found =>
    rw [found] at whole
    simpa [schemeText] using whole
  next => rfl

/-- The components are those of the text. -/
theorem recompose_parse (text : Text) : recompose (parse text) = text :=
  (recompose_parseAuthority _ _).trans (splitScheme_append text)

/-- The authority that is read in front of a path. -/
def authority? : Text → Option Text
  | '/' :: '/' :: rest => some (cut ['/', '?', '#'] rest).1
  | _ => none

theorem parse_scheme (text : Text) : (parse text).scheme = (splitScheme text).1 := by
  unfold parse parseAuthority
  split <;> simp

theorem parse_authority (text : Text) :
    (parse text).authority = authority? (splitScheme text).2 := by
  unfold parse parseAuthority authority?
  split <;> simp

theorem not_mem_authority {text authority : Text}
    (found : (parse text).authority = some authority) :
    '/' ∉ authority := by
  rw [parse_authority] at found
  unfold authority? at found
  split at found
  next rest _ =>
    cases found
    exact not_mem_cut _ rest (by simp)
  next => contradiction

end Components
end Urls
