import AgentRuntime.Library.Urls

/-! References that only continue their base: the join of the two is then their concatenation, and
it is shorter otherwise. -/
namespace Urls

section Dots

def IsDot (segment : Text) : Prop := segment = ['.'] ∨ segment = ['.', '.']

/-- No segment of the path is a dot segment. -/
def Dotless (path : Text) : Prop := ∀ segment ∈ path.splitOn '/', ¬ IsDot segment

instance (segment : Text) : Decidable (IsDot segment) :=
  inferInstanceAs (Decidable (segment = ['.'] ∨ segment = ['.', '.']))

instance (path : Text) : Decidable (Dotless path) :=
  inferInstanceAs (Decidable (∀ segment ∈ path.splitOn '/', ¬ IsDot segment))

@[simp] theorem dotless_nil : Dotless [] := by
  simp [Dotless, IsDot]

@[simp] theorem dotless_slash (rest : Text) : Dotless ('/' :: rest) ↔ Dotless rest := by
  have split : ([] ++ '/' :: rest).splitOn '/' = [] :: rest.splitOn '/' :=
    List.splitOn_append_cons_self_of_not_mem (by simp) rest
  rw [List.nil_append] at split
  simp [Dotless, split, IsDot]

/-- The first segment, and the path behind it. -/
theorem dotless_append {segment later : Text} (plain : '/' ∉ segment)
    (starts : later = [] ∨ ∃ rest, later = '/' :: rest) :
    Dotless (segment ++ later) ↔ ¬ IsDot segment ∧ Dotless later := by
  rcases starts with rfl | ⟨rest, rfl⟩
  · simp [Dotless, List.splitOn_eq_singleton plain, IsDot]
  · rw [dotless_slash, Dotless, List.splitOn_append_cons_self_of_not_mem plain,
      List.forall_mem_cons]
    rfl

theorem not_dotless (segment : Text) {later : Text} (dot : IsDot segment)
    (starts : later = [] ∨ ∃ rest, later = '/' :: rest) : ¬ Dotless (segment ++ later) := by
  have plain : '/' ∉ segment := by
    rcases dot with rfl | rfl <;> decide
  exact fun dotless => ((dotless_append plain starts).mp dotless).1 dot

theorem not_isDot {segment later : Text} (starts : later = [] ∨ ∃ rest, later = '/' :: rest)
    (here : ∀ rest, segment ++ later ≠ '.' :: '/' :: rest) (last : segment ++ later ≠ ['.'])
    (up : ∀ rest, segment ++ later ≠ '.' :: '.' :: '/' :: rest)
    (lastUp : segment ++ later ≠ ['.', '.']) : ¬ IsDot segment := by
  rintro (rfl | rfl)
  · rcases starts with rfl | ⟨rest, rfl⟩
    · exact last rfl
    · exact here rest rfl
  · rcases starts with rfl | ⟨rest, rfl⟩
    · exact lastUp rfl
    · exact up rest rfl

/-- A segment that is moved to the output has no part in the dot segments behind it. -/
theorem dotless_moved {c : Char} {segment later : Text} (plain : '/' ∉ segment)
    (starts : later = [] ∨ ∃ rest, later = '/' :: rest) (behind : c = '/' → ¬ IsDot segment)
    (whole : c ≠ '/' → ¬ IsDot (c :: segment)) :
    Dotless (c :: segment ++ later) ↔ Dotless later := by
  by_cases slash : c = '/'
  · rw [slash, List.cons_append, dotless_slash, dotless_append plain starts,
      and_iff_right (behind slash)]
  · rw [dotless_append (by simp [plain, Ne.symm slash]) starts, and_iff_right (whole slash)]

theorem cut_slash (text : Text) :
    (cut ['/'] text).2 = [] ∨ ∃ rest, (cut ['/'] text).2 = '/' :: rest := by
  rcases cut_snd ['/'] text with empty | ⟨c, stop, rest, found⟩
  · exact .inl empty
  · exact .inr ⟨rest, List.mem_singleton.mp stop ▸ found⟩

theorem length_dropSegment_le (output : Text) : (dropSegment output).length ≤ output.length := by
  have shorter := (List.rdropWhile_prefix (ends ['/']) (l := output)).length_le
  rw [dropSegment, List.length_dropLast]
  omega

/-- Removal has kept the path, which has no dot segment, or has shortened it. -/
def Removed (input output result : Text) : Prop :=
  Dotless input ∧ result = output ++ input ∨
    ¬ Dotless input ∧ result.length < output.length + input.length

theorem Removed.length_le {input output result : Text} (removed : Removed input output result) :
    result.length ≤ output.length + input.length := by
  rcases removed with ⟨_, rfl⟩ | ⟨_, shorter⟩
  · exact (List.length_append).le
  · exact shorter.le

/-- Behind a dot segment there is less to keep. -/
theorem Removed.shorter {input input' output output' result : Text}
    (removed : Removed input' output' result) (dotted : ¬ Dotless input)
    (less : output'.length + input'.length < output.length + input.length) :
    Removed input output result :=
  .inr ⟨dotted, removed.length_le.trans_lt less⟩

/-- A segment is moved to the output, with the slash in front of it. -/
theorem Removed.moved {segment later output result : Text}
    (removed : Removed later (output ++ segment) result)
    (same : Dotless (segment ++ later) ↔ Dotless later) :
    Removed (segment ++ later) output result := by
  unfold Removed
  rw [same]
  rcases removed with ⟨dotless, rfl⟩ | ⟨dotted, shorter⟩
  · exact .inl ⟨dotless, List.append_assoc ..⟩
  · refine .inr ⟨dotted, ?_⟩
    rw [List.length_append] at shorter ⊢
    omega

theorem removeDots_removed {rounds : Nat} {input : Text} (enough : input.length ≤ rounds)
    (output : Text) : Removed input output (removeDots rounds input output) := by
  fun_induction removeDots rounds input output
  case case1 input output =>
    rw [List.length_eq_zero_iff.mp (Nat.le_zero.mp enough)]
    exact .inl ⟨dotless_nil, (List.append_nil output).symm⟩
  case case2 output => exact .inl ⟨dotless_nil, (List.append_nil output).symm⟩
  case case3 output rest _ ih =>
    simp only [List.length_cons] at enough
    have dotted := not_dotless ['.', '.'] (.inr rfl) (.inr ⟨rest, rfl⟩)
    exact (ih (by omega)).shorter dotted (by simp only [List.length_cons]; omega)
  case case4 output rest _ ih =>
    simp only [List.length_cons] at enough
    have dotted := not_dotless ['.'] (.inl rfl) (.inr ⟨rest, rfl⟩)
    exact (ih (by omega)).shorter dotted (by simp only [List.length_cons]; omega)
  case case5 output rest _ ih =>
    simp only [List.length_cons] at enough ih
    have dotted := not_dotless ['.'] (.inl rfl) (.inr ⟨rest, rfl⟩)
    rw [← dotless_slash] at dotted
    exact (ih (by omega)).shorter dotted (by simp only [List.length_cons]; omega)
  case case6 output _ ih =>
    simp only [List.length_cons] at enough ih
    have dotted := not_dotless ['.'] (.inl rfl) (.inl rfl)
    rw [← dotless_slash] at dotted
    exact (ih (by omega)).shorter dotted (by simp only [List.length_cons]; omega)
  case case7 output rest _ ih =>
    simp only [List.length_cons] at enough ih
    have dotted := not_dotless ['.', '.'] (.inr rfl) (.inr ⟨rest, rfl⟩)
    rw [← dotless_slash] at dotted
    have dropped := length_dropSegment_le output
    exact (ih (by omega)).shorter dotted (by simp only [List.length_cons]; omega)
  case case8 output _ ih =>
    simp only [List.length_cons] at enough ih
    have dotted := not_dotless ['.', '.'] (.inr rfl) (.inl rfl)
    rw [← dotless_slash] at dotted
    have dropped := length_dropSegment_le output
    exact (ih (by omega)).shorter dotted (by simp only [List.length_cons]; omega)
  case case9 output _ ih =>
    have dotted := not_dotless ['.'] (.inl rfl) (.inl rfl)
    exact (ih (Nat.zero_le _)).shorter dotted (by simp only [List.length_cons]; omega)
  case case10 output _ ih =>
    have dotted := not_dotless ['.', '.'] (.inr rfl) (.inl rfl)
    exact (ih (Nat.zero_le _)).shorter dotted (by simp only [List.length_cons]; omega)
  case case11 output c rest up here under only upper both dot dots segment later split _ ih =>
    have whole := cut_append_snd ['/'] rest
    have plain := not_mem_cut ['/'] rest (List.mem_singleton_self '/')
    have starts := cut_slash rest
    rw [split] at whole plain starts
    subst whole
    have kept : Dotless (c :: segment ++ later) ↔ Dotless later := by
      refine dotless_moved plain starts (fun slash => ?_) fun _ => ?_
      · subst slash
        exact not_isDot starts (fun rest => under rest rfl) (only rfl)
          (fun rest => upper rest rfl) (both rfl)
      · refine not_isDot starts (fun rest same => ?_) (fun same => ?_) (fun rest same => ?_)
          fun same => ?_
        · exact here rest (List.cons.inj same).1 (List.cons.inj same).2
        · exact dot (List.cons.inj same).1 (List.cons.inj same).2
        · exact up rest (List.cons.inj same).1 (List.cons.inj same).2
        · exact dots (List.cons.inj same).1 (List.cons.inj same).2
    simp only [List.length_cons, List.length_append] at enough
    exact (ih (by omega)).moved kept
  case case12 => contradiction

theorem removeDotSegments_removed (path : Text) : Removed path [] (removeDotSegments path) :=
  removeDots_removed (Nat.le_refl _) []

theorem length_removeDotSegments_le (path : Text) :
    (removeDotSegments path).length ≤ path.length := by
  simpa using (removeDotSegments_removed path).length_le

end Dots

/-- The text ends with one slash. -/
def Directory (base : Text) : Prop := ∃ front, base = front ++ ['/'] ∧ front.getLast? ≠ some '/'

/-- The reference has no component that takes the place of one of the base. -/
structure Continues (base reference : Reference) : Prop where
  scheme : reference.scheme = none
  fragment : base.fragment = none
  query : base.query = none ∨ reference.path = [] ∧ reference.query = none
  dotless : reference.path ≠ [] → Dotless (base.path ++ reference.path)

section Join
variable {base reference : Text}

theorem length_recompose (reference : Reference) :
    (recompose reference).length = (schemeText reference.scheme).length +
      (marked ['/', '/'] reference.authority).length + reference.path.length +
      (marked ['?'] reference.query).length + (marked ['#'] reference.fragment).length := by
  simp only [recompose, List.length_append]

theorem getLast?_directory (directory : Directory base) : base.getLast? = some '/' := by
  obtain ⟨front, rfl, _⟩ := directory
  simp

/-- A query or a fragment of a base that ends with a slash is not empty. -/
theorem directory_marked (directory : Directory base)
    (some : (parse base).query ≠ none ∨ (parse base).fragment ≠ none) :
    2 ≤ (marked ['?'] (parse base).query).length + (marked ['#'] (parse base).fragment).length := by
  have last := getLast?_directory directory
  rw [← recompose_parse base, recompose] at last
  cases fragment : (parse base).fragment with
  | some text =>
      cases text with
      | nil => simp [fragment, marked] at last
      | cons c text => simp [marked]; omega
  | none =>
      cases query : (parse base).query with
      | some text =>
          cases text with
          | nil => simp [fragment, query, marked] at last
          | cons c text => simp [marked]
      | none => simp [query, fragment] at some

/-- Without query and fragment, the path of the base ends with the slash. -/
theorem directory_path (directory : Directory base) (query : (parse base).query = none)
    (fragment : (parse base).fragment = none) : (parse base).path.getLast? = some '/' := by
  have last := getLast?_directory directory
  have whole := recompose_parse base
  rw [recompose, query, fragment] at whole
  cases path : (parse base).path with
  | cons c rest =>
      rw [← whole] at last
      simpa [marked, path, List.getLast?_append] using last
  | nil =>
      exfalso
      rw [path] at whole
      cases authority : (parse base).authority with
      | none =>
          rw [← whole, authority] at last
          cases scheme : (parse base).scheme <;> simp [schemeText, marked, scheme] at last
      | some text =>
          rw [authority] at whole
          cases text with
          | cons c text =>
              have member : '/' ∈ c :: text := by
                refine List.mem_of_getLast? ?_
                rw [← whole] at last
                simpa [marked, List.getLast?_append] using last
              exact not_mem_authority authority member
          | nil =>
              obtain ⟨front, rfl, single⟩ := directory
              have double : schemeText (parse (front ++ ['/'])).scheme ++ ['/'] = front := by
                refine (List.append_left_inj ['/']).mp ?_
                simpa [marked] using whole
              exact single (by rw [← double]; simp)

/-- A reference without scheme that does not begin with a slash has neither authority nor a path
that begins with one. -/
theorem relative_of_head (head : reference.head? ≠ some '/')
    (scheme : (parse reference).scheme = none) :
    (parse reference).authority = none ∧ (parse reference).path.head? ≠ some '/' := by
  rw [← recompose_parse reference, recompose, scheme] at head
  cases authority : (parse reference).authority with
  | some text => simp [authority, schemeText, marked] at head
  | none =>
      refine ⟨rfl, fun slash => head ?_⟩
      simp [authority, schemeText, marked, List.head?_append, slash]

end Join

/-- The resolved reference is the concatenation of base and reference, or shorter. -/
def Joined (base reference : Reference) : Prop :=
  Continues base reference ∧ recompose (resolve base reference) =
      recompose base ++ recompose reference ∨
    ¬ Continues base reference ∧ (recompose (resolve base reference)).length <
      (recompose base).length + (recompose reference).length

section Resolve
variable {base reference : Reference}

@[simp] theorem marked_none (mark : Text) : marked mark none = [] := rfl

@[simp] theorem length_marked_some (mark text : Text) :
    (marked mark (some text)).length = mark.length + text.length := List.length_append

theorem joined_scheme (base_pos : 0 < (recompose base).length)
    (scheme : reference.scheme.isSome) : Joined base reference := by
  refine .inr ⟨fun continues => ?_, ?_⟩
  · rw [continues.scheme] at scheme
    contradiction
  · have shorter := length_removeDotSegments_le reference.path
    rw [resolve, if_pos scheme, length_recompose { reference with path := _ },
      length_recompose reference]
    dsimp only
    omega

theorem joined_same_path (scheme : reference.scheme = none) (authority : reference.authority = none)
    (path : reference.path = []) : Joined base reference := by
  have resolved : resolve base reference =
      { base with query := reference.query.or base.query, fragment := reference.fragment } := by
    simp [resolve, scheme, authority, path]
  by_cases continues : Continues base reference
  · refine .inl ⟨continues, ?_⟩
    rw [resolved]
    rcases continues.query with none | ⟨_, none⟩ <;>
      simp [recompose, continues.fragment, none, schemeText, scheme, authority, path]
  · refine .inr ⟨continues, ?_⟩
    have no_query : base.fragment = none → base.query ≠ none := fun fragment query =>
      continues ⟨scheme, fragment, .inl query, fun some => absurd path some⟩
    have own_query : base.fragment = none → reference.query ≠ none := fun fragment query =>
      continues ⟨scheme, fragment, .inr ⟨path, query⟩, fun some => absurd path some⟩
    rw [resolved]
    simp only [length_recompose]
    cases fragment : base.fragment with
    | some text =>
        cases query : reference.query <;> simp <;> omega
    | none =>
        cases query : reference.query with
        | none => exact absurd query (own_query fragment)
        | some text =>
            cases first : base.query with
            | none => exact absurd first (no_query fragment)
            | some text => simp; omega

theorem length_merge_le (base : Reference) (path : Text) :
    (merge base path).length ≤ base.path.length + 1 + path.length := by
  have shorter := (List.rdropWhile_prefix (ends ['/']) (l := base.path)).length_le
  unfold merge
  split
  next => rw [List.length_cons]; omega
  next => rw [List.length_append]; omega

theorem merge_of_getLast? {path : Text} (slash : base.path.getLast? = some '/') :
    merge base path = base.path ++ path := by
  have last : base.path.rdropWhile (ends ['/']) = base.path := by
    refine List.rdropWhile_eq_self_iff.mpr fun nonempty => ?_
    rw [List.getLast?_eq_some_getLast nonempty] at slash
    simp [Option.some.inj slash, ends]
  have nonempty : base.path.isEmpty = false := by
    cases path : base.path with
    | nil => simp [path] at slash
    | cons c rest => rfl
  rw [merge, nonempty, Bool.and_false, if_neg (by simp), last]

theorem joined_path (marks : base.query ≠ none ∨ base.fragment ≠ none →
      2 ≤ (marked ['?'] base.query).length + (marked ['#'] base.fragment).length)
    (slash : base.query = none → base.fragment = none → base.path.getLast? = some '/')
    (scheme : reference.scheme = none) (authority : reference.authority = none)
    (path : reference.path ≠ []) (head : reference.path.head? ≠ some '/') :
    Joined base reference := by
  have resolved : resolve base reference =
      { base with path := removeDotSegments (merge base reference.path), query := reference.query,
                  fragment := reference.fragment } := by
    simp [resolve, scheme, authority, path, head]
  rw [Joined, resolved]
  by_cases plain : base.query = none ∧ base.fragment = none
  · obtain ⟨query, fragment⟩ := plain
    rw [merge_of_getLast? (slash query fragment)]
    rcases removeDotSegments_removed (base.path ++ reference.path) with
      ⟨dotless, kept⟩ | ⟨dotted, shorter⟩
    · refine .inl ⟨⟨scheme, fragment, .inl query, fun _ => dotless⟩, ?_⟩
      simp [recompose, kept, query, fragment, scheme, authority, schemeText]
    · refine .inr ⟨fun continues => dotted (continues.dotless path), ?_⟩
      simp only [length_recompose, List.length_append, List.length_nil] at shorter ⊢
      omega
  · have longer := marks (by tauto)
    have merged := length_merge_le base reference.path
    have removed := length_removeDotSegments_le (merge base reference.path)
    refine .inr ⟨fun continues => plain ⟨?_, continues.fragment⟩, ?_⟩
    · exact continues.query.resolve_right fun own => path own.1
    · simp only [length_recompose]
      omega

end Resolve

/-- Under a base that ends with one slash, a reference that does not begin with one is appended
where it continues the base, and the join is shorter where it does not. -/
theorem join_cases {base reference : Text} (directory : Directory base)
    (head : reference.head? ≠ some '/') :
    Continues (parse base) (parse reference) ∧ join base reference = base ++ reference ∨
      ¬ Continues (parse base) (parse reference) ∧
        (join base reference).length < base.length + reference.length := by
  have joined : Joined (parse base) (parse reference) := by
    by_cases scheme : (parse reference).scheme = none
    · obtain ⟨authority, relative⟩ := relative_of_head head scheme
      by_cases path : (parse reference).path = []
      · exact joined_same_path scheme authority path
      · exact joined_path (directory_marked directory) (directory_path directory) scheme authority
          path relative
    · refine joined_scheme ?_ (Option.isSome_iff_ne_none.mpr scheme)
      obtain ⟨front, rfl, _⟩ := directory
      simp [recompose_parse]
  rwa [Joined, recompose_parse, recompose_parse] at joined

section Origin

/-- The scheme and the authority, which say where a request goes. -/
def origin (text : Text) : Option Text × Option Text :=
  ((parse text).scheme, (parse text).authority)

variable {front behind : Text}

theorem cut_append (stops front : Text) (slash : '/' ∈ stops)
    (starts : behind = [] ∨ ∃ rest, behind = '/' :: rest) :
    cut stops (front ++ behind) = ((cut stops front).1, (cut stops front).2 ++ behind) := by
  have stopped : behind.takeWhile (ends stops) = [] ∧ behind.dropWhile (ends stops) = behind := by
    rcases starts with rfl | ⟨rest, rfl⟩ <;> simp [ends, slash]
  unfold cut
  rw [List.takeWhile_append, List.dropWhile_append]
  split
  next all =>
    have whole : front.takeWhile (ends stops) = front :=
      (List.takeWhile_sublist _).eq_of_length all
    have none : front.dropWhile (ends stops) = [] := by
      simpa [whole] using List.takeWhile_append_dropWhile (p := ends stops) (l := front)
    simp [whole, none, stopped]
  next part =>
    have some : (front.dropWhile (ends stops)).isEmpty = false := by
      refine Bool.eq_false_iff.mpr fun empty => part ?_
      have whole := List.takeWhile_append_dropWhile (p := ends stops) (l := front)
      rw [List.isEmpty_iff.mp empty, List.append_nil] at whole
      rw [whole]
    rw [some]
    rfl

theorem splitScheme_append_slash (starts : behind = [] ∨ ∃ rest, behind = '/' :: rest) :
    splitScheme (front ++ behind) = ((splitScheme front).1, (splitScheme front).2 ++ behind) := by
  have split := cut_append [':', '/', '?', '#'] front (by simp) starts
  unfold splitScheme
  rw [split]
  generalize cut [':', '/', '?', '#'] front = pieces
  obtain ⟨scheme, rest⟩ := pieces
  cases scheme with
  | nil => rfl
  | cons c scheme =>
      cases rest with
      | nil => rcases starts with rfl | ⟨later, rfl⟩ <;> rfl
      | cons d rest =>
          by_cases colon : d = ':'
          · subst colon
            rfl
          · simp [colon]

theorem getLast?_splitScheme (plain : front.getLast? ≠ some '/') :
    (splitScheme front).2.getLast? ≠ some '/' := by
  intro last
  refine plain ?_
  rw [← splitScheme_append front, List.getLast?_append, last]
  rfl

theorem authority?_append (plain : front.getLast? ≠ some '/') (nonempty : front ≠ [])
    (starts : behind = [] ∨ ∃ rest, behind = '/' :: rest) :
    authority? (front ++ behind) = authority? front := by
  rcases front with _ | ⟨c, _ | ⟨d, rest⟩⟩
  · contradiction
  · have other : c ≠ '/' := by simpa using plain
    simp [authority?, other]
  · by_cases slashes : c = '/' ∧ d = '/'
    · obtain ⟨rfl, rfl⟩ := slashes
      have split := cut_append ['/', '?', '#'] rest (by simp) starts
      simp [authority?, split]
    · have none (text : Text) : authority? (c :: d :: text) = none := by
        unfold authority?
        split
        next found =>
          obtain ⟨first, later⟩ := List.cons.inj found
          exact absurd ⟨first, (List.cons.inj later).1⟩ slashes
        next => rfl
      exact (none _).trans (none rest).symm

theorem origin_append (plain : front.getLast? ≠ some '/')
    (starts : behind = [] ∨ ∃ rest, behind = '/' :: rest)
    (host : authority? behind = none ∨ (splitScheme front).2 ≠ []) :
    origin (front ++ behind) = origin front := by
  unfold origin
  rw [parse_scheme, parse_scheme, parse_authority, parse_authority, splitScheme_append_slash starts]
  refine congrArg _ ?_
  by_cases nonempty : (splitScheme front).2 = []
  · rw [nonempty, List.nil_append]
    exact host.resolve_right fun some => some nonempty
  · exact authority?_append (getLast?_splitScheme plain) nonempty starts

theorem getLast?_rdropWhile (base : Text) : (base.rdropWhile (· = '/')).getLast? ≠ some '/' := by
  intro last
  by_cases empty : base.rdropWhile (· = '/') = []
  · simp [empty] at last
  · have other := List.rdropWhile_last_not _ _ empty
    rw [List.getLast?_eq_some_getLast empty] at last
    simp [Option.some.inj last] at other

/-- A base with a host keeps its origin when a path is put behind its slashes. -/
theorem origin_continued {base path host : Text} (named : (parse base).authority = some host)
    (nonempty : host ≠ []) (head : path.head? ≠ some '/') :
    origin (base.rdropWhile (· = '/') ++ '/' :: path) = origin base := by
  have plain := getLast?_rdropWhile base
  have slashes : ∀ c ∈ base.rtakeWhile (· = '/'), c = '/' := fun c member => by
    simpa using List.mem_rtakeWhile_imp member
  have starts : base.rtakeWhile (· = '/') = [] ∨
      ∃ rest, base.rtakeWhile (· = '/') = '/' :: rest := by
    cases found : base.rtakeWhile (· = '/') with
    | nil => exact .inl rfl
    | cons c rest => exact .inr ⟨rest, by rw [slashes c (found ▸ List.mem_cons_self)]⟩
  have whole : base.rdropWhile (· = '/') ++ base.rtakeWhile (· = '/') = base :=
    List.rdropWhile_append_rtakeWhile
  have behind : authority? ('/' :: path) = none := by
    cases path with
    | nil => rfl
    | cons c path =>
        have other : c ≠ '/' := by simpa using head
        simp [authority?, other]
  rw [origin_append plain (.inr ⟨path, rfl⟩) (.inl behind)]
  conv_rhs => rw [← whole]
  refine (origin_append plain starts (.inr fun empty => nonempty ?_)).symm
  rw [parse_authority, ← whole, splitScheme_append_slash starts, empty, List.nil_append] at named
  dsimp only at named
  unfold authority? at named
  split at named
  next rest found =>
    cases named
    cases rest with
    | nil => rfl
    | cons c rest =>
        have member : c ∈ '/' :: '/' :: c :: rest := by simp
        have slash : c = '/' := slashes c (found ▸ member)
        simp [cut, ends, slash]
  next => contradiction

end Origin
end Urls
