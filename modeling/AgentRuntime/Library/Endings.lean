import AgentRuntime.Library.Programs

/-! How programs end. The surroundings may answer an operation or make it raise, within what is
possible for them; a play follows their replies, and a rule says where the program returns and
where it raises. -/
namespace Programs

variable {O : Type} {A : O → Type} {ε α β : Type}

/-- The replies that the surroundings can give. -/
abbrev Replies (A : O → Type) (ε : Type) := (op : O) → Reply ε (A op) → Prop

/-- With the replies of the history the first program comes to stand at the second. An operation
that raises ends it. -/
inductive Played (ok : Replies A ε) :
    List (Entry O A ε) → Prog O A ε α → Prog O A ε α → Prop
  | refl (p) : Played ok [] p p
  | answered {op next q history} (answer : A op) : ok op (.answered answer) →
      Played ok history (next answer) q →
        Played ok (⟨op, .answered answer⟩ :: history) (.ask op next) q
  | raised {op next} (error : ε) : ok op (.raised error) →
      Played ok [⟨op, .raised error⟩] (.ask op next) (.raise error)

/-- Wherever the program is played to its end, it returns where `Q` holds or raises where `E`
holds. -/
def Ends (ok : Replies A ε) (Q : List (Entry O A ε) → α → Prop)
    (E : List (Entry O A ε) → ε → Prop) : List (Entry O A ε) → Prog O A ε α → Prop
  | history, .pure value => Q history value
  | history, .raise error => E history error
  | history, .ask op next =>
      (∀ answer, ok op (.answered answer) →
        Ends ok Q E (history ++ [⟨op, .answered answer⟩]) (next answer)) ∧
      ∀ error, ok op (.raised error) → E (history ++ [⟨op, .raised error⟩]) error

section Rules
variable {ok : Replies A ε} {Q R : List (Entry O A ε) → α → Prop}
  {E F : List (Entry O A ε) → ε → Prop} {history before : List (Entry O A ε)}

theorem Ends.bind {p : Prog O A ε α} {f : α → Prog O A ε β} {S : List (Entry O A ε) → β → Prop}
    (first : Ends ok (fun history value => Ends ok S E history (f value)) E history p) :
    Ends ok S E history (p >>= f) := by
  induction p generalizing history with
  | pure value => exact first
  | raise error => exact first
  | ask op next ih =>
      exact ⟨fun answer possible => ih answer (first.1 answer possible), first.2⟩

theorem Ends.mono {p : Prog O A ε α} (returns : ∀ history value, Q history value → R history value)
    (raises : ∀ history error, E history error → F history error) (ends : Ends ok Q E history p) :
    Ends ok R F history p := by
  induction p generalizing history with
  | pure value => exact returns history value ends
  | raise error => exact raises history error ends
  | ask op next ih =>
      exact ⟨fun answer possible => ih answer (ends.1 answer possible),
        fun error possible => raises _ _ (ends.2 error possible)⟩

theorem Ends.seq {p : Prog O A ε α} {f : α → Prog O A ε β} {S : List (Entry O A ε) → β → Prop}
    (first : Ends ok Q E history p)
    (rest : ∀ history value, Q history value → Ends ok S E history (f value)) :
    Ends ok S E history (p >>= f) :=
  .bind (first.mono rest fun _ _ same => same)

/-- The rule is sound: it holds at the end of every play. -/
theorem Ends.played {p q : Prog O A ε α} (ends : Ends ok Q E before p)
    (played : Played ok history p q) : Ends ok Q E (before ++ history) q := by
  induction played generalizing before with
  | refl p => rwa [List.append_nil]
  | answered answer possible _ ih =>
      have rest := ih (ends.1 answer possible)
      rwa [List.append_assoc, List.singleton_append] at rest
  | raised error possible => exact ends.2 error possible

end Rules

namespace Played
variable {ok : Replies A ε} {history later : List (Entry O A ε)}

theorem trans {p q r : Prog O A ε α} (first : Played ok history p q)
    (second : Played ok later q r) : Played ok (history ++ later) p r := by
  induction first with
  | refl p => exact second
  | answered answer possible _ ih => exact .answered answer possible (ih second)
  | raised error possible =>
      cases second with
      | refl => exact .raised error possible

theorem asked {op : O} {f : A op → Prog O A ε α} {q : Prog O A ε α} {answer : A op}
    (possible : ok op (.answered answer)) (rest : Played ok later (f answer) q) :
    Played ok (⟨op, .answered answer⟩ :: later) (Prog.request op >>= f) q :=
  .answered answer possible rest

theorem seq {p : Prog O A ε α} {f : α → Prog O A ε β} {q : Prog O A ε β} {value : α}
    (first : Played ok history p (Pure.pure value)) (second : Played ok later (f value) q) :
    Played ok (history ++ later) (p >>= f) q := by
  generalize same : (Pure.pure value : Prog O A ε α) = returned at first
  induction first with
  | refl p =>
      subst same
      exact second
  | answered answer possible _ ih => exact .answered answer possible (ih same)
  | raised => contradiction

theorem snoc {p : Prog O A ε α} {op : O} {next : A op → Prog O A ε α}
    (played : Played ok history p (.ask op next)) (reply : Except ε (A op))
    (possible : ok op (.ofExcept reply)) :
    Played ok (history ++ [⟨op, .ofExcept reply⟩]) p (Prog.after next reply) := by
  generalize same : Prog.ask op next = q at played
  induction played with
  | refl p =>
      subst same
      cases reply with
      | ok answer => exact .answered answer possible (.refl _)
      | error error => exact .raised error possible
  | answered earlier before _ ih => exact .answered earlier before (ih same)
  | raised => contradiction

theorem bind_raise {p : Prog O A ε α} {error : ε} (f : α → Prog O A ε β)
    (played : Played ok history p (.raise error)) :
    Played ok history (p >>= f) (.raise error) := by
  generalize same : (Prog.raise error : Prog O A ε α) = q at played
  induction played with
  | refl p =>
      subst same
      exact .refl _
  | answered answer possible _ ih => exact .answered answer possible (ih same)
  | raised error possible =>
      cases same
      exact .raised error possible

end Played

/-- Whatever is asked in a play is asked within the precondition. -/
theorem Follows.played {ok : Replies A ε} {P : List (Entry O A ε) → O → Prop}
    {Q : List (Entry O A ε) → α → Prop} {before history : List (Entry O A ε)} {p q : Prog O A ε α}
    (follows : Follows P before) (holds : wp P Q before p) (played : Played ok history p q) :
    Follows P (before ++ history) := by
  induction played generalizing before with
  | refl p => rwa [List.append_nil]
  | answered answer possible _ ih =>
      have rest := ih (follows.snoc holds.1) (holds.2 answer)
      rwa [List.append_assoc, List.singleton_append] at rest
  | raised error possible => exact follows.snoc holds.1

/-- The answers among the replies. -/
abbrev Replies.answers (ok : Replies A ε) (op : O) (answer : A op) : Prop :=
  ok op (.answered answer)

theorem Leads.played {ok : Replies A ε} {p q : Prog O A ε α} (leads : Leads ok.answers p q) :
    ∃ history, Played ok history p q := by
  induction leads with
  | refl p => exact ⟨[], .refl p⟩
  | ask answer possible _ ih =>
      obtain ⟨history, rest⟩ := ih
      exact ⟨_, .answered answer possible rest⟩

/-- The program can be played to an error outside `E`. -/
def Escapes (ok : Replies A ε) (E : ε → Prop) (p : Prog O A ε α) : Prop :=
  ∃ history error, Played ok history p (.raise error) ∧ ¬ E error

namespace Escapes
variable {ok : Replies A ε} {E : ε → Prop}

theorem raise {error : ε} (outside : ¬ E error) : Escapes ok E (.raise error : Prog O A ε α) :=
  ⟨[], error, .refl _, outside⟩

theorem request {op : O} {next : A op → Prog O A ε α} {error : ε}
    (possible : ok op (.raised error)) (outside : ¬ E error) : Escapes ok E (.ask op next) :=
  ⟨_, error, .raised error possible, outside⟩

theorem behind {p q : Prog O A ε α} (first : Leads ok.answers p q) (escapes : Escapes ok E q) :
    Escapes ok E p := by
  obtain ⟨_, error, rest, outside⟩ := escapes
  obtain ⟨_, played⟩ := first.played
  exact ⟨_, error, played.trans rest, outside⟩

theorem bind {p : Prog O A ε α} (f : α → Prog O A ε β) (escapes : Escapes ok E p) :
    Escapes ok E (p >>= f) := by
  obtain ⟨history, error, played, outside⟩ := escapes
  exact ⟨history, error, played.bind_raise f, outside⟩

theorem seq {p : Prog O A ε α} {f : α → Prog O A ε β} {value : α}
    (first : Leads ok.answers p (Pure.pure value)) (escapes : Escapes ok E (f value)) :
    Escapes ok E (p >>= f) := escapes.behind (first.bind f)

end Escapes
end Programs
