import Mathlib.Tactic.Common

/-! Programs that interact with their surroundings. A program returns, raises, or asks an
operation and goes on with its answer; the surroundings answer, make the operation raise, or
stop the program. A history lists what was asked, with the replies. -/
namespace Programs

inductive Prog (O : Type) (A : O → Type) (ε α : Type) where
  | pure (value : α)
  | raise (error : ε)
  | ask (op : O) (next : A op → Prog O A ε α)

variable {O : Type} {A : O → Type} {ε α β γ : Type}

/-- What the surroundings make of an operation. -/
inductive Reply (ε α : Type) where
  | answered (value : α)
  | raised (error : ε)
  | stopped

def Reply.ofExcept : Except ε α → Reply ε α
  | .ok value => .answered value
  | .error error => .raised error

structure Entry (O : Type) (A : O → Type) (ε : Type) where
  op : O
  reply : Reply ε (A op)

namespace Prog

def bind : Prog O A ε α → (α → Prog O A ε β) → Prog O A ε β
  | .pure value, next => next value
  | .raise error, _ => .raise error
  | .ask op rest, next => .ask op fun answer => (rest answer).bind next

instance : Monad (Prog O A ε) where
  pure := .pure
  bind := .bind

def request (op : O) : Prog O A ε (A op) := .ask op .pure

def after {op : O} (next : A op → Prog O A ε α) : Except ε (A op) → Prog O A ε α
  | .ok value => next value
  | .error error => .raise error

end Prog

/-- Every operation is asked where `P` allows it after what was asked before, and every
value is returned where `Q` holds. An operation that raises ends the program. -/
def wp (P : List (Entry O A ε) → O → Prop) (Q : List (Entry O A ε) → α → Prop) :
    List (Entry O A ε) → Prog O A ε α → Prop
  | history, .pure value => Q history value
  | _, .raise _ => True
  | history, .ask op next =>
      P history op ∧ ∀ answer, wp P Q (history ++ [⟨op, .answered answer⟩]) (next answer)

section Rules
variable {P : List (Entry O A ε) → O → Prop} {Q R : List (Entry O A ε) → α → Prop}
  {history : List (Entry O A ε)}

theorem wp_bind (p : Prog O A ε α) (f : α → Prog O A ε β) {S : List (Entry O A ε) → β → Prop}
    (first : wp P (fun history value => wp P S history (f value)) history p) :
    wp P S history (p >>= f) := by
  induction p generalizing history with
  | pure value => exact first
  | raise error => trivial
  | ask op next ih => exact ⟨first.1, fun answer => ih answer (first.2 answer)⟩

/-- The rule of consequence. -/
theorem wp_mono {P' : List (Entry O A ε) → O → Prop} {p : Prog O A ε α}
    (asks : ∀ history op, P history op → P' history op)
    (returns : ∀ history value, Q history value → R history value) (holds : wp P Q history p) :
    wp P' R history p := by
  induction p generalizing history with
  | pure value => exact returns history value holds
  | raise error => trivial
  | ask op next ih => exact ⟨asks history op holds.1, fun answer => ih answer (holds.2 answer)⟩

/-- The rule of sequence. -/
theorem wp_seq {p : Prog O A ε α} {f : α → Prog O A ε β} {S : List (Entry O A ε) → β → Prop}
    (first : wp P Q history p)
    (rest : ∀ history value, Q history value → wp P S history (f value)) :
    wp P S history (p >>= f) := wp_bind p f (wp_mono (fun _ _ asked => asked) rest first)

theorem wp_request_seq {op : O} {f : A op → Prog O A ε β} {S : List (Entry O A ε) → β → Prop}
    (asks : P history op)
    (rest : ∀ answer, wp P S (history ++ [⟨op, .answered answer⟩]) (f answer)) :
    wp P S history (Prog.request op >>= f) := ⟨asks, rest⟩

theorem wp_after {op : O} {next : A op → Prog O A ε α} (holds : wp P Q history (.ask op next))
    (reply : Except ε (A op)) :
    wp P Q (history ++ [⟨op, .ofExcept reply⟩]) (Prog.after next reply) := by
  cases reply with
  | ok value => exact holds.2 value
  | error error => trivial

end Rules

/-- Whatever was asked before and is answered, the program asks within `P`. -/
def Within (P : O → Prop) (p : Prog O A ε α) : Prop :=
  ∀ history, wp (fun _ => P) (fun _ _ => True) history p

namespace Within
variable {P P' : O → Prop}

theorem pure (value : α) : Within P (Pure.pure value : Prog O A ε α) := fun _ => trivial

theorem raise (error : ε) : Within P (.raise error : Prog O A ε α) := fun _ => trivial

theorem request {op : O} (asks : P op) : Within P (Prog.request op : Prog O A ε (A op)) :=
  fun _ => ⟨asks, fun _ => trivial⟩

theorem bind {p : Prog O A ε α} {f : α → Prog O A ε β} (first : Within P p)
    (rest : ∀ value, Within P (f value)) : Within P (p >>= f) :=
  fun history => wp_seq (first history) fun after value _ => rest value after

theorem mono {p : Prog O A ε α} (wider : ∀ op, P op → P' op) (within : Within P p) :
    Within P' p :=
  fun history => wp_mono (fun _ => wider) (fun _ _ same => same) (within history)

/-- What was asked before does not matter. -/
theorem of_wp {p : Prog O A ε α} {history : List (Entry O A ε)}
    (holds : wp (fun _ => P) (fun _ _ => True) history p) : Within P p := by
  intro other
  induction p generalizing history other with
  | pure | raise => trivial
  | ask op next ih => exact ⟨holds.1, fun answer => ih answer (holds.2 answer) _⟩

theorem next {op : O} {next : A op → Prog O A ε α} (within : Within P (.ask op next)) :
    P op ∧ ∀ answer, Within P (next answer) :=
  ⟨(within []).1, fun answer => .of_wp ((within []).2 answer)⟩

end Within

/-- `C` holds of every operation that the program comes to ask, with how the program goes on. -/
def Throughout (C : (op : O) → (A op → Prog O A ε α) → Prop) : Prog O A ε α → Prop
  | .pure _ | .raise _ => True
  | .ask op next => C op next ∧ ∀ answer, Throughout C (next answer)

namespace Throughout
variable {C : (op : O) → (A op → Prog O A ε α) → Prop}
  {D : (op : O) → (A op → Prog O A ε β) → Prop}

theorem of_within {P : O → Prop} {p : Prog O A ε α} (within : Within P p)
    (holds : ∀ op next, P op → C op next) : Throughout C p := by
  induction p with
  | pure | raise => trivial
  | ask op next ih =>
      exact ⟨holds op next within.next.1, fun answer => ih answer (within.next.2 answer)⟩

theorem bind {p : Prog O A ε α} {f : α → Prog O A ε β} (first : Throughout C p)
    (stable : ∀ op next, C op next → D op fun answer => next answer >>= f)
    (rest : ∀ value, Throughout D (f value)) : Throughout D (p >>= f) := by
  induction p with
  | pure value => exact rest value
  | raise error => trivial
  | ask op next ih => exact ⟨stable op next first.1, fun answer => ih answer (first.2 answer)⟩

end Throughout

def Follows (P : List (Entry O A ε) → O → Prop) (history : List (Entry O A ε)) : Prop :=
  ∀ before entry after, history = before ++ entry :: after → P before entry.op

theorem Follows.nil {P : List (Entry O A ε) → O → Prop} : Follows P [] := by
  intro before entry after same
  simp at same

theorem Follows.mono {P P' : List (Entry O A ε) → O → Prop} {history : List (Entry O A ε)}
    (weaker : ∀ before op, P before op → P' before op) (follows : Follows P history) :
    Follows P' history :=
  fun before entry after same => weaker before entry.op (follows before entry after same)

theorem Follows.snoc {P : List (Entry O A ε) → O → Prop} {history : List (Entry O A ε)}
    {entry : Entry O A ε} (follows : Follows P history) (asked : P history entry.op) :
    Follows P (history ++ [entry]) := by
  intro before other after same
  rcases List.append_eq_append_iff.mp same with ⟨middle, rfl, rest⟩ | ⟨middle, rfl, rest⟩
  · cases middle with
    | nil =>
        cases rest
        simpa using asked
    | cons first middle => simp at rest
  · cases middle with
    | nil =>
        cases rest
        simpa using asked
    | cons first middle =>
        cases rest
        exact follows before other middle rfl

/-- With the answers of the history the first program comes to stand at the second. -/
inductive Answered : List (Entry O A ε) → Prog O A ε α → Prog O A ε α → Prop
  | refl (p) : Answered [] p p
  | ask {op next q history} (answer : A op) : Answered history (next answer) q →
      Answered (⟨op, .answered answer⟩ :: history) (.ask op next) q

section Answered
variable {P : List (Entry O A ε) → O → Prop} {Q : List (Entry O A ε) → α → Prop}
  {before history : List (Entry O A ε)}

/-- What holds of a program holds of where it comes to stand. -/
theorem wp_answered {p q : Prog O A ε α} (holds : wp P Q before p)
    (answered : Answered history p q) : wp P Q (before ++ history) q := by
  induction answered generalizing before with
  | refl p => rwa [List.append_nil]
  | ask answer _ ih =>
      have rest := ih (holds.2 answer)
      rwa [List.append_assoc, List.singleton_append] at rest

theorem Throughout.answered {C : (op : O) → (A op → Prog O A ε α) → Prop} {p q : Prog O A ε α}
    (holds : Throughout C p) (answered : Answered history p q) : Throughout C q := by
  induction answered with
  | refl p => exact holds
  | ask answer _ ih => exact ih (holds.2 answer)

theorem wp_returned {p : Prog O A ε α} {value : α} (holds : wp P Q [] p)
    (answered : Answered history p (Pure.pure value)) : Q history value :=
  wp_answered holds answered

theorem Answered.snoc {p : Prog O A ε α} {op : O} {next : A op → Prog O A ε α}
    (answered : Answered history p (.ask op next)) (answer : A op) :
    Answered (history ++ [⟨op, .answered answer⟩]) p (next answer) := by
  generalize same : Prog.ask op next = q at answered
  induction answered with
  | refl p =>
      subst same
      exact .ask answer (.refl _)
  | ask earlier _ ih => exact .ask earlier (ih same)

/-- Where a program asks or returns, it has been answered up to there. -/
theorem wp_record {p : Prog O A ε α} (holds : wp P Q before p) :
    wp (fun after op => P after op ∧
        ∃ history next, after = before ++ history ∧ Answered history p (.ask op next))
      (fun after value => Q after value ∧
        ∃ history, after = before ++ history ∧ Answered history p (Pure.pure value)) before p := by
  induction p generalizing before with
  | pure value => exact ⟨holds, [], (List.append_nil _).symm, .refl _⟩
  | raise error => trivial
  | ask op next ih =>
      refine ⟨⟨holds.1, [], next, (List.append_nil _).symm, .refl _⟩, fun answer => ?_⟩
      refine wp_mono ?_ ?_ (ih answer (holds.2 answer))
      · rintro after op ⟨asks, history, next, rfl, answered⟩
        exact ⟨asks, _, next, List.append_assoc _ _ _, .ask answer answered⟩
      · rintro after value ⟨returns, history, rfl, answered⟩
        exact ⟨returns, _, List.append_assoc _ _ _, .ask answer answered⟩

end Answered

/-- With answers in `ok` the first program comes to stand at the second. -/
inductive Leads (ok : (op : O) → A op → Prop) : Prog O A ε α → Prog O A ε α → Prop
  | refl (p) : Leads ok p p
  | ask {op next q} (answer : A op) : ok op answer → Leads ok (next answer) q →
      Leads ok (.ask op next) q

namespace Leads
variable {ok : (op : O) → A op → Prop}

theorem trans {p q r : Prog O A ε α} (first : Leads ok p q) (second : Leads ok q r) :
    Leads ok p r := by
  induction first with
  | refl p => exact second
  | ask answer possible _ ih => exact .ask answer possible (ih second)

theorem answered {p q : Prog O A ε α} (leads : Leads ok p q) :
    ∃ history, Answered history p q := by
  induction leads with
  | refl p => exact ⟨[], .refl p⟩
  | ask answer _ _ ih =>
      obtain ⟨history, rest⟩ := ih
      exact ⟨_, .ask answer rest⟩

theorem request {op : O} (answer : A op) (possible : ok op answer) :
    Leads ok (Prog.request op : Prog O A ε (A op)) (Pure.pure answer) :=
  .ask answer possible (.refl _)

theorem bind {p q : Prog O A ε α} (f : α → Prog O A ε β) (first : Leads ok p q) :
    Leads ok (p >>= f) (q >>= f) := by
  induction first with
  | refl p => exact .refl _
  | ask answer possible _ ih => exact .ask answer possible ih

theorem seq {p : Prog O A ε α} {f : α → Prog O A ε β} {value : α} {q : Prog O A ε β}
    (first : Leads ok p (Pure.pure value)) (second : Leads ok (f value) q) :
    Leads ok (p >>= f) q := (first.bind f).trans second

end Leads

theorem Within.leads {ok : (op : O) → A op → Prop} {P : O → Prop} {p q : Prog O A ε α}
    (within : Within P p) (leads : Leads ok p q) : Within P q := by
  induction leads with
  | refl p => exact within
  | ask answer _ _ ih => exact ih (within.next.2 answer)

/-- With answers in `ok` the program gets to ask the operation. -/
def Gets (ok : (op : O) → A op → Prop) (op : O) (p : Prog O A ε α) : Prop :=
  ∃ next, Leads ok p (.ask op next)

namespace Gets
variable {ok : (op : O) → A op → Prop} {op : O}

theorem behind {p q : Prog O A ε α} (first : Leads ok p q) (gets : Gets ok op q) :
    Gets ok op p := by
  obtain ⟨next, leads⟩ := gets
  exact ⟨next, first.trans leads⟩

theorem bind {p : Prog O A ε α} (f : α → Prog O A ε β) (gets : Gets ok op p) :
    Gets ok op (p >>= f) := by
  obtain ⟨next, leads⟩ := gets
  exact ⟨_, leads.bind f⟩

theorem seq {p : Prog O A ε α} {f : α → Prog O A ε β} {value : α}
    (first : Leads ok p (Pure.pure value)) (gets : Gets ok op (f value)) :
    Gets ok op (p >>= f) := gets.behind (first.bind f)

theorem within {P : O → Prop} {p : Prog O A ε α} (gets : Gets ok op p) (asks : Within P p) :
    P op := by
  obtain ⟨next, leads⟩ := gets
  exact (asks.leads leads).next.1

end Gets
end Programs
