import AgentRuntime.Library.Programs

/-! What a program may spend. Each operation has a price, and a bound holds of all operations of
one run together, whatever they are answered. -/
namespace Programs

variable {O : Type} {A : O → Type} {ε α β : Type}

/-- Whatever it is answered, the program asks operations for the budget at most. -/
def Affords (price : O → Nat) : Nat → Prog O A ε α → Prop
  | _, .pure _ => True
  | _, .raise _ => True
  | budget, .ask op next =>
      price op ≤ budget ∧ ∀ answer, Affords price (budget - price op) (next answer)

def spent (price : O → Nat) : List (Entry O A ε) → Nat
  | [] => 0
  | entry :: rest => price entry.op + spent price rest

@[simp] theorem spent_nil (price : O → Nat) : spent price ([] : List (Entry O A ε)) = 0 := rfl

theorem spent_snoc (price : O → Nat) (history : List (Entry O A ε)) (entry : Entry O A ε) :
    spent price (history ++ [entry]) = spent price history + price entry.op := by
  induction history with
  | nil => exact Nat.add_comm _ _
  | cons first rest ih => rw [List.cons_append, spent, ih, spent, Nat.add_assoc]

/-- Where the operations of one kind have a price of one, what is spent is their number. -/
theorem spent_countP (kind : O → Bool) (history : List (Entry O A ε)) :
    spent (fun op => if kind op then 1 else 0) history =
      history.countP fun entry => kind entry.op := by
  induction history with
  | nil => rfl
  | cons entry rest ih =>
      rw [List.countP_cons, ← ih]
      simp [spent, Nat.add_comm]

theorem spent_one (history : List (Entry O A ε)) :
    spent (fun _ => 1) history = history.length := by
  induction history with
  | nil => rfl
  | cons entry rest ih =>
      rw [List.length_cons, ← ih]
      simp [spent, Nat.add_comm]

namespace Affords
variable {price : O → Nat} {m n budget : Nat}

theorem pure (value : α) : Affords price budget (Pure.pure value : Prog O A ε α) := trivial

theorem raise (error : ε) : Affords price budget (.raise error : Prog O A ε α) := trivial

theorem request {op : O} (fits : price op ≤ budget) :
    Affords price budget (Prog.request op : Prog O A ε (A op)) := ⟨fits, fun _ => trivial⟩

theorem mono {p : Prog O A ε α} (affords : Affords price m p) (more : m ≤ n) :
    Affords price n p := by
  induction p generalizing m n with
  | pure | raise => trivial
  | ask op next ih =>
      refine ⟨Nat.le_trans affords.1 more, fun answer => ih answer (affords.2 answer) ?_⟩
      exact Nat.sub_le_sub_right more _

/-- In sequence the budgets add up. -/
theorem bind {p : Prog O A ε α} {f : α → Prog O A ε β} (first : Affords price m p)
    (rest : ∀ value, Affords price n (f value)) (fits : m + n ≤ budget) :
    Affords price budget (p >>= f) := by
  induction p generalizing m budget with
  | pure value => exact (rest value).mono (Nat.le_of_add_left_le fits)
  | raise error => trivial
  | ask op next ih =>
      obtain ⟨paid, after⟩ := first
      refine ⟨by omega, fun answer => ih answer (after answer) ?_⟩
      omega

/-- What is asked for nothing needs no budget. -/
theorem of_within {p : Prog O A ε α} (within : Within (fun op => price op = 0) p) :
    Affords price 0 p := by
  induction p with
  | pure | raise => trivial
  | ask op next ih =>
      obtain ⟨free, rest⟩ := within.next
      refine ⟨Nat.le_of_eq free, fun answer => ?_⟩
      rw [free]
      exact ih answer (rest answer)

end Affords

end Programs
