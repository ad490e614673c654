import Mathlib.Order.Defs.Unbundled
import Mathlib.Tactic.Common

/-! Labelled machines and their finite runs. A step is a partial function of the
state and the label, so the nondeterminism of a schedule is carried by the
labels. A guard restricts the labels a run may take and in which states. -/
namespace Machines

structure Machine (σ α : Type) where
  init : σ → Prop
  step : σ → α → Option σ

/-- A restriction on schedules: which label may be taken in which state. -/
abbrev Guard (σ α : Type) := σ → α → Prop

def anyStep {σ α : Type} : Guard σ α := fun _ _ => True

variable {σ α : Type} {M : Machine σ α} {G : Guard σ α}

inductive Run (M : Machine σ α) (G : Guard σ α) : σ → List α → σ → Prop
  | nil (s) : Run M G s [] s
  | cons {s a t as u} : G s a → M.step s a = some t → Run M G t as u → Run M G s (a :: as) u

def Reachable (M : Machine σ α) (G : Guard σ α) (s : σ) : Prop :=
  ∃ start as, M.init start ∧ Run M G start as s

structure Inductive (M : Machine σ α) (G : Guard σ α) (I : σ → Prop) : Prop where
  init : ∀ s, M.init s → I s
  step : ∀ s a t, I s → G s a → M.step s a = some t → I t

theorem Run.single {s t : σ} {a : α} (allowed : G s a) (step : M.step s a = some t) :
    Run M G s [a] t := .cons allowed step (.nil t)

theorem Run.append {s t u : σ} {as bs : List α} (first : Run M G s as t)
    (second : Run M G t bs u) : Run M G s (as ++ bs) u := by
  induction first with
  | nil s => exact second
  | cons allowed step _ ih => exact .cons allowed step (ih second)

theorem Run.weaken {H : Guard σ α} (weaker : ∀ s a, G s a → H s a) {s u : σ} {as : List α}
    (run : Run M G s as u) : Run M H s as u := by
  induction run with
  | nil s => exact .nil s
  | cons allowed step _ ih => exact .cons (weaker _ _ allowed) step ih

theorem Run.anyStep {s u : σ} {as : List α} (run : Run M G s as u) :
    Run M Machines.anyStep s as u := run.weaken fun _ _ _ => trivial

/-- A run may look ahead at its own labels. -/
theorem Run.labelled {s u : σ} {as : List α} (run : Run M G s as u) :
    Run M (fun s a => G s a ∧ a ∈ as) s as u := by
  induction run with
  | nil s => exact .nil s
  | cons allowed step _ ih =>
      exact .cons ⟨allowed, List.mem_cons_self⟩ step
        (ih.weaken fun _ _ both => ⟨both.1, List.mem_cons_of_mem _ both.2⟩)

def Machine.replay (M : Machine σ α) (s : σ) : List α → Option σ
  | [] => some s
  | a :: as => (M.step s a).bind fun t => M.replay t as

theorem Run.of_replay {s u : σ} {as : List α} (replayed : M.replay s as = some u) :
    Run M Machines.anyStep s as u := by
  induction as generalizing s with
  | nil => cases replayed; exact .nil _
  | cons a as ih =>
      obtain ⟨t, step, rest⟩ := Option.bind_eq_some_iff.mp replayed
      exact .cons trivial step (ih rest)

/-- A test that succeeds at the end of a replay finds a run to such a state. -/
theorem Run.of_test (s : σ) (as : List α) (p : σ → Prop) [DecidablePred p]
    (tested : (M.replay s as).any (fun u => decide (p u)) = true) :
    ∃ u, Run M Machines.anyStep s as u ∧ p u := by
  obtain ⟨u, replayed, holds⟩ := (Option.any_eq_true _ _).mp tested
  exact ⟨u, .of_replay replayed, of_decide_eq_true holds⟩

/-- Replay of a schedule that stops at a label which fails the check. -/
def Machine.replayChecked (M : Machine σ α) (check : σ → α → Bool) (s : σ) : List α → Option σ
  | [] => some s
  | a :: as => if check s a then (M.step s a).bind fun t => M.replayChecked check t as else none

/-- A check that is sound for the guard on the states of an invariant. -/
structure Checks (M : Machine σ α) (G : Guard σ α) (I : σ → Prop) (check : σ → α → Bool) :
    Prop where
  sound : ∀ s a, I s → check s a = true → G s a
  kept : ∀ s a t, I s → check s a = true → M.step s a = some t → I t

theorem Checks.run {I : σ → Prop} {check : σ → α → Bool} (checks : Checks M G I check) {s u : σ}
    {as : List α} (holds : I s) (replayed : M.replayChecked check s as = some u) :
    Run M G s as u ∧ I u := by
  induction as generalizing s with
  | nil => cases replayed; exact ⟨.nil _, holds⟩
  | cons a as ih =>
      simp only [Machine.replayChecked] at replayed
      split at replayed
      next passed =>
        obtain ⟨t, step, rest⟩ := Option.bind_eq_some_iff.mp replayed
        obtain ⟨run, after⟩ := ih (checks.kept s a t holds passed step) rest
        exact ⟨.cons (checks.sound s a holds passed) step run, after⟩
      next => contradiction

theorem Checks.of_test {I : σ → Prop} {check : σ → α → Bool} (checks : Checks M G I check) {s : σ}
    (holds : I s) (as : List α) (p : σ → Prop) [DecidablePred p]
    (tested : (M.replayChecked check s as).any (fun u => decide (p u)) = true) :
    ∃ u, Run M G s as u ∧ I u ∧ p u := by
  obtain ⟨u, replayed, passed⟩ := (Option.any_eq_true _ _).mp tested
  obtain ⟨run, after⟩ := checks.run holds replayed
  exact ⟨u, run, after, of_decide_eq_true passed⟩

theorem Run.invariant {I : σ → Prop} (preserved : ∀ s a t, I s → G s a → M.step s a = some t → I t)
    {s u : σ} {as : List α} (run : Run M G s as u) (holds : I s) : I u := by
  induction run with
  | nil s => exact holds
  | cons allowed step _ ih => exact ih (preserved _ _ _ holds allowed step)

/-- Where a step outside the guard leaves a mark that no later step removes, a run without the
mark at its end has kept to the guard. -/
theorem Run.guarded {H : Guard σ α} {I P : σ → Prop}
    (preserved : ∀ s a t, I s → H s a → M.step s a = some t → I t)
    (lasting : ∀ s a t, I s → H s a → M.step s a = some t → P s → P t)
    (marking : ∀ s a t, I s → H s a → M.step s a = some t → ¬ G s a → P t)
    {s u : σ} {as : List α} (run : Run M H s as u) (holds : I s) (unmarked : ¬ P u) :
    Run M G s as u := by
  induction run with
  | nil s => exact .nil s
  | @cons s a t as u allowed step rest ih =>
      have after := preserved s a t holds allowed step
      refine .cons ?_ step (ih after unmarked)
      by_contra outside
      have marked := marking s a t holds allowed step outside
      have ends := rest.invariant (I := fun s => I s ∧ P s)
        (fun s a t both allowed step =>
          ⟨preserved s a t both.1 allowed step, lasting s a t both.1 allowed step both.2⟩)
        ⟨after, marked⟩
      exact unmarked ends.2

theorem Run.split {s u : σ} {as bs : List α} (run : Run M G s (as ++ bs) u) :
    ∃ t, Run M G s as t ∧ Run M G t bs u := by
  induction as generalizing s with
  | nil => exact ⟨s, .nil s, run⟩
  | cons a as ih =>
      cases run with
      | cons allowed step rest =>
          obtain ⟨t, first, second⟩ := ih rest
          exact ⟨t, .cons allowed step first, second⟩

/-- The labels of a run determine its end. -/
theorem Run.target_unique {H : Guard σ α} {s t u : σ} {as : List α} (one : Run M G s as t)
    (other : Run M H s as u) : t = u := by
  induction one with
  | nil s => cases other; rfl
  | cons _ step _ ih =>
      cases other with
      | cons _ same rest =>
          rw [step] at same
          cases same
          exact ih rest

/-- Along the labels `as` from `s`, what is once the case in a state passed is the case in
every later one. -/
def Lasting (M : Machine σ α) (P : σ → Prop) (s : σ) (as : List α) : Prop :=
  ∀ before middle after t u, as = before ++ middle ++ after → Run M anyStep s before t →
    Run M anyStep t middle u → P t → P u

theorem Lasting.tail {P : σ → Prop} {s t : σ} {a : α} {as : List α}
    (lasting : Lasting M P s (a :: as)) (step : M.step s a = some t) : Lasting M P t as := by
  intro before middle after v w same first second
  refine lasting (a :: before) middle after v w ?_ (.cons trivial step first) second
  rw [same, List.cons_append, List.cons_append]

/-- Properties last along a run exactly if no step of it ends one. -/
theorem Run.lasting_iff {ι : Type} {P : ι → σ → Prop} {s u : σ} {as : List α}
    (run : Run M Machines.anyStep s as u) :
    (∀ i, Lasting M (P i) s as) ↔
      Run M (fun s a => ∀ t, M.step s a = some t → ∀ i, P i s → P i t) s as u := by
  constructor
  · intro lasting
    induction run with
    | nil s => exact .nil s
    | @cons s a t as u _ step rest ih =>
        refine .cons (fun t' step' i holds => ?_) step (ih fun i => (lasting i).tail step)
        exact lasting i [] [a] as s t' rfl (.nil s) (.single trivial step') holds
  · intro keeping i before middle after t v same first second holds
    subst same
    obtain ⟨t', whole, _⟩ := keeping.split
    obtain ⟨s', before', middle'⟩ := whole.split
    cases before'.target_unique first
    cases middle'.target_unique second
    exact middle'.invariant (I := P i)
      (fun s a t holds keeps step => keeps t step i holds) holds

theorem Reachable.start {s : σ} (first : M.init s) : Reachable M G s := ⟨s, [], first, .nil s⟩

theorem Reachable.run {s u : σ} {as : List α} (reached : Reachable M G s) (run : Run M G s as u) :
    Reachable M G u := by
  obtain ⟨start, before, first, prefixRun⟩ := reached
  exact ⟨start, before ++ as, first, prefixRun.append run⟩

theorem Reachable.next {s t : σ} {a : α} (reached : Reachable M G s) (allowed : G s a)
    (step : M.step s a = some t) : Reachable M G t := reached.run (.single allowed step)

/-- A run from a reachable state visits reachable states only, so an argument about
the run may use a reachable-state invariant at each of its steps. -/
theorem Run.strengthen {s u : σ} {as : List α} (run : Run M G s as u)
    (reached : Reachable M G s) : Run M (fun s a => G s a ∧ Reachable M G s) s as u := by
  induction run with
  | nil s => exact .nil s
  | cons allowed step _ ih => exact .cons ⟨allowed, reached⟩ step (ih (reached.next allowed step))

/-- Guards that agree on reachable states admit the same runs. -/
theorem Run.iff_of_reachable {H : Guard σ α}
    (same : ∀ s a t, Reachable M Machines.anyStep s → M.step s a = some t → (G s a ↔ H s a))
    {s u : σ} {as : List α} (reached : Reachable M Machines.anyStep s) :
    Run M G s as u ↔ Run M H s as u := by
  induction as generalizing s with
  | nil => constructor <;> intro run <;> cases run <;> exact .nil _
  | cons a as ih =>
      constructor
      · intro run
        cases run with
        | cons allowed step rest =>
            exact .cons ((same s a _ reached step).mp allowed) step
              ((ih (reached.next trivial step)).mp rest)
      · intro run
        cases run with
        | cons allowed step rest =>
            exact .cons ((same s a _ reached step).mpr allowed) step
              ((ih (reached.next trivial step)).mpr rest)

theorem Inductive.reachable {I : σ → Prop} (inductive' : Inductive M G I) {s : σ}
    (reached : Reachable M G s) : I s := by
  obtain ⟨start, as, first, run⟩ := reached
  exact run.invariant inductive'.step (inductive'.init start first)

/-- A run from a state of an invariant takes every step inside it. -/
theorem Run.within {I : σ → Prop} (preserved : ∀ s a t, I s → G s a → M.step s a = some t → I t)
    {s u : σ} {as : List α} (run : Run M G s as u) (holds : I s) :
    Run M (fun s a => G s a ∧ I s) s as u := by
  induction run with
  | nil s => exact .nil s
  | cons allowed step _ ih =>
      exact .cons ⟨allowed, holds⟩ step (ih (preserved _ _ _ holds allowed step))

/-- A run stays one whose steps lead on to its end. -/
theorem Run.onward {s u : σ} {as : List α} (run : Run M G s as u) :
    Run M (fun s a => G s a ∧ ∀ t, M.step s a = some t → ∃ bs, Run M G t bs u) s as u := by
  induction run with
  | nil s => exact .nil s
  | @cons s a t as u allowed step rest ih =>
      refine .cons ⟨allowed, fun t' step' => ⟨as, ?_⟩⟩ step ih
      rw [step] at step'
      cases step'
      exact rest

/-- How many steps are marked along the labels from a state. -/
def Machine.tally (M : Machine σ α) (mark : σ → α → Bool) (s : σ) : List α → Nat
  | [] => 0
  | a :: as => (mark s a).toNat + (M.step s a).elim 0 fun t => M.tally mark t as

/-- Marked steps raise a measure that no step lowers. -/
theorem Run.tally_le {mark : σ → α → Bool} (measure : σ → Nat)
    (rises : ∀ s a t, G s a → M.step s a = some t → measure s + (mark s a).toNat ≤ measure t)
    {s u : σ} {as : List α} (run : Run M G s as u) :
    measure s + M.tally mark s as ≤ measure u := by
  induction run with
  | nil s => exact Nat.le_refl _
  | @cons s a t as u allowed step rest ih =>
      have first := rises s a t allowed step
      simp only [Machine.tally, step, Option.elim]
      omega

/-- The step at which a property was last entered: `P` fails before it and is never
left after it. -/
structure Entered (M : Machine σ α) (G : Guard σ α) (P : σ → Prop) (s : σ) (as : List α)
    (u : σ) where
  before : List α
  action : α
  after : List α
  source : σ
  target : σ
  same : as = before ++ action :: after
  first : Run M G s before source
  allowed : G source action
  step : M.step source action = some target
  outside : ¬ P source
  inside : P target
  stays : Run M (fun s a => G s a ∧ P s) target after u
  final : P u

/-- A run that ends inside `P` never left it or entered it a last time. -/
theorem Run.stays_or_entered {P : σ → Prop} {s u : σ} {as : List α} (run : Run M G s as u)
    (inside : P u) :
    (P s ∧ Run M (fun s a => G s a ∧ P s) s as u) ∨ Nonempty (Entered M G P s as u) := by
  induction run with
  | nil s => exact .inl ⟨inside, .nil s⟩
  | @cons s a t as u allowed step rest ih =>
      rcases ih inside with ⟨next, stays⟩ | ⟨⟨entered⟩⟩
      · by_cases here : P s
        · exact .inl ⟨here, .cons ⟨allowed, here⟩ step stays⟩
        · exact .inr ⟨⟨[], a, as, s, t, rfl, .nil s, allowed, step, here, next, stays, inside⟩⟩
      · exact .inr ⟨{ entered with
          before := a :: entered.before
          same := congrArg (a :: ·) entered.same
          first := .cons allowed step entered.first }⟩

end Machines
