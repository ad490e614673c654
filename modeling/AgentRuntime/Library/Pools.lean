import AgentRuntime.Library.Machines
import Mathlib.Data.List.Perm.Basic

/-! Any number of concurrent calls over one shared state. A call moves by one statement at a
time, which may look at what the others hold, and the surroundings may move in between. What
holds of each call by itself is kept when no move disturbs the others. -/
namespace Pools
open Machines

/-- The calls of one operation: which may come in, the next statement of a call, and what
the rest of the system does meanwhile. -/
structure Pool (σ γ χ ε : Type) where
  init : σ → Prop
  fresh : γ → Bool
  advance : χ → σ → List γ → γ → Option (σ × γ)
  around : ε → σ → List γ → Option σ

structure Calls (σ γ : Type) where
  shared : σ
  calls : List γ

inductive PoolMove (γ χ ε : Type) where
  | call (call : γ)
  | advance (position : Nat) (choice : χ)
  | around (event : ε)

variable {σ γ χ ε : Type}

namespace Pool

def step (P : Pool σ γ χ ε) (s : Calls σ γ) : PoolMove γ χ ε → Option (Calls σ γ)
  | .call call => if P.fresh call then some { s with calls := s.calls ++ [call] } else none
  | .advance position choice =>
      match s.calls[position]? with
      | none => none
      | some call =>
          (P.advance choice s.shared (s.calls.eraseIdx position) call).map fun after =>
            { shared := after.1, calls := s.calls.set position after.2 }
  | .around event =>
      (P.around event s.shared s.calls).map fun shared => { s with shared := shared }

def machine (P : Pool σ γ χ ε) : Machine (Calls σ γ) (PoolMove γ χ ε) where
  init s := P.init s.shared ∧ s.calls = []
  step := P.step

/-- An assertion about the shared state, one about each call, and one about two calls that
no move of a call or of the surroundings invalidates. -/
structure Sound (P : Pool σ γ χ ε) (I : σ → Prop) (A : σ → γ → Prop) (R : γ → γ → Prop) :
    Prop where
  symm : ∀ {a b}, R a b → R b a
  init : ∀ s, P.init s → I s
  fresh : ∀ s call, I s → P.fresh call = true → A s call ∧ ∀ other, R call other
  advance : ∀ choice s others call t next, I s → A s call →
    (∀ other ∈ others, A s other ∧ R call other) →
    P.advance choice s others call = some (t, next) →
    I t ∧ A t next ∧ ∀ other ∈ others, A t other ∧ R next other
  around : ∀ event s calls t, I s → (∀ call ∈ calls, A s call) →
    P.around event s calls = some t → I t ∧ ∀ call ∈ calls, A t call

structure Holds (I : σ → Prop) (A : σ → γ → Prop) (R : γ → γ → Prop) (s : Calls σ γ) : Prop where
  shared : I s.shared
  each : ∀ call ∈ s.calls, A s.shared call
  pairs : s.calls.Pairwise R

section Rule
variable {P : Pool σ γ χ ε} {I : σ → Prop} {A : σ → γ → Prop} {R : γ → γ → Prop}
  {s : Calls σ γ} {position : Nat} {call next : γ}

theorem perm_of_getElem? (found : s.calls[position]? = some call) :
    s.calls.Perm (call :: s.calls.eraseIdx position) := by
  obtain ⟨inside, rfl⟩ := List.getElem?_eq_some_iff.mp found
  exact (List.getElem_cons_eraseIdx_perm inside).symm

variable (next) in
theorem set_perm (found : s.calls[position]? = some call) :
    (s.calls.set position next).Perm (next :: s.calls.eraseIdx position) :=
  List.set_perm_cons_eraseIdx (List.getElem?_eq_some_iff.mp found).1 next

theorem Holds.step (sound : P.Sound I A R) {t : Calls σ γ} {move : PoolMove γ χ ε}
    (holds : Holds I A R s) (stepped : P.step s move = some t) : Holds I A R t := by
  cases move with
  | call call =>
      simp only [Pool.step] at stepped
      split at stepped
      next fresh =>
        cases stepped
        obtain ⟨own, apart⟩ := sound.fresh s.shared call holds.shared fresh
        refine ⟨holds.shared, fun other member => ?_, ?_⟩
        · rcases List.mem_append.mp member with before | new
          · exact holds.each other before
          · rw [List.mem_singleton.mp new]
            exact own
        · refine List.pairwise_append.mpr ⟨holds.pairs, List.pairwise_singleton _ _, ?_⟩
          intro other _ new member
          rw [List.mem_singleton.mp member]
          exact sound.symm (apart other)
      next => contradiction
  | advance position choice =>
      simp only [Pool.step] at stepped
      split at stepped
      next => contradiction
      next call found =>
        obtain ⟨⟨shared, next⟩, moved, rfl⟩ := Option.map_eq_some_iff.mp stepped
        have before := perm_of_getElem? found
        have each : ∀ other ∈ call :: s.calls.eraseIdx position, A s.shared other :=
          fun other member => holds.each other (before.mem_iff.mpr member)
        obtain ⟨first, rest⟩ := List.pairwise_cons.mp
          ((before.pairwise_iff sound.symm).mp holds.pairs)
        obtain ⟨kept, own, others⟩ := sound.advance choice s.shared _ call shared next holds.shared
          (each call List.mem_cons_self)
          (fun other member => ⟨each other (List.mem_cons_of_mem _ member), first other member⟩)
          moved
        have after := set_perm next found
        refine ⟨kept, fun other member => ?_, ?_⟩
        · rcases List.mem_cons.mp (after.mem_iff.mp member) with rfl | member
          · exact own
          · exact (others other member).1
        · exact (after.pairwise_iff sound.symm).mpr
            (List.pairwise_cons.mpr ⟨fun other member => (others other member).2, rest⟩)
  | around event =>
      obtain ⟨shared, moved, rfl⟩ := Option.map_eq_some_iff.mp stepped
      obtain ⟨kept, each⟩ :=
        sound.around event s.shared s.calls shared holds.shared holds.each moved
      exact ⟨kept, each, holds.pairs⟩

/-- The rule of the pool: assertions that every single move keeps hold in every reachable
state, of the shared state, of each call and of any two. -/
theorem Sound.reachable (sound : P.Sound I A R) {G : Guard (Calls σ γ) (PoolMove γ χ ε)}
    (reached : Reachable P.machine G s) : Holds I A R s := by
  have inductive' : Inductive P.machine G (Holds I A R) := by
    refine ⟨?_, fun s move t holds _ stepped => holds.step sound stepped⟩
    rintro s ⟨first, empty⟩
    refine ⟨sound.init _ first, ?_, ?_⟩ <;> rw [empty]
    · intro call member
      contradiction
    · exact List.Pairwise.nil
  exact inductive'.reachable reached

end Rule
end Pool
end Pools
