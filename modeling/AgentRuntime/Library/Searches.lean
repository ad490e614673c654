import Mathlib.Logic.Relation
import Mathlib.Tactic.Common

/-! Worklist searches of a graph. The frontier may hold a node twice, and the new neighbours of a
node join it in any order. -/
namespace Searches
open Relation

variable {α : Type} {neighbours : α → List α}

structure Search (α : Type) where
  frontier : List α
  seen : List α

/-- The unseen neighbours, in some order. -/
def Fresh (neighbours : α → List α) (current : α) (seen new : List α) : Prop :=
  (∀ id, id ∈ new ↔ id ∈ neighbours current ∧ id ∉ current :: seen) ∧
    new.length ≤ (neighbours current).length

inductive Step (neighbours : α → List α) : Search α → Search α → Prop
  | skip {current frontier seen} : current ∈ seen →
      Step neighbours ⟨current :: frontier, seen⟩ ⟨frontier, seen⟩
  | expand {current frontier seen new} : current ∉ seen → Fresh neighbours current seen new →
      Step neighbours ⟨current :: frontier, seen⟩ ⟨new ++ frontier, current :: seen⟩

/-- A search from these roots: what it holds can be reached, the roots are held, and the neighbours
of a node that has been seen are held. -/
structure From (neighbours : α → List α) (roots : List α) (search : Search α) : Prop where
  reached : ∀ id, id ∈ search.seen ∨ id ∈ search.frontier →
    ∃ root ∈ roots, ReflTransGen (fun a b => b ∈ neighbours a) root id
  started : ∀ root ∈ roots, root ∈ search.seen ∨ root ∈ search.frontier
  closed : ∀ id ∈ search.seen, ∀ next ∈ neighbours id,
    next ∈ search.seen ∨ next ∈ search.frontier

section Closure
variable {roots : List α} {search search' : Search α}

theorem from_roots (roots : List α) : From neighbours roots ⟨roots, []⟩ where
  reached id held := ⟨id, held.resolve_left List.not_mem_nil, .refl⟩
  started _ member := .inr member
  closed _ member := absurd member List.not_mem_nil

theorem From.step (searched : From neighbours roots search)
    (step : Step neighbours search search') : From neighbours roots search' := by
  cases step with
  | @skip current frontier seen known =>
      have kept (id : α) (held : id ∈ seen ∨ id ∈ current :: frontier) :
          id ∈ seen ∨ id ∈ frontier := by
        rcases held with old | among
        · exact .inl old
        · rcases List.mem_cons.mp among with rfl | later
          · exact .inl known
          · exact .inr later
      exact {
        reached := fun id held => searched.reached id (held.imp_right (List.mem_cons_of_mem _))
        started := fun root member => kept root (searched.started root member)
        closed := fun id member next adjacent =>
          kept next (searched.closed id member next adjacent) }
  | @expand current frontier seen new unseen fresh =>
      have kept (id : α) (held : id ∈ seen ∨ id ∈ current :: frontier) :
          id ∈ current :: seen ∨ id ∈ new ++ frontier := by
        rcases held with old | among
        · exact .inl (List.mem_cons_of_mem _ old)
        · rcases List.mem_cons.mp among with rfl | later
          · exact .inl List.mem_cons_self
          · exact .inr (List.mem_append_right _ later)
      have here := searched.reached current (.inr List.mem_cons_self)
      refine ⟨fun id held => ?_, fun root member => kept root (searched.started root member),
        fun id member next adjacent => ?_⟩
      · rcases held with old | among
        · rcases List.mem_cons.mp old with rfl | old
          · exact here
          · exact searched.reached id (.inl old)
        · rcases List.mem_append.mp among with found | later
          · obtain ⟨root, first, path⟩ := here
            exact ⟨root, first, path.tail ((fresh.1 id).mp found).1⟩
          · exact searched.reached id (.inr (List.mem_cons_of_mem _ later))
      · rcases List.mem_cons.mp member with rfl | old
        · by_cases known : next ∈ id :: seen
          · exact .inl known
          · exact .inr (List.mem_append_left _ ((fresh.1 next).mpr ⟨adjacent, known⟩))
        · exact kept next (searched.closed id old next adjacent)

theorem From.run (searched : From neighbours roots search)
    (run : ReflTransGen (Step neighbours) search search') : From neighbours roots search' := by
  induction run with
  | refl => exact searched
  | tail _ step ih => exact ih.step step

/-- A search that has emptied its frontier has seen exactly what can be reached. -/
theorem From.mem_seen_iff {seen : List α} (searched : From neighbours roots ⟨[], seen⟩) {id : α} :
    id ∈ seen ↔ ∃ root ∈ roots, ReflTransGen (fun a b => b ∈ neighbours a) root id := by
  constructor
  · intro member
    exact searched.reached id (.inl member)
  · rintro ⟨root, first, path⟩
    induction path with
    | refl => exact (searched.started root first).resolve_right List.not_mem_nil
    | tail _ adjacent ih => exact (searched.closed _ ih _ adjacent).resolve_right List.not_mem_nil

end Closure

section Termination
variable [DecidableEq α] {nodes : List α} {search search' : Search α}

/-- The entries of the frontier, and the neighbours of the nodes that have not been seen. -/
def work (neighbours : α → List α) (nodes : List α) (search : Search α) : Nat :=
  search.frontier.length +
    ((nodes.filter fun id => id ∉ search.seen).flatMap neighbours).length

/-- The nodes include the frontier and are closed under the neighbours. -/
structure Within (neighbours : α → List α) (nodes : List α) (search : Search α) : Prop where
  frontier : ∀ id ∈ search.frontier, id ∈ nodes
  closed : ∀ id ∈ nodes, ∀ next ∈ neighbours id, next ∈ nodes

variable (neighbours) in
theorem length_unseen_le (nodes : List α) (current : α) (seen : List α) :
    ((nodes.filter fun id => id ∉ current :: seen).flatMap neighbours).length ≤
      ((nodes.filter fun id => id ∉ seen).flatMap neighbours).length := by
  induction nodes with
  | nil => exact Nat.le_refl _
  | cons node rest ih =>
      by_cases known : node ∈ seen
      · simpa [known] using ih
      · by_cases same : node = current
        · subst same
          simp only [List.filter_cons, List.mem_cons, true_or, not_true_eq_false, decide_false,
            Bool.false_eq_true, if_false, known, not_false_eq_true, decide_true, if_true,
            List.flatMap_cons, List.length_append]
          simp only [List.mem_cons] at ih
          omega
        · simpa [known, same] using ih

variable (neighbours) in
/-- Seeing a node takes its neighbours out of the work. -/
theorem length_unseen_lt {current : α} {seen : List α} (member : current ∈ nodes)
    (unseen : current ∉ seen) :
    ((nodes.filter fun id => id ∉ current :: seen).flatMap neighbours).length +
        (neighbours current).length ≤
      ((nodes.filter fun id => id ∉ seen).flatMap neighbours).length := by
  induction nodes with
  | nil => contradiction
  | cons node rest ih =>
      by_cases same : node = current
      · subst same
        have fewer := length_unseen_le neighbours rest node seen
        simp only [List.filter_cons, List.mem_cons, true_or, not_true_eq_false, decide_false,
          Bool.false_eq_true, if_false, unseen, not_false_eq_true, decide_true, if_true,
          List.flatMap_cons, List.length_append] at fewer ⊢
        omega
      · have later := ih ((List.mem_cons.mp member).resolve_left (Ne.symm same))
        by_cases known : node ∈ seen
        · simpa [known] using later
        · simp only [List.filter_cons, List.mem_cons, same, known, or_self, not_false_eq_true,
            decide_true, if_true, List.flatMap_cons, List.length_append] at later ⊢
          omega

omit [DecidableEq α] in
theorem Within.step (within : Within neighbours nodes search)
    (step : Step neighbours search search') : Within neighbours nodes search' := by
  cases step with
  | skip =>
      exact ⟨fun id member => within.frontier id (List.mem_cons_of_mem _ member), within.closed⟩
  | @expand current frontier seen new unseen fresh =>
      refine ⟨fun id member => ?_, within.closed⟩
      rcases List.mem_append.mp member with found | later
      · exact within.closed current (within.frontier current List.mem_cons_self) id
          ((fresh.1 id).mp found).1
      · exact within.frontier id (List.mem_cons_of_mem _ later)

theorem work_lt (within : Within neighbours nodes search)
    (step : Step neighbours search search') :
    work neighbours nodes search' < work neighbours nodes search := by
  cases step with
  | skip =>
      unfold work
      simp only [List.length_cons]
      omega
  | @expand current frontier seen new unseen fresh =>
      have fewer := length_unseen_lt neighbours
        (within.frontier current List.mem_cons_self) unseen
      have few := fresh.2
      unfold work
      simp only [List.length_cons, List.length_append]
      omega

/-- The loop that pops the frontier, with its choice of the order; none where the rounds do not
suffice. -/
def explore (unseen : α → List α → List α) : Nat → List α → List α → Option (List α)
  | _, [], seen => some seen
  | 0, _ :: _, _ => none
  | rounds + 1, current :: frontier, seen =>
      if current ∈ seen then explore unseen rounds frontier seen
      else explore unseen rounds (unseen current (current :: seen) ++ frontier) (current :: seen)

theorem explore_ends {unseen : α → List α → List α}
    (fresh : ∀ current seen, Fresh neighbours current seen (unseen current (current :: seen)))
    {rounds : Nat} {frontier seen : List α} (within : Within neighbours nodes ⟨frontier, seen⟩)
    (enough : work neighbours nodes ⟨frontier, seen⟩ ≤ rounds) :
    ∃ seen', explore unseen rounds frontier seen = some seen' ∧
      ReflTransGen (Step neighbours) ⟨frontier, seen⟩ ⟨[], seen'⟩ := by
  induction rounds generalizing frontier seen with
  | zero =>
      cases frontier with
      | nil => exact ⟨seen, rfl, .refl⟩
      | cons current frontier =>
          unfold work at enough
          simp only [List.length_cons] at enough
          omega
  | succ rounds ih =>
      cases frontier with
      | nil => exact ⟨seen, rfl, .refl⟩
      | cons current frontier =>
          have advance {search : Search α}
              (step : Step neighbours ⟨current :: frontier, seen⟩ search) :=
            ih (within.step step) (Nat.le_of_lt_succ
              (Nat.lt_of_lt_of_le (work_lt within step) enough))
          rw [explore]
          split
          next known =>
            obtain ⟨seen', returned, run⟩ := advance (.skip known)
            exact ⟨seen', returned, run.head (.skip known)⟩
          next new =>
            obtain ⟨seen', returned, run⟩ := advance (.expand new (fresh current seen))
            exact ⟨seen', returned, run.head (.expand new (fresh current seen))⟩

/-- The loop finds exactly what can be reached. -/
theorem mem_explore_iff {unseen : α → List α → List α}
    (fresh : ∀ current seen, Fresh neighbours current seen (unseen current (current :: seen)))
    {roots : List α} (within : Within neighbours nodes ⟨roots, []⟩) {rounds : Nat}
    (enough : roots.length + (nodes.flatMap neighbours).length ≤ rounds) :
    ∃ seen, explore unseen rounds roots [] = some seen ∧
      ∀ id, id ∈ seen ↔ ∃ root ∈ roots, ReflTransGen (fun a b => b ∈ neighbours a) root id := by
  have all : work neighbours nodes ⟨roots, []⟩ ≤ rounds := by
    have whole : nodes.filter (fun id => id ∉ ([] : List α)) = nodes :=
      List.filter_eq_self.mpr fun _ _ => by simp
    rwa [work, whole]
  obtain ⟨seen, returned, run⟩ := explore_ends fresh within all
  exact ⟨seen, returned, fun id => ((from_roots roots).run run).mem_seen_iff⟩

end Termination
end Searches
