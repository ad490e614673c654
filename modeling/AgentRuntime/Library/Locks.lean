import Mathlib.Tactic.Common

/-! Tasks that are started in the order of their creation, and each do one thing under a fair
lock. Whatever comes of it, the lock goes to the task that has waited longest. -/
namespace Locks

/-- The tasks that have not run yet, those that wait for the lock, its holder, and those that
have given it back, each with what came of it. -/
structure Lock (τ ρ : Type) where
  created : List τ := []
  waiting : List τ := []
  holder : Option τ := none
  settled : List (τ × ρ) := []

namespace Lock
variable {τ ρ : Type} {lock after : Lock τ ρ} {task : τ}

/-- All tasks, the oldest first. -/
def tasks (lock : Lock τ ρ) : List τ :=
  lock.settled.map Prod.fst ++ lock.holder.toList ++ lock.waiting ++ lock.created

def create (lock : Lock τ ρ) (task : τ) : Lock τ ρ :=
  { lock with created := lock.created ++ [task] }

/-- The oldest new task runs up to the lock. It takes a free lock that nobody waits for. -/
def start (lock : Lock τ ρ) : Option (Lock τ ρ) :=
  match lock.created with
  | [] => none
  | task :: rest =>
      if lock.holder.isNone && lock.waiting.isEmpty then
        some { lock with created := rest, holder := some task }
      else some { lock with created := rest, waiting := lock.waiting ++ [task] }

/-- The task that has waited longest takes the free lock. -/
def wake (lock : Lock τ ρ) : Option (Lock τ ρ) :=
  match lock.holder, lock.waiting with
  | none, task :: rest => some { lock with waiting := rest, holder := some task }
  | _, _ => none

def release (lock : Lock τ ρ) (task : τ) (result : ρ) : Lock τ ρ :=
  { lock with holder := none, settled := lock.settled ++ [(task, result)] }

theorem tasks_create : (lock.create task).tasks = lock.tasks ++ [task] := by
  simp [tasks, create]

theorem start_cases (started : lock.start = some after) :
    ∃ task rest, lock.created = task :: rest ∧
      ((lock.holder = none ∧ lock.waiting = [] ∧
          after = { lock with created := rest, holder := some task }) ∨
        after = { lock with created := rest, waiting := lock.waiting ++ [task] }) := by
  unfold start at started
  split at started
  next => contradiction
  next task rest found =>
    refine ⟨task, rest, found, ?_⟩
    split at started
    next free =>
      simp only [Bool.and_eq_true, Option.isNone_iff_eq_none, List.isEmpty_iff] at free
      cases started
      exact .inl ⟨free.1, free.2, rfl⟩
    next => cases started; exact .inr rfl

theorem wake_cases (woken : lock.wake = some after) :
    ∃ task rest, lock.holder = none ∧ lock.waiting = task :: rest ∧
      after = { lock with waiting := rest, holder := some task } := by
  unfold wake at woken
  split at woken
  next task rest free found => cases woken; exact ⟨task, rest, free, found, rfl⟩
  next => contradiction

theorem tasks_start (started : lock.start = some after) : after.tasks = lock.tasks := by
  obtain ⟨task, rest, found, ⟨free, alone, same⟩ | same⟩ := start_cases started
  · subst same
    simp [tasks, found, free, alone]
  · subst same
    simp [tasks, found]

theorem tasks_wake (woken : lock.wake = some after) : after.tasks = lock.tasks := by
  obtain ⟨task, rest, free, found, same⟩ := wake_cases woken
  subst same
  simp [tasks, free, found]

theorem tasks_release (result : ρ) (holds : lock.holder = some task) :
    (lock.release task result).tasks = lock.tasks := by
  simp [tasks, release, holds]

theorem settled_start (started : lock.start = some after) : after.settled = lock.settled := by
  obtain ⟨task, rest, _, ⟨_, _, same⟩ | same⟩ := start_cases started <;> rw [same]

theorem settled_wake (woken : lock.wake = some after) : after.settled = lock.settled := by
  obtain ⟨task, rest, _, _, same⟩ := wake_cases woken
  rw [same]

/-- The tasks that have given the lock back are the oldest ones, in their order. -/
theorem settled_prefix (lock : Lock τ ρ) : lock.settled.map Prod.fst <+: lock.tasks := by
  rw [tasks, List.append_assoc, List.append_assoc]
  exact List.prefix_append _ _

end Lock
end Locks
