import AgentRuntime.Library.Logs

/-! Readers of an append-only log. A reader asks for the rows of an owner behind its cursor and
moves the cursor to each row it hands on. What it has handed on is then a prefix of the rows
behind its start, however the log grows in between. -/
namespace Logs

variable {ρ κ : Type} [Numbered ρ κ] [DecidableEq κ]

/-- The rows of the owner behind the cursor. -/
def after (log : List ρ) (k : κ) (cursor : Int) : List ρ :=
  log.filter fun row => owner row = k && cursor < number row

/-- The cursor behind the given rows. -/
def reached (start : Int) (rows : List ρ) : Int :=
  match rows.getLast? with
  | some row => number row
  | none => start

/-- A reader that has handed on the rows `yielded` and is about to hand on `pending`. -/
structure Follows (log : List ρ) (k : κ) (start cursor : Int) (yielded pending : List ρ) :
    Prop where
  cursor_eq : cursor = reached start yielded
  ahead : yielded ++ pending <+: after log k start

section After
variable {log : List ρ} {k : κ} {start : Int} {rows : List ρ} {row : ρ}

theorem mem_after : row ∈ after log k start ↔ row ∈ log ∧ owner row = k ∧ start < number row := by
  simp [after]

theorem after_append (log more : List ρ) (k : κ) (start : Int) :
    after (log ++ more) k start = after log k start ++ after more k start := by
  simp [after]

theorem after_growing {log' : List ρ} (grown : log <+: log') :
    after log k start <+: after log' k start := by
  obtain ⟨more, rfl⟩ := grown
  rw [after_append]
  exact List.prefix_append _ _

theorem Sequential.after_upward (sequential : Sequential log) (k : κ) (start : Int) :
    (after log k start).Pairwise fun a b => number a < number b := by
  have kept : (after log k start).Pairwise fun a b => owner a = owner b → number a < number b :=
    sequential.ordered.sublist List.filter_sublist
  refine kept.imp_of_mem fun {a b} first second less => ?_
  exact less ((mem_after.mp first).2.1.trans (mem_after.mp second).2.1.symm)

omit [DecidableEq κ] in
@[simp] theorem reached_concat (start : Int) (rows : List ρ) (row : ρ) :
    reached start (rows ++ [row]) = number row := by
  simp [reached]

omit [DecidableEq κ] in
theorem reached_append (start : Int) (rows more : List ρ) :
    reached start (rows ++ more) = reached (reached start rows) more := by
  rcases List.eq_nil_or_concat' more with rfl | ⟨before, row, rfl⟩
  · simp [reached]
  · rw [← List.append_assoc, reached_concat, reached_concat]

/-- What has been handed on splits the rows behind the start at the cursor. -/
theorem Sequential.after_reached (sequential : Sequential log)
    (handed : rows <+: after log k start) :
    after log k start = rows ++ after log k (reached start rows) := by
  obtain ⟨rest, whole⟩ := handed
  rcases List.eq_nil_or_concat' rows with rfl | ⟨before, row, rfl⟩
  · rfl
  · have upward := sequential.after_upward k start
    rw [← whole] at upward
    obtain ⟨first, _, apart⟩ := List.pairwise_append.mp upward
    obtain ⟨_, _, last⟩ := List.pairwise_append.mp first
    have member : row ∈ after log k start := by
      rw [← whole]
      simp
    have split : after log k (number row) =
        (after log k start).filter fun other => number row < number other := by
      rw [after, after, List.filter_filter]
      refine List.filter_congr fun other _ => ?_
      have ahead := (mem_after.mp member).2.2
      by_cases own : owner other = k
      · simp only [own, decide_true, Bool.true_and]
        grind
      · simp [own]
    have none : (before.filter fun other => number row < number other) = [] := by
      refine List.filter_eq_nil_iff.mpr fun other found => ?_
      have less := last other found row List.mem_cons_self
      simp only [decide_eq_true_eq]
      omega
    have all : (rest.filter fun other => number row < number other) = rest := by
      refine List.filter_eq_self.mpr fun other found => ?_
      simpa using apart row (by simp) other found
    rw [reached_concat, split, ← whole]
    simp [none, all]

/-- No row behind the start is left out up to the cursor. -/
theorem Sequential.mem_of_le_reached (sequential : Sequential log)
    (handed : rows <+: after log k start) (stored : row ∈ log) (own : owner row = k)
    (behind : start < number row) (within : number row ≤ reached start rows) : row ∈ rows := by
  have member : row ∈ after log k start := mem_after.mpr ⟨stored, own, behind⟩
  rw [sequential.after_reached handed] at member
  rcases List.mem_append.mp member with found | later
  · exact found
  · have ahead := (mem_after.mp later).2.2
    omega

end After

namespace Follows
variable {log log' : List ρ} {k : κ} {start cursor : Int} {yielded pending : List ρ} {row : ρ}

theorem fresh (log : List ρ) (k : κ) (start : Int) : Follows log k start start [] [] :=
  ⟨rfl, List.nil_prefix⟩

theorem grow (follows : Follows log k start cursor yielded pending) (grown : log <+: log') :
    Follows log' k start cursor yielded pending :=
  ⟨follows.cursor_eq, follows.ahead.trans (after_growing grown)⟩

theorem handed (follows : Follows log k start cursor yielded pending) :
    yielded <+: after log k start := (List.prefix_append _ _).trans follows.ahead

/-- The reader asks for the rows behind its cursor. -/
theorem poll (follows : Follows log k start cursor yielded pending) (sequential : Sequential log) :
    Follows log k start cursor yielded (after log k cursor) := by
  have same : yielded ++ after log k cursor = after log k start := by
    rw [sequential.after_reached follows.handed, ← follows.cursor_eq]
  exact ⟨follows.cursor_eq, [], by rw [List.append_nil, same]⟩

theorem deliver (follows : Follows log k start cursor yielded (row :: pending)) :
    Follows log k start (number row) (yielded ++ [row]) pending := by
  refine ⟨(reached_concat _ _ _).symm, ?_⟩
  rw [List.append_assoc, List.singleton_append]
  exact follows.ahead

theorem discard (follows : Follows log k start cursor yielded pending) :
    Follows log k start cursor yielded [] :=
  ⟨follows.cursor_eq, by rw [List.append_nil]; exact follows.handed⟩

theorem start_le (follows : Follows log k start cursor yielded pending) : start ≤ cursor := by
  rw [follows.cursor_eq]
  rcases List.eq_nil_or_concat' yielded with rfl | ⟨before, row, rfl⟩
  · exact Int.le_refl start
  · have ahead := (mem_after.mp (follows.handed.subset (List.mem_concat_self))).2.2
    rw [reached_concat]
    exact Int.le_of_lt ahead

theorem mem_yielded (follows : Follows log k start cursor yielded pending)
    (sequential : Sequential log) (stored : row ∈ log) (own : owner row = k)
    (behind : start < number row) (within : number row ≤ cursor) : row ∈ yielded :=
  sequential.mem_of_le_reached follows.handed stored own behind (follows.cursor_eq ▸ within)

end Follows
end Logs
