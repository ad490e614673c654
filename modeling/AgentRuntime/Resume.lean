import AgentRuntime.Delivery

/-! What a resume carries. `execute_run_sync` takes the newest decision of the run, and the
gate does not compare its action with the one it asked for, so the decision answers the
outstanding interrupt only if the newest decided approval is the one the interrupt was
raised for. -/
namespace AgentRuntime
open Machines Tables

namespace Database

/-- Whatever is resumed with is the decision of the approval for the action. -/
def AnswersAction (db : Database) (id : RunId) (action : String) (ties : ApprovalRow → Nat) : Prop :=
  ∀ value, db.admission id ties = .enter (.aresume value) →
    ∃ approval, db.approvalFor? action = some approval ∧ approval.status ≠ .pending ∧
      value = ⟨approval.status, approval.id, action⟩

/-- A decided approval of the run than which none is newer. -/
def NewestDecided (db : Database) (id : RunId) (approval : ApprovalRow) : Prop :=
  approval ∈ db.approvals.rows ∧ resolvedFor id approval = true ∧
    ∀ other ∈ db.approvals.rows, resolvedFor id other = true →
      resolutionRank other ≤ resolutionRank approval

def ActionIdsUnique (db : Database) : Prop :=
  ∀ a ∈ db.approvals.rows, ∀ b ∈ db.approvals.rows, a.actionId = b.actionId → a = b

theorem approvalFor?_eq_some {db : Database} (unique : db.ActionIdsUnique) {approval : ApprovalRow}
    (member : approval ∈ db.approvals.rows) : db.approvalFor? approval.actionId = some approval := by
  cases found : db.approvalFor? approval.actionId with
  | none =>
      have differs := List.find?_eq_none.mp found approval member
      simp at differs
  | some other =>
      have same : other.actionId = approval.actionId := by simpa using List.find?_some found
      rw [unique other (List.mem_of_find?_eq_some found) approval member same]

theorem latestResolved_newest {db : Database} {id : RunId} {ties : ApprovalRow → Nat}
    {approval : ApprovalRow} (latest : db.latestResolved id ties = some approval) :
    db.NewestDecided id approval := by
  obtain ⟨member, resolved⟩ := firstBy_mem latest
  refine ⟨member, resolved, fun other among decided => ?_⟩
  have first := firstBy_le latest among decided
  rw [Prod.Lex.toLex_le_toLex] at first
  rcases first with newer | ⟨same, _⟩
  · exact (OrderDual.toDual_lt_toDual.mp newer).le
  · exact (OrderDual.toDual_inj.mp same).ge

theorem NewestDecided.selected {db : Database} {id : RunId} {approval : ApprovalRow}
    (newest : db.NewestDecided id approval) :
    ∃ ties, db.latestResolved id ties = some approval := by
  obtain ⟨member, resolved, newest⟩ := newest
  refine ⟨fun other => if other.id = approval.id then 0 else 1, ?_⟩
  cases latest : db.latestResolved id fun other => if other.id = approval.id then 0 else 1 with
  | none =>
      have missed := firstBy_eq_none.mp latest approval member
      rw [resolved] at missed
      contradiction
  | some other =>
      obtain ⟨among, decided⟩ := firstBy_mem latest
      have first := firstBy_le latest member resolved
      rw [Prod.Lex.toLex_le_toLex] at first
      have same : other.id = approval.id := by
        rcases first with newer | ⟨_, tie⟩
        · exact absurd (newest other among decided) (OrderDual.toDual_lt_toDual.mp newer).not_ge
        · by_contra differs
          simp [differs] at tie
      have stored := Table.mem_rows_iff.mp among
      rw [key_approval, same, ← key_approval, Table.mem_rows_iff.mp member] at stored
      exact congrArg some (Option.some.inj stored).symm

theorem eq_of_id {db : Database} {a b : ApprovalRow} (first : a ∈ db.approvals.rows)
    (second : b ∈ db.approvals.rows) (same : a.id = b.id) : a = b := by
  have stored := Table.mem_rows_iff.mp first
  rw [key_approval, same, ← key_approval, Table.mem_rows_iff.mp second] at stored
  exact (Option.some.inj stored).symm

theorem ActionIdsUnique.apply {py : Builtins} {db : Database} (unique : db.ActionIdsUnique)
    (tx : Tx) : (tx.apply py db).ActionIdsUnique := by
  intro a first b second same
  rcases approval_after first with ⟨old, among, _, id, action⟩ | ⟨new, fresh⟩
  · rcases approval_after second with ⟨old', among', _, id', action'⟩ | ⟨_, fresh'⟩
    · have equal := unique old among old' among' (by rw [← action, ← action', same])
      exact eq_of_id first second (by rw [id, id', equal])
    · exact absurd (action ▸ same) (fresh' old among)
  · rcases approval_after second with ⟨old', among', _, _, action'⟩ | ⟨new', _⟩
    · exact absurd (by rw [← action', same]) (fresh old' among')
    · exact Option.some.inj (new.symm.trans new')

end Database

theorem actionIdsUnique_inductive (c : Config) (G : Guard Sys Action) :
    Inductive (system c) G fun s => s.db.ActionIdsUnique where
  init s first := by
    obtain ⟨clock, rfl⟩ := first
    intro a member
    contradiction
  step _ _ _ unique _ stepped := by
    obtain ⟨tx, commits⟩ := (Sys.step_sound stepped).commits
    rw [commits.db]
    exact unique.apply tx

/-- The run is recorded paused and its thread is interrupted for the action. -/
structure Sys.PausedFor (s : Sys) (id : RunId) (action : String) : Prop where
  paused : (s.db.runs.find? id).map RunRow.status = some .paused
  interrupted : (s.threads id).outstanding.map Interrupt.actionId = some action

/-- In every reachable state an execution that finds the run paused answers the
outstanding interrupt. -/
def ResumesAnswer (c : Config) : Prop :=
  ∀ s id action ties, Reachable (system c) anyStep s → s.PausedFor id action →
    s.db.AnswersAction id action ties

/-- A resume carries the decision of the approval it is for exactly when no decision of
another action of the run is newest. -/
theorem resume_answers_iff (c : Config) {s : Sys} {id : RunId} {action : String}
    (reached : Reachable (system c) anyStep s) (paused : s.PausedFor id action) :
    (∀ ties, s.db.AnswersAction id action ties) ↔
      ∀ approval, s.db.NewestDecided id approval → approval.actionId = action := by
  have unique := (actionIdsUnique_inductive c anyStep).reachable reached
  constructor
  · intro answers approval newest
    obtain ⟨ties, selected⟩ := newest.selected
    obtain ⟨_, _, _, value⟩ := answers ties _
      (Database.admission_eq_aresume.mpr ⟨paused.paused, approval, selected, rfl⟩)
    exact (ResumeValue.mk.inj value).2.2
  · intro own ties value admitted
    obtain ⟨_, approval, selected, rfl⟩ := Database.admission_eq_aresume.mp admitted
    have newest := Database.latestResolved_newest selected
    have same := own approval newest
    subst same
    refine ⟨approval, Database.approvalFor?_eq_some unique newest.1, fun pending => ?_, rfl⟩
    have resolved := newest.2.1
    simp [Database.resolvedFor, pending] at resolved

theorem undecided_run_answers :
    ∃ (s : Sys) (action : String), s.PausedFor sampleRun action ∧
      ∀ ties, s.db.AnswersAction sampleRun action ties := by
  obtain ⟨s, run, paused, interrupted, undecided⟩ := Run.of_test (M := system sampleConfig)
    (.start 100) samplePause
    (fun s =>
      (s.db.runs.find? sampleRun).map RunRow.status = some .paused ∧
        (s.threads sampleRun).outstanding.isSome = true ∧
        (s.db.approvals.rows.all fun a => !Database.resolvedFor sampleRun a) = true)
    (by decide)
  obtain ⟨raised, outstanding⟩ := Option.isSome_iff_exists.mp interrupted
  have pausedFor : s.PausedFor sampleRun raised.actionId := ⟨paused, by rw [outstanding]; rfl⟩
  refine ⟨s, raised.actionId, pausedFor, ?_⟩
  refine (resume_answers_iff sampleConfig ⟨_, _, ⟨100, rfl⟩, run⟩ pausedFor).mpr ?_
  rintro approval ⟨member, resolved, _⟩
  have unresolved := List.all_eq_true.mp undecided approval member
  rw [resolved] at unresolved
  contradiction

/-- The approval of the node `pay` is decided, and the thread is then interrupted at the
node `refund`, whose approval is still pending. -/
def sampleSecondGate : List Action :=
  samplePause ++ [sampleApprove] ++ sampleResume ++
    [.work "w2" (.handler (.load fun _ => 0)), .work "w2" (.handler .start),
      .work "w2" (.handler .launch), .work "w2" (.handler (.checkCancel "refund")),
      .work "w2" (.handler (.gate "tool:refund" (some "refund") [] 3700 "second")),
      .work "w2" (.handler .interrupt), .work "w2" (.persist 0), .work "w2" (.persist 0),
      .work "w2" (.handler .updateRun)]

/-- The decision for `pay` then answers the interrupt of `refund`. -/
theorem earlier_approval_answers : ¬ ResumesAnswer sampleConfig := by
  obtain ⟨s, run, paused, interrupted⟩ := Run.of_test (M := system sampleConfig)
    (.start 100) sampleSecondGate
    (fun s =>
      (s.db.runs.find? sampleRun).map RunRow.status = some .paused ∧
        ((s.threads sampleRun).outstanding.any fun raised =>
          (s.db.approvalFor? raised.actionId).map ApprovalRow.status = some .pending &&
            (s.db.latestResolved sampleRun fun _ => 0).isSome) = true)
    (by decide)
  obtain ⟨raised, outstanding, fits⟩ := (Option.any_eq_true _ _).mp interrupted
  simp only [Bool.and_eq_true, decide_eq_true_eq, Option.isSome_iff_exists] at fits
  obtain ⟨pending, latest, selected⟩ := fits
  intro answers
  obtain ⟨approval, found, decided, _⟩ :=
    answers s sampleRun raised.actionId (fun _ => 0) ⟨_, _, ⟨100, rfl⟩, run⟩
      ⟨paused, by rw [outstanding]; rfl⟩ _
      (Database.admission_eq_aresume.mpr ⟨paused, latest, selected, rfl⟩)
  rw [found] at pending
  exact decided (Option.some.inj pending)

end AgentRuntime
