import AgentRuntime.Selection

/-! What an approval pays for. The gate takes whatever decision the execution resumes with, and
nothing marks an approval as used: a call that is repeated finds its approved record and raises
the interrupt again, and the run resumes with the same record once more. So one record pays for
one call exactly as long as no execution resumes with a record that has paid already. -/
namespace AgentRuntime
open Machines Programs Tables

def sensitiveCall (deps : RuntimeDependencies) : Op → Bool
  | .invoke .toolNode name _ => deps.sensitive .toolNode name
  | _ => false

def approvedAnswer (py : Builtins) (entry : OpEntry) : Bool :=
  match entry with
  | ⟨.interrupt _, .answered resume⟩ => decisionValue py resume = ApprovalStatus.approved.value
  | _ => false

namespace Execution

def calls (deps : RuntimeDependencies) (e : Execution) : Nat :=
  e.history.countP fun entry => sensitiveCall deps entry.op

def resumedWith (e : Execution) : Option ResumeValue :=
  match e.entry with
  | .aresume value => some value
  | .ainvoke => none

end Execution

/-- For every sensitive call, the approval that its execution was resumed with. -/
def authorisers (deps : RuntimeDependencies) (executed : List Execution) :
    List (Option ApprovalId) :=
  executed.flatMap fun e =>
    List.replicate (e.calls deps) (e.resumedWith.map ResumeValue.approvalId)

def Database.approvedFor (db : Database) (id : RunId) : List ApprovalRow :=
  db.approvals.rows.filter fun approval => approval.runId = id && approval.status = .approved

/-- The sensitive calls are at most as many as the approved approvals of the run, and no two
of them were made on one approval. -/
structure ConsumedOnce (c : RunConfig) (s : RunState) : Prop where
  count : (authorisers c.deps s.executed).length ≤ (s.db.approvedFor c.runId).length
  once : (authorisers c.deps s.executed).Nodup

def ApprovalsConsumedOnce (c : RunConfig) (G : Guard RunState RunAction) : Prop :=
  ∀ s, Reachable (executions c) G s → ConsumedOnce c s

/-- An execution that finds the run paused does not resume it with an approval on which a
sensitive call was made. -/
def unspent (c : RunConfig) : Guard RunState RunAction := fun s a =>
  ∀ ties value, a = .read ties → s.db.admission c.runId ties = .enter (.aresume value) →
    some value.approvalId ∉ authorisers c.deps s.executed

def GateRule (py : Builtins) (deps : RuntimeDependencies) (history : List OpEntry) : Op → Prop
  | .invoke .toolNode name arguments =>
      deps.sensitive .toolNode name → ApprovedCall py name arguments history
  | _ => True

section Histories
variable {py : Builtins} {deps : RuntimeDependencies}

/-- A history that ends with an approval which no call has used yet. -/
def endsApproved (py : Builtins) (history : List OpEntry) : Nat :=
  if history.getLast?.any (approvedAnswer py) then 1 else 0

/-- Every sensitive call has its own answered interrupt: by induction on the history, where an
approval at the end is not used yet. -/
theorem calls_answered {history : List OpEntry} (follows : Follows (GateRule py deps) history) :
    (history.countP fun entry => sensitiveCall deps entry.op) + endsApproved py history ≤
      history.countP (approvedAnswer py) := by
  induction history using List.reverseRecOn with
  | nil => exact Nat.le_refl 0
  | append_singleton history entry ih =>
      have before := ih fun first other rest same =>
        follows first other (rest ++ [entry]) (by rw [same]; simp)
      have asked := follows history entry [] rfl
      have last : endsApproved py (history ++ [entry]) =
          if approvedAnswer py entry then 1 else 0 := by
        simp [endsApproved]
      rw [List.countP_append, List.countP_append, List.countP_singleton, List.countP_singleton,
        last]
      cases called : sensitiveCall deps entry.op with
      | false =>
          simp only [Bool.false_eq_true, if_false]
          omega
      | true =>
          obtain ⟨op, reply⟩ := entry
          cases op with
          | invoke site name arguments =>
              cases site with
              | subagent => contradiction
              | toolNode =>
                  obtain ⟨first, raised, resume, rfl, _, _, approved⟩ := asked called
                  have paid : endsApproved py
                      (first ++ [⟨.interrupt raised, .answered resume⟩]) = 1 := by
                    simp [endsApproved, approvedAnswer, approved]
                  simp only [approvedAnswer, Bool.false_eq_true, if_false, if_true]
                  omega
          | _ => contradiction

def resumes (history : List OpEntry) : List Json :=
  history.filterMap fun entry =>
    match entry with
    | ⟨.interrupt _, .answered resume⟩ => some resume
    | _ => none

theorem countP_approvedAnswer (history : List OpEntry) :
    history.countP (approvedAnswer py) =
      (resumes history).countP fun resume =>
        decisionValue py resume = ApprovalStatus.approved.value := by
  rw [resumes, List.countP_filterMap]
  congr 1
  funext entry
  obtain ⟨op, reply⟩ := entry
  cases op <;> cases reply <;> rfl

theorem resumes_snoc (history : List OpEntry) (entry : OpEntry) :
    resumes (history ++ [entry]) = resumes history ++ resumes [entry] :=
  List.filterMap_append

theorem decisionValue_dump (value : ResumeValue) :
    decisionValue py (.obj value.dump) = value.decision.value := by
  simp [decisionValue, ResumeValue.dump, Dict.getD, Json.text]

end Histories

namespace Execution
variable {py : Builtins} {deps : RuntimeDependencies} {e : Execution}

/-- The resume values that the execution took and has left are at most the one it got. -/
def TakesOnce (e : Execution) : Prop :=
  List.Sublist (resumes e.history ++ e.answer.toList.map fun value => .obj value.dump)
    (e.resumedWith.toList.map fun value => .obj value.dump)

/-- An execution makes at most one sensitive call, and only on an approval. -/
theorem calls_le (follows : Follows (GateRule py deps) e.history) (once : e.TakesOnce) :
    e.calls deps ≤ 1 ∧
      (0 < e.calls deps → ∃ value, e.resumedWith = some value ∧ value.decision = .approved) := by
  have answered : e.calls deps ≤ (e.resumedWith.toList.map fun value => Json.obj value.dump).countP
      fun resume => decisionValue py resume = ApprovalStatus.approved.value := by
    have counted := calls_answered follows
    rw [countP_approvedAnswer] at counted
    have taken := ((List.sublist_append_left _ _).trans once).countP_le
      (p := fun resume => decisionValue py resume = ApprovalStatus.approved.value)
    exact (Nat.le_add_right _ _).trans (counted.trans taken)
  cases resumed : e.resumedWith with
  | none =>
      rw [resumed] at answered
      have none : e.calls deps = 0 := Nat.le_zero.mp answered
      exact ⟨by omega, fun some => by omega⟩
  | some value =>
      rw [resumed] at answered
      simp only [Option.toList_some, List.map_cons, List.map_nil, List.countP_singleton,
        decisionValue_dump, decide_eq_true_eq] at answered
      split at answered
      next approved =>
        exact ⟨answered, fun _ => ⟨value, rfl, ApprovalStatus.value_injective approved⟩⟩
      next => exact ⟨by omega, fun some => by omega⟩

theorem TakesOnce.replied (once : e.TakesOnce) (services : Services) (db : Database) (op : Op)
    (next : op.Answer → GraphProg GraphState) :
    (e.replied op next (services.reply py db e.answer op)).TakesOnce := by
  unfold TakesOnce at once ⊢
  have history : (e.replied op next (services.reply py db e.answer op)).history =
      e.history ++ [⟨op, .ofExcept (services.reply py db e.answer op)⟩] := rfl
  have resumed : (e.replied op next (services.reply py db e.answer op)).resumedWith =
      e.resumedWith := rfl
  rw [history, resumed, resumes_snoc]
  cases op with
  | interrupt raised =>
      cases answer : e.answer with
      | none =>
          rw [answer] at once
          simpa [Execution.replied, Services.reply, answer, resumes, Reply.ofExcept] using once
      | some value =>
          rw [answer] at once
          simpa [Execution.replied, Services.reply, answer, resumes, Reply.ofExcept] using once
  | _ => simpa [Execution.replied, resumes] using once

theorem TakesOnce.crashed (once : e.TakesOnce) (begun : Bool) : (e.crashed begun).TakesOnce := by
  unfold Execution.crashed
  split
  next op next _ =>
    unfold TakesOnce at once ⊢
    have resumed (history : List OpEntry) :
        ({ e with history := history } : Execution).resumedWith = e.resumedWith := rfl
    rw [resumed, resumes_snoc]
    cases op <;> simpa [resumes] using once
  next => exact once

theorem crashed_resumedWith (begun : Bool) : (e.crashed begun).resumedWith = e.resumedWith := by
  unfold Execution.crashed
  split <;> rfl

end Execution

section Runs
variable {c : RunConfig} {s t : RunState}

theorem authorisers_snoc (deps : RuntimeDependencies) (executed : List Execution) (e : Execution) :
    authorisers deps (executed ++ [e]) = authorisers deps executed ++
      List.replicate (e.calls deps) (e.resumedWith.map ResumeValue.approvalId) := by
  simp [authorisers]

/-- An execution takes one decision, and an approval that it takes stays stored. -/
structure Execution.Frugal (c : RunConfig) (db : Database) (e : Execution) : Prop where
  takes : e.TakesOnce
  stored : ∀ value, e.resumedWith = some value → value.decision = .approved →
    ∃ approval, db.approvals.find? value.approvalId = some approval ∧
      approval.runId = c.runId ∧ approval.status = .approved

theorem Execution.Frugal.tx {db : Database} {e : Execution} (frugal : e.Frugal c db) (tx : Tx) :
    e.Frugal c (tx.apply c.py db) where
  takes := frugal.takes
  stored value resumed decided := by
    obtain ⟨approval, found, own, approved⟩ := frugal.stored value resumed decided
    refine ⟨approval, tx.keeps_settled found ?_, own, approved⟩
    rw [approved]
    exact ApprovalStatus.noConfusion

/-- An execution begins with a decision of this run that is stored. -/
theorem Execution.Frugal.entered {db : Database} {ties : ApprovalRow → Nat} {entry : Entry}
    {text : String} (admitted : db.admission c.runId ties = .enter entry) :
    ({ entry := entry, inputText := text } : Execution).Frugal c db := by
  refine ⟨List.nil_sublist _, fun value resumed approved => ?_⟩
  cases entry with
  | ainvoke => contradiction
  | aresume value =>
      cases resumed
      obtain ⟨_, approval, latest, rfl⟩ := Database.admission_eq_aresume.mp admitted
      obtain ⟨found, resolved⟩ := Database.latestResolved_stored latest
      simp only [Database.resolvedFor, Bool.and_eq_true, decide_eq_true_eq] at resolved
      exact ⟨approval, found, resolved.1, approved⟩

/-- The launch hands over the decision of the entry, and nothing has been asked before it. -/
theorem Execution.Frugal.launched {db : Database} {e : Execution} (frugal : e.Frugal c db)
    (empty : e.history = []) (unanswered : e.answer = none) {answer : Option ResumeValue}
    (given : answer = e.answer ∨ ∃ value, e.entry = .aresume value ∧ answer = some value)
    (p : GraphProg GraphState) :
    ({ e with program := some p, answer := answer } : Execution).Frugal c db := by
  refine ⟨?_, frugal.stored⟩
  unfold Execution.TakesOnce
  rw [empty]
  rcases given with rfl | ⟨value, entry, rfl⟩
  · rw [unanswered]
    exact List.nil_sublist _
  · simp [resumes, Execution.resumedWith, entry]

theorem Execution.Frugal.crashed {db : Database} {e : Execution} (frugal : e.Frugal c db)
    (begun : Bool) : (e.crashed begun).Frugal c db := by
  refine ⟨frugal.takes.crashed begun, ?_⟩
  rw [e.crashed_resumedWith begun]
  exact frugal.stored

/-- The current execution resumed with an approval that had paid for nothing. -/
def Fresh (c : RunConfig) (past : List Execution) (e : Execution) : Prop :=
  ∀ value, e.resumedWith = some value → some value.approvalId ∉ authorisers c.deps past

structure Frugal (c : RunConfig) (s : RunState) : Prop where
  obeys : Obeys (GateRule c.py c.deps) s
  past : ∀ e ∈ s.past, e.Frugal c s.db
  current : ∀ e, s.current = some e → e.Frugal c s.db
  ready : ∀ e, s.current = some e → e.program = none → e.answer = none
  fresh : ∀ e, s.current = some e → Fresh c s.past e
  once : (authorisers c.deps s.past).Nodup

/-- One more execution, on an approval that had paid for nothing. -/
theorem once_snoc {past : List Execution} {e : Execution}
    (once : (authorisers c.deps past).Nodup)
    (follows : Follows (GateRule c.py c.deps) e.history) (takes : e.TakesOnce)
    (fresh : Fresh c past e) : (authorisers c.deps (past ++ [e])).Nodup := by
  obtain ⟨single, approved⟩ := Execution.calls_le follows takes
  rw [authorisers_snoc]
  refine List.nodup_append.mpr ⟨once, List.nodup_replicate.mpr single, ?_⟩
  intro earlier before later now same
  obtain ⟨positive, rfl⟩ := List.mem_replicate.mp now
  obtain ⟨value, resumed, _⟩ := approved (Nat.pos_of_ne_zero positive)
  rw [same, resumed] at before
  exact fresh value resumed before

theorem Frugal.ended (frugal : Frugal c s) {e : Execution} (sound : e.Frugal c s.db)
    (follows : Follows (GateRule c.py c.deps) e.history) (fresh : Fresh c s.past e) (tx : Tx) :
    Frugal c { s with db := tx.apply c.py s.db, current := none, past := s.past ++ [e] } where
  obeys := Obeys.ended frugal.obeys.past follows _
  past other member := by
    rcases List.mem_append.mp member with old | new
    · exact (frugal.past other old).tx tx
    · rw [List.mem_singleton.mp new]
      exact sound.tx tx
  current _ none := by contradiction
  ready _ none := by contradiction
  fresh _ none := by contradiction
  once := once_snoc frugal.once follows sound.takes fresh

theorem gate_inductive (c : RunConfig) (G : Guard RunState RunAction) :
    Inductive (executions c) G (Obeys (GateRule c.py c.deps)) where
  init _ first := .of_initial first
  step s a t obeys _ stepped := by
    refine obeys.step (RunState.step_sound stepped) fun _ stored _ _ => course_wp ?_ ?_ _ stored
    · intro node state history op _ rule
      cases op with
      | invoke site name arguments =>
          cases site with
          | toolNode => exact rule.2
          | subagent => trivial
      | _ => trivial
    · intros
      trivial

theorem frugal_inductive (c : RunConfig) : Inductive (executions c) (unspent c) (Frugal c) where
  init s first := by
    have obeys : Obeys (GateRule c.py c.deps) s := .of_initial first
    obtain ⟨_, current, past, _⟩ := first
    refine ⟨obeys, ?_, ?_, ?_, ?_, ?_⟩ <;> simp [current, past, authorisers]
  step s a t frugal allowed stepped := by
    have obeys := (gate_inductive c _).step s a t frugal.obeys allowed stepped
    cases RunState.step_sound stepped with
    | @transact tx other =>
        exact ⟨obeys, fun e member => (frugal.past e member).tx tx,
          fun e current => (frugal.current e current).tx tx, frugal.ready, frugal.fresh,
          frugal.once⟩
    | @enter ties entry run idle admitted stored =>
        refine ⟨obeys, frugal.past, ?_, ?_, ?_, frugal.once⟩
        · intro e current
          cases current
          exact .entered admitted
        · intro e current _
          cases current
          rfl
        · intro e current value resumed
          cases current
          cases entry with
          | ainvoke => contradiction
          | aresume value =>
              cases resumed
              have unused := allowed ties value rfl admitted
              rwa [RunState.executed, idle, Option.toList_none, List.append_nil] at unused
    | stay idle => exact frugal
    | @launch e current ready =>
        obtain ⟨p, answer, after, past, db, given, _⟩ := s.launch_cases c e
        have empty := frugal.obeys.ready e current ready
        have unanswered := frugal.ready e current ready
        refine ⟨obeys, by rw [past, db]; exact frugal.past, ?_, ?_, ?_, past ▸ frugal.once⟩
        · intro f now
          cases after.symm.trans now
          rw [db]
          exact (frugal.current e current).launched empty unanswered given p
        · intro f now none
          cases after.symm.trans now
          contradiction
        · intro f now
          cases after.symm.trans now
          rw [past]
          exact frugal.fresh e current
    | @reply services e op next current asks =>
        refine ⟨obeys, fun f member => (frugal.past f member).tx _, ?_, ?_, ?_, frugal.once⟩
        · intro f now
          cases now
          have before := (frugal.current e current).tx (services.tx op)
          exact ⟨before.takes.replied services s.db op next, before.stored⟩
        · intro f now none
          cases now
          contradiction
        · intro f now
          cases now
          exact frugal.fresh e current
    | @finish e p outcome current ran ended =>
        exact frugal.ended (frugal.current e current) (frugal.obeys.follows e current)
          (frugal.fresh e current) (.updateRun _ _ _ _ _)
    | @crash begun e current =>
        have fresh : Fresh c s.past (e.crashed begun) := by
          unfold Fresh
          rw [e.crashed_resumedWith begun]
          exact frugal.fresh e current
        exact frugal.ended ((frugal.current e current).crashed begun)
          (frugal.obeys.crashed current begun) fresh .idle

theorem Frugal.paid (frugal : Frugal c s) :
    authorisers c.deps s.executed ⊆
      (s.db.approvedFor c.runId).map fun approval => some approval.id := by
  intro authoriser among
  obtain ⟨e, executed, called⟩ := List.mem_flatMap.mp among
  obtain ⟨positive, rfl⟩ := List.mem_replicate.mp called
  have sound : e.Frugal c s.db :=
    (RunState.mem_executed.mp executed).elim (frugal.past e) (frugal.current e)
  obtain ⟨value, resumed, decided⟩ :=
    (Execution.calls_le (frugal.obeys.executed executed) sound.takes).2
      (Nat.pos_of_ne_zero positive)
  obtain ⟨approval, found, own, approved⟩ := sound.stored value resumed decided
  have same : approval.id = value.approvalId := Table.key_of_find? found
  rw [resumed, Option.map_some, ← same]
  refine List.mem_map_of_mem (f := fun approval : ApprovalRow => some approval.id)
    (List.mem_filter.mpr ?_)
  exact ⟨(Table.find?_eq_some.mp found).1, by simp [own, approved]⟩

theorem Frugal.consumed (frugal : Frugal c s) : ConsumedOnce c s := by
  have once : (authorisers c.deps s.executed).Nodup := by
    unfold RunState.executed
    cases now : s.current with
    | none => simpa using frugal.once
    | some e =>
        exact once_snoc frugal.once (frugal.obeys.follows e now) (frugal.current e now).takes
          (frugal.fresh e now)
  refine ⟨?_, once⟩
  have fewer := (List.subperm_of_subset once frugal.paid).length_le
  rwa [List.length_map] at fewer

/-- While no execution resumes with an approval that has paid, every approval pays for one
call at most. -/
theorem approvals_consumed_once (c : RunConfig) : ApprovalsConsumedOnce c (unspent c) :=
  fun _ reached => ((frugal_inductive c).reachable reached).consumed

end Runs

section Sample

def transferNode : NodeDef where
  type := .tool
  id := "tools"

def transferRun : RunConfig where
  py := .onEmpty
  runId := sampleRun
  program := ⟨.ofDefinition (sampleDefinition transferNode), by decide⟩
  deps := sampleDeps

/-- A model that decides for the transfer whenever it is asked. -/
def transferServices : Services where
  result :=
    { structured := some (SupervisorDecision.dump
        { action := .tool
          capabilityNodeId := some "tools"
          resource := some [("tool_name", .str "transfer")] }) }
  recordId := "a1"

def sampleExecution (operations : Nat) : List RunAction :=
  [.read fun _ => 0, .launch] ++ List.replicate operations (.reply transferServices) ++ [.finish]

/-- The run pauses at the gate, the transfer is approved, and a second execution, which starts
from the input, pauses at the gate again. -/
def sampleApproved : List RunAction :=
  sampleExecution 14 ++
    [.transact (.resolveAndEnqueue "a1" .approved "user" none 0 "job2")] ++ sampleExecution 14

/-- An execution that finds the approval makes the call, and pauses at the gate of the next. -/
def sampleCall : List RunAction := sampleExecution 24

def unspentCheck (c : RunConfig) (s : RunState) : RunAction → Bool
  | .read ties =>
      match s.db.admission c.runId ties with
      | .enter (.aresume value) => some value.approvalId ∉ authorisers c.deps s.executed
      | _ => true
  | _ => true

theorem unspent_checks (c : RunConfig) :
    Checks (executions c) (unspent c) (fun _ => True) (unspentCheck c) where
  sound s a _ passed := by
    rintro ties value rfl admitted
    simpa only [unspentCheck, admitted, decide_eq_true_eq] using passed
  kept _ _ _ _ _ _ := trivial

theorem approved_call_made :
    ∃ s, Reachable (executions transferRun) (unspent transferRun) s ∧
      authorisers transferRun.deps s.executed = [some "a1"] ∧ ConsumedOnce transferRun s := by
  obtain ⟨s, run, _, calls⟩ := (unspent_checks transferRun).of_test (s := transferRun.created)
    trivial (sampleApproved ++ sampleCall)
    (fun s => authorisers transferRun.deps s.executed = [some "a1"]) (by decide +kernel)
  have reached := (Reachable.start transferRun.created_initial).run run
  exact ⟨s, reached, calls, approvals_consumed_once transferRun s reached⟩

/-- The same call is made again on the same approval. -/
theorem approval_pays_twice : ¬ ApprovalsConsumedOnce transferRun anyStep := by
  intro consumed
  obtain ⟨s, run, calls, approved⟩ := Run.of_test (M := executions transferRun)
    transferRun.created (sampleApproved ++ sampleCall ++ sampleCall)
    (fun s => (authorisers transferRun.deps s.executed).length = 2 ∧
      (s.db.approvedFor transferRun.runId).length = 1) (by decide +kernel)
  have count := (consumed s ((Reachable.start transferRun.created_initial).run run)).count
  omega

end Sample
end AgentRuntime
