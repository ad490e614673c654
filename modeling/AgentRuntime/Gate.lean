import AgentRuntime.Executions

/-! The gate before sensitive tools. A tool node asks for an approval before it calls a sensitive
tool; the loop of a subagent node calls what its allowlist names without one. So every sensitive
call of a run is approved exactly when no subagent node that the supervisor can select, within
the recursion limit, has a sensitive tool in its allowlist. -/
namespace AgentRuntime
open Machines Programs Tables

/-- A sensitive tool is called right behind an approval for just this call. -/
def Authorized (py : Builtins) (deps : RuntimeDependencies) (history : List OpEntry) : Op → Prop
  | .invoke site name arguments =>
      deps.sensitive site name → ApprovedCall py name arguments history
  | _ => True

/-- In every reachable state every sensitive call of the run was approved. -/
def SensitiveCallsApproved (c : RunConfig) : Prop :=
  ∀ s, Reachable (executions c) anyStep s →
    ∀ e ∈ s.executed, Follows (Authorized c.py c.deps) e.history

/-- The nodes that a run which has no decision yet can come to, with their distance from the
entry. -/
inductive Walk (c : RunConfig) : Nat → NodeId → Prop
  | entry : Walk c 0 c.program.definition.entryId
  | step {n id node target} : Walk c n id → c.program.definition.nodeMap.find? id = some node →
      node.type ≠ .supervisor → node.Passable c.py c.deps →
      c.program.definition.edge node = .ok (.goes target) → Walk c (n + 1) target

/-- The supervisor comes behind `n` nodes, and it can decide. -/
def SupervisedAfter (c : RunConfig) (n : Nat) : Prop :=
  ∃ id node, Walk c n id ∧ c.program.definition.nodeMap.find? id = some node ∧
    node.type = .supervisor ∧ node.Passable c.py c.deps

/-- Some subagent node opens a sensitive tool to its loop. -/
def SensitiveToolOpen (c : RunConfig) : Prop :=
  ∃ node name, c.program.definition.nodeMap.find? node.id = some node ∧
    node.Opens c.py c.deps name ∧ c.deps.sensitive .subagent name

/-- Such a node can be selected before the recursion limit strikes. -/
def SensitiveToolReachable (c : RunConfig) : Prop :=
  (∃ n, SupervisedAfter c n ∧ n + 2 ≤ recursionLimit) ∧ SensitiveToolOpen c

section Walks
variable {c : RunConfig}

theorem NodeDef.Passable.not_capability {node : NodeDef} {py : Builtins}
    {deps : RuntimeDependencies} (passable : node.Passable py deps) :
    node.type.capability = false := by
  unfold NodeDef.Passable at passable
  cases kind : node.type <;> simp_all [NodeType.capability]

theorem Walk.unique {n : Nat} {i j : NodeId} (first : Walk c n i) (second : Walk c n j) :
    i = j := by
  induction first generalizing j with
  | entry => cases second; rfl
  | step _ found _ _ edge ih =>
      cases second with
      | step before found' _ _ edge' =>
          cases ih before
          cases found.symm.trans found'
          cases edge.symm.trans edge'
          rfl

theorem Walk.passed {n m : Nat} {i j : NodeId} {node : NodeDef} (first : Walk c n i)
    (found : c.program.definition.nodeMap.find? i = some node) (second : Walk c m j)
    (earlier : n < m) : node.type ≠ .supervisor ∧ node.Passable c.py c.deps := by
  induction second with
  | entry => contradiction
  | @step m id node' target before found' kind passable edge ih =>
      rcases Nat.lt_succ_iff_lt_or_eq.mp earlier with sooner | rfl
      · exact ih sooner
      · cases first.unique before
        cases found.symm.trans found'
        exact ⟨kind, passable⟩

theorem Walk.not_capability {n m : Nat} {id : NodeId} {node : NodeDef} (walk : Walk c n id)
    (found : c.program.definition.nodeMap.find? id = some node)
    (supervised : SupervisedAfter c m) : node.type.capability = false := by
  obtain ⟨id', supervisor, walk', found', kind, passable⟩ := supervised
  rcases Nat.lt_trichotomy n m with sooner | rfl | later
  · exact (walk.passed found walk' sooner).2.not_capability
  · cases walk.unique walk'
    cases found.symm.trans found'
    exact passable.not_capability
  · exact absurd kind (walk'.passed found' walk later).1

end Walks

section Sufficient
variable {c : RunConfig}

theorem authorized_inductive (closed : ¬ SensitiveToolOpen c) :
    Inductive (executions c) anyStep (Obeys (Authorized c.py c.deps)) where
  init s first := .of_initial first
  step s a t obeys _ stepped := by
    refine obeys.step (RunState.step_sound stepped) fun _ stored _ _ => course_wp ?_ ?_ _ stored
    · intro node state history op found rule
      cases op with
      | invoke site name arguments =>
          cases site with
          | toolNode => exact rule.2
          | subagent => exact fun sensitive => absurd ⟨node, name, found, rule.2, sensitive⟩ closed
      | _ => trivial
    · intros
      trivial

theorem decision_merge (py : Builtins) (state : GraphState) {patch : GraphState}
    (silent : patch.control = []) : (state.merge patch).decision py = state.decision py := by
  unfold GraphState.decision GraphState.merge
  rw [silent]
  rfl

/-- A decision in the channels comes from the supervisor. -/
def Supervised (c : RunConfig) (state : GraphState) : Prop :=
  (∃ decision, state.decision c.py = .ok decision) → ∃ n, SupervisedAfter c n

def Undecided (c : RunConfig) (_ : List OpEntry) : Op → Prop
  | .invoke .. | .createPending _ => False
  | .checkpoint stored => Supervised c stored.state
  | _ => True

/-- A run whose supervisor, if any, comes too late to have a capability selected. -/
structure NeverSelects (c : RunConfig) (s : RunState) : Prop where
  obeys : Obeys (Undecided c) s
  thread : ∀ stored, s.thread = some stored → Supervised c stored.state
  approvals : ∀ approval ∈ s.db.approvals.rows, approval.runId ≠ c.runId
  entered : ∀ e, s.current = some e → e.entry = .ainvoke

/-- The course of an input walks to the supervisor and ends there. -/
theorem course_undecided (late : ∀ n, SupervisedAfter c n → ¬ n + 2 ≤ recursionLimit)
    {stored : Checkpoint} (entry : stored.next = some c.program.definition.entryId)
    (supervised : Supervised c stored.state) :
    wp (Undecided c) (fun _ _ => True) [] (RunState.course c recursionLimit stored) := by
  unfold RunState.course
  rw [entry]
  have capable {node : NodeDef} {state : GraphState} {n : Nat} {id : NodeId} (walk : Walk c n id)
      (found : c.program.definition.nodeMap.find? id = some node) (from' : Supervised c state) :
      ¬ node.Decided c.py state := by
    rintro ⟨capability, decided⟩
    obtain ⟨m, reached⟩ := from' decided
    rw [walk.not_capability found reached] at capability
    contradiction
  refine drive_wp (J := fun remaining id state => Supervised c state ∧
    (remaining = 0 ∨ ∃ n, Walk c n id ∧ n + remaining = recursionLimit)) ?_ ?_
    (fun _ same => by cases same; exact ⟨supervised, .inr ⟨0, .entry, Nat.zero_add _⟩⟩) []
  · rintro remaining id node state history op ⟨from', none | ⟨n, walk, _⟩⟩ found rule
    · contradiction
    · cases op with
      | invoke site name arguments => cases site <;> exact capable walk found from' rule.1
      | createPending pending => exact capable walk found from' rule
      | checkpoint stored => exact rule.elim
      | _ => trivial
  · rintro remaining id node state patch target history ⟨from', none | ⟨n, walk, length⟩⟩ found
      patched reached
    · contradiction
    · have passable : node.Passable c.py c.deps :=
        patched.able.resolve_left (capable walk found from')
      by_cases kind : node.type = .supervisor
      · have here : SupervisedAfter c n := ⟨id, node, walk, found, kind, passable⟩
        have last := late n here
        exact ⟨fun _ => ⟨n, here⟩, fun _ _ => ⟨fun _ => ⟨n, here⟩, .inl (by omega)⟩⟩
      · have kept : Supervised c (state.merge patch) := by
          unfold Supervised
          rw [decision_merge c.py state (patched.control.resolve_right kind)]
          exact from'
        refine ⟨kept, fun id' same => ⟨kept, .inr ⟨n + 1, ?_, by omega⟩⟩⟩
        subst same
        unfold CompiledGraph.next at reached
        cases edge : c.program.definition.edge node with
        | error error =>
            rw [edge] at reached
            contradiction
        | ok edge' =>
            rw [edge] at reached
            cases edge' with
            | exit => cases reached
            | goes target =>
                cases reached
                exact walk.step found kind passable edge
            | routed =>
                simp only [CompiledGraph.edge, kind, if_false] at edge
                split at edge
                next => cases edge
                next => split at edge <;> cases edge

theorem approvals_after {py : Builtins} {db : Database} {tx : Tx} {id : RunId}
    (none : ∀ approval ∈ db.approvals.rows, approval.runId ≠ id) (other : tx.gates id = false) :
    ∀ approval ∈ (tx.apply py db).approvals.rows, approval.runId ≠ id := by
  intro approval member
  rcases Database.approval_after member with ⟨old, among, same, _⟩ | ⟨new, _⟩
  · obtain ⟨_, _, _, _, decided⟩ := tx.onApproval_decision db old
    rw [same, decided]
    exact none old among
  · cases tx with
    | createPending action aid =>
        simp only [Tx.newApproval] at new
        split at new
        · cases new
          exact of_decide_eq_false other
        · contradiction
    | _ => contradiction

theorem neverSelects_inductive (late : ∀ n, SupervisedAfter c n → ¬ n + 2 ≤ recursionLimit) :
    Inductive (executions c) anyStep (NeverSelects c) where
  init s first := by
    refine ⟨.of_initial first, ?_, first.2.2.2, ?_⟩
    · intro stored found
      rw [first.1] at found
      contradiction
    · intro e current
      rw [first.2.1] at current
      contradiction
  step s a t never _ stepped := by
    have step := RunState.step_sound stepped
    have base (e : Execution) : Supervised c (RunState.input c s.thread e.inputText).state := by
      unfold Supervised
      rw [RunState.input, decision_merge c.py _ rfl]
      cases found : s.thread with
      | none => exact fun ⟨_, decided⟩ => by cases decided
      | some stored => exact never.thread stored found
    have obeys : Obeys (Undecided c) t := by
      refine never.obeys.step step fun e stored current enters => ?_
      cases enters with
      | ainvoke entry => exact entry ▸ course_undecided late rfl (base e)
      | aresume entry _ => cases (never.entered e current).symm.trans entry
    cases step with
    | transact other =>
        exact ⟨obeys, never.thread, approvals_after never.approvals other, never.entered⟩
    | @enter ties entry run idle admitted stored =>
        refine ⟨obeys, never.thread, never.approvals, ?_⟩
        intro e current
        cases current
        cases entry with
        | ainvoke => rfl
        | aresume value =>
            obtain ⟨_, approval, latest, _⟩ := Database.admission_eq_aresume.mp admitted
            obtain ⟨member, resolved⟩ := firstBy_mem latest
            have own : approval.runId = c.runId := by
              simp only [Database.resolvedFor, Bool.and_eq_true, decide_eq_true_eq] at resolved
              exact resolved.1
            exact absurd own (never.approvals approval member)
    | stay idle => exact never
    | @launch e current ready =>
        have entry := never.entered e current
        refine ⟨obeys, ?_, ?_, ?_⟩
        · intro stored found
          simp only [RunState.launch, entry] at found
          cases found
          exact base e
        · simpa only [RunState.launch, entry] using never.approvals
        · intro f current'
          simp only [RunState.launch, entry] at current'
          cases current'
          rfl
    | @reply services e op next current asks =>
        have asked := (never.obeys.program e _ current asks).1
        refine ⟨obeys, ?_, ?_, ?_⟩
        · intro stored found
          cases op with
          | checkpoint written =>
              simp only [Services.thread] at found
              split at found
              · cases found
                exact asked
              · exact never.thread stored found
          | _ => exact never.thread stored found
        · cases op with
          | createPending pending => exact asked.elim
          | _ => exact never.approvals
        · intro f current'
          cases current'
          exact never.entered e current
    | finish current ran ended =>
        exact ⟨obeys, never.thread, never.approvals, fun _ current => by cases current⟩
    | crash current =>
        exact ⟨obeys, never.thread, never.approvals, fun _ current => by cases current⟩

theorem approved_unless_open (closed : ¬ SensitiveToolReachable c) : SensitiveCallsApproved c := by
  intro s reached e member
  by_cases reachable : ∃ n, SupervisedAfter c n ∧ n + 2 ≤ recursionLimit
  · have tools : ¬ SensitiveToolOpen c := fun opened => closed ⟨reachable, opened⟩
    exact ((authorized_inductive tools).reachable reached).executed member
  · have late (n : Nat) (supervised : SupervisedAfter c n) : ¬ n + 2 ≤ recursionLimit :=
      fun within => reachable ⟨n, supervised, within⟩
    have follows := ((neverSelects_inductive late).reachable reached).obeys.executed member
    intro before entry after same
    have silent := follows before entry after same
    cases called : entry.op with
    | invoke site name arguments =>
        rw [called] at silent
        exact silent.elim
    | _ => trivial

end Sufficient
end AgentRuntime
