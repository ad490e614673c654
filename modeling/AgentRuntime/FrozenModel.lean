import AgentRuntime.Catalog
import AgentRuntime.Ownership
import AgentRuntime.Requests

/-! The model of a run. `create_run` resolves it once and freezes it in the row of the run; the
processes that execute the run read it there, and each has settings of its own. -/
namespace AgentRuntime
open Machines Programs Tables

/-- A process with its `RunManager`: what `settings.model_name` was when the manager was built,
and its services. -/
structure RunManager where
  modelName : String
  toolRegistry : ToolRegistry
  retriever : Bool := true
  approvalRepository : Bool := true

namespace RunManager

/-- `ReActExecutor(self._model_gateway, settings.model_name, self._tool_registry)`. -/
def subagentExecutor (manager : RunManager) : Executor where
  model := manager.modelName
  toolRegistry := manager.toolRegistry

/-- `frozen_decision.get("resolved_model") or settings.model_name`. -/
def resolvedModel (manager : RunManager) (frozen : Dict) : String :=
  textOr ((frozen.get? "resolved_model").bind Json.str?) manager.modelName

def dependencies (manager : RunManager) (frozen : Dict) : RuntimeDependencies where
  modelName := manager.resolvedModel frozen
  toolRegistry := some manager.toolRegistry
  retriever := manager.retriever
  subagentExecutor := some manager.subagentExecutor
  approvalRepository := manager.approvalRepository
  cancelCheck := true

end RunManager

/-- A run of an accepted graph whose decision `create_run` has resolved. -/
structure FrozenRun where
  py : Builtins
  runId : RunId
  program : LangGraphProgram
  policy : ModelPolicy
  snapshot : ModelCatalogSnapshot
  tierMap : List (String × String)
  now : String
  decision : ModelDecision
  resolved : resolveModelPolicy py policy snapshot tierMap
    program.definition.definition.requiredCapabilities now = .ok decision

namespace FrozenRun

def config (f : FrozenRun) (manager : RunManager) (frozen : Dict) : RunConfig where
  py := f.py
  runId := f.runId
  program := f.program
  deps := manager.dependencies frozen

/-- What an execution reads as the decision of the run. -/
def reads (f : FrozenRun) (s : RunState) : Dict :=
  ((s.db.runs.find? f.runId).bind RunRow.modelDecision).getD []

/-- The executions of the run, each step by some process. -/
def fleet (f : FrozenRun) : Machine RunState (RunManager × RunAction) where
  init s := (∀ manager frozen, RunState.Initial (f.config manager frozen) s) ∧
    (s.db.runs.find? f.runId).bind RunRow.modelDecision = some f.decision.dump
  step s a := RunState.step (f.config a.1 (f.reads s)) s a.2

/-- The model id was looked up in the catalog, with the required capabilities, at creation. -/
def Checked (f : FrozenRun) (modelId : String) : Prop := f.policy.candidate f.tierMap = .ok modelId

/-- A request of the node names the resolved model, or a checked model of the node's own. -/
def Keeps (f : FrozenRun) (node : NodeDef) (request : ModelRequest) : Prop :=
  request.model = f.decision.resolvedModel ∨
    node.config.get? "model" = some (.str request.model) ∧ f.Checked request.model

/-- The node has the resolved model where its requests take theirs from: from its configuration,
and in a subagent from the process. -/
def Settled (f : FrozenRun) (manager : RunManager) (node : NodeDef) : Prop :=
  match node.type with
  | .subagent => manager.modelName = f.decision.resolvedModel
  | _ => ∀ model, node.config.get? "model" = some model → model = .str f.decision.resolvedModel

section Frozen
variable {f : FrozenRun}

theorem checked_iff {modelId : String} :
    f.Checked modelId ↔ modelId = f.decision.resolvedModel := by
  unfold Checked
  rw [(resolveModelPolicy_ok f.resolved).1]
  exact ⟨fun same => (Except.ok.inj same).symm, fun same => congrArg _ same.symm⟩

theorem keeps_iff {node : NodeDef} {request : ModelRequest} :
    f.Keeps node request ↔ request.model = f.decision.resolvedModel := by
  refine ⟨fun kept => kept.elim id fun own => checked_iff.mp own.2, .inl⟩

theorem resolvedModel_frozen (manager : RunManager) :
    manager.resolvedModel f.decision.dump = f.decision.resolvedModel := by
  have given := (resolveModelPolicy_ok f.resolved).2.1
  have stored : (f.decision.dump.get? "resolved_model").bind Json.str? =
      some f.decision.resolvedModel := rfl
  rw [RunManager.resolvedModel, stored]
  exact if_neg given

/-- A request keeps to the frozen model exactly when the node that asks it is settled. -/
theorem keeps_iff_settled {manager : RunManager} {stored : Checkpoint} {node : NodeDef}
    {request : ModelRequest}
    (asks : stored.Asks (f.config manager f.decision.dump) node (.complete request)) :
    f.Keeps node request ↔ f.Settled manager node := by
  have sends := asks.sends
  rw [keeps_iff]
  have model : (f.config manager f.decision.dump).deps.modelName = f.decision.resolvedModel :=
    resolvedModel_frozen manager
  have named (same : node.config.getD "model"
        (.str (f.config manager f.decision.dump).deps.modelName) = .str request.model) :
      request.model = f.decision.resolvedModel ↔
        ∀ model, node.config.get? "model" = some model → model = .str f.decision.resolvedModel := by
    rw [model, Dict.getD] at same
    cases own : node.config.get? "model" with
    | none =>
        rw [own] at same
        simp [Json.str.inj same]
    | some model =>
        rw [own] at same
        rw [show model = .str request.model from same]
        simp
  unfold Settled
  cases kind : node.type with
  | llm => exact named (by simpa only [NodeDef.Sends, kind] using sends)
  | supervisor => exact named (by simpa only [NodeDef.Sends, kind] using sends)
  | subagent =>
      simp only [NodeDef.Sends, kind] at sends
      obtain ⟨executor, configured, same⟩ := sends
      cases configured
      rw [same]
      rfl
  | tool | rag | approval | transform => simp only [NodeDef.Sends, kind] at sends

theorem reads_frozen {s : RunState}
    (stored : (s.db.runs.find? f.runId).bind RunRow.modelDecision = some f.decision.dump) :
    f.reads s = f.decision.dump := by
  rw [reads, stored]
  rfl

/-- A step of a process leaves the decision of the run as it is. -/
theorem step_frozen {s t : RunState} {manager : RunManager} {a : RunAction}
    (stored : (s.db.runs.find? f.runId).bind RunRow.modelDecision = some f.decision.dump)
    (step : RunStep (f.config manager f.decision.dump) s a t) :
    (t.db.runs.find? f.runId).bind RunRow.modelDecision = some f.decision.dump := by
  cases step with
  | transact other => exact Tx.keeps_decision _ _ stored
  | enter | stay | crash => exact stored
  | @launch e current ready =>
      obtain ⟨_, _, _, _, same, _⟩ := s.launch_cases (f.config manager f.decision.dump) e
      rw [same]
      exact stored
  | reply current asks => exact Tx.keeps_decision _ _ stored
  | @finish e p outcome current ran ended =>
      exact Tx.keeps_decision f.py
        (.updateRun f.runId (persistedAttemptStatus outcome) outcome.output outcome.error
          outcome.terminationReason) stored

/-- What a process of the fleet asks is asked by a node of the graph, with the dependencies of a
process that took part. -/
def Asked (f : FrozenRun) (as : List (RunManager × RunAction)) (op : Op) : Prop :=
  (∃ written, op = .checkpoint written) ∨ ∃ a ∈ as, ∃ (stored : Checkpoint) (node : NodeDef),
    stored.Asks (f.config a.1 f.decision.dump) node op

theorem fleet_asked {s u : RunState} {as : List (RunManager × RunAction)} (first : f.fleet.init s)
    (run : Run f.fleet anyStep s as u) :
    ∀ e ∈ u.executed, Follows (fun _ => f.Asked as) e.history := by
  have ends := run.labelled.invariant (I := fun s => Obeys (fun _ => f.Asked as) s ∧
      (s.db.runs.find? f.runId).bind RunRow.modelDecision = some f.decision.dump) ?_ ?_
  · exact fun e member => ends.1.executed member
  · rintro s ⟨manager, a⟩ t ⟨obeys, frozen⟩ ⟨_, member⟩ stepped
    change RunState.step (f.config manager (f.reads s)) s a = some t at stepped
    rw [reads_frozen frozen] at stepped
    have step := RunState.step_sound stepped
    refine ⟨obeys.step step fun e stored _ _ => ?_, step_frozen frozen step⟩
    refine wp_mono (fun _ op asked => ?_) (fun _ _ same => same) ((Working.course _ stored).asks [])
    exact asked.imp id fun ⟨stored, node, asks⟩ => ⟨_, member, stored, node, asks⟩
  · exact ⟨.of_initial (first.1 ⟨"", ⟨.empty, [], {}⟩, true, true⟩ []), first.2⟩

/-- Every request of the model while a run is executed is asked by a node of its graph in a
process that took part, and it keeps to the frozen model exactly when that node is settled in
that process. -/
theorem frozen_model_iff (f : FrozenRun) {s u : RunState} {as : List (RunManager × RunAction)}
    (first : f.fleet.init s) (run : Run f.fleet anyStep s as u) {e : Execution}
    (executed : e ∈ u.executed) {entry : OpEntry} (member : entry ∈ e.history)
    {request : ModelRequest} (sent : entry.op = .complete request) :
    (∃ a ∈ as, ∃ (stored : Checkpoint) (node : NodeDef),
        stored.Asks (f.config a.1 f.decision.dump) node (.complete request)) ∧
      ∀ (manager : RunManager) (stored : Checkpoint) (node : NodeDef),
        stored.Asks (f.config manager f.decision.dump) node (.complete request) →
          (f.Keeps node request ↔ f.Settled manager node) := by
  refine ⟨?_, fun manager stored node asks => keeps_iff_settled asks⟩
  obtain ⟨before, after, same⟩ := List.append_of_mem member
  have asked := fleet_asked first run e executed before entry after same
  rw [sent] at asked
  exact asked.resolve_left fun ⟨_, other⟩ => by contradiction

end Frozen

/-- The run as `create_run` stores it. -/
def created (f : FrozenRun) : RunState where
  db := Database.empty.createRun
    ⟨f.runId, "", f.program.definition.definition, f.decision.dump, ""⟩ "" 0

theorem created_initial (f : FrozenRun) : f.fleet.init f.created := by
  refine ⟨fun manager frozen => ⟨rfl, rfl, rfl, fun approval member => ?_⟩, ?_⟩
  · cases member
  · have stored : f.created.db.runs.find? f.runId = some _ :=
      (Table.find?_insert _ _ _).trans (by simp; rfl)
    rw [stored]
    rfl

end FrozenRun

section Sample

def sampleModel : ModelDecision where
  requested := ModelPolicy.auto.dump
  resolvedModel := "gpt-4o-mini"
  resolvedTier := some .balanced
  reason := "auto_default"
  catalogVersion := "v1"
  resolvedAt := "2025-01-01T00:00:00Z"

/-- A supervisor with a subagent, frozen on the model of the balanced tier. -/
def sampleFrozen : FrozenRun where
  py := .onEmpty
  runId := sampleRun
  program := ⟨.ofDefinition (sampleDefinition { type := .subagent, id := "specialist" }), by decide⟩
  policy := .auto
  snapshot := ⟨"v1", [{ catalogId := "gpt-4o-mini", capabilities := ["structured_output"] }]⟩
  tierMap := [("balanced", "gpt-4o-mini")]
  now := "2025-01-01T00:00:00Z"
  decision := sampleModel
  resolved := by rfl

/-- The steps up to the first request of the subagent. -/
def sampleDelegation : List RunAction :=
  let decision : SupervisorDecision :=
    { action := .subagent, capabilityNodeId := some "specialist" }
  [.read fun _ => 0, .launch] ++
    List.replicate 12 (.reply { result := { structured := some decision.dump } })

def sampleManager (modelName : String) : RunManager := ⟨modelName, ⟨.empty, [], {}⟩, true, true⟩

/-- The requests of the model so far. -/
def RunState.requests (s : RunState) : List ModelRequest :=
  s.executed.flatMap fun e => e.history.filterMap fun entry =>
    match entry.op with
    | .complete request => some request
    | _ => none

theorem RunState.mem_requests {s : RunState} {request : ModelRequest}
    (member : request ∈ s.requests) :
    ∃ e ∈ s.executed, ∃ entry ∈ e.history, entry.op = .complete request := by
  obtain ⟨e, among, found⟩ := List.mem_flatMap.mp member
  obtain ⟨entry, listed, same⟩ := List.mem_filterMap.mp found
  split at same
  next own =>
    cases same
    exact ⟨e, among, entry, listed, own⟩
  next => contradiction

theorem sampleFrozen_asks (modelName : String) (expected : List String)
    (tested : (sampleFrozen.fleet.replay sampleFrozen.created
      (sampleDelegation.map (sampleManager modelName, ·))).any
        (fun u => decide (u.requests.map ModelRequest.model = expected)) = true) :
    ∃ u, Run sampleFrozen.fleet anyStep sampleFrozen.created
        (sampleDelegation.map (sampleManager modelName, ·)) u ∧
      ∀ model ∈ expected, ∃ e ∈ u.executed, ∃ entry ∈ e.history, ∃ request,
        entry.op = .complete request ∧ request.model = model := by
  obtain ⟨u, run, sent⟩ := Run.of_test _ _ _ tested
  refine ⟨u, run, fun model member => ?_⟩
  rw [← sent] at member
  obtain ⟨request, among, same⟩ := List.mem_map.mp member
  obtain ⟨e, executed, entry, listed, own⟩ := RunState.mem_requests among
  exact ⟨e, executed, entry, listed, request, own, same⟩

/-- In a process that is set to the frozen model the subagent asks it, too. -/
theorem delegation_keeps_model : ∃ (u : RunState) (node : NodeDef) (request : ModelRequest),
    Run sampleFrozen.fleet anyStep sampleFrozen.created
        (sampleDelegation.map (sampleManager "gpt-4o-mini", ·)) u ∧
      sampleFrozen.Keeps node request ∧
      sampleFrozen.Settled (sampleManager "gpt-4o-mini") node := by
  obtain ⟨u, run, asked⟩ := sampleFrozen_asks "gpt-4o-mini" ["gpt-4o-mini", "gpt-4o-mini"]
    (by decide +kernel)
  obtain ⟨e, executed, entry, listed, request, own, same⟩ := asked _ List.mem_cons_self
  obtain ⟨⟨a, member, stored, node, asks⟩, exact'⟩ :=
    sampleFrozen.frozen_model_iff sampleFrozen.created_initial run executed listed own
  obtain ⟨action, _, rfl⟩ := List.mem_map.mp member
  have kept : sampleFrozen.Keeps node request := .inl same
  exact ⟨u, node, request, run, kept, (exact' _ stored node asks).mp kept⟩

/-- In a process with another setting the subagent asks the model of the process. -/
theorem delegation_changes_model : ¬ ∀ (as : List (RunManager × RunAction)) (u : RunState),
    Run sampleFrozen.fleet anyStep sampleFrozen.created as u → ∀ e ∈ u.executed,
      ∀ entry ∈ e.history, ∀ request, entry.op = .complete request →
        ∃ node, sampleFrozen.Keeps node request := by
  intro always
  obtain ⟨u, run, asked⟩ := sampleFrozen_asks "local-model" ["gpt-4o-mini", "local-model"]
    (by decide +kernel)
  obtain ⟨e, executed, entry, listed, request, own, same⟩ :=
    asked "local-model" (List.mem_cons_of_mem _ List.mem_cons_self)
  obtain ⟨node, kept⟩ := always _ u run e executed entry listed request own
  have model := FrozenRun.keeps_iff.mp kept
  rw [same] at model
  exact absurd model (by decide)

end Sample
end AgentRuntime
