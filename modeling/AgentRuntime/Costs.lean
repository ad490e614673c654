import AgentRuntime.Library.Costs
import AgentRuntime.Confinement

/-! What an execution can cost. For any prices of the operations, a superstep costs what its type
of node may ask for at most, a subagent within its step limit, and an execution the price of its
dearest superstep for each of the supersteps its entry allows. -/
namespace AgentRuntime
open Machines Programs Tables

inductive OpKind where
  | cancelCheck
  | emit
  | nonce
  | complete
  | invoke
  | retrieve
  | now
  | createPending
  | interrupt
  | checkpoint
  deriving DecidableEq

def Op.kind : Op → OpKind
  | .cancelCheck _ => .cancelCheck
  | .emit .. => .emit
  | .nonce => .nonce
  | .complete _ => .complete
  | .invoke .. => .invoke
  | .retrieve .. => .retrieve
  | .now => .now
  | .createPending _ => .createPending
  | .interrupt _ => .interrupt
  | .checkpoint _ => .checkpoint

abbrev Prices := OpKind → Nat

namespace Prices
variable (prices : Prices)

def price (op : Op) : Nat := prices op.kind

/-- One model call of a node, with its identifier and the events around it. -/
def modelCall : Nat := prices .nonce + prices .complete + 3 * prices .emit

def gate : Nat := prices .now + prices .createPending + prices .interrupt

/-- A decision for each step, a plan in front of them and one tool behind each. -/
def loop (maxSteps : Nat) : Nat :=
  prices .complete + maxSteps * (prices .complete + prices .invoke)

def node (deps : RuntimeDependencies) : NodeType → Nat
  | .llm | .supervisor => prices.modelCall
  | .transform => 0
  | .tool => 2 * prices .emit + prices.gate + prices .invoke
  | .rag => 2 * prices .emit + prices .retrieve
  | .subagent => 2 * prices .emit + prices.loop (deps.subagentExecutor.elim 0 Executor.maxSteps)
  | .approval => prices.gate

def superstep (deps : RuntimeDependencies) (type : NodeType) : Nat :=
  prices .cancelCheck + 2 * prices .emit + prices.node deps type + prices .checkpoint

/-- The price of the dearest superstep of the graph. -/
def dearest (graph : CompiledGraph) (deps : RuntimeDependencies) : Nat :=
  (graph.nodeMap.rows.map fun node => prices.superstep deps node.type).foldr max 0

end Prices

section Helpers
variable {prices : Prices} {py : Builtins} {deps : RuntimeDependencies} {runId : String}
  {node : NodeDef} {state : GraphState} {budget : Nat} {α : Type}

theorem emit_affords (type : EventType) (payload : Dict) :
    Affords prices.price (prices .emit) (GraphProg.emit type runId node.id payload) :=
  .request (Nat.le_refl _)

theorem ofExcept_affords (result : Except ExecError α) :
    Affords prices.price budget (GraphProg.ofExcept result) := by
  cases result <;> trivial

theorem listOf_affords (value : Json) : Affords prices.price budget (listOf value) := by
  unfold listOf
  split <;> trivial

theorem appending_affords (name : String) (result : Json) :
    Affords prices.price 0 (state.appending name result) :=
  .bind (n := 0) (listOf_affords _) (fun _ => .pure _) (Nat.le_refl 0)

theorem complete_affords (model : Json) (messages : List Dict) (schema : Option ResponseSchema)
    (callId : Option String) (metadata : Dict) :
    Affords prices.price (prices .complete)
      (GraphProg.complete py model messages schema callId metadata) := by
  unfold GraphProg.complete
  split
  · exact .request (Nat.le_refl _)
  · trivial

theorem askModel_affords (messages : List Dict) (schema : Option ResponseSchema) :
    Affords prices.price (prices .nonce + (prices .emit + prices .complete))
      (askModel py deps runId node messages schema) := by
  unfold askModel
  refine .bind (.request (Nat.le_refl _)) (fun nonce => ?_) (Nat.le_refl _)
  refine .bind (emit_affords _ _) (fun _ => ?_) (Nat.le_refl _)
  exact .bind (n := 0) (complete_affords _ _ _ _ _) (fun _ => .pure _) (Nat.le_refl _)

theorem failModel_affords (call : Dict) (error : Option NormalizedError) (message : String)
    (category : ErrorCategory) (recoverable : Bool) :
    Affords prices.price (prices .emit)
      (failModel (α := α) runId node call error message category recoverable) :=
  .bind (n := 0) (emit_affords _ _) (fun _ => .raise _) (Nat.le_refl _)

theorem emitLlmDone_affords (call : Dict) (result : ModelResult) :
    Affords prices.price (2 * prices .emit) (emitLlmDone runId node call result) := by
  unfold emitLlmDone
  split
  · exact .bind (emit_affords _ _) (fun _ => emit_affords _ _) (by omega)
  · exact (emit_affords _ _).mono (by omega)

theorem ainvoke_affords (registry : ToolRegistry) (site : Site) (name : Json) (arguments : Dict) :
    Affords prices.price (prices .invoke) (registry.ainvoke py site name arguments) := by
  unfold ToolRegistry.ainvoke
  split
  next => trivial
  next tool _ =>
    split
    next => trivial
    next =>
      split
      next => trivial
      next => exact .bind (n := 0) (.request (Nat.le_refl _)) (fun _ => .pure _) (Nat.le_refl _)

theorem requireApproval_affords (action : String) (toolName : Option String) (arguments : Dict) :
    Affords prices.price prices.gate
      (requireApproval py deps runId node action toolName arguments) := by
  unfold requireApproval
  split
  · trivial
  · dsimp only
    split
    next =>
      refine .bind (n := prices .createPending + prices .interrupt)
        (.request (Nat.le_refl (prices .now))) (fun _ => ?_) (by simp only [Prices.gate]; omega)
      refine .bind (m := 0) (ofExcept_affords _) (fun _ => ?_) (Nat.le_of_eq (Nat.zero_add _))
      refine .bind (.request (Nat.le_refl _)) (fun _ => ?_) (Nat.le_refl _)
      exact .bind (n := 0) (.request (Nat.le_refl _)) (fun _ => .pure _) (Nat.le_refl _)
    next => trivial
    next => trivial

end Helpers

section Nodes
variable {prices : Prices} {py : Builtins} {deps : RuntimeDependencies} {runId : String}
  {node : NodeDef} {state : GraphState}

theorem runLlm_affords :
    Affords prices.price prices.modelCall (runLlm py deps runId node state) := by
  unfold runLlm
  refine .bind (n := 2 * prices .emit) (askModel_affords _ _) ?_
    (by simp only [Prices.modelCall]; omega)
  rintro ⟨call, result⟩
  dsimp only
  split
  · exact .bind (n := 0) (emitLlmDone_affords _ _) (fun _ => .pure _) (Nat.le_refl _)
  · exact (failModel_affords _ _ _ _ _).mono (by omega)

theorem runSupervisor_affords {graph : CompiledGraph} :
    Affords prices.price prices.modelCall (runSupervisor py deps runId node graph state) := by
  unfold runSupervisor
  refine .bind (n := 2 * prices .emit) (askModel_affords _ _) ?_
    (by simp only [Prices.modelCall]; omega)
  rintro ⟨call, result⟩
  dsimp only
  split
  · refine .bind (n := 0) (emitLlmDone_affords _ _) (fun _ => ?_) (Nat.le_refl _)
    refine .bind (n := 0) (ofExcept_affords _) (fun _ => ?_) (Nat.le_refl 0)
    exact .bind (n := 0) (ofExcept_affords _) (fun _ => .pure _) (Nat.le_refl 0)
  · exact (failModel_affords _ _ _ _ _).mono (by omega)

theorem callTool_affords (registry : ToolRegistry) (name : Json) (arguments : Dict) :
    Affords prices.price (prices.gate + prices .invoke)
      (callTool py deps runId node registry name arguments) := by
  unfold callTool
  split
  · refine .bind (requireApproval_affords _ _ _) ?_ (Nat.le_refl _)
    rintro ⟨decision, approvalId, actionId⟩
    dsimp only
    split
    · exact ainvoke_affords _ _ _ _
    · trivial
  · exact (ainvoke_affords _ _ _ _).mono (Nat.le_add_left _ _)

/-- The end of a node that appends a result behind its last event. -/
theorem finish_affords (type : EventType) (payload : Dict) (name : String) (result : Json) :
    Affords prices.price (prices .emit) (do
      GraphProg.emit type runId node.id payload
      state.appending name result) :=
  .bind (emit_affords _ _) (fun _ => appending_affords _ _) (Nat.le_refl _)

theorem runTool_affords :
    Affords prices.price (2 * prices .emit + prices.gate + prices .invoke)
      (runTool py deps runId node state) := by
  unfold runTool
  split
  next => trivial
  next registry _ =>
    refine .bind (m := 0) (ofExcept_affords _) (fun decision => ?_) (Nat.le_of_eq (Nat.zero_add _))
    dsimp only
    split
    next => trivial
    next =>
      refine .bind (n := prices.gate + prices .invoke + prices .emit) (emit_affords _ _)
        (fun _ => ?_) (by omega)
      exact .bind (callTool_affords _ _ _) (fun _ => finish_affords _ _ _ _) (Nat.le_refl _)

theorem runRag_affords :
    Affords prices.price (2 * prices .emit + prices .retrieve)
      (runRag py deps runId node state) := by
  unfold runRag
  split
  next => trivial
  next =>
    refine .bind (m := 0) (ofExcept_affords _) (fun decision => ?_) (Nat.le_of_eq (Nat.zero_add _))
    dsimp only
    refine .bind (n := prices .retrieve + prices .emit) (emit_affords _ _) (fun _ => ?_) (by omega)
    exact .bind (.request (Nat.le_refl _)) (fun _ => finish_affords _ _ _ _) (Nat.le_refl _)

theorem runApproval_affords :
    Affords prices.price prices.gate (runApproval py deps runId node state) := by
  unfold runApproval
  split
  next => trivial
  next =>
    refine .bind (m := 0) (ofExcept_affords _) (fun decision => ?_) (Nat.le_of_eq (Nat.zero_add _))
    have column (value : Json) : Affords prices.price 0 (textColumn py value) := by
      unfold textColumn
      split <;> trivial
    refine .bind (column _) (fun toolName => ?_) (Nat.le_of_eq (Nat.zero_add _))
    refine .bind (n := 0) (requireApproval_affords _ _ _) ?_ (Nat.le_refl _)
    rintro ⟨decided, approvalId, actionId⟩
    exact appending_affords _ _

end Nodes

section Subagent
variable {prices : Prices} {py : Builtins} {executor : Executor} {task : SubagentTask}

/-- Each step of the loop pays for a decision and one tool; by induction on the steps that
remain. -/
theorem react_affords (remaining step : Nat) (messages : List Dict) :
    Affords prices.price (remaining * (prices .complete + prices .invoke))
      (executor.react py task remaining step messages) := by
  induction remaining generalizing step messages with
  | zero => trivial
  | succ remaining ih =>
      simp only [Executor.react]
      rw [Nat.succ_mul]
      refine .bind (n := prices .invoke + remaining * (prices .complete + prices .invoke))
        (.request (Nat.le_refl (prices .complete))) (fun response => ?_) (by omega)
      split
      next structured _ _ =>
        split
        next => trivial
        next decision _ =>
          split
          next => trivial
          next name _ _ =>
            split
            next =>
              refine .bind (ainvoke_affords _ _ _ _) (fun _ => ?_) (Nat.le_refl _)
              exact .bind (m := 0) (ofExcept_affords _) (fun _ => ih _ _)
                (Nat.le_of_eq (Nat.zero_add _))
            next => trivial
          next => trivial
      next => trivial

theorem start_affords :
    Affords prices.price (prices.loop executor.maxSteps) (executor.start py task) := by
  unfold Executor.start
  dsimp only
  split
  next =>
    refine .bind (.request (Nat.le_refl _)) (fun plan => ?_) (Nat.le_refl _)
    split
    · exact react_affords _ _ _
    · trivial
  next => exact (react_affords _ _ _).mono (Nat.le_add_left _ _)

theorem execute_affords (depth : Nat) :
    Affords prices.price (prices.loop executor.maxSteps) (executor.execute py task depth) := by
  unfold Executor.execute
  split
  next => trivial
  next =>
    split
    next => trivial
    next => trivial
    next =>
      split
      next => trivial
      next => exact start_affords
      next => trivial

end Subagent

section Course
variable {prices : Prices} {py : Builtins} {graph : CompiledGraph} {deps : RuntimeDependencies}
  {runId : String} {node : NodeDef} {state : GraphState}

theorem runSubagent_affords :
    Affords prices.price
      (2 * prices .emit + prices.loop (deps.subagentExecutor.elim 0 Executor.maxSteps))
      (runSubagent py deps runId node state) := by
  unfold runSubagent
  split
  next => trivial
  next executor configured =>
    rw [configured, Option.elim_some]
    refine .bind (m := 0) (ofExcept_affords _) (fun decision => ?_) (Nat.le_of_eq (Nat.zero_add _))
    have built : Affords prices.price 0 (subagentTask py node (orEmpty decision.input)) := by
      refine .bind (m := 0) (n := 0) (listOf_affords _) (fun context => ?_) (Nat.le_refl 0)
      exact .bind (n := 0) (listOf_affords _) (fun allowed => .pure _) (Nat.le_refl 0)
    refine .bind built (fun task => ?_) (Nat.le_of_eq (Nat.zero_add _))
    refine .bind (n := prices.loop executor.maxSteps + prices .emit) (emit_affords _ _)
      (fun _ => ?_) (by omega)
    exact .bind (execute_affords 0) (fun _ => finish_affords _ _ _ _) (Nat.le_refl _)

theorem runNode_affords :
    Affords prices.price (prices.node deps node.type) (runNode py graph deps runId node state) := by
  unfold runNode
  split
  next kind => rw [kind]; exact runLlm_affords
  next kind => rw [kind]; exact runSupervisor_affords
  next => exact ofExcept_affords _
  next kind => rw [kind]; exact runTool_affords
  next kind => rw [kind]; exact runRag_affords
  next kind => rw [kind]; exact runSubagent_affords
  next kind => rw [kind]; exact runApproval_affords

theorem makeNode_affords :
    Affords prices.price
      (prices .cancelCheck + (prices .emit + (prices.node deps node.type + prices .emit)))
      (makeNode py graph deps node state) := by
  have guarded (runId : String) :
      Affords prices.price (prices .cancelCheck) (checkCancelled deps runId node) := by
    unfold checkCancelled
    split
    next =>
      refine .bind (n := 0) (.request (Nat.le_refl _)) (fun cancelled => ?_) (Nat.le_refl _)
      split <;> trivial
    next => trivial
  refine .bind (guarded _) (fun _ => ?_) (Nat.le_refl _)
  refine .bind (emit_affords _ _) (fun _ => ?_) (Nat.le_refl _)
  refine .bind runNode_affords (fun patch => ?_) (Nat.le_refl _)
  exact .bind (n := 0) (emit_affords _ _) (fun _ => .pure _) (Nat.le_refl _)

theorem superstep_le_dearest (found : graph.nodeMap.find? node.id = some node) :
    prices.superstep deps node.type ≤ prices.dearest graph deps := by
  unfold Prices.dearest
  have member := List.mem_map_of_mem (f := fun node => prices.superstep deps node.type)
    (Table.find?_eq_some.mp found).1
  exact List.le_max_of_le' 0 member (Nat.le_refl _)

/-- By induction on the supersteps that remain. -/
theorem drive_affords (remaining : Nat) (state : GraphState) (next : Option NodeId) :
    Affords prices.price (remaining * prices.dearest graph deps)
      (graph.drive py deps remaining state next) := by
  induction remaining generalizing state next with
  | zero => trivial
  | succ remaining ih =>
      cases next with
      | none => trivial
      | some id =>
          unfold CompiledGraph.drive
          split
          next => trivial
          next node found =>
            have same : node.id = id := Table.key_of_find? found
            have within : prices.superstep deps node.type ≤ prices.dearest graph deps :=
              superstep_le_dearest (same ▸ found)
            simp only [Prices.superstep] at within
            refine .bind (n := prices .checkpoint + remaining * prices.dearest graph deps)
              makeNode_affords (fun patch => ?_) (by rw [Nat.succ_mul]; omega)
            refine .bind (m := 0) (ofExcept_affords _) (fun target => ?_)
              (Nat.le_of_eq (Nat.zero_add _))
            exact .bind (.request (Nat.le_refl (prices .checkpoint))) (fun _ => ih _ _)
              (Nat.le_refl _)

end Course

section Runs
variable {c : RunConfig} {s t : RunState}

/-- The price of the dearest superstep, for each of the supersteps that the entry allows. -/
def RunConfig.budget (c : RunConfig) (prices : Prices) (entry : Entry) : Nat :=
  entry.supersteps * prices.dearest c.program.definition c.deps

/-- No execution has gone beyond its budget, and the program of the current one can afford what
it goes on to ask. -/
structure Solvent (c : RunConfig) (prices : Prices) (s : RunState) : Prop where
  past : ∀ e ∈ s.past, spent prices.price e.history ≤ c.budget prices e.entry
  ready : ∀ e, s.current = some e → e.program = none → e.history = []
  program : ∀ e p, s.current = some e → e.program = some p → ∃ left,
    spent prices.price e.history + left ≤ c.budget prices e.entry ∧ Affords prices.price left p

namespace Solvent
variable {prices : Prices} {e : Execution}

theorem spent_le (solvent : Solvent c prices s) (current : s.current = some e) :
    spent prices.price e.history ≤ c.budget prices e.entry := by
  cases ran : e.program with
  | none =>
      rw [solvent.ready e current ran]
      exact Nat.zero_le _
  | some p =>
      obtain ⟨left, fits, _⟩ := solvent.program e p current ran
      exact Nat.le_of_add_right_le fits

theorem crashed (solvent : Solvent c prices s) (current : s.current = some e) (begun : Bool) :
    spent prices.price (e.crashed begun).history ≤ c.budget prices (e.crashed begun).entry := by
  unfold Execution.crashed
  split
  next op next asks =>
    obtain ⟨left, fits, paid, _⟩ := solvent.program e _ current asks
    rw [spent_snoc]
    exact Nat.le_trans (Nat.add_le_add_left paid _) fits
  next => exact solvent.spent_le current

theorem ended (solvent : Solvent c prices s)
    (within : spent prices.price e.history ≤ c.budget prices e.entry) (db : Database) :
    Solvent c prices { s with db := db, current := none, past := s.past ++ [e] } := by
  refine ⟨fun other member => ?_, ?_, ?_⟩
  · rcases List.mem_append.mp member with old | new
    · exact solvent.past other old
    · rw [List.mem_singleton.mp new]
      exact within
  all_goals intros; contradiction

theorem step {a : RunAction} (solvent : Solvent c prices s) (stepped : RunStep c s a t) :
    Solvent c prices t := by
  cases stepped with
  | transact other => exact ⟨solvent.past, solvent.ready, solvent.program⟩
  | enter idle admitted stored =>
      refine ⟨solvent.past, ?_, ?_⟩
      · intro e current _
        cases current
        rfl
      · intro e p current ran
        cases current
        contradiction
  | stay idle => exact solvent
  | @launch e current ready =>
      obtain ⟨p, answer, after, past, _, _, program⟩ := s.launch_cases c e
      have empty := solvent.ready e current ready
      refine ⟨past ▸ solvent.past, ?_, ?_⟩
      · intro f same none
        cases after.symm.trans same
        contradiction
      · intro f q same ran
        cases after.symm.trans same
        cases ran
        refine ⟨c.budget prices e.entry, by simp [empty], ?_⟩
        rcases program with ⟨error, rfl⟩ | ⟨stored, _, rfl⟩
        · trivial
        · exact drive_affords _ _ _
  | @reply services e op next current asks =>
      obtain ⟨left, fits, paid, rest⟩ := solvent.program e _ current asks
      refine ⟨solvent.past, ?_, ?_⟩
      · intro f same none
        cases same
        contradiction
      · intro f q same ran
        cases same
        cases ran
        refine ⟨left - prices.price op, ?_, ?_⟩
        · simp only [Execution.replied, spent_snoc]
          omega
        · cases services.reply c.py s.db e.answer op with
          | ok answer => exact rest answer
          | error error => trivial
  | finish current ran ended => exact solvent.ended (solvent.spent_le current) _
  | crash current => exact solvent.ended (solvent.crashed current _) s.db

end Solvent

/-- Every execution so far has stayed within the price of its supersteps. -/
theorem executed_affords (prices : Prices) (reached : Reachable (executions c) anyStep s)
    {e : Execution} (member : e ∈ s.executed) :
    spent prices.price e.history ≤ c.budget prices e.entry := by
  have inductive' : Inductive (executions c) anyStep (Solvent c prices) := by
    refine ⟨fun s first => ?_, fun s a t solvent _ stepped =>
      solvent.step (RunState.step_sound stepped)⟩
    obtain ⟨_, current, past, _⟩ := first
    refine ⟨?_, ?_, ?_⟩ <;> simp [current, past]
  have solvent := inductive'.reachable reached
  exact (RunState.mem_executed.mp member).elim (solvent.past e) solvent.spent_le

theorem dearest_le {prices : Prices} {graph : CompiledGraph} {deps : RuntimeDependencies}
    {bound : Nat} (fits : ∀ type, prices.superstep deps type ≤ bound) :
    prices.dearest graph deps ≤ bound := by
  unfold Prices.dearest
  induction graph.nodeMap.rows with
  | nil => exact Nat.zero_le _
  | cons node rest ih => exact Nat.max_le.mpr ⟨fits node.type, ih⟩

/-- The steps a subagent is allowed. -/
def RunConfig.subagentSteps (c : RunConfig) : Nat :=
  c.deps.subagentExecutor.elim 0 Executor.maxSteps

theorem calls_le (kind : OpKind) (bound : Nat) (reached : Reachable (executions c) anyStep s)
    (fits : ∀ type, Prices.superstep (fun other => if other = kind then 1 else 0) c.deps type ≤
      bound) {e : Execution} (member : e ∈ s.executed) :
    (e.history.countP fun entry => entry.op.kind = kind) ≤ e.entry.supersteps * bound := by
  have paid := executed_affords (fun other => if other = kind then 1 else 0) reached member
  have counted := spent_countP (fun op : Op => op.kind = kind) e.history
  simp only [decide_eq_true_eq] at counted
  rw [← counted]
  exact Nat.le_trans paid (Nat.mul_le_mul_left _ (dearest_le fits))

end Runs

section Sample

end Sample
end AgentRuntime
