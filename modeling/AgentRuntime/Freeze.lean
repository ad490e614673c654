import AgentRuntime.Resume

/-! What an approval record stands for. `create_pending` keeps the first record of an
action identifier, and the identifier covers the run, the node and the arguments, but
neither the action nor the tool. -/
namespace AgentRuntime
open Tables

/-- The digest and the canonical text are faithful on these argument objects. -/
structure Builtins.FaithfulOn (py : Builtins) (objects : List Dict) : Prop where
  sha256 : ∀ x ∈ objects, ∀ y ∈ objects,
    py.sha256 (py.dumps (.obj x)) = py.sha256 (py.dumps (.obj y)) →
      py.dumps (.obj x) = py.dumps (.obj y)
  dumps : ∀ x ∈ objects, ∀ y ∈ objects, py.dumps (.obj x) = py.dumps (.obj y) ↔
    (Json.obj x).canonical = (Json.obj y).canonical

/-- The parts of an action identifier can be read off: the run has 36 characters and the
digest 64. -/
theorem actionId_injective {py : Builtins} {r r' : RunId} {n n' : NodeId} {x y : Dict}
    (same : actionId py r n x = actionId py r' n' y) :
    r = r' ∧ n = n' ∧ py.sha256 (py.dumps (.obj x)) = py.sha256 (py.dumps (.obj y)) := by
  have characters := congrArg String.toList same
  simp only [actionId, String.toList_append, List.append_assoc] at characters
  have lengths : r.text.toList.length = r'.text.toList.length := by
    rw [String.length_toList, String.length_toList, r.canonical, r'.canonical]
  obtain ⟨run, rest⟩ := List.append_inj characters lengths
  have rest := List.append_cancel_left rest
  have digests : (":".toList ++ (py.sha256 (py.dumps (.obj x))).toList).length =
      (":".toList ++ (py.sha256 (py.dumps (.obj y))).toList).length := by
    simp only [List.length_append, String.length_toList, py.sha256_length]
  obtain ⟨node, digest⟩ := List.append_inj' rest digests
  refine ⟨?_, String.toList_inj.mp node, String.toList_inj.mp (List.append_cancel_left digest)⟩
  cases r
  cases r'
  exact RunId.mk.injEq .. ▸ String.toList_inj.mp run

/-- A call of `_require_approval`, and the identifier its record would get. -/
structure GateRequest where
  runId : RunId
  node : NodeId
  action : String
  toolName : Option String
  arguments : Dict
  expiresAt : Time
  recordId : ApprovalId

namespace GateRequest

def pending (py : Builtins) (request : GateRequest) : PendingAction :=
  pendingAction py request.runId request.node request.action request.toolName request.arguments
    request.expiresAt

/-- The requests ask for one action: their arguments may differ in key order. -/
def Same (r r' : GateRequest) : Prop :=
  r.runId = r'.runId ∧ r.node = r'.node ∧ r.action = r'.action ∧ r.toolName = r'.toolName ∧
    (Json.obj r.arguments).canonical = (Json.obj r'.arguments).canonical

/-- The record is one of the requested action. -/
def RecordedBy (request : GateRequest) (row : ApprovalRow) : Prop :=
  row.runId = request.runId ∧ row.nodeId = request.node ∧ row.action = request.action ∧
    row.toolName = request.toolName ∧
    (Json.obj row.canonicalArguments).canonical = (Json.obj request.arguments).canonical

end GateRequest

/-- The requests served so far, each with the record it was given, and the database they
lead to. Between two of them any other transactions may commit. -/
inductive Served (py : Builtins) : List (GateRequest × ApprovalRow) → Database → Prop
  | start {db} : db.approvals.rows = [] → Served py [] db
  | request {served db} (r : GateRequest) : Served py served db →
      db.approvals.find? r.recordId = none →
      Served py (served ++ [(r, (db.createPending py (r.pending py) r.recordId).1)])
        (db.createPending py (r.pending py) r.recordId).2
  | other {served db} (tx : Tx) : Served py served db →
      (∀ action id, tx ≠ .createPending action id) → Served py served (tx.apply py db)

/-- Every record is one of the action it was given for, and no two different actions
share one. -/
def RecordsFreeze (served : List (GateRequest × ApprovalRow)) : Prop :=
  (∀ entry ∈ served, entry.1.RecordedBy entry.2) ∧
    ∀ entry ∈ served, ∀ other ∈ served, entry.2.id = other.2.id → entry.1.Same other.1

def ApprovalRow.frozen (a : ApprovalRow) :
    ApprovalId × RunId × NodeId × String × String × Option String × Dict :=
  (a.id, a.runId, a.nodeId, a.action, a.actionId, a.toolName, a.canonicalArguments)

theorem Tx.onApproval_frozen {db : Database} (tx : Tx) (a : ApprovalRow) :
    (tx.onApproval db a).frozen = a.frozen := by
  obtain ⟨_, _, _, _, decided⟩ := tx.onApproval_decision db a
  rw [decided]
  rfl

theorem Tx.keeps_approval {db : Database} (tx : Tx) (py : Builtins) {a : ApprovalRow}
    (member : a ∈ db.approvals.rows) :
    ∃ b ∈ (tx.apply py db).approvals.rows, b.frozen = a.frozen := by
  refine ⟨tx.onApproval db a, ?_, tx.onApproval_frozen a⟩
  have after : (tx.apply py db).approvals.find? a.id = some (tx.onApproval db a) := by
    rw [find?_approvals, ← key_approval, Table.mem_rows_iff.mp member, rowAfter_some]
  exact (Table.find?_eq_some.mp after).1

/-- What the table holds of the requests served: each record is still stored, under the
identifier of its request, and each stored approval was made for one of them. -/
structure Records (py : Builtins) (served : List (GateRequest × ApprovalRow)) (db : Database) :
    Prop where
  unique : db.ActionIdsUnique
  kept : ∀ entry ∈ served, entry.2.actionId = (entry.1.pending py).actionId ∧
    ∃ stored ∈ db.approvals.rows, stored.frozen = entry.2.frozen
  asked : ∀ stored ∈ db.approvals.rows, ∃ entry ∈ served,
    stored.frozen = ((entry.1.pending py).row py stored.id).frozen

namespace Records
variable {py : Builtins} {served : List (GateRequest × ApprovalRow)} {db : Database}

theorem other (records : Records py served db) (tx : Tx)
    (silent : ∀ action id, tx ≠ .createPending action id) : Records py served (tx.apply py db) where
  unique := records.unique.apply tx
  kept entry member := by
    obtain ⟨action, stored, among, same⟩ := records.kept entry member
    obtain ⟨after, among', same'⟩ := tx.keeps_approval py among
    exact ⟨action, after, among', same'.trans same⟩
  asked stored member := by
    rcases Database.approval_after member with ⟨old, among, same, id, _⟩ | ⟨new, _⟩
    · obtain ⟨entry, among', frozen⟩ := records.asked old among
      refine ⟨entry, among', ?_⟩
      rw [id, ← frozen, same, tx.onApproval_frozen]
    · cases tx with
      | createPending action id => exact absurd rfl (silent action id)
      | _ => contradiction

theorem found (records : Records py served db) (r : GateRequest) {existing : ApprovalRow}
    (found : db.approvalFor? (r.pending py).actionId = some existing) :
    Records py (served ++ [(r, existing)]) db where
  unique := records.unique
  kept entry member := by
    rcases List.mem_append.mp member with old | new
    · exact records.kept entry old
    · rw [List.mem_singleton.mp new]
      refine ⟨?_, existing, List.mem_of_find?_eq_some found, rfl⟩
      simpa using List.find?_some found
  asked stored member := by
    obtain ⟨entry, among, frozen⟩ := records.asked stored member
    exact ⟨entry, List.mem_append_left _ among, frozen⟩

theorem created (records : Records py served db) (r : GateRequest)
    (absent : db.approvalFor? (r.pending py).actionId = none)
    (fresh : db.approvals.find? r.recordId = none) :
    Records py (served ++ [(r, (r.pending py).row py r.recordId)])
      ((Tx.createPending (r.pending py) r.recordId).apply py db) where
  unique := records.unique.apply _
  kept entry member := by
    rcases List.mem_append.mp member with old | new
    · obtain ⟨action, stored, among, same⟩ := records.kept entry old
      obtain ⟨after, among', same'⟩ := Tx.keeps_approval (.createPending _ _) py among
      exact ⟨action, after, among', same'.trans same⟩
    · rw [List.mem_singleton.mp new]
      refine ⟨rfl, _, ?_, rfl⟩
      refine (Table.find?_eq_some (k := r.recordId).mp ?_).1
      rw [Tx.find?_approvals, fresh]
      simp [rowAfter, Tx.newApproval, absent, PendingAction.row]
  asked stored member := by
    rcases Database.approval_after member with ⟨old, among, same, id, _⟩ | ⟨new, _⟩
    · obtain ⟨entry, among', frozen⟩ := records.asked old among
      refine ⟨entry, List.mem_append_left _ among', ?_⟩
      rw [id, ← frozen, same, Tx.onApproval_frozen]
    · simp only [Tx.newApproval, absent, Option.isNone_none, if_true, Option.some.injEq] at new
      refine ⟨_, List.mem_append_right _ List.mem_cons_self, ?_⟩
      rw [← new]
      rfl

theorem of_served (served' : Served py served db) : Records py served db := by
  induction served' with
  | start empty =>
      refine ⟨?_, ?_, ?_⟩
      · intro a member
        rw [empty] at member
        contradiction
      · intro entry member
        contradiction
      · intro stored member
        rw [empty] at member
        contradiction
  | @request served db r _ fresh records =>
      unfold Database.createPending
      split
      next existing found => exact records.found r found
      next absent =>
        have after := records.created r absent fresh
        simpa only [Tx.apply, Database.createPending, absent] using after
  | other tx _ silent records => exact records.other tx silent

/-- Requests with one identifier share their record. -/
theorem shared (records : Records py served db) {e f : GateRequest × ApprovalRow}
    (first : e ∈ served) (second : f ∈ served)
    (same : (e.1.pending py).actionId = (f.1.pending py).actionId) : e.2.frozen = f.2.frozen := by
  obtain ⟨action, stored, among, frozen⟩ := records.kept e first
  obtain ⟨action', stored', among', frozen'⟩ := records.kept f second
  have actions : stored.actionId = stored'.actionId := by
    have left : stored.actionId = e.2.actionId := congrArg (·.2.2.2.2.1) frozen
    have right : stored'.actionId = f.2.actionId := congrArg (·.2.2.2.2.1) frozen'
    rw [left, right, action, action', same]
  rw [← frozen, ← frozen', records.unique stored among stored' among' actions]

/-- A record was made for a request with the identifier of the one it is given to. -/
theorem made_for (records : Records py served db) {e : GateRequest × ApprovalRow}
    (member : e ∈ served) : ∃ f ∈ served, e.2.frozen = ((f.1.pending py).row py e.2.id).frozen ∧
      (e.1.pending py).actionId = (f.1.pending py).actionId := by
  obtain ⟨action, stored, among, frozen⟩ := records.kept e member
  obtain ⟨f, among', made⟩ := records.asked stored among
  have id : stored.id = e.2.id := congrArg (·.1) frozen
  refine ⟨f, among', by rw [← frozen, made, id], ?_⟩
  have madeAction : stored.actionId = (f.1.pending py).actionId := congrArg (·.2.2.2.2.1) made
  have sameAction : stored.actionId = e.2.actionId := congrArg (·.2.2.2.2.1) frozen
  rw [← action, ← sameAction, madeAction]

theorem action_of_id (records : Records py served db) {e f : GateRequest × ApprovalRow}
    (first : e ∈ served) (second : f ∈ served) (same : e.2.id = f.2.id) :
    (e.1.pending py).actionId = (f.1.pending py).actionId := by
  obtain ⟨action, stored, among, frozen⟩ := records.kept e first
  obtain ⟨action', stored', among', frozen'⟩ := records.kept f second
  have id : stored.id = e.2.id := congrArg (·.1) frozen
  have id' : stored'.id = f.2.id := congrArg (·.1) frozen'
  have equal : stored = stored' := Database.eq_of_id among among' (by rw [id, id', same])
  have left : stored.actionId = e.2.actionId := congrArg (·.2.2.2.2.1) frozen
  have right : stored'.actionId = f.2.actionId := congrArg (·.2.2.2.2.1) frozen'
  rw [← action, ← left, equal, right, action']

end Records

/-- Two requests have one identifier exactly when they agree in run, node and
arguments. -/
theorem same_action_iff {py : Builtins} {e f : GateRequest} {objects : List Dict}
    (faithful : py.FaithfulOn objects) (first : e.arguments ∈ objects)
    (second : f.arguments ∈ objects) :
    (e.pending py).actionId = (f.pending py).actionId ↔ e.runId = f.runId ∧ e.node = f.node ∧
      (Json.obj e.arguments).canonical = (Json.obj f.arguments).canonical := by
  constructor
  · intro same
    obtain ⟨run, node, digest⟩ := actionId_injective same
    exact ⟨run, node,
      (faithful.dumps _ first _ second).mp (faithful.sha256 _ first _ second digest)⟩
  · rintro ⟨run, node, arguments⟩
    have text := (faithful.dumps _ first _ second).mpr arguments
    simp only [GateRequest.pending, pendingAction, actionId, run, node, text]

/-- The records freeze the actions exactly when no two requests of one run, node and
arguments differ in their action or tool. -/
theorem records_freeze_iff {py : Builtins} {served : List (GateRequest × ApprovalRow)}
    {db : Database} (run : Served py served db)
    (faithful : py.FaithfulOn (served.map fun entry => entry.1.arguments)) :
    RecordsFreeze served ↔ ∀ e ∈ served, ∀ f ∈ served, e.1.runId = f.1.runId →
      e.1.node = f.1.node →
      (Json.obj e.1.arguments).canonical = (Json.obj f.1.arguments).canonical →
      e.1.action = f.1.action ∧ e.1.toolName = f.1.toolName := by
  have records := Records.of_served run
  have argument {e : GateRequest × ApprovalRow} (member : e ∈ served) :
      e.1.arguments ∈ served.map fun entry => entry.1.arguments :=
    List.mem_map_of_mem member
  constructor
  · intro freeze e first f second sameRun sameNode sameArguments
    have same := (same_action_iff faithful (argument first) (argument second)).mpr
      ⟨sameRun, sameNode, sameArguments⟩
    have shared : e.2.id = f.2.id := congrArg (·.1) (records.shared first second same)
    obtain ⟨_, _, action, toolName, _⟩ := freeze.2 e first f second shared
    exact ⟨action, toolName⟩
  · intro agree
    refine ⟨fun e member => ?_, fun e first f second shared => ?_⟩
    · obtain ⟨f, made, frozen, same⟩ := records.made_for member
      obtain ⟨sameRun, sameNode, sameArguments⟩ :=
        (same_action_iff faithful (argument member) (argument made)).mp same
      obtain ⟨action, toolName⟩ := agree e member f made sameRun sameNode sameArguments
      simp only [ApprovalRow.frozen, GateRequest.pending, pendingAction, PendingAction.row,
        Prod.mk.injEq, true_and] at frozen
      obtain ⟨ofRun, ofNode, ofAction, _, ofTool, ofArguments⟩ := frozen
      exact ⟨ofRun.trans sameRun.symm, ofNode.trans sameNode.symm, ofAction.trans action.symm,
        ofTool.trans toolName.symm, by rw [ofArguments, sameArguments]⟩
    · have same := records.action_of_id first second shared
      obtain ⟨sameRun, sameNode, sameArguments⟩ :=
        (same_action_iff faithful (argument first) (argument second)).mp same
      obtain ⟨action, toolName⟩ := agree e first f second sameRun sameNode sameArguments
      exact ⟨sameRun, sameNode, action, toolName, sameArguments⟩

/-- A request of a tool node for a call without arguments. -/
def sampleRequest (tool : String) (recordId : ApprovalId) : GateRequest :=
  ⟨sampleRun, "tools", "tool:" ++ tool, some tool, [], 3700, recordId⟩

theorem onEmpty_faithful {objects : List Dict} (empty : ∀ x ∈ objects, x = []) :
    Builtins.onEmpty.FaithfulOn objects where
  sha256 _ _ _ _ _ := rfl
  dumps x first y second := by
    rw [empty x first, empty y second]
    exact ⟨fun _ => rfl, fun _ => rfl⟩

theorem sample_served (tool other : String) :
    ∃ row db, row.action = "tool:" ++ tool ∧
      Served .onEmpty [(sampleRequest tool "first", row), (sampleRequest other "second", row)] db :=
  ⟨_, _, rfl, .request (sampleRequest other "second")
    (.request (sampleRequest tool "first")
      (.start (show Database.empty.approvals.rows = [] from rfl))
      rfl) rfl⟩

theorem repeated_call_freezes :
    ∃ row, RecordsFreeze
      [(sampleRequest "transfer" "first", row), (sampleRequest "transfer" "second", row)] := by
  obtain ⟨row, db, _, served⟩ := sample_served "transfer" "transfer"
  refine ⟨row, (records_freeze_iff served (onEmpty_faithful (by simp [sampleRequest]))).mpr ?_⟩
  intro e first f second _ _ _
  simp only [List.mem_cons, List.not_mem_nil, or_false] at first second
  rcases first with rfl | rfl <;> rcases second with rfl | rfl <;> exact ⟨rfl, rfl⟩

/-- A call of another tool with the same arguments is given the record of the first. -/
theorem one_record_for_two_tools :
    ∃ served db, Served .onEmpty served db ∧
      Builtins.onEmpty.FaithfulOn (served.map fun entry => entry.1.arguments) ∧
      ¬ RecordsFreeze served := by
  obtain ⟨row, db, action, served⟩ := sample_served "transfer" "refund"
  refine ⟨_, db, served, onEmpty_faithful (by simp [sampleRequest]), fun freeze => ?_⟩
  obtain ⟨_, _, recorded, _⟩ := freeze.1 _ (List.mem_cons_of_mem _ List.mem_cons_self)
  have differs : "tool:" ++ "transfer" ≠ "tool:" ++ "refund" := by decide
  exact differs (action.symm.trans recorded)

end AgentRuntime
