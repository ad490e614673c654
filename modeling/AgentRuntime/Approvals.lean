import AgentRuntime.Store

/-! The approval repository: durable pending actions and their resolution. -/
namespace AgentRuntime
open Tables

structure PendingAction where
  actionId : String
  runId : RunId
  nodeId : NodeId
  action : String
  toolName : Option String
  canonicalArguments : Dict
  risk : String
  expiresAt : Time

def PendingAction.argumentsHash (py : Builtins) (action : PendingAction) : String :=
  py.sha256 (py.dumps (.obj action.canonicalArguments))

def PendingAction.row (py : Builtins) (action : PendingAction) (id : ApprovalId) : ApprovalRow where
  id := id
  runId := action.runId
  nodeId := action.nodeId
  action := action.action
  actionId := action.actionId
  toolName := action.toolName
  canonicalArguments := action.canonicalArguments
  argumentsHash := action.argumentsHash py
  details := [("risk", .str action.risk)]
  expiresAt := some action.expiresAt

/-- The identifier `_require_approval` gives an action: the run, the node and the digest
of the canonical arguments. -/
def actionId (py : Builtins) (runId : RunId) (nodeId : NodeId) (arguments : Dict) : String :=
  runId.text ++ ":" ++ nodeId ++ ":" ++ py.sha256 (py.dumps (.obj arguments))

def pendingAction (py : Builtins) (runId : RunId) (nodeId : NodeId) (action : String)
    (toolName : Option String) (arguments : Dict) (expiresAt : Time) : PendingAction where
  actionId := actionId py runId nodeId arguments
  runId := runId
  nodeId := nodeId
  action := action
  toolName := toolName
  canonicalArguments := arguments
  risk := "sensitive"
  expiresAt := expiresAt

/-- What `_require_approval` passes to `interrupt`. -/
structure Interrupt where
  approvalId : ApprovalId
  actionId : String
  action : String
  toolName : Option String
  arguments : Dict
  argumentsHash : String

def PendingAction.interrupt (py : Builtins) (pending : PendingAction) (approval : ApprovalRow) :
    Interrupt where
  approvalId := approval.id
  actionId := pending.actionId
  action := approval.action
  toolName := pending.toolName
  arguments := pending.canonicalArguments
  argumentsHash := pending.argumentsHash py

def Interrupt.payload (raised : Interrupt) : Dict :=
  [("approval_id", .str raised.approvalId), ("action_id", .str raised.actionId),
    ("action", .str raised.action),
    ("tool_name", raised.toolName.elim .null Json.str),
    ("arguments", .obj raised.arguments), ("arguments_hash", .str raised.argumentsHash)]

namespace Database

def approvalFor? (db : Database) (actionId : String) : Option ApprovalRow :=
  db.approvals.rows.find? fun approval => approval.actionId = actionId

/-- `create_pending`: the stored record of the action identifier wins. -/
def createPending (py : Builtins) (db : Database) (action : PendingAction) (id : ApprovalId) :
    ApprovalRow × Database :=
  match db.approvalFor? action.actionId with
  | some existing => (existing, db)
  | none => (action.row py id, { db with approvals := db.approvals.insert (action.row py id) })

/-- The columns `resolve_and_enqueue` assigns when the request finds the approval
past its expiry. -/
def expire (db : Database) (id : ApprovalId) (now : Time) : Database :=
  { db with
    approvals := db.approvals.updateWhere (fun approval => approval.id = id) fun approval =>
      { approval with status := .expired, resolvedAt := some now } }

def resolve (db : Database) (id : ApprovalId) (status : ApprovalStatus) (resolvedBy : String)
    (reason : Option String) (now : Time) : Database :=
  { db with
    approvals := db.approvals.updateWhere (fun approval => approval.id = id) fun approval =>
      { approval with
        status := status
        resolvedAt := some now
        resolvedBy := some resolvedBy
        reason := reason } }

/-- The paused run goes back to the queue with a job of its own. -/
def requeue (db : Database) (runId : RunId) (jobId : JobId) (now : Time) : Database :=
  { db with
    runs := db.runs.updateWhere (fun run => run.id = runId) fun run =>
      { run with status := .queued }
    jobs := db.jobs.insert { id := jobId, runId := runId, createdAt := now } }

/-- `resolve_and_enqueue`, one transaction under the row locks of the approval and of
its run. The caller passes `approved` or `rejected`; any other status is a `ValueError`
before the transaction begins. -/
def resolveAndEnqueue (db : Database) (id : ApprovalId) (status : ApprovalStatus)
    (resolvedBy : String) (reason : Option String) (now : Time) (jobId : JobId) : Database :=
  match db.approvals.find? id with
  | none => db
  | some approval =>
      if approval.status ≠ .pending then db
      else if approval.expiresAt.any (· ≤ now) then db.expire id now
      else
        match db.runs.find? approval.runId with
        | none => db
        | some run =>
            let resolved := db.resolve id status resolvedBy reason now
            if run.status = .paused then resolved.requeue run.id jobId now else resolved

end Database
end AgentRuntime
