import AgentRuntime.Library.Tables
import AgentRuntime.Decisions

/-! The graph compiler: the semantic validation of a definition, the compiled graph and the
edges that `compile_langgraph` builds from it. -/
namespace AgentRuntime
open Tables

def NodeType.value : NodeType → String
  | .llm => "llm"
  | .supervisor => "supervisor"
  | .tool => "tool"
  | .rag => "rag"
  | .subagent => "subagent"
  | .approval => "approval"
  | .transform => "transform"

def NodeType.capability : NodeType → Bool
  | .tool | .rag | .subagent | .approval => true
  | .llm | .supervisor | .transform => false

instance : Keyed NodeDef NodeId := ⟨NodeDef.id⟩

@[simp] theorem key_node (node : NodeDef) : key node = node.id := rfl

abbrev Validated := Except ExecError Unit

def invalidGraph {α : Type} (message : String) : Except ExecError α :=
  .error (.graphValidation message)

namespace AgentDefinition

def nodeIds (definition : AgentDefinition) : List NodeId := definition.nodes.map NodeDef.id

def checkNoDuplicateIds : List NodeDef → List NodeId → Validated
  | [], _ => .ok ()
  | node :: rest, seen =>
      if node.id ∈ seen then invalidGraph ("duplicate node id: " ++ node.id)
      else checkNoDuplicateIds rest (node.id :: seen)

def checkAllEdgesValid (known : List NodeId) : List EdgeDef → Validated
  | [] => .ok ()
  | edge :: rest =>
      if edge.source ∉ known then
        invalidGraph ("edge source does not exist: " ++ edge.source)
      else if edge.target ∉ known then
        invalidGraph ("edge target does not exist: " ++ edge.target)
      else checkAllEdgesValid known rest

def supervisors (definition : AgentDefinition) : List NodeDef :=
  definition.nodes.filter fun node => node.type = .supervisor

def checkAtMostOneSupervisor (definition : AgentDefinition) : Validated :=
  if 1 < definition.supervisors.length then
    invalidGraph ("graph may contain at most one supervisor, found " ++
      toString definition.supervisors.length)
  else .ok ()

def checkChildren : List Json → Validated
  | [] => .ok ()
  | .obj fields :: rest =>
      if (Dict.get? fields "type").bind Json.str? = some "subagent" then
        invalidGraph "nested subagent detected: subagent nodes may not contain subagent nodes"
      else checkChildren rest
  | child :: _ => .error (.other (noAttribute child "get"))

def checkNoNestedSubagent : List NodeDef → Validated
  | [] => .ok ()
  | node :: rest =>
      if node.type = .subagent then do
        let children := node.config.getD "nodes" (.arr [])
        match children.toList with
        | none => .error (.other (notIterable children))
        | some items => do
            checkChildren items
            checkNoNestedSubagent rest
      else checkNoNestedSubagent rest

/-- The neighbours of a node: the targets of its edges, and the dispatch of the supervisor
to every capability with the way back. -/
def adjacency (definition : AgentDefinition) (id : NodeId) : List NodeId :=
  let targets := definition.edges.filterMap fun edge =>
    if edge.source = id then some edge.target else none
  let ofType (p : NodeType → Bool) := definition.nodes.filter fun node => p node.type
  let supervisors := (ofType (· = .supervisor)).map NodeDef.id
  let capabilities := (ofType NodeType.capability).map NodeDef.id
  targets ++ (if id ∈ supervisors then capabilities else []) ++
    (if id ∈ capabilities then supervisors else [])

/-- The nodes a search from the frontier sees. A node is expanded at most once, so there are
at most as many rounds as the frontier and the neighbour lists have entries. -/
def explore (neighbours : NodeId → List NodeId) : Nat → List NodeId → List NodeId → List NodeId
  | 0, _, seen => seen
  | _ + 1, [], seen => seen
  | rounds + 1, current :: frontier, seen =>
      if current ∈ seen then explore neighbours rounds frontier seen
      else
        let seen := current :: seen
        explore neighbours rounds
          ((neighbours current).filter (fun id => id ∉ seen) ++ frontier) seen

/-- Where the search begins: the entry, or for the START marker the nodes that no edge
leads to. -/
def roots (definition : AgentDefinition) : List NodeId :=
  if definition.entry ∈ definition.nodeIds then [definition.entry]
  else
    let targets := definition.edges.map EdgeDef.target
    let sources := definition.nodeIds.filter fun id => id ∉ targets
    if sources.isEmpty then definition.nodeIds else sources

def reached (definition : AgentDefinition) : List NodeId :=
  let neighbours := definition.adjacency
  let rounds := definition.roots.length + (definition.nodeIds.flatMap neighbours).length
  explore neighbours rounds definition.roots []

def checkEntryReachable (py : Builtins) (definition : AgentDefinition) : Validated :=
  let known := definition.nodeIds
  if definition.entry ≠ "START" && definition.entry ∉ known then
    invalidGraph ("entry does not reference an existing node: " ++ definition.entry)
  else
    let unreachable := (known.filter fun id => id ∉ definition.reached).insertionSort (· ≤ ·)
    if unreachable.isEmpty then .ok ()
    else
      invalidGraph ("unreachable nodes from entry: " ++ py.repr (.arr (unreachable.map .str)))

def validateGraph (py : Builtins) (definition : AgentDefinition) : Validated := do
  checkNoDuplicateIds definition.nodes []
  checkAllEdgesValid definition.nodeIds definition.edges
  definition.checkAtMostOneSupervisor
  checkNoNestedSubagent definition.nodes
  definition.checkEntryReachable py

end AgentDefinition

structure CompiledGraph where
  definition : AgentDefinition
  nodeMap : Table NodeDef
  outEdges : NodeId → List EdgeDef
  supervisorId : Option NodeId
  entryId : NodeId
  exitId : NodeId

def CompiledGraph.ofDefinition (definition : AgentDefinition) : CompiledGraph where
  definition := definition
  nodeMap := definition.nodes.foldl Table.insert .empty
  outEdges id := definition.edges.filter fun edge => edge.source = id
  supervisorId := definition.supervisors.head?.map NodeDef.id
  entryId := definition.entry
  exitId := definition.exit

def compileGraph (py : Builtins) (definition : AgentDefinition) :
    Except ExecError CompiledGraph := do
  definition.validateGraph py
  return .ofDefinition definition

/-- Where LangGraph goes after a node. -/
inductive Edge where
  | routed
  | goes (target : NodeId)
  | exit
  deriving DecidableEq

namespace CompiledGraph

/-- The edge `compile_langgraph` adds behind a node. -/
def edge (graph : CompiledGraph) (node : NodeDef) : Except ExecError Edge :=
  if node.type = .supervisor then .ok .routed
  else
    match node.type.capability, graph.supervisorId with
    | true, some supervisor => .ok (.goes supervisor)
    | _, _ =>
        match graph.outEdges node.id with
        | [] => .ok .exit
        | [⟨_, target, none⟩] => .ok (.goes target)
        | _ => invalidGraph ("node '" ++ node.id ++ "' requires exactly one explicit edge; " ++
            "dynamic conditional routing belongs to Supervisor")

/-- `compile_langgraph`: the nodes with their edges. -/
def compileLanggraph (graph : CompiledGraph) : Except ExecError (List (NodeId × Edge)) :=
  if (graph.nodeMap.find? graph.entryId).isNone then
    invalidGraph "LangGraph execution requires entry to reference a node id"
  else graph.nodeMap.rows.mapM fun node => (graph.edge node).map fun edge => (node.id, edge)

def validateDecision (graph : CompiledGraph) (decision : SupervisorDecision) : Validated :=
  if decision.action = .final then .ok ()
  else
    let id := decision.selectedNodeId
    match graph.nodeMap.find? (id.getD "") with
    | none => invalidGraph ("Supervisor selected unknown capability node: " ++ id.getD "None")
    | some node =>
        if node.type.value = decision.action.value then .ok ()
        else
          invalidGraph ("Supervisor action '" ++ decision.action.value ++
            "' does not match node '" ++ id.getD "None" ++ "' type '" ++ node.type.value ++ "'")

/-- `_supervisor_route`, for the decision in the control channel. -/
def route (graph : CompiledGraph) (decision : SupervisorDecision) :
    Except ExecError (Option NodeId) :=
  if decision.action = .final then .ok none
  else do
    graph.validateDecision decision
    return some (decision.selectedNodeId.getD "None")

/-- `_supervisor_path_map`, whose keys besides the end are the capability nodes. -/
def supervisorPathMap (graph : CompiledGraph) (target : NodeId) : Option NodeId :=
  ((graph.nodeMap.find? target).filter fun node => node.type.capability).map NodeDef.id

end CompiledGraph
end AgentRuntime
