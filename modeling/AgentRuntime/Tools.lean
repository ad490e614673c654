import AgentRuntime.Library.Tables
import AgentRuntime.State

/-! Tools: their metadata, their normalized results, the scope and the registry. -/
namespace AgentRuntime
open Tables

inductive ToolRisk where
  | read
  | write
  | sensitive
  deriving DecidableEq, Repr

def ToolRisk.value : ToolRisk → String
  | .read => "read"
  | .write => "write"
  | .sensitive => "sensitive"

inductive ToolSource where
  | builtin
  | mcp
  | openapi
  deriving DecidableEq, Repr

def ToolSource.value : ToolSource → String
  | .builtin => "builtin"
  | .mcp => "mcp"
  | .openapi => "openapi"

structure ToolDef where
  name : String
  description : String
  inputSchema : Dict
  risk : ToolRisk := .read
  source : ToolSource := .builtin

instance : Keyed ToolDef String := ⟨ToolDef.name⟩

def ToolDef.dump (tool : ToolDef) : Dict :=
  [("name", .str tool.name), ("description", .str tool.description),
    ("input_schema", .obj tool.inputSchema), ("risk", .str tool.risk.value),
    ("source", .str tool.source.value)]

structure NormalizedError where
  category : ErrorCategory
  message : String
  recoverable : Bool := false

def NormalizedError.dump (error : NormalizedError) : Dict :=
  [("category", .str error.category.value), ("message", .str error.message),
    ("recoverable", .bool error.recoverable)]

/-- `unwritable` is the error with which `model_dump_json` refuses the data, where they hold a
value that is no JSON. The channels take such a value as it is, and `data` has some text for it. -/
structure ToolResult where
  success : Bool
  data : Option Dict := none
  error : Option NormalizedError := none
  unwritable : Option String := none

namespace ToolResult

def ok (data : Dict) : ToolResult := { success := true, data := some data }

def fail (category : ErrorCategory) (message : String) : ToolResult :=
  { success := false, error := some { category := category, message := message } }

def dump (result : ToolResult) : Dict :=
  [("success", .bool result.success), ("data", result.data.elim .null Json.obj),
    ("error", result.error.elim .null fun error => .obj error.dump)]

/-- `model_dump_json()`. -/
def dumpJson (py : Builtins) (result : ToolResult) : Except ExecError String :=
  match result.unwritable with
  | some error => .error (.other error)
  | none => .ok (py.dumpJson (.obj result.dump))

end ToolResult

structure ToolScope where
  allow : List String := []
  deny : List String := []

/-- A denied name is refused first; an empty allow list allows every other name. -/
def ToolScope.isAllowed (py : Builtins) (scope : ToolScope) (name : String) : Bool :=
  if scope.deny.any fun pattern => py.fnmatch name pattern then false
  else if scope.allow.isEmpty then true
  else scope.allow.any fun pattern => py.fnmatch name pattern

/-- `callables` are the names to which a callable is bound. -/
structure ToolRegistry where
  tools : Table ToolDef
  callables : List String
  scope : ToolScope := {}

namespace ToolRegistry

/-- `get`. The name is a value of a model output or a node config. -/
def get (py : Builtins) (registry : ToolRegistry) (name : Json) : Except ExecError ToolDef :=
  match name with
  | .str text =>
      match registry.tools.find? text with
      | some tool => .ok tool
      | none => .error (.toolNotFound ("tool not found: " ++ text))
  | value =>
      if value.hashable then .error (.toolNotFound ("tool not found: " ++ value.text py))
      else .error (.other (unhashable value))

/-- The registry would call a callable for this name. -/
def callable (py : Builtins) (registry : ToolRegistry) (name : String) : Bool :=
  registry.scope.isAllowed py name && registry.callables.contains name

def isSensitive (registry : ToolRegistry) (name : String) : Bool :=
  (registry.tools.find? name).any fun tool => tool.risk = .sensitive

theorem get_found {py : Builtins} {registry : ToolRegistry} {tool : ToolDef}
    (found : registry.tools.find? tool.name = some tool) :
    registry.get py (.str tool.name) = .ok tool := by
  simp only [get, found]

theorem get_ok {py : Builtins} {registry : ToolRegistry} {name : Json} {tool : ToolDef}
    (found : registry.get py name = .ok tool) :
    name = .str tool.name ∧ registry.tools.find? tool.name = some tool := by
  unfold get at found
  split at found
  next text =>
    split at found
    next stored =>
      cases found
      have same : tool.name = text := Table.key_of_find? stored
      exact ⟨by rw [same], same ▸ stored⟩
    next => contradiction
  next => split at found <;> contradiction

end ToolRegistry
end AgentRuntime
