import AgentRuntime.State
import AgentRuntime.Schema

/-! The structured decisions of the supervisor and of a subagent, as their model classes
accept and dump them. -/
namespace AgentRuntime

namespace Dict

/-- An optional field of a model class: absent, null, or a value the check accepts. -/
def optional? {α : Type} (raw : Dict) (name : String) (check : Json → Option α) :
    Option (Option α) :=
  match raw.get? name with
  | none | some .null => some none
  | some value => (check value).map some

end Dict

namespace Json

def str? : Json → Option String
  | .str text => some text
  | _ => none

def obj? : Json → Option Dict
  | .obj fields => some fields
  | _ => none

def ofText (text : Option String) : Json := text.elim .null .str

def ofFields (fields : Option Dict) : Json := fields.elim .null .obj

end Json

inductive SupervisorAction where
  | tool
  | rag
  | subagent
  | approval
  | final
  deriving DecidableEq, Repr

namespace SupervisorAction

def value : SupervisorAction → String
  | .tool => "tool"
  | .rag => "rag"
  | .subagent => "subagent"
  | .approval => "approval"
  | .final => "final"

def ofText? : String → Option SupervisorAction
  | "tool" => some .tool
  | "rag" => some .rag
  | "subagent" => some .subagent
  | "approval" => some .approval
  | "final" => some .final
  | _ => none

theorem ofText?_value (action : SupervisorAction) : ofText? action.value = some action := by
  cases action <;> rfl

end SupervisorAction

structure SupervisorDecision where
  action : SupervisorAction
  capabilityNodeId : Option String := none
  resource : Option Dict := none
  input : Option Dict := none
  target : Option String := none
  task : Option String := none
  payload : Option Dict := none
  finalResponse : Option String := none

namespace SupervisorDecision

/-- The fields of a dictionary that the model class accepts; any other is ignored. -/
def parse (raw : Dict) : Option SupervisorDecision := do
  let action ← SupervisorAction.ofText? (← (← raw.get? "action").str?)
  return {
    action := action
    capabilityNodeId := ← raw.optional? "capability_node_id" Json.str?
    resource := ← raw.optional? "resource" Json.obj?
    input := ← raw.optional? "input" Json.obj?
    target := ← raw.optional? "target" Json.str?
    task := ← raw.optional? "task" Json.str?
    payload := ← raw.optional? "payload" Json.obj?
    finalResponse := ← raw.optional? "final_response" Json.str? }

def validate (py : Builtins) (raw : Json) : Except ExecError SupervisorDecision :=
  match raw.obj?.bind parse with
  | some decision => .ok decision
  | none => .error (.other (py.invalid "SupervisorDecision" raw))

def dump (decision : SupervisorDecision) : Dict :=
  [("action", .str decision.action.value),
    ("capability_node_id", .ofText decision.capabilityNodeId),
    ("resource", .ofFields decision.resource), ("input", .ofFields decision.input),
    ("target", .ofText decision.target), ("task", .ofText decision.task),
    ("payload", .ofFields decision.payload),
    ("final_response", .ofText decision.finalResponse)]

/-- `capability_node_id or target`. -/
def selectedNodeId (decision : SupervisorDecision) : Option String :=
  match decision.capabilityNodeId with
  | none | some "" => decision.target
  | some id => some id

end SupervisorDecision

inductive SubagentAction where
  | tool
  | final
  deriving DecidableEq, Repr

namespace SubagentAction

def value : SubagentAction → String
  | .tool => "tool"
  | .final => "final"

def ofText? : String → Option SubagentAction
  | "tool" => some .tool
  | "final" => some .final
  | _ => none

theorem ofText?_value (action : SubagentAction) : ofText? action.value = some action := by
  cases action <;> rfl

end SubagentAction

structure SubagentDecision where
  action : SubagentAction
  toolName : Option String := none
  arguments : Dict := []
  answer : Option String := none

namespace SubagentDecision

def parse (raw : Dict) : Option SubagentDecision := do
  let action ← SubagentAction.ofText? (← (← raw.get? "action").str?)
  return {
    action := action
    toolName := ← raw.optional? "tool_name" Json.str?
    arguments := ← (raw.getD "arguments" (.obj [])).obj?
    answer := ← raw.optional? "answer" Json.str? }

def validate (py : Builtins) (raw : Json) : Except ExecError SubagentDecision :=
  match raw.obj?.bind parse with
  | some decision => .ok decision
  | none => .error (.other (py.invalid "SubagentDecision" raw))

def dump (decision : SubagentDecision) : Dict :=
  [("action", .str decision.action.value), ("tool_name", .ofText decision.toolName),
    ("arguments", .obj decision.arguments), ("answer", .ofText decision.answer)]

end SubagentDecision

section RoundTrip

theorem optional?_ofText {raw : Dict} {name : String} {text : Option String}
    (stored : raw.get? name = some (.ofText text)) :
    raw.optional? name Json.str? = some text := by
  cases text <;> simp [Dict.optional?, stored, Json.ofText, Json.str?]

theorem optional?_ofFields {raw : Dict} {name : String} {fields : Option Dict}
    (stored : raw.get? name = some (.ofFields fields)) :
    raw.optional? name Json.obj? = some fields := by
  cases fields <;> simp [Dict.optional?, stored, Json.ofFields, Json.obj?]

theorem SupervisorDecision.parse_dump (decision : SupervisorDecision) :
    parse decision.dump = some decision := by
  have texts (name : String) (text : Option String)
      (stored : decision.dump.get? name = some (.ofText text)) := optional?_ofText stored
  have objects (name : String) (fields : Option Dict)
      (stored : decision.dump.get? name = some (.ofFields fields)) := optional?_ofFields stored
  have action : decision.dump.get? "action" = some (.str decision.action.value) := rfl
  simp [parse, action, Json.str?, SupervisorAction.ofText?_value, texts "capability_node_id" _ rfl,
    objects "resource" _ rfl, objects "input" _ rfl, texts "target" _ rfl, texts "task" _ rfl,
    objects "payload" _ rfl, texts "final_response" _ rfl]

/-- What a supervisor stores in the control channel is read back by its capabilities. -/
theorem SupervisorDecision.validate_dump (py : Builtins) (decision : SupervisorDecision) :
    validate py (.obj decision.dump) = .ok decision := by
  simp [validate, Json.obj?, parse_dump]

theorem SubagentDecision.validate_dump (py : Builtins) (decision : SubagentDecision) :
    validate py (.obj decision.dump) = .ok decision := by
  have texts (name : String) (text : Option String)
      (stored : decision.dump.get? name = some (.ofText text)) := optional?_ofText stored
  have action : decision.dump.get? "action" = some (.str decision.action.value) := rfl
  have arguments : decision.dump.get? "arguments" = some (.obj decision.arguments) := rfl
  simp [validate, parse, action, arguments, Dict.getD, Json.str?, Json.obj?,
    SubagentAction.ofText?_value, texts "tool_name" _ rfl, texts "answer" _ rfl]

end RoundTrip
end AgentRuntime
