import AgentRuntime.State

/-! The graph definition language. A run stores its definition as an immutable
snapshot. -/
namespace AgentRuntime

inductive NodeType where
  | llm
  | supervisor
  | tool
  | rag
  | subagent
  | approval
  | transform
  deriving DecidableEq, Repr

structure NodeDef where
  type : NodeType
  id : NodeId
  prompt : Option String := none
  config : Dict := []

structure EdgeDef where
  source : NodeId
  target : NodeId
  condition : Option String := none

structure AgentDefinition where
  name : String
  nodes : List NodeDef
  edges : List EdgeDef
  entry : NodeId := "START"
  exit : NodeId := "END"

end AgentRuntime
