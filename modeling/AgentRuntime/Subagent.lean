import AgentRuntime.Decisions
import AgentRuntime.Operations

/-! The subagent runtime: a bounded loop over an allowlist of tools. -/
namespace AgentRuntime
open Programs Tables

structure SubagentTask where
  task : String
  selectedContext : List Json := []
  allowedTools : List Json := []
  expectedOutputSchema : Json := .null
  template : Json := .str "react"

structure SubagentResult where
  status : String
  result : Option Dict := none
  error : Option String := none
  metadata : Dict := []

def SubagentResult.dump (result : SubagentResult) : Dict :=
  [("status", .str result.status), ("result", .ofFields result.result),
    ("error", .ofText result.error), ("metadata", .obj result.metadata)]

def SubagentTask.allows (task : SubagentTask) (name : String) : Bool :=
  task.allowedTools.any fun allowed => allowed.str? = some name

/-- `ReActExecutor`. -/
structure Executor where
  model : String
  toolRegistry : ToolRegistry
  maxSteps : Nat := 8

namespace Executor

/-- The membership test of the template, which hashes it. -/
def knownTemplate (task : SubagentTask) : Except ExecError Bool :=
  match task.template with
  | .str name => .ok (name = "react" || name = "planner_react")
  | value => if value.hashable then .ok false else .error (.other (unhashable value))

/-- The allowed names that the registry does not list. -/
def unknownTools (executor : Executor) : List Json → Except ExecError (List Json)
  | [] => .ok []
  | .str name :: rest => do
      let unknown ← executor.unknownTools rest
      return if (executor.toolRegistry.tools.find? name).isSome then unknown
        else .str name :: unknown
  | value :: rest =>
      if value.hashable then do return value :: (← executor.unknownTools rest)
      else .error (.other (unhashable value))

def systemPrompt (py : Builtins) (executor : Executor) (task : SubagentTask) : String :=
  let tools := executor.toolRegistry.tools.rows.filter fun tool => task.allows tool.name
  "You are an isolated subagent. You cannot delegate to another subagent. " ++
    "Selected context: " ++ py.repr (.arr task.selectedContext) ++ ". " ++
    "Allowed tools: " ++ py.repr (.arr (tools.map fun tool => .obj tool.dump)) ++ ". " ++
    "Expected output schema: " ++ py.repr task.expectedOutputSchema ++ ". " ++
    "Return only a SubagentDecision."

def message (role content : String) : Dict := [("role", .str role), ("content", .str content)]

def steps (task : SubagentTask) (step : Nat) : Dict :=
  [("template", task.template), ("steps", .int step)]

def modelError (message : String) (step : Nat) (task : SubagentTask) : SubagentResult where
  status := "error"
  error := some message
  metadata := steps task step

/-- The loop from a step on, with the steps that remain. -/
def react (py : Builtins) (executor : Executor) (task : SubagentTask) :
    Nat → Nat → List Dict → GraphProg SubagentResult
  | 0, _, _ => pure
      { status := "timeout"
        error := some "subagent max_steps exceeded"
        metadata := steps task executor.maxSteps }
  | remaining + 1, step, messages => do
      let response : ModelResult ← Prog.request (Op.complete
        { model := executor.model
          messages := messages
          responseSchema := some .subagentDecision
          metadata := [("subagent.template", task.template), ("subagent.step", .int step)] })
      match response.success, response.structured with
      | true, some structured =>
          match SubagentDecision.validate py (.obj structured) with
          | .error error => GraphProg.fail error
          | .ok decision =>
              match decision.action, decision.toolName with
              | .final, _ => return {
                  status := "success"
                  result := some [("answer", .str (decision.answer.getD ""))]
                  metadata := steps task step }
              | .tool, some name =>
                  if name ≠ "" && task.allows name then do
                    let result ← executor.toolRegistry.ainvoke py .subagent (.str name)
                      decision.arguments
                    let content ← GraphProg.ofExcept (result.dumpJson py)
                    executor.react py task remaining (step + 1) (messages ++
                      [message "assistant" (py.dumpJson (.obj decision.dump)),
                        [("role", .str "tool"), ("name", .str name), ("content", .str content)]])
                  else return modelError ("tool not allowed: " ++ name) step task
              | .tool, none => return modelError "tool not allowed: None" step task
      | _, _ =>
          let text := response.error.elim "invalid subagent decision" NormalizedError.message
          return modelError text step task

/-- The loop, after a plan where the template asks for one. -/
def start (py : Builtins) (executor : Executor) (task : SubagentTask) :
    GraphProg SubagentResult :=
  let messages := [message "system" (executor.systemPrompt py task), message "user" task.task]
  if task.template.str? = some "planner_react" then do
    let request := "Produce a concise execution plan. Do not call tools yet."
    let plan : ModelResult ← Prog.request (Op.complete
      { model := executor.model
        messages := messages ++ [message "user" request]
        metadata := [("subagent.template", task.template), ("subagent.phase", .str "plan")] })
    if plan.success then
      executor.react py task executor.maxSteps 1
        (messages ++ [message "assistant" ("Plan:\n" ++ plan.content)])
    else
      return modelError (plan.error.elim "planning failed" NormalizedError.message) 0 task
  else executor.react py task executor.maxSteps 1 messages

def execute (py : Builtins) (executor : Executor) (task : SubagentTask) (depth : Nat) :
    GraphProg SubagentResult :=
  if depth ≠ 0 then pure
    { status := "error"
      error := some "maximum delegation depth exceeded"
      metadata := [("depth", .int depth)] }
  else match knownTemplate task with
    | .error error => GraphProg.fail error
    | .ok false => pure
        { status := "error", error := some ("unknown template: " ++ task.template.text py) }
    | .ok true =>
        match executor.unknownTools task.allowedTools with
        | .error error => GraphProg.fail error
        | .ok [] => executor.start py task
        | .ok unknown => pure
            { status := "error"
              error := some ("unknown allowed tools: " ++ py.repr (.arr unknown)) }

end Executor
end AgentRuntime
