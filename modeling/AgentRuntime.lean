import AgentRuntime.Library.Machines
import AgentRuntime.Freeze
import AgentRuntime.Intake
import AgentRuntime.Wakeup
import AgentRuntime.Budget
import AgentRuntime.Exclusion
import AgentRuntime.Resolution
import AgentRuntime.Appends
import AgentRuntime.Agreement
import AgentRuntime.Streaming
import AgentRuntime.Tailing
import AgentRuntime.Reconnects
import AgentRuntime.Prompting
import AgentRuntime.FrozenModel
import AgentRuntime.Retrying
import AgentRuntime.Lockstep
import AgentRuntime.Finality
import AgentRuntime.Creation
import AgentRuntime.Confinement
import AgentRuntime.Returning
import AgentRuntime.StaticErrors
import AgentRuntime.Validation
import AgentRuntime.Traces
import AgentRuntime.Ingestion
import AgentRuntime.Snapshots
import AgentRuntime.Discovery
import AgentRuntime.Substitution
import AgentRuntime.Delegation
import AgentRuntime.Starts
import AgentRuntime.Emitter
import AgentRuntime.Cancellation
import AgentRuntime.Redaction
import AgentRuntime.Framing
import AgentRuntime.Viewer
import AgentRuntime.Approving
import AgentRuntime.Costs
import AgentRuntime.Gateway
import AgentRuntime.Knowledge
import AgentRuntime.Checkpointer
import AgentRuntime.Bootstrap
import AgentRuntime.GraphColumns
import AgentRuntime.GraphFiles
import AgentRuntime.Reachability
import AgentRuntime.Overtaking
