import AgentRuntime.Library.Machines
import AgentRuntime.Streaming

/-! What a stream sends: a frame for every event, and a comment now and then while it waits. -/
namespace AgentRuntime
open Machines

/-- The object in the `data:` line of a frame. -/
def sseData (eventType : String) (payload : Dict) (seq : Int) (node : Option NodeId) : Json :=
  .obj [("type", .str eventType), ("seq", .int seq), ("node", node.elim .null .str),
    ("payload", .obj payload)]

/-- `_sse_event`, with `json.dumps(.., separators=(",", ":"))`. -/
def sseEvent (dumps : Json → String) (eventType : String) (payload : Dict) (seq : Int)
    (node : Option NodeId) : String :=
  "id: " ++ seq.repr ++ "\n" ++ "event: " ++ eventType ++ "\n" ++
    "data: " ++ dumps (sseData eventType payload seq node) ++ "\n\n"

def keepAlive : String := ": keep-alive\n\n"

def EventRow.frame (dumps : Json → String) (row : EventRow) : String :=
  sseEvent dumps row.type.value row.payload row.seq row.node

/-- `event_generator`: the stream behind it, the idle polls that it counts, and what it has sent. -/
structure Generator where
  stream : Stream
  idlePolls : Nat := 0
  sent : List String := []

namespace Generator

/-- Between two reads the generator sends the frame of an event, or it counts an idle poll. -/
def move (dumps : Json → String) (db : Database) (g : Generator) (m : StreamMove) :
    Option Generator :=
  (g.stream.move db m).map fun next =>
    match m, g.stream.phase, next.phase with
    | .advance, .polling, .delivering _ => { g with stream := next, idlePolls := 0 }
    | .advance, .delivering (event :: _), _ =>
        { g with stream := next, sent := g.sent ++ [event.frame dumps] }
    | .advance, .checking, .polling =>
        let idlePolls := g.idlePolls + 1
        { stream := next
          idlePolls := idlePolls
          sent := if idlePolls % 15 = 0 then g.sent ++ [keepAlive] else g.sent }
    | _, _, _ => { g with stream := next }

def output (g : Generator) : String := String.join g.sent

end Generator

/-- The generator of one request. Every read finds a database of its own. -/
def generator (py : Builtins) (dumps : Json → String) :
    Machine Generator (Database × StreamMove) where
  init g := ∃ db id afterSeq headerId,
    (streamRunEvents py db id afterSeq headerId).map (fun stream => { stream := stream }) = some g
  step g action := g.move dumps action.1 action.2

end AgentRuntime
