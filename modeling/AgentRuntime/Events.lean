import AgentRuntime.Library.Logs
import AgentRuntime.Store

/-! The event repository: the durable, ordered timeline of a run. -/
namespace AgentRuntime
open Logs

/-- The keys whose values `_redact` masks, compared in lower case. -/
def sensitiveKeys : List String := ["api_key", "authorization", "password", "secret", "token"]

mutual

def redact (py : Builtins) : Json → Json
  | .obj fields => .obj (redactFields py fields)
  | .arr items => .arr (redactItems py items)
  | value => value

def redactFields (py : Builtins) : List (String × Json) → List (String × Json)
  | [] => []
  | (key, item) :: rest =>
      (key, if sensitiveKeys.contains (py.lower key) then .str "***" else redact py item) ::
        redactFields py rest

def redactItems (py : Builtins) : List Json → List Json
  | [] => []
  | item :: rest => redact py item :: redactItems py rest

end

/-- The unique indexes `uq_run_event_seq` and `uq_run_terminal_event` speak of these columns. -/
instance : Numbered EventRow RunId := ⟨EventRow.runId, EventRow.seq, fun row => row.type.terminal⟩

@[simp] theorem owner_event (row : EventRow) : owner row = row.runId := rfl
@[simp] theorem number_event (row : EventRow) : number row = row.seq := rfl
@[simp] theorem final_event (row : EventRow) : final row = row.type.terminal := rfl

def RuntimeEvent.row (py : Builtins) (id : RunId) (event : RuntimeEvent) (seq : Nat) : EventRow :=
  ⟨seq, id, event.type, event.node, redactFields py event.payload⟩

/-- The rows that `append_many` inserts one by one, numbered from `next_seq`. -/
def eventRows (py : Builtins) (id : RunId) (events : List RuntimeEvent) (next : Nat) :
    List EventRow :=
  (events.zipIdx next).map fun event => event.1.row py id event.2

theorem eventRows_cons (py : Builtins) (id : RunId) (event : RuntimeEvent)
    (events : List RuntimeEvent) (next : Nat) :
    eventRows py id (event :: events) next =
      event.row py id next :: eventRows py id events (next + 1) := rfl

theorem eventRows_batch (py : Builtins) (id : RunId) (events : List RuntimeEvent) (next : Nat) :
    Batch id next (eventRows py id events next) := by
  induction events generalizing next with
  | nil => exact ⟨by simp [eventRows], by simp [eventRows], .nil⟩
  | cons event events ih =>
      have rest := ih (next + 1)
      rw [eventRows_cons]
      refine ⟨?_, ?_, List.pairwise_cons.mpr ⟨rest.behind, rest.upward⟩⟩
      · intro row member
        cases member with
        | head => rfl
        | tail _ later => exact rest.owned row later
      · intro row member
        cases member with
        | head => exact Nat.le_refl next
        | tail _ later => exact Nat.le_of_succ_le (rest.behind row later)

namespace Database

/-- `coalesce(max(seq), -1) + 1` over the events of the run. -/
def nextSeq (db : Database) (id : RunId) : Nat := next db.events id

/-- `append_many`, under the advisory lock of the run. -/
def appendMany (py : Builtins) (db : Database) (id : RunId) (events : List RuntimeEvent) :
    Database :=
  { db with events := insertAll db.events (eventRows py id events (db.nextSeq id)) }

theorem appendMany_tables (py : Builtins) (db : Database) (id : RunId)
    (events : List RuntimeEvent) :
    (db.appendMany py id events).runs = db.runs ∧ (db.appendMany py id events).jobs = db.jobs ∧
      (db.appendMany py id events).approvals = db.approvals := ⟨rfl, rfl, rfl⟩

def hasEvent (db : Database) (id : RunId) (type : EventType) : Bool :=
  db.events.any fun row => row.runId = id && row.type = type

end Database
end AgentRuntime
