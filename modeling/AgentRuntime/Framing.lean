import Mathlib
import AgentRuntime.Frames
import AgentRuntime.Library.EventStreams

/-! What a client reads back from a stream: the events that the generator has sent, in their order,
whatever their payloads hold. -/
namespace AgentRuntime
open Machines

/-- `json.dumps(.., separators=(",", ":"))`, and `json.loads` with none where it raises. -/
structure JsonCodec where
  dumps : Json → String
  loads : String → Option Json

def control (c : Char) : Prop := c.toNat < 32 ∨ 127 ≤ c.toNat ∧ c.toNat < 160

instance (c : Char) : Decidable (control c) :=
  inferInstanceAs (Decidable (c.toNat < 32 ∨ 127 ≤ c.toNat ∧ c.toNat < 160))

/-- The text of the value has no control character, and `json.loads` reads the value back. -/
structure JsonCodec.Lossless (codec : JsonCodec) (value : Json) : Prop where
  escapes : ∀ c ∈ (codec.dumps value).toList, ¬ control c
  inverts : codec.loads (codec.dumps value) = some value

/-- What a frame says of an event. -/
structure SentEvent where
  seq : Int
  type : EventType
  node : Option NodeId
  payload : Dict

def EventRow.toSent (row : EventRow) : SentEvent := ⟨row.seq, row.type, row.node, row.payload⟩

def EventType.all : List EventType :=
  [.runStarted, .runAttemptFailed, .modelResolved, .llmRequested, .llmCompleted, .llmFailed,
    .llmFallback, .llmRetrying, .nodeStarted, .nodeCompleted, .llmToken, .toolStarted,
    .toolCompleted, .ragStarted, .ragCompleted, .subagentStarted, .subagentCompleted,
    .approvalRequired, .checkpointCreated, .runCompleted, .runFailed, .runCancelled]

/-- `EventType(text)`, and none where it raises. -/
def EventType.ofText? (text : String) : Option EventType :=
  EventType.all.find? fun type => type.value = text

theorem EventType.ofText?_value (type : EventType) : ofText? type.value = some type := by
  cases type <;> rfl

namespace SentEvent

def data (event : SentEvent) : Json :=
  sseData event.type.value event.payload event.seq event.node

/-- The node and the payload are read from the data of a frame. -/
def ofData? (seq : Int) (type : EventType) : Json → Option SentEvent
  | .obj fields =>
      match Dict.get? fields "node", Dict.get? fields "payload" with
      | some .null, some (.obj payload) => some ⟨seq, type, none, payload⟩
      | some (.str id), some (.obj payload) => some ⟨seq, type, some id, payload⟩
      | _, _ => none
  | _ => none

/-- The fields of a message, read as those of a frame. -/
def ofMessage? (loads : String → Option Json) (m : EventStreams.Message) : Option SentEvent := do
  let seq ← (String.ofList m.id).toInt?
  let type ← EventType.ofText? (String.ofList m.event)
  let data ← loads (String.ofList m.data)
  ofData? seq type data

end SentEvent

/-- The parser of the client: what it reads in the text of a stream, and none where a message is
not the frame of an event. -/
def JsonCodec.receive (codec : JsonCodec) (text : String) : Option (List SentEvent) :=
  (EventStreams.parse text.toList).mapM (SentEvent.ofMessage? codec.loads)

inductive StreamFrame where
  | event (sent : SentEvent)
  | keepAlive

namespace StreamFrame

def text (dumps : Json → String) : StreamFrame → String
  | .event sent => sseEvent dumps sent.type.value sent.payload sent.seq sent.node
  | .keepAlive => AgentRuntime.keepAlive

def event? : StreamFrame → Option SentEvent
  | .event sent => some sent
  | .keepAlive => none

end StreamFrame

section Events
variable {codec : JsonCodec} {event : SentEvent}

/-- The frame of an event as a message of the stream. -/
def SentEvent.message (dumps : Json → String) (event : SentEvent) : EventStreams.Message :=
  ⟨event.seq.repr.toList, event.type.value.toList, (dumps event.data).toList⟩

def StreamFrame.toFrame (dumps : Json → String) : StreamFrame → EventStreams.Frame
  | .event sent => .message (sent.message dumps)
  | .keepAlive => .comment " keep-alive".toList

theorem toList_text (dumps : Json → String) (frame : StreamFrame) :
    (frame.text dumps).toList = (frame.toFrame dumps).text := by
  cases frame with
  | keepAlive =>
      simp [StreamFrame.text, StreamFrame.toFrame, keepAlive, EventStreams.Frame.text]
  | event event =>
      simp [StreamFrame.text, StreamFrame.toFrame, SentEvent.message, SentEvent.data, sseEvent,
        EventStreams.Frame.text, EventStreams.fieldLine]

theorem mem_repr {n : Int} {c : Char} (member : c ∈ n.repr.toList) :
    c = '-' ∨ c.isDigit = true := by
  have digits (k : Nat) (among : c ∈ k.repr.toList) : c.isDigit = true := by
    rw [Nat.toList_repr] at among
    exact Nat.isDigit_of_mem_toDigits (by decide) (by decide) among
  rw [Int.repr_eq_if] at member
  split at member
  next => exact .inr (digits _ member)
  next =>
    rw [String.toList_append, List.mem_append] at member
    rcases member with sign | number
    · exact .inl (by simpa using sign)
    · exact .inr (digits _ number)

theorem unbroken_value (type : EventType) : EventStreams.Unbroken type.value.toList := by
  cases type <;> decide

theorem message_plain (lossless : codec.Lossless event.data) :
    (EventStreams.Frame.message (event.message codec.dumps)).Plain := by
  have digit {c : Char} (other : c ≠ '-') (letter : c.isDigit = false) :
      c ∉ event.seq.repr.toList := by
    intro member
    rcases mem_repr member with sign | number
    · exact other sign
    · rw [letter] at number
      contradiction
  refine ⟨⟨⟨digit (by decide) rfl, digit (by decide) rfl⟩, digit (by decide) rfl⟩,
    unbroken_value event.type, ?_, ?_⟩
  · exact fun member => lossless.escapes _ member (by decide)
  · exact fun member => lossless.escapes _ member (by decide)

theorem ofMessage?_message (lossless : codec.Lossless event.data) :
    SentEvent.ofMessage? codec.loads (event.message codec.dumps) = some event := by
  have read : SentEvent.ofData? event.seq event.type event.data = some event := by
    obtain ⟨seq, type, node, payload⟩ := event
    cases node <;> simp [SentEvent.ofData?, SentEvent.data, sseData]
  simp only [SentEvent.ofMessage?, SentEvent.message, String.ofList_toList, Int.toInt?_repr,
    EventType.ofText?_value, lossless.inverts, Option.bind_eq_bind, Option.bind_some, read]

end Events

section Streams
variable {codec : JsonCodec}

theorem messages_toFrame (dumps : Json → String) (frames : List StreamFrame) :
    (frames.map (StreamFrame.toFrame dumps)).filterMap EventStreams.Frame.message? =
      (frames.filterMap StreamFrame.event?).map (SentEvent.message dumps) := by
  rw [List.filterMap_map, List.map_filterMap]
  refine List.filterMap_congr fun frame _ => ?_
  cases frame <;> rfl

theorem mapM_message {events : List SentEvent}
    (lossless : ∀ event ∈ events, codec.Lossless event.data) :
    (events.map (SentEvent.message codec.dumps)).mapM (SentEvent.ofMessage? codec.loads) =
      some events := by
  induction events with
  | nil => rfl
  | cons event events ih =>
      obtain ⟨first, rest⟩ := List.forall_mem_cons.mp lossless
      rw [List.map_cons, List.mapM_cons, ofMessage?_message first, ih rest]
      rfl

theorem plain_toFrame {frames : List StreamFrame}
    (lossless : ∀ event ∈ frames.filterMap StreamFrame.event?, codec.Lossless event.data) :
    ∀ frame ∈ frames.map (StreamFrame.toFrame codec.dumps), frame.Plain := by
  intro frame member
  obtain ⟨sent, among, rfl⟩ := List.mem_map.mp member
  cases sent with
  | keepAlive => exact ⟨by decide, by decide⟩
  | event sent =>
      exact message_plain (lossless sent (List.mem_filterMap.mpr ⟨_, among, rfl⟩))

theorem toList_join (dumps : Json → String) (frames : List StreamFrame) :
    (String.join (frames.map (StreamFrame.text dumps))).toList =
      (frames.map (StreamFrame.toFrame dumps)).flatMap EventStreams.Frame.text := by
  rw [String.toList_join, List.flatMap_map, List.flatMap_map]
  exact List.flatMap_congr fun frame _ => toList_text dumps frame

/-- Every sequence of frames is read back as the sequence of its events. -/
theorem receive_frames {frames : List StreamFrame}
    (lossless : ∀ event ∈ frames.filterMap StreamFrame.event?, codec.Lossless event.data) :
    codec.receive (String.join (frames.map (StreamFrame.text codec.dumps))) =
      some (frames.filterMap StreamFrame.event?) := by
  rw [JsonCodec.receive, toList_join, EventStreams.parse_frames (plain_toFrame lossless),
    messages_toFrame]
  exact mapM_message lossless

end Streams

namespace Generator
variable {py : Builtins} {dumps : Json → String} {db : Database} {g next : Generator}
  {m : StreamMove}

/-- A move sends the frame of the event that it yields, or a comment, or nothing. -/
theorem move_cases (moved : g.move dumps db m = some next) :
    (∃ event, next.sent = g.sent ++ [event.frame dumps] ∧
      next.stream.yielded = g.stream.yielded ++ [event]) ∨
    next.stream.yielded = g.stream.yielded ∧
      (next.sent = g.sent ∨ next.sent = g.sent ++ [keepAlive]) := by
  obtain ⟨stream, advanced, rfl⟩ := Option.map_eq_some_iff.mp moved
  cases m with
  | disconnect =>
      simp only [Stream.move] at advanced
      split at advanced
      next => contradiction
      next => cases advanced; exact .inr ⟨rfl, .inl rfl⟩
  | advance =>
      simp only [Stream.move, Stream.advance] at advanced
      split at advanced
      next polling =>
        rw [polling]
        split at advanced <;> cases advanced <;> exact .inr ⟨rfl, .inl rfl⟩
      next event pending delivering =>
        rw [delivering]
        cases advanced
        exact .inl ⟨event, rfl, rfl⟩
      next delivered =>
        rw [delivered]
        cases advanced
        exact .inr ⟨rfl, .inl rfl⟩
      next checking =>
        rw [checking]
        split at advanced
        next => cases advanced; exact .inr ⟨rfl, .inl rfl⟩
        next =>
          cases advanced
          dsimp only
          split
          next => exact .inr ⟨rfl, .inr rfl⟩
          next => exact .inr ⟨rfl, .inl rfl⟩
      next => contradiction

/-- What the generator has sent are frames, and their events are those that the stream behind it
has yielded. -/
def Sends (dumps : Json → String) (g : Generator) : Prop :=
  ∃ frames : List StreamFrame, g.sent = frames.map (StreamFrame.text dumps) ∧
    frames.filterMap StreamFrame.event? = g.stream.yielded.map EventRow.toSent

theorem Sends.move (sends : g.Sends dumps) (moved : g.move dumps db m = some next) :
    next.Sends dumps := by
  obtain ⟨frames, sent, events⟩ := sends
  rcases move_cases moved with ⟨event, sent', yielded⟩ | ⟨yielded, sent' | sent'⟩
  · refine ⟨frames ++ [.event event.toSent], ?_, ?_⟩
    · rw [sent', sent, List.map_append]
      rfl
    · rw [yielded, List.filterMap_append, events, List.map_append]
      rfl
  · exact ⟨frames, sent'.trans sent, events.trans (by rw [yielded])⟩
  · refine ⟨frames ++ [.keepAlive], ?_, ?_⟩
    · rw [sent', sent, List.map_append]
      rfl
    · rw [yielded, List.filterMap_append, events]
      exact List.append_nil _

theorem sends_inductive (py : Builtins) (dumps : Json → String) :
    Inductive (generator py dumps) anyStep (Sends dumps) where
  init g first := by
    obtain ⟨db, id, afterSeq, headerId, opened⟩ := first
    obtain ⟨stream, started, rfl⟩ := Option.map_eq_some_iff.mp opened
    simp only [streamRunEvents, Option.ite_none_right_eq_some, Option.some.injEq] at started
    obtain ⟨_, rfl⟩ := started
    exact ⟨[], rfl, rfl⟩
  step _ _ _ sends _ stepped := sends.move stepped

end Generator

/-- A client that reads the text of a stream has the events that were sent, in their order, and
comments make no difference: for every sequence of frames, and for what a generator has sent at any
moment. -/
theorem streams_decodable (codec : JsonCodec) (py : Builtins) :
    (∀ frames : List StreamFrame,
      (∀ event ∈ frames.filterMap StreamFrame.event?, codec.Lossless event.data) →
        codec.receive (String.join (frames.map (StreamFrame.text codec.dumps))) =
          some (frames.filterMap StreamFrame.event?)) ∧
    ∀ g, Reachable (generator py codec.dumps) anyStep g →
      (∀ row ∈ g.stream.yielded, codec.Lossless row.toSent.data) →
        codec.receive g.output = some (g.stream.yielded.map EventRow.toSent) := by
  refine ⟨fun frames lossless => receive_frames lossless, fun g reached lossless => ?_⟩
  obtain ⟨frames, sent, events⟩ := (Generator.sends_inductive py codec.dumps).reachable reached
  rw [Generator.output, sent, ← events]
  refine receive_frames ?_
  rw [events]
  intro event member
  obtain ⟨row, yielded, rfl⟩ := List.mem_map.mp member
  exact lossless row yielded

section Sample

/-- A result that imitates a blank line and the fields of a frame. -/
def noteRow : EventRow where
  seq := 5
  runId := sampleRun
  type := .toolCompleted
  node := some "tool"
  payload := [("result", .str "ok\n\nid: 7\r: x")]

/-- `json.dumps` of its data. -/
def noteText : String :=
  "\x7b\"type\":\"tool.completed\",\"seq\":5,\"node\":\"tool\",\"payload\":" ++
    "\x7b\"result\":\"ok\\n\\nid: 7\\r: x\"\x7d\x7d"

def noteCodec : JsonCodec where
  dumps _ := noteText
  loads text := if text = noteText then some noteRow.toSent.data else none

def noteRun : NewRun where
  id := sampleRun
  graphName := "notes"
  graphSnapshot := { name := "notes", nodes := [], edges := [] }
  modelDecision := []
  inputText := ""

def noteDatabase : Database :=
  { Database.empty.createRun noteRun "job1" 0 with events := [noteRow] }

def noteGenerator : Generator where
  stream :=
    { runId := sampleRun
      start := -1
      cursor := 5
      yielded := [noteRow] }
  idlePolls := 15
  sent := ["id: 5\nevent: tool.completed\ndata: " ++ noteText ++ "\n\n", ": keep-alive\n\n"]

/-- The event is delivered, and then the generator waits for fifteen polls. -/
theorem note_received :
    noteCodec.receive (": keep-alive\n\nid: 5\nevent: tool.completed\ndata: " ++ noteText ++
        "\n\n: keep-alive\n\n") = some [noteRow.toSent] ∧
    ∃ g, Reachable (generator .onEmpty noteCodec.dumps) anyStep g ∧
      g.sent = ["id: 5\nevent: tool.completed\ndata: " ++ noteText ++ "\n\n", ": keep-alive\n\n"] ∧
      noteCodec.receive g.output = some [noteRow.toSent] := by
  have lossless : noteCodec.Lossless noteRow.toSent.data := by
    have checked : noteText.toList.all (fun c => decide (¬ control c)) = true := by
      decide +kernel
    refine ⟨fun c member => ?_, by simp [noteCodec]⟩
    exact of_decide_eq_true (List.all_eq_true.mp checked c member)
  have read := streams_decodable noteCodec .onEmpty
  constructor
  · have received := read.1 [.keepAlive, .event noteRow.toSent, .keepAlive] (by
      simpa [StreamFrame.event?] using lossless)
    exact received
  · have reached : Reachable (generator .onEmpty noteCodec.dumps) anyStep noteGenerator :=
      ⟨_, List.replicate 32 (noteDatabase, .advance),
        ⟨noteDatabase, sampleRun, -1, none, rfl⟩, Run.of_replay rfl⟩
    exact ⟨_, reached, rfl, read.2 _ reached (by simpa [noteGenerator] using lossless)⟩

end Sample
end AgentRuntime
