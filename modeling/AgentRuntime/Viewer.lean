import AgentRuntime.Framing
import AgentRuntime.Reconnects

/-! The page that shows the events of a run. It reads the text of the stream as it arrives, loses
its connection at any character, comes back with the last id that it has read, and shows every
event once. -/
namespace AgentRuntime
open Machines Tables Logs

/-- `EVENT_TYPES` of the page. -/
def pageEventTypes : List String :=
  ["model.resolved", "run.started", "run.attempt_failed", "llm.requested", "llm.completed",
    "llm.failed", "llm.fallback", "llm.retrying", "node.started", "node.completed", "tool.started",
    "tool.completed", "rag.started", "rag.completed", "subagent.started", "subagent.completed",
    "approval.required", "checkpoint.created", "run.completed", "run.failed", "run.cancelled"]

/-- `data.type` where it is a text. Any other value raises in `appendEvent`. -/
def dataType : Json → Option String
  | .obj fields =>
      match Dict.get? fields "type" with
      | some (.str type) => some type
      | _ => none
  | _ => none

/-- An open connection: the generator on the other side, and how far its text has arrived. -/
structure Download where
  generator : Generator
  parser : EventStreams.Parser
  taken : Nat := 0

namespace Download

def text (download : Download) : List Char := download.generator.output.toList

/-- So many characters more arrive, or all there are. -/
def receive (download : Download) (count : Nat) : Download × List EventStreams.Message :=
  let part := (download.text.drop download.taken).take count
  let read := download.parser.feed part
  ({ download with parser := read.1, taken := download.taken + part.length }, read.2)

end Download

/-- An `EventSource`. Its parser takes the last id over from one connection to the next. -/
structure EventSource where
  lastId : String := ""
  connection : Option Download := none
  closed : Bool := false

structure Page where
  runId : RunId
  source : EventSource := {}
  track : List Json := []

inductive PageMove where
  | connectEvents
  | connect
  | generate (m : StreamMove)
  | receive (count : Nat)
  | lose

namespace Page

def connected (page : Page) (connection : Option Download) : Page :=
  { page with source := { page.source with connection := connection } }

/-- The listener `receive`. A text that is no JSON, or has no type, raises in the listener, and the
page keeps its track. -/
def listen (loads : String → Option Json) (page : Page) (m : EventStreams.Message) : Page :=
  match loads (String.ofList m.data) with
  | none => page
  | some data =>
      match dataType data with
      | none => page
      | some type =>
          { page with
            track := page.track ++ [data]
            source :=
              if ["run.completed", "run.failed", "run.cancelled"].contains type then
                { page.source with connection := none, closed := true }
              else page.source }

/-- The source dispatches a message to the listener of its type. -/
def dispatch (loads : String → Option Json) (page : Page) (m : EventStreams.Message) : Page :=
  if page.source.closed then page
  else
    let page := { page with source := { page.source with lastId := String.ofList m.id } }
    if pageEventTypes.contains (String.ofList m.event) then page.listen loads m else page

def move (codec : JsonCodec) (py : Builtins) (db : Database) (page : Page) :
    PageMove → Option Page
  | .connectEvents => some { page with source := {}, track := [] }
  | .connect =>
      match page.source.closed, page.source.connection with
      | false, none =>
          let header := if page.source.lastId = "" then none else some page.source.lastId
          (streamRunEvents py db page.runId (-1) header).map fun stream =>
            page.connected (some ⟨{ stream := stream }, .idle page.source.lastId.toList, 0⟩)
      | _, _ => none
  | .generate m =>
      match page.source.connection with
      | some download =>
          (download.generator.move codec.dumps db m).map fun generator =>
            page.connected (some { download with generator := generator })
      | none => none
  | .receive count =>
      match page.source.connection with
      | some download =>
          let read := download.receive count
          some (read.2.foldl (dispatch codec.loads) (page.connected (some read.1)))
      | none => none
  | .lose =>
      match page.source.connection with
      | some _ => some (page.connected none)
      | none => none

end Page

/-- The event log with its callers, the other tables, and one page. -/
structure Viewed where
  store : EventStore
  tables : Database
  page : Page

inductive ViewAction where
  | append (action : AppendAction)
  | tables (db : Database)
  | page (m : PageMove)

namespace Viewed

def db (s : Viewed) : Database := { s.tables with events := s.store.committed }

def step (c : AppendConfig) (codec : JsonCodec) (s : Viewed) : ViewAction → Option Viewed
  | .append action => ((appends c).step s.store action).map fun store => { s with store := store }
  | .tables db => some { s with tables := db }
  | .page m => (s.page.move codec c.py s.db m).map fun page => { s with page := page }

end Viewed

def viewed (c : AppendConfig) (codec : JsonCodec) : Machine Viewed ViewAction where
  init s := (appends c).init s.store ∧ ∃ id, s.page = { runId := id }
  step := Viewed.step c codec

/-- The page listens to every type of event but `llm.token`. -/
def EventRow.listed (row : EventRow) : Bool := row.type ≠ .llmToken

/-- What the page shows of an event: the object in the `data:` line of its frame. -/
def EventRow.data (row : EventRow) : Json := row.toSent.data

def EventRow.message (dumps : Json → String) (row : EventRow) : EventStreams.Message :=
  row.toSent.message dumps

/-- The page shows the given rows, which are the first ones of its run. -/
structure Page.Shows (db : Database) (page : Page) (rows : List EventRow) : Prop where
  stored : rows <+: after db.events page.runId (-1)
  track : page.track = (rows.filter EventRow.listed).map EventRow.data
  lastId : page.source.lastId = (rows.getLast?.map EventRow.eventId).getD ""
  closed : page.source.closed = true → page.source.connection = none ∧
    ∃ row, rows.getLast? = some row ∧ row.type.terminal = true

/-- What the connection has brought so far comes behind what the page has shown before. -/
structure Download.Brings (codec : JsonCodec) (db : Database) (runId : RunId)
    (rows : List EventRow) (download : Download) (earlier got : List EventRow) (lastId : String) :
    Prop where
  rows_eq : rows = earlier ++ got
  owner : download.generator.stream.runId = runId
  start : download.generator.stream.start = reached (-1) earlier
  tails : download.generator.stream.Tails db
  sends : download.generator.Sends codec.dumps
  within : download.taken ≤ download.text.length
  arrived : (EventStreams.Parser.idle lastId.toList).feed (download.text.take download.taken) =
    (download.parser, got.map (EventRow.message codec.dumps))
  yielded : got <+: download.generator.stream.yielded

/-- The page and its open connection keep to the log. -/
structure Page.Keeps (codec : JsonCodec) (db : Database) (page : Page) (rows : List EventRow) :
    Prop extends page.Shows db rows where
  connection : ∀ download, page.source.connection = some download →
    ∃ earlier got lastId, download.Brings codec db page.runId rows earlier got lastId

section Dispatch
variable {codec : JsonCodec} {db : Database} {page : Page} {rows new : List EventRow}
  {row : EventRow}

theorem message_id (row : EventRow) :
    String.ofList (row.message codec.dumps).id = row.eventId := by
  rw [EventRow.message, SentEvent.message, String.ofList_toList]
  rfl

theorem listens_iff (row : EventRow) :
    pageEventTypes.contains (String.ofList (row.message codec.dumps).event) = row.listed := by
  rw [EventRow.message, SentEvent.message, String.ofList_toList]
  cases type : row.type <;> simp [EventRow.listed, EventRow.toSent, type] <;> decide

theorem dataType_data (row : EventRow) : dataType row.data = some row.type.value := by
  simp [EventRow.data, SentEvent.data, sseData, dataType, EventRow.toSent]

theorem terminal_value (type : EventType) :
    ["run.completed", "run.failed", "run.cancelled"].contains type.value = type.terminal := by
  cases type <;> decide

theorem listen_message (lossless : codec.Lossless row.data) :
    page.listen codec.loads (row.message codec.dumps) =
      { page with
        track := page.track ++ [row.data]
        source :=
          if row.type.terminal then { page.source with connection := none, closed := true }
          else page.source } := by
  have read : codec.loads (String.ofList (row.message codec.dumps).data) = some row.data := by
    rw [EventRow.message, SentEvent.message, String.ofList_toList]
    exact lossless.inverts
  simp only [Page.listen, read, dataType_data, terminal_value]

theorem dispatch_message (open' : page.source.closed = false) (lossless : codec.Lossless row.data) :
    page.dispatch codec.loads (row.message codec.dumps) =
      { page with
        track := page.track ++ ([row].filter EventRow.listed).map EventRow.data
        source :=
          { lastId := row.eventId
            connection := if row.type.terminal then none else page.source.connection
            closed := row.type.terminal } } := by
  have last : row.type.terminal = true → row.listed = true := by
    intro ends
    cases type : row.type <;> simp_all [EventRow.listed, EventType.terminal]
  rw [Page.dispatch, if_neg (by simp [open']), listens_iff, message_id]
  cases listed : row.listed with
  | true =>
      rw [if_pos rfl, listen_message lossless]
      cases ends : row.type.terminal <;> simp [listed, open']
  | false =>
      have silent : row.type.terminal = false := by
        cases ends : row.type.terminal with
        | false => rfl
        | true => exact absurd (last ends) (by simp [listed])
      simp [listed, silent, open']

/-- The page shows one event more, and closes its source behind a terminal one. -/
theorem Page.Shows.dispatch (shows' : page.Shows db rows) (open' : page.source.closed = false)
    (next : rows ++ [row] <+: after db.events page.runId (-1))
    (lossless : codec.Lossless row.data) :
    (page.dispatch codec.loads (row.message codec.dumps)).Shows db (rows ++ [row]) := by
  rw [dispatch_message open' lossless]
  refine ⟨next, ?_, by simp, fun ends => ?_⟩
  · rw [List.filter_append, List.map_append, shows'.track]
  · have ends : row.type.terminal = true := ends
    exact ⟨by simp [ends], row, by simp, ends⟩

theorem Page.closed_dispatch (closed : page.source.closed = true) (m : EventStreams.Message) :
    page.dispatch codec.loads m = page := by
  rw [Page.dispatch, if_pos closed]

/-- Of the messages that arrive the page shows the first ones, up to a terminal event. -/
theorem Page.Shows.dispatchAll (shows' : page.Shows db rows) (open' : page.source.closed = false)
    (next : rows ++ new <+: after db.events page.runId (-1))
    (lossless : ∀ row ∈ new, codec.Lossless row.data) :
    let page' := (new.map (EventRow.message codec.dumps)).foldl (Page.dispatch codec.loads) page
    page'.runId = page.runId ∧
      ((∃ shown, shown <+: new ∧ page'.Shows db (rows ++ shown) ∧
          page'.source.closed = true) ∨
        page'.Shows db (rows ++ new) ∧ page'.source.closed = false ∧
          page'.source.connection = page.source.connection) := by
  induction new generalizing page rows with
  | nil => exact ⟨rfl, .inr ⟨by rwa [List.append_nil], open', rfl⟩⟩
  | cons row new ih =>
      obtain ⟨first, later⟩ := List.forall_mem_cons.mp lossless
      have split : rows ++ row :: new = rows ++ [row] ++ new := by simp
      rw [split] at next
      have one := shows'.dispatch open' ((List.prefix_append _ _).trans next) first
      rw [List.map_cons, List.foldl_cons]
      cases ends : row.type.terminal with
      | true =>
          have closed : (page.dispatch codec.loads (row.message codec.dumps)).source.closed =
              true := by
            rw [dispatch_message open' first]
            exact ends
          have rest (messages : List EventStreams.Message) :
              messages.foldl (Page.dispatch codec.loads)
                (page.dispatch codec.loads (row.message codec.dumps)) =
              page.dispatch codec.loads (row.message codec.dumps) := by
            induction messages with
            | nil => rfl
            | cons m messages same => rw [List.foldl_cons, closed_dispatch closed, same]
          rw [rest]
          refine ⟨?_, .inl ⟨[row], ⟨new, rfl⟩, one, closed⟩⟩
          rw [dispatch_message open' first]
      | false =>
          have kept : (page.dispatch codec.loads (row.message codec.dumps)).source.closed = false ∧
              (page.dispatch codec.loads (row.message codec.dumps)).source.connection =
                page.source.connection ∧
              (page.dispatch codec.loads (row.message codec.dumps)).runId = page.runId := by
            rw [dispatch_message open' first]
            exact ⟨ends, by simp [ends], rfl⟩
          obtain ⟨same, outcome⟩ := ih one kept.1 (kept.2.2 ▸ next) later
          refine ⟨same.trans kept.2.2, ?_⟩
          rcases outcome with ⟨shown, among, after', closed⟩ | ⟨after', closed, connection⟩
          · refine .inl ⟨row :: shown, ?_, ?_, closed⟩
            · exact List.cons_prefix_cons.mpr ⟨rfl, among⟩
            · simpa using after'
          · exact .inr ⟨by rwa [split], closed, connection.trans kept.2.1⟩

end Dispatch

namespace Generator
variable {dumps : Json → String} {db : Database} {g next : Generator} {m : StreamMove}

theorem move_stream (moved : g.move dumps db m = some next) :
    g.stream.move db m = some next.stream := by
  obtain ⟨stream, advanced, rfl⟩ := Option.map_eq_some_iff.mp moved
  rw [advanced]
  dsimp only
  split <;> rfl

/-- What the generator has sent and yielded stays. -/
theorem move_grows (moved : g.move dumps db m = some next) :
    g.sent <+: next.sent ∧ g.stream.yielded <+: next.stream.yielded := by
  rcases move_cases moved with ⟨event, sent, yielded⟩ | ⟨yielded, sent | sent⟩
  · rw [sent, yielded]
    exact ⟨List.prefix_append _ _, List.prefix_append _ _⟩
  · rw [sent, yielded]
    exact ⟨List.prefix_rfl, List.prefix_rfl⟩
  · rw [sent, yielded]
    exact ⟨List.prefix_append _ _, List.prefix_rfl⟩

theorem output_grows (moved : g.move dumps db m = some next) :
    g.output.toList <+: next.output.toList := by
  obtain ⟨more, same⟩ := (move_grows moved).1
  rw [output, output, ← same, String.join_append, String.toList_append]
  exact List.prefix_append _ _

end Generator

namespace Download
variable {codec : JsonCodec} {db db' : Database} {runId : RunId} {download : Download}
  {rows earlier got : List EventRow} {lastId : String}

theorem Brings.grow (brings : download.Brings codec db runId rows earlier got lastId)
    (grown : db.events <+: db'.events) :
    download.Brings codec db' runId rows earlier got lastId :=
  { brings with tails := brings.tails.grow grown }

theorem Brings.generate (brings : download.Brings codec db runId rows earlier got lastId)
    (sequential : Sequential db.events) {m : StreamMove} {generator : Generator}
    (moved : download.generator.move codec.dumps db m = some generator) :
    Brings codec db runId rows { download with generator := generator } earlier got lastId := by
  have stream := Generator.move_stream moved
  have output := Generator.output_grows moved
  obtain ⟨sameId, sameStart⟩ := Stream.move_keeps stream
  refine ⟨brings.rows_eq, sameId.trans brings.owner, sameStart.trans brings.start,
    brings.tails.move sequential stream, brings.sends.move moved,
    brings.within.trans output.length_le, ?_,
    brings.yielded.trans (Generator.move_grows moved).2⟩
  obtain ⟨more, grown⟩ := output
  have same : (Download.text { download with generator := generator }).take download.taken =
      download.text.take download.taken := by
    rw [Download.text, ← grown]
    exact List.take_append_of_le_length brings.within
  exact (congrArg _ same).trans brings.arrived

theorem plain_sent {frames : List StreamFrame} {yielded : List EventRow}
    (events : frames.filterMap StreamFrame.event? = yielded.map EventRow.toSent)
    (lossless : ∀ row ∈ yielded, codec.Lossless row.data) :
    ∀ frame ∈ frames.map (StreamFrame.toFrame codec.dumps), frame.Plain := by
  refine plain_toFrame ?_
  rw [events]
  intro event member
  obtain ⟨row, among, rfl⟩ := List.mem_map.mp member
  exact lossless row among

/-- The text that has arrived brings the first of the events that were sent. -/
theorem messages_prefix {text : List Char} (sends : download.generator.Sends codec.dumps)
    (lossless : ∀ row ∈ download.generator.stream.yielded, codec.Lossless row.data)
    (inside : text <+: download.text) (lastId : String) :
    ((EventStreams.Parser.idle lastId.toList).feed text).2 <+:
      download.generator.stream.yielded.map (EventRow.message codec.dumps) := by
  obtain ⟨frames, sent, events⟩ := sends
  rw [Download.text, Generator.output, sent, toList_join] at inside
  have brought := EventStreams.feed_prefix lastId.toList (plain_sent events lossless) inside
  rw [messages_toFrame, events, List.map_map] at brought
  exact brought

/-- What arrives next are the messages of the events that come next. -/
theorem Brings.receive (brings : download.Brings codec db runId rows earlier got lastId)
    (lossless : ∀ row ∈ download.generator.stream.yielded, codec.Lossless row.data) (count : Nat) :
    ∃ new, (download.receive count).2 = new.map (EventRow.message codec.dumps) ∧
      (download.receive count).1.Brings codec db runId (rows ++ new) earlier (got ++ new)
        lastId := by
  let part := (download.text.drop download.taken).take count
  let read := download.parser.feed part
  have whole : download.text.take (download.taken + part.length) =
      download.text.take download.taken ++ part := by
    rw [List.take_add, List.append_cancel_left_eq, List.length_take]
    exact List.take_eq_take_min.symm
  have fed : (EventStreams.Parser.idle lastId.toList).feed
      (download.text.take (download.taken + part.length)) =
        (read.1, got.map (EventRow.message codec.dumps) ++ read.2) := by
    rw [whole, EventStreams.Parser.feed_cons brings.arrived]
  have brought := messages_prefix brings.sends lossless
    (List.take_prefix (download.taken + part.length) _) lastId
  rw [fed] at brought
  obtain ⟨shown, among, same⟩ := List.prefix_map_iff.mp brought
  obtain ⟨first, new, rfl, old, next⟩ := List.append_eq_map_iff.mp same
  have both : first = got := by
    have size : first.length = got.length := by
      simpa using congrArg List.length old
    have start : first <+: download.generator.stream.yielded :=
      (List.prefix_append _ _).trans among
    exact (List.prefix_of_prefix_length_le start brings.yielded size.le).eq_of_length size
  subst both
  refine ⟨new, next.symm, ?_, brings.owner, brings.start, brings.tails, brings.sends, ?_, ?_,
    among⟩
  · rw [brings.rows_eq, List.append_assoc]
  · have short : part.length ≤ download.text.length - download.taken := by
      rw [List.length_take, List.length_drop]
      exact Nat.min_le_right _ _
    have within := brings.within
    have fits : download.taken + part.length ≤ download.text.length := by omega
    exact fits
  · rw [List.map_append, next]
    exact fed

theorem Brings.yielded_stored (brings : download.Brings codec db runId rows earlier got lastId)
    {row : EventRow} (member : row ∈ download.generator.stream.yielded) : row ∈ db.events :=
  (mem_after.mp (brings.tails.follows.handed.subset member)).1

/-- What has been shown before and over the connection are the first events of the run. -/
theorem Brings.stored (brings : download.Brings codec db runId rows earlier got lastId)
    (sequential : Sequential db.events) (before : earlier <+: after db.events runId (-1)) :
    rows <+: after db.events runId (-1) := by
  have behind := brings.yielded.trans brings.tails.follows.handed
  rw [brings.owner, brings.start] at behind
  rw [sequential.after_reached before, brings.rows_eq, List.prefix_append_right_inj]
  exact behind

/-- Where all text has arrived, the cursor of the generator stands at the last event shown. -/
theorem Brings.cursor_eq (brings : download.Brings codec db runId rows earlier got lastId)
    (lossless : ∀ row ∈ download.generator.stream.yielded, codec.Lossless row.data)
    (arrived : download.taken = download.text.length) :
    download.generator.stream.cursor = reached (-1) rows := by
  obtain ⟨frames, sent, events⟩ := brings.sends
  have plain := plain_sent events lossless
  have whole := EventStreams.feed_frames lastId.toList plain
  rw [← toList_join, ← sent, messages_toFrame, events, List.map_map] at whole
  have fed := brings.arrived
  rw [arrived, List.take_length] at fed
  have all : got.map (EventRow.message codec.dumps) =
      download.generator.stream.yielded.map (EventRow.message codec.dumps) :=
    (congrArg Prod.snd fed).symm.trans whole
  have same := brings.yielded.eq_of_length (by simpa using congrArg List.length all)
  rw [brings.tails.follows.cursor_eq, brings.start, brings.rows_eq, same, reached_append]

end Download

namespace Page
variable {codec : JsonCodec} {py : Builtins} {db db' : Database} {page next : Page}
  {rows : List EventRow} {m : PageMove}

theorem Keeps.grow (keeps : page.Keeps codec db rows) (grown : db.events <+: db'.events) :
    page.Keeps codec db' rows where
  stored := keeps.stored.trans (after_growing grown)
  track := keeps.track
  lastId := keeps.lastId
  closed := keeps.closed
  connection download found := by
    obtain ⟨earlier, got, lastId, brings⟩ := keeps.connection download found
    exact ⟨earlier, got, lastId, brings.grow grown⟩

theorem Shows.connected (shows' : page.Shows db rows) (open' : page.source.closed = false)
    (connection : Option Download) : (page.connected connection).Shows db rows :=
  ⟨shows'.stored, shows'.track, shows'.lastId, fun ends => by
    rw [show (page.connected connection).source.closed = page.source.closed from rfl, open'] at ends
    contradiction⟩

/-- A closed source has no connection. -/
theorem Shows.open_of_connection (shows' : page.Shows db rows) {download : Download}
    (found : page.source.connection = some download) : page.source.closed = false := by
  by_contra closed
  have none := (shows'.closed (Bool.not_eq_false _ ▸ closed)).1
  rw [found] at none
  contradiction

/-- A connection starts behind the last event that the page has read. -/
theorem startCursor_lastId (shows' : page.Shows db rows) :
    startCursor py (-1) (if page.source.lastId = "" then none else some page.source.lastId) =
      reached (-1) rows := by
  rw [shows'.lastId]
  cases last : rows.getLast? with
  | none => simp [startCursor, reached, last]
  | some row => simp [startCursor, reached, last, EventRow.eventId, py.parseInt_repr]

theorem Keeps.move (keeps : page.Keeps codec db rows) (sequential : Sequential db.events)
    (lossless : ∀ row ∈ db.events, codec.Lossless row.data)
    (moved : page.move codec py db m = some next) :
    next.runId = page.runId ∧ ∃ rows', next.Keeps codec db rows' := by
  cases m with
  | connectEvents =>
      cases moved
      refine ⟨rfl, [], ⟨⟨List.nil_prefix, rfl, rfl, fun closed => by contradiction⟩,
        fun _ found => by contradiction⟩⟩
  | connect =>
      simp only [Page.move] at moved
      split at moved
      next open' closed =>
        obtain ⟨stream, opened, rfl⟩ := Option.map_eq_some_iff.mp moved
        have tails := Stream.Tails.opened opened
        simp only [streamRunEvents, Option.ite_none_right_eq_some, Option.some.injEq] at opened
        obtain ⟨_, rfl⟩ := opened
        refine ⟨rfl, rows, keeps.toShows.connected open' _, fun download found => ?_⟩
        cases found
        exact ⟨rows, [], page.source.lastId, (List.append_nil _).symm, rfl,
          startCursor_lastId keeps.toShows, tails, ⟨[], rfl, rfl⟩, Nat.zero_le _, rfl,
          List.nil_prefix⟩
      next => contradiction
  | generate m =>
      simp only [Page.move] at moved
      split at moved
      next download found =>
        obtain ⟨generator, generated, rfl⟩ := Option.map_eq_some_iff.mp moved
        obtain ⟨earlier, got, lastId, brings⟩ := keeps.connection download found
        refine ⟨rfl, rows, keeps.toShows.connected (keeps.toShows.open_of_connection found) _,
          fun after found' => ?_⟩
        cases found'
        exact ⟨earlier, got, lastId, brings.generate sequential generated⟩
      next => contradiction
  | receive count =>
      simp only [Page.move] at moved
      split at moved
      next download found =>
        obtain ⟨earlier, got, lastId, brings⟩ := keeps.connection download found
        obtain ⟨new, read, brought⟩ := brings.receive
          (fun row member => lossless row (brings.yielded_stored member)) count
        have open' := keeps.toShows.open_of_connection found
        have before : earlier <+: after db.events page.runId (-1) :=
          (brings.rows_eq ▸ List.prefix_append _ _).trans keeps.stored
        have stored := brought.stored sequential before
        rw [read] at moved
        have shows' := keeps.toShows.connected open' (some (download.receive count).1)
        obtain ⟨same, outcome⟩ := shows'.dispatchAll open' stored
          fun row member => lossless row
            (brought.yielded_stored (brought.yielded.subset (List.mem_append_right _ member)))
        rw [← Option.some.inj moved]
        refine ⟨same, ?_⟩
        rcases outcome with ⟨shown, _, after', ends⟩ | ⟨after', _, connection⟩
        · refine ⟨_, after', fun other found' => ?_⟩
          rw [(after'.closed ends).1] at found'
          contradiction
        · refine ⟨_, after', fun other found' => ?_⟩
          rw [connection] at found'
          cases found'
          exact ⟨earlier, got ++ new, lastId, same ▸ brought⟩
      next => contradiction
  | lose =>
      simp only [Page.move] at moved
      split at moved
      next =>
        cases moved
        exact ⟨rfl, rows, ⟨⟨keeps.stored, keeps.track, keeps.lastId,
          fun ends => ⟨rfl, (keeps.closed ends).2⟩⟩, fun _ found => by contradiction⟩⟩
      next => contradiction

end Page

structure Viewed.Kept (c : AppendConfig) (codec : JsonCodec) (s : Viewed) : Prop where
  serial : s.store.Serial c
  page : (∀ row ∈ s.store.committed, codec.Lossless row.data) →
    ∃ rows, s.page.Keeps codec s.db rows

theorem Viewed.kept_inductive (c : AppendConfig) (codec : JsonCodec) :
    Inductive (viewed c codec) anyStep (Viewed.Kept c codec) where
  init s first := by
    obtain ⟨start, id, fresh⟩ := first
    refine ⟨(EventStore.serial_inductive c).init _ start, fun _ => ⟨[], ?_⟩⟩
    rw [fresh]
    exact ⟨⟨List.nil_prefix, rfl, rfl, fun closed => by contradiction⟩,
      fun _ found => by contradiction⟩
  step s action t kept _ stepped := by
    cases action with
    | append action =>
        obtain ⟨store, moved, rfl⟩ := Option.map_eq_some_iff.mp stepped
        have step := EventStore.step_sound moved
        have grown : s.store.committed <+: store.committed := kept.serial.grows step
        refine ⟨kept.serial.step step, fun lossless => ?_⟩
        obtain ⟨rows, keeps⟩ := kept.page fun row member => lossless row (grown.subset member)
        exact ⟨rows, keeps.grow grown⟩
    | tables db =>
        cases stepped
        refine ⟨kept.serial, fun lossless => ?_⟩
        obtain ⟨rows, keeps⟩ := kept.page lossless
        exact ⟨rows, keeps.grow List.prefix_rfl⟩
    | page m =>
        obtain ⟨page, moved, rfl⟩ := Option.map_eq_some_iff.mp stepped
        refine ⟨kept.serial, fun lossless => ?_⟩
        obtain ⟨rows, keeps⟩ := kept.page lossless
        exact (keeps.move kept.serial.sequential lossless moved).2

/-- All text of the connection has arrived, and the log has no event behind its cursor. -/
def Viewed.caughtUp (s : Viewed) : Prop :=
  ∃ download, s.page.source.connection = some download ∧
    download.taken = download.text.length ∧
    s.db.listAfter s.page.runId download.generator.stream.cursor = []

theorem after_all (log : List EventRow) (id : RunId) :
    after log id (-1) = log.filter fun row => row.runId = id := by
  refine List.filter_congr fun row _ => ?_
  simp only [owner_event, number_event, Bool.and_eq_left_iff_imp, decide_eq_true_eq]
  omega

/-- The page shows the events of its run as the log has them: the first ones, in their order, each
once, but for the types that it does not listen to. That holds however often the connection is
lost, and wherever the text is cut. It stops behind a terminal event only, and where it has caught
up it shows all events. -/
theorem page_shows_log (c : AppendConfig) (codec : JsonCodec) {s : Viewed}
    (reached' : Reachable (viewed c codec) anyStep s)
    (lossless : ∀ row ∈ s.store.committed, codec.Lossless row.data) :
    let events := s.store.committed.filter fun row => row.runId = s.page.runId
    ∃ rows, rows <+: events ∧
      s.page.track = (rows.filter EventRow.listed).map EventRow.data ∧
      (s.page.source.closed = true → ∃ row, rows.getLast? = some row ∧ row.type.terminal = true) ∧
      (s.caughtUp → rows = events) := by
  intro events
  have kept := (Viewed.kept_inductive c codec).reachable reached'
  obtain ⟨rows, keeps⟩ := kept.page lossless
  have all : after s.db.events s.page.runId (-1) = events := after_all _ _
  refine ⟨rows, all ▸ keeps.stored, keeps.track, fun closed => (keeps.closed closed).2, ?_⟩
  rintro ⟨download, found, arrived, none⟩
  obtain ⟨earlier, got, lastId, brings⟩ := keeps.connection download found
  have sequential : Sequential s.db.events := kept.serial.sequential
  have last := brings.cursor_eq (fun row member => lossless row (brings.yielded_stored member))
    arrived
  rw [Database.listAfter_eq sequential, last] at none
  rw [← all, sequential.after_reached keeps.stored, none, List.append_nil]

section Sample

def startedText : String :=
  "\x7b\"type\":\"run.started\",\"seq\":0,\"node\":null,\"payload\":\x7b\x7d\x7d"

def completedText : String :=
  "\x7b\"type\":\"run.completed\",\"seq\":1,\"node\":null,\"payload\":\x7b\x7d\x7d"

def startedRow : EventRow := ⟨0, sampleRun, .runStarted, none, []⟩

def completedRow : EventRow := ⟨1, sampleRun, .runCompleted, none, []⟩

/-- `json.dumps` and `JSON.parse` on the data of the two events. -/
def pageCodec : JsonCodec where
  dumps value := if dataType value = some "run.started" then startedText else completedText
  loads text :=
    if text = startedText then some startedRow.data
    else if text = completedText then some completedRow.data
    else none

def sampleMoves : List PageMove :=
  [.connect, .generate .advance, .generate .advance, .generate .advance, .receive 130, .lose,
    .connect, .generate .advance, .generate .advance, .receive 1000]

/-- Two events are stored and sent. The page loses its connection within the second frame, and comes
back for it. -/
def sampleView : List ViewAction :=
  .tables (Database.empty.createRun
      ⟨sampleRun, "support", ⟨"support", [], [], "START", "END"⟩, [], "hello"⟩ "job" 0) ::
    (.call sampleRun [sampleEvent .runStarted, sampleEvent .runCompleted] ::
      List.replicate 5 (.advance 0)).map ViewAction.append ++ sampleMoves.map ViewAction.page

def sampleViewed : Viewed := ⟨⟨[], []⟩, .empty, { runId := sampleRun }⟩

theorem pageCodec_lossless {row : EventRow}
    (among : (row.seq, row.type, row.node, row.payload.isEmpty) ∈
      [(0, EventType.runStarted, none, true), (1, EventType.runCompleted, none, true)]) :
    pageCodec.Lossless row.data := by
  have started : startedText.toList.all (fun c => decide (¬ control c)) = true := by
    decide +kernel
  have completed : completedText.toList.all (fun c => decide (¬ control c)) = true := by
    decide +kernel
  have apart : completedText ≠ startedText := by decide +kernel
  have read : pageCodec.loads completedText = some completedRow.data := by simp [pageCodec, apart]
  obtain ⟨seq, id, type, node, payload⟩ := row
  simp only [List.mem_cons, Prod.mk.injEq, List.isEmpty_iff, List.not_mem_nil, or_false] at among
  rcases among with ⟨rfl, rfl, rfl, rfl⟩ | ⟨rfl, rfl, rfl, rfl⟩
  · exact ⟨fun c member => of_decide_eq_true (List.all_eq_true.mp started c member), rfl⟩
  · exact ⟨fun c member => of_decide_eq_true (List.all_eq_true.mp completed c member), read⟩

theorem cut_event_shown : ∃ s : Viewed,
    s.page.track.map dataType = [some "run.started", some "run.completed"] ∧
    ∃ rows, rows <+: s.store.committed.filter (fun row => row.runId = s.page.runId) ∧
      s.page.track = (rows.filter EventRow.listed).map EventRow.data ∧
      ∃ row, rows.getLast? = some row ∧ row.type.terminal = true := by
  obtain ⟨s, run, shown, closed, stored⟩ := Run.of_test (M := viewed sampleAppends pageCodec)
    sampleViewed sampleView
    (fun s => s.page.track.map dataType = [some "run.started", some "run.completed"] ∧
      s.page.source.closed = true ∧
      s.store.committed.map (fun row => (row.seq, row.type, row.node, row.payload.isEmpty)) =
        [(0, .runStarted, none, true), (1, .runCompleted, none, true)]) (by decide +kernel)
  have lossless : ∀ row ∈ s.store.committed, pageCodec.Lossless row.data := by
    intro row member
    refine pageCodec_lossless ?_
    rw [← stored]
    exact List.mem_map_of_mem member
  obtain ⟨rows, first, track, ends, _⟩ :=
    page_shows_log sampleAppends pageCodec
      ⟨sampleViewed, sampleView, ⟨rfl, sampleRun, rfl⟩, run⟩ lossless
  exact ⟨s, shown, rows, first, track, ends closed⟩

end Sample
end AgentRuntime
