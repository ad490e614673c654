import AgentRuntime.Frames
import AgentRuntime.Timeline

/-! Redaction. What is stored of an event does not depend on the values under its sensitive keys,
and nothing else of it is changed. -/
namespace AgentRuntime
open Machines Logs

def sensitive (py : Builtins) (key : String) : Bool := sensitiveKeys.contains (py.lower key)

namespace Json

mutual

/-- The values have one shape, and they differ in nothing but what stands under sensitive keys. -/
inductive Alike (py : Builtins) : Json → Json → Prop
  | same (value) : Alike py value value
  | arr {items items'} : AlikeItems py items items' → Alike py (.arr items) (.arr items')
  | obj {fields fields'} : AlikeFields py fields fields' → Alike py (.obj fields) (.obj fields')

inductive AlikeItems (py : Builtins) : List Json → List Json → Prop
  | nil : AlikeItems py [] []
  | cons {item item' items items'} : Alike py item item' → AlikeItems py items items' →
      AlikeItems py (item :: items) (item' :: items')

inductive AlikeFields (py : Builtins) : Dict → Dict → Prop
  | nil : AlikeFields py [] []
  | secret {key item item' fields fields'} : sensitive py key = true →
      AlikeFields py fields fields' →
      AlikeFields py ((key, item) :: fields) ((key, item') :: fields')
  | shown {key item item' fields fields'} : Alike py item item' → AlikeFields py fields fields' →
      AlikeFields py ((key, item) :: fields) ((key, item') :: fields')

end

mutual

/-- The keys of a value, at any depth. -/
def keys : Json → List String
  | .obj fields => keysOfFields fields
  | .arr items => keysOfItems items
  | _ => []

def keysOfFields : List (String × Json) → List String
  | [] => []
  | (key, item) :: rest => key :: (item.keys ++ keysOfFields rest)

def keysOfItems : List Json → List String
  | [] => []
  | item :: rest => item.keys ++ keysOfItems rest

end

/-- A step into a value. -/
inductive Step where
  | key (name : String)
  | index (position : Nat)

def child? : Json → Step → Option Json
  | .obj fields, .key name => Dict.get? fields name
  | .arr items, .index position => items[position]?
  | _, _ => none

def at? (value : Json) : List Step → Option Json
  | [] => some value
  | step :: path => (value.child? step).bind fun child => child.at? path

end Json

section Redact
variable {py : Builtins}

theorem redactFields_cons (key : String) (item : Json) (rest : Dict) :
    redactFields py ((key, item) :: rest) =
      (key, if sensitive py key then .str "***" else redact py item) :: redactFields py rest := rfl

mutual

/-- What is redacted of two such values is the same. -/
theorem redact_alike : ∀ {value other : Json}, value.Alike py other →
    redact py value = redact py other
  | _, _, .same _ => rfl
  | _, _, .arr items => by rw [redact, redact, redactItems_alike items]
  | _, _, .obj fields => by rw [redact, redact, redactFields_alike fields]

theorem redactItems_alike : ∀ {items others : List Json}, Json.AlikeItems py items others →
    redactItems py items = redactItems py others
  | _, _, .nil => rfl
  | _, _, .cons item items => by
      rw [redactItems, redactItems, redact_alike item, redactItems_alike items]

theorem redactFields_alike : ∀ {fields others : Dict}, Json.AlikeFields py fields others →
    redactFields py fields = redactFields py others
  | _, _, .nil => rfl
  | _, _, .secret masked fields => by
      rw [redactFields_cons, redactFields_cons, redactFields_alike fields, if_pos masked,
        if_pos masked]
  | _, _, .shown item fields => by
      rw [redactFields_cons, redactFields_cons, redactFields_alike fields, redact_alike item]

end

mutual

/-- A redacted value differs from the value in nothing else. -/
theorem redacted_alike : ∀ value : Json, (redact py value).Alike py value
  | .obj fields => by
      rw [redact]
      exact .obj (redactedFields_alike fields)
  | .arr items => by
      rw [redact]
      exact .arr (redactedItems_alike items)
  | .null | .bool _ | .int _ | .float _ _ | .str _ => .same _

theorem redactedItems_alike : ∀ items : List Json,
    Json.AlikeItems py (redactItems py items) items
  | [] => .nil
  | item :: rest => .cons (redacted_alike item) (redactedItems_alike rest)

theorem redactedFields_alike : ∀ fields : List (String × Json),
    Json.AlikeFields py (redactFields py fields) fields
  | [] => .nil
  | (key, item) :: rest => by
      rw [redactFields_cons]
      cases masked : sensitive py key with
      | true => exact .secret masked (redactedFields_alike rest)
      | false => exact .shown (redacted_alike item) (redactedFields_alike rest)

end

theorem redactFields_redactFields (fields : Dict) :
    redactFields py (redactFields py fields) = redactFields py fields :=
  redactFields_alike (redactedFields_alike fields)

mutual

theorem redact_of_keys : ∀ {value : Json}, (∀ key ∈ value.keys, sensitive py key = false) →
    redact py value = value
  | .obj fields, plain => by
      rw [redact, redactFields_of_keys plain]
  | .arr items, plain => by
      rw [redact, redactItems_of_keys plain]
  | .null, _ | .bool _, _ | .int _, _ | .float _ _, _ | .str _, _ => rfl

theorem redactItems_of_keys : ∀ {items : List Json},
    (∀ key ∈ Json.keysOfItems items, sensitive py key = false) → redactItems py items = items
  | [], _ => rfl
  | item :: rest, plain => by
      rw [Json.keysOfItems, List.forall_mem_append] at plain
      rw [redactItems, redact_of_keys plain.1, redactItems_of_keys plain.2]

theorem redactFields_of_keys : ∀ {fields : List (String × Json)},
    (∀ key ∈ Json.keysOfFields fields, sensitive py key = false) →
      redactFields py fields = fields
  | [], _ => rfl
  | (key, item) :: rest, plain => by
      rw [Json.keysOfFields, List.forall_mem_cons, List.forall_mem_append] at plain
      obtain ⟨own, inner, later⟩ := plain
      rw [redactFields_cons, own, redact_of_keys inner, redactFields_of_keys later]
      rfl

end

variable (py) in
theorem get?_redactFields (fields : Dict) (key : String) :
    Dict.get? (redactFields py fields) key = (Dict.get? fields key).map fun item =>
      if sensitive py key then .str "***" else redact py item := by
  induction fields with
  | nil => rfl
  | cons field rest ih =>
      obtain ⟨own, item⟩ := field
      rw [redactFields_cons, Dict.get?_cons, Dict.get?_cons, ih]
      by_cases same : own = key
      · rw [if_pos same, if_pos same, same]
        rfl
      · rw [if_neg same, if_neg same]

theorem redactItems_eq_map (items : List Json) : redactItems py items = items.map (redact py) := by
  induction items with
  | nil => rfl
  | cons item rest ih => rw [redactItems, ih, List.map_cons]

theorem Json.at?_append (value : Json) (path more : List Json.Step) :
    value.at? (path ++ more) = (value.at? path).bind fun inner => inner.at? more := by
  induction path generalizing value with
  | nil => rfl
  | cons step path ih =>
      rw [List.cons_append, at?, at?, Option.bind_assoc]
      exact congrArg _ (funext fun child => ih child)

/-- No key of the path is sensitive. -/
def Shown (py : Builtins) (path : List Json.Step) : Prop :=
  ∀ key, .key key ∈ path → sensitive py key = false

theorem child?_redact {step : Json.Step} (shown : Shown py [step]) (value : Json) :
    (redact py value).child? step = (value.child? step).map (redact py) := by
  cases step with
  | key name =>
      have plain := shown name List.mem_cons_self
      cases value with
      | obj fields =>
          have found := get?_redactFields py fields name
          rw [plain] at found
          exact found
      | _ => rfl
  | index position =>
      cases value with
      | arr items =>
          rw [redact, Json.child?, redactItems_eq_map, List.getElem?_map]
          rfl
      | _ => rfl

/-- Outside the sensitive keys the stored value has the same places. -/
theorem at?_redact {path : List Json.Step} (shown : Shown py path) (value : Json) :
    (redact py value).at? path = (value.at? path).map (redact py) := by
  induction path generalizing value with
  | nil => rfl
  | cons step path ih =>
      have first : Shown py [step] := fun key member =>
        shown key (List.mem_append_left path member)
      have rest : Shown py path := fun key member =>
        shown key (List.mem_cons_of_mem _ member)
      rw [Json.at?, Json.at?, child?_redact first]
      cases value.child? step with
      | none => rfl
      | some child => exact ih rest child

/-- The value under a sensitive key is stored as a mask. -/
theorem at?_masked {path : List Json.Step} (shown : Shown py path) {key : String}
    (masked : sensitive py key = true) (value : Json) :
    (redact py value).at? (path ++ [.key key]) =
      (value.at? (path ++ [.key key])).map fun _ => .str "***" := by
  rw [Json.at?_append, Json.at?_append, at?_redact shown]
  cases value.at? path with
  | none => rfl
  | some inner =>
      cases inner with
      | obj fields =>
          have found := get?_redactFields py fields key
          rw [masked] at found
          simpa [Json.at?, Json.child?, redact] using found
      | _ => rfl

/-- What becomes of a payload: it differs from the payload in nothing but what stands under
sensitive keys, which is masked; it has the same value wherever no sensitive key leads to it or
stands in it; and it is not changed by another redaction. -/
structure Redacted (py : Builtins) (payload stored : Dict) : Prop where
  alike : Json.AlikeFields py stored payload
  kept : ∀ path, Shown py path →
    (Json.obj stored).at? path = ((Json.obj payload).at? path).map (redact py)
  unchanged : ∀ path, Shown py path → ∀ value, (Json.obj payload).at? path = some value →
    (∀ key ∈ value.keys, sensitive py key = false) → (Json.obj stored).at? path = some value
  masked : ∀ path, Shown py path → ∀ key, sensitive py key = true →
    (Json.obj stored).at? (path ++ [.key key]) =
      ((Json.obj payload).at? (path ++ [.key key])).map fun _ => .str "***"
  again : redactFields py stored = stored

theorem redactFields_redacted (payload : Dict) : Redacted py payload (redactFields py payload) where
  alike := redactedFields_alike payload
  kept _ shown := at?_redact shown (.obj payload)
  unchanged path shown value found plain := by
    have stored := at?_redact shown (.obj payload)
    rwa [found, Option.map_some, redact_of_keys plain] at stored
  masked _ shown _ masked := at?_masked shown masked (.obj payload)
  again := redactFields_redactFields payload

end Redact

/-- The events differ in nothing but the secrets of their payloads. The run is the one that
`append_many` is called for. -/
structure RuntimeEvent.Alike (py : Builtins) (event event' : RuntimeEvent) : Prop where
  type : event.type = event'.type
  node : event.node = event'.node
  payload : Json.AlikeFields py event.payload event'.payload

inductive Tx.Alike (py : Builtins) : Tx → Tx → Prop
  | same (tx) : Tx.Alike py tx tx
  | appendMany {id events events'} : List.Forall₂ (RuntimeEvent.Alike py) events events' →
      Tx.Alike py (.appendMany id events) (.appendMany id events')

section Stores
variable {py : Builtins} {db : Database}

theorem eventRows_alike {id : RunId} {events events' : List RuntimeEvent} (next : Nat)
    (alike : List.Forall₂ (RuntimeEvent.Alike py) events events') :
    eventRows py id events next = eventRows py id events' next := by
  induction alike generalizing next with
  | nil => rfl
  | cons first _ ih =>
      rw [eventRows_cons, eventRows_cons, ih, RuntimeEvent.row, RuntimeEvent.row, first.type,
        first.node, redactFields_alike first.payload]

theorem Tx.Alike.apply {tx tx' : Tx} (alike : tx.Alike py tx') (db : Database) :
    tx.apply py db = tx'.apply py db := by
  cases alike with
  | same => rfl
  | appendMany events =>
      rw [Tx.apply, Tx.apply, Database.appendMany, Database.appendMany, eventRows_alike _ events]

/-- The database behind a sequence of transactions. -/
def Database.afterAll (py : Builtins) (db : Database) (txs : List Tx) : Database :=
  txs.foldl (Tx.apply py) db

theorem afterAll_alike {txs txs' : List Tx} (alike : List.Forall₂ (Tx.Alike py) txs txs')
    (db : Database) : db.afterAll py txs = db.afterAll py txs' := by
  induction alike generalizing db with
  | nil => rfl
  | cons first _ ih =>
      rw [Database.afterAll, List.foldl_cons, first.apply db]
      exact ih _

/-- A row that a call of `append_many` stores is that of one of its events. -/
theorem appendMany_row {id : RunId} {events : List RuntimeEvent} {row : EventRow}
    (stored : row ∈ (db.appendMany py id events).events) :
    row ∈ db.events ∨ ∃ event ∈ events, ∃ seq, row = event.row py id seq := by
  obtain ⟨kept, whole, among⟩ := insertAll_append db.events (eventRows py id events (db.nextSeq id))
  rw [Database.appendMany, whole] at stored
  rcases List.mem_append.mp stored with before | new
  · exact .inl before
  · obtain ⟨⟨event, seq⟩, listed, rfl⟩ := List.mem_map.mp (among.subset new)
    exact .inr ⟨event, List.fst_mem_of_mem_zipIdx listed, seq, rfl⟩

/-- No stored payload has a secret left. -/
def Database.Masked (py : Builtins) (db : Database) : Prop :=
  ∀ row ∈ db.events, redactFields py row.payload = row.payload

theorem Database.Masked.apply (masked : db.Masked py) (tx : Tx) :
    (tx.apply py db).Masked py := by
  intro row stored
  rcases tx.events_cases py db with same | ⟨id, events, rfl⟩
  · rw [same] at stored
    exact masked row stored
  · rcases appendMany_row stored with before | ⟨event, _, seq, rfl⟩
    · exact masked row before
    · exact redactFields_redactFields event.payload

theorem masked_inductive (c : Config) :
    Inductive (system c) anyStep fun s => s.db.Masked c.py where
  init s first := by
    obtain ⟨clock, rfl⟩ := first
    intro row stored
    contradiction
  step s action t masked _ stepped := by
    obtain ⟨tx, commits⟩ := (Sys.step_sound stepped).commits
    rw [commits.db]
    exact masked.apply tx

end Stores

/-- Two sequences of transactions that differ in nothing but secrets leave the same rows, and so
the same answers of `list_after` and the same frames. What a call of `append_many` stores is its
events with their secrets masked and nothing else changed, and what is ever stored is not changed by
another redaction. -/
theorem stored_events_hide_secrets (c : Config) (dumps : Json → String) :
    (∀ txs txs', List.Forall₂ (Tx.Alike c.py) txs txs' → ∀ db : Database,
      db.afterAll c.py txs = db.afterAll c.py txs' ∧ ∀ id afterSeq,
        (db.afterAll c.py txs).listAfter id afterSeq =
          (db.afterAll c.py txs').listAfter id afterSeq ∧
        ((db.afterAll c.py txs).listAfter id afterSeq).map (EventRow.frame dumps) =
          ((db.afterAll c.py txs').listAfter id afterSeq).map (EventRow.frame dumps)) ∧
    (∀ (db : Database) (id : RunId) (events : List RuntimeEvent),
      ∀ row ∈ (db.appendMany c.py id events).events, row ∈ db.events ∨
        ∃ event ∈ events, row.runId = id ∧ row.type = event.type ∧ row.node = event.node ∧
          Redacted c.py event.payload row.payload) ∧
    ∀ s, Reachable (system c) anyStep s → s.db.Masked c.py := by
  refine ⟨fun txs txs' alike db => ?_, fun db id events row stored => ?_, fun s reached => ?_⟩
  · rw [afterAll_alike alike db]
    exact ⟨rfl, fun _ _ => ⟨rfl, rfl⟩⟩
  · rcases appendMany_row stored with before | ⟨event, member, seq, rfl⟩
    · exact .inl before
    · exact .inr ⟨event, member, rfl, rfl, rfl, redactFields_redacted event.payload⟩
  · exact (masked_inductive c).reachable reached

section Sample

/-- A call with the credentials of its user. -/
def loginEvent (credentials : Json) : RuntimeEvent where
  type := .toolStarted
  runId := sampleRun
  payload := [("tool", .str "login"),
    ("calls", .arr [.obj [("token", credentials), ("user", .str "ada")]])]

theorem credentials_masked :
    Database.empty.afterAll .onEmpty [.appendMany sampleRun [loginEvent (.str "k1")]] =
      Database.empty.afterAll .onEmpty
        [.appendMany sampleRun [loginEvent (.obj [("key", .int 7)])]] ∧
    (Database.empty.appendMany .onEmpty sampleRun [loginEvent (.str "k1")]).events.map
        EventRow.payload =
      [[("tool", .str "login"),
        ("calls", .arr [.obj [("token", .str "***"), ("user", .str "ada")]])]] := by
  have alike : (loginEvent (.str "k1")).Alike .onEmpty (loginEvent (.obj [("key", .int 7)])) := by
    refine ⟨rfl, rfl, .shown (.same _) (.shown (.arr (.cons (.obj ?_) .nil)) .nil)⟩
    exact .secret (by decide) (.shown (.same _) .nil)
  have stored := (stored_events_hide_secrets sampleConfig fun _ => "").1
    [.appendMany sampleRun [loginEvent (.str "k1")]]
    [.appendMany sampleRun [loginEvent (.obj [("key", .int 7)])]]
    (.cons (.appendMany (.cons alike .nil)) .nil) Database.empty
  exact ⟨stored.1, rfl⟩

end Sample
end AgentRuntime
