import AgentRuntime.Catalog
import AgentRuntime.Retrying

/-! The cached model catalog. The service refreshes its snapshot when it has expired, and serves the
last good one, marked as stale, while the refreshes fail. -/
namespace AgentRuntime

inductive Availability where
  | available
  | stale
  deriving DecidableEq, Repr

/-- `ModelCatalogEntry`, with what the catalog shows of it. -/
structure ListedModel extends ModelCatalogEntry where
  displayName : String
  availability : Availability := .available

/-- `ModelCatalogSnapshot`, with what the catalog shows of it. -/
structure ListedSnapshot where
  version : String
  fetchedAt : String
  entries : List ListedModel
  stale : Bool := false

/-- What a policy is resolved against. -/
def ListedSnapshot.catalog (snapshot : ListedSnapshot) : ModelCatalogSnapshot where
  version := snapshot.version
  entries := snapshot.entries.map ListedModel.toModelCatalogEntry

def ListedSnapshot.asStale (snapshot : ListedSnapshot) : ListedSnapshot :=
  { snapshot with
    stale := true
    entries := snapshot.entries.map fun entry => { entry with availability := .stale } }

abbrev CapabilityMap := List (String × List String)

/-- `capability_map.get(model_id, [])`. -/
def CapabilityMap.declared (capabilities : CapabilityMap) (modelId : String) : List String :=
  (capabilities.lookup modelId).getD []

/-- `"embed" in model_id.lower()`. -/
def embeds (py : Builtins) (modelId : String) : Bool := textIn "embed" (py.lower modelId)

def ModelCatalogEntry.versionPayload (entry : ModelCatalogEntry) : String :=
  entry.catalogId ++ ":" ++ ",".intercalate entry.capabilities ++ ":" ++
    (if entry.selectable then "True" else "False")

def buildSnapshot (py : Builtins) (modelIds : List String) (now : String)
    (capabilities : CapabilityMap) : ListedSnapshot :=
  let ids := (modelIds.dedup.insertionSort (· ≤ ·)).filter fun modelId => !embeds py modelId
  let entries : List ListedModel := ids.map fun modelId =>
    { catalogId := modelId, displayName := modelId,
      capabilities := capabilities.declared modelId }
  let payload := "|".intercalate (entries.map fun entry => entry.versionPayload)
  { version := String.ofList ((py.sha256 payload).toList.take 16), fetchedAt := now, entries }

/-- `payload.get("data", [])`, where the payload is a dict. -/
def catalogRows : Json → Json
  | .obj payload => Dict.getD payload "data" (.arr [])
  | _ => .arr []

/-- `str(row["id"])`, where the row is a dict with an id. -/
def rowId (py : Builtins) : Json → Option String
  | .obj row => ((Dict.get? row "id").filter Json.truthy).map (Json.text py)
  | _ => none

/-- The ids in the reply of the provider, and the text of the exception. -/
def fetchedIds (py : Builtins) (payload : Json) : Except String (List String) :=
  match (catalogRows payload).toList with
  | none => .error (notIterable (catalogRows payload))
  | some rows =>
      let ids := rows.filterMap (rowId py)
      if ids.isEmpty then .error "model catalog returned no models" else .ok ids

structure ModelCatalogService where
  ttlSeconds : Int := 30
  capabilities : CapabilityMap := []
  snapshot : Option ListedSnapshot := none
  cachedAt : Option Int := none

/-- What a call of `get_snapshot` reads: the clock of the expiry, the reply of the provider or the
text of its failure, the time of the snapshot and the clock behind it. -/
structure CatalogCall where
  checkedAt : Int
  reply : Except String Json
  now : String
  cachedAt : Int

/-- The ids of the reply. -/
def CatalogCall.ids (py : Builtins) (call : CatalogCall) : Except String (List String) := do
  let payload ← call.reply
  fetchedIds py payload

namespace ModelCatalogService

def fresh (service : ModelCatalogService) (checkedAt : Int) : Bool :=
  match service.snapshot, service.cachedAt with
  | some _, some cachedAt => checkedAt - cachedAt < service.ttlSeconds
  | _, _ => false

def fetch (py : Builtins) (service : ModelCatalogService) (call : CatalogCall) :
    Except String ListedSnapshot := do
  let ids ← call.ids py
  return buildSnapshot py ids call.now service.capabilities

/-- `get_snapshot` where the snapshot is missing or has expired. -/
def update (py : Builtins) (service : ModelCatalogService) (call : CatalogCall) :
    Except ModelSelectionError ListedSnapshot × ModelCatalogService :=
  match service.fetch py call with
  | .ok snapshot =>
      (.ok snapshot, { service with snapshot := some snapshot, cachedAt := some call.cachedAt })
  | .error reason =>
      match service.snapshot with
      | some snapshot => (.ok snapshot.asStale, service)
      | none =>
          (.error { message := "model catalog unavailable: " ++ reason, httpStatus := 503 },
            service)

def getSnapshot (py : Builtins) (service : ModelCatalogService) (call : CatalogCall) :
    Except ModelSelectionError ListedSnapshot × ModelCatalogService :=
  match service.snapshot, service.fresh call.checkedAt with
  | some snapshot, true => (.ok snapshot, service)
  | _, _ => service.update py call

/-- The service behind these calls. -/
def after (py : Builtins) (service : ModelCatalogService) (calls : List CatalogCall) :
    ModelCatalogService :=
  calls.foldl (fun service call => (service.getSnapshot py call).2) service

end ModelCatalogService

/-- The provider replies with an object that lists the model: an object with this truthy id among
its data. -/
def CatalogCall.Offers (py : Builtins) (call : CatalogCall) (modelId : String) : Prop :=
  ∃ payload items fields id, call.reply = .ok (.obj payload) ∧
    Dict.get? payload "data" = some (.arr items) ∧ .obj fields ∈ items ∧
    Dict.get? fields "id" = some id ∧ id.truthy = true ∧ id.text py = modelId

namespace ModelCatalogService

/-- No snapshot is held, or it was fetched too long ago. -/
def Expired (service : ModelCatalogService) (call : CatalogCall) : Prop :=
  ∀ snapshot cachedAt, service.snapshot = some snapshot → service.cachedAt = some cachedAt →
    service.ttlSeconds ≤ call.checkedAt - cachedAt

/-- The call has to fetch, and the provider offers a model. -/
def Fetches (py : Builtins) (service : ModelCatalogService) (call : CatalogCall) : Prop :=
  service.Expired call ∧ ∃ modelId, call.Offers py modelId

/-- The call has to fetch, and the provider offers no model. -/
def RefreshFails (py : Builtins) (service : ModelCatalogService) (call : CatalogCall) : Prop :=
  service.Expired call ∧ ¬ ∃ modelId, call.Offers py modelId

/-- The last of these calls that fetched. -/
inductive LastFetch (py : Builtins) (service : ModelCatalogService) :
    List CatalogCall → CatalogCall → Prop
  | last {calls call} : (service.after py calls).Fetches py call →
      LastFetch py service (calls ++ [call]) call
  | earlier {calls call source} : LastFetch py service calls source →
      ¬ (service.after py calls).Fetches py call → LastFetch py service (calls ++ [call]) source

end ModelCatalogService

/-- The model that the policy is a choice of: the one it names, or else the one to which its tier,
or the balanced one, is mapped. -/
inductive ModelPolicy.Chooses (tierMap : List (String × String)) : ModelPolicy → String → Prop
  | specific {modelId given} : Chooses tierMap (.specific modelId given) modelId
  | tier {level modelId} : tierMap.lookup level.value = some modelId → modelId ≠ "" →
      Chooses tierMap (.tier level) modelId
  | auto {modelId} : tierMap.lookup "balanced" = some modelId → modelId ≠ "" →
      Chooses tierMap .auto modelId

section Built
variable {py : Builtins} {ids : List String} {now : String} {capabilities : CapabilityMap}

@[simp] theorem catalog_asStale (snapshot : ListedSnapshot) :
    snapshot.asStale.catalog = snapshot.catalog := by
  simp [ListedSnapshot.catalog, ListedSnapshot.asStale]

theorem mem_built {entry : ModelCatalogEntry} :
    entry ∈ (buildSnapshot py ids now capabilities).catalog.entries ↔
      entry.catalogId ∈ ids ∧ embeds py entry.catalogId = false ∧
        entry = ⟨entry.catalogId, capabilities.declared entry.catalogId, true⟩ := by
  simp only [buildSnapshot, ListedSnapshot.catalog, List.map_map, List.mem_map, List.mem_filter,
    List.mem_insertionSort, List.mem_dedup, Function.comp, Bool.not_eq_true']
  constructor
  · rintro ⟨modelId, ⟨listed, chat⟩, rfl⟩
    exact ⟨listed, chat, rfl⟩
  · rintro ⟨listed, chat, same⟩
    exact ⟨entry.catalogId, ⟨listed, chat⟩, same.symm⟩

theorem mem_selectableIds_built {modelId : String} :
    modelId ∈ (buildSnapshot py ids now capabilities).catalog.selectableIds ↔
      modelId ∈ ids ∧ embeds py modelId = false := by
  simp only [ModelCatalogSnapshot.selectableIds, List.mem_map, List.mem_filter]
  constructor
  · rintro ⟨entry, ⟨member, _⟩, rfl⟩
    exact ⟨(mem_built.mp member).1, (mem_built.mp member).2.1⟩
  · rintro ⟨listed, chat⟩
    exact ⟨⟨modelId, capabilities.declared modelId, true⟩, ⟨mem_built.mpr ⟨listed, chat, rfl⟩, rfl⟩,
      rfl⟩

theorem capabilities_built {modelId : String} (listed : modelId ∈ ids)
    (chat : embeds py modelId = false) :
    (buildSnapshot py ids now capabilities).catalog.capabilities modelId =
      capabilities.declared modelId := by
  unfold ModelCatalogSnapshot.capabilities
  cases found : (buildSnapshot py ids now capabilities).catalog.entries.reverse.find?
      (fun entry => entry.catalogId = modelId) with
  | none =>
      have absent := List.find?_eq_none.mp found
        ⟨modelId, capabilities.declared modelId, true⟩
        (List.mem_reverse.mpr (mem_built.mpr ⟨listed, chat, rfl⟩))
      simp at absent
  | some entry =>
      have own : entry.catalogId = modelId := by simpa using List.find?_some found
      have member := List.mem_reverse.mp (List.mem_of_find?_eq_some found)
      rw [Option.elim, (mem_built.mp member).2.2, own]

end Built

section Resolve
variable {py : Builtins} {snapshot : ModelCatalogSnapshot} {required : List String}

theorem require_of_capable {modelId : String} (selectable : modelId ∈ snapshot.selectableIds)
    (capable : ∀ name ∈ required, name ∈ snapshot.capabilities modelId) :
    snapshot.require py required modelId = .ok modelId := by
  have complete : required.dedup.filter (fun name => name ∉ snapshot.capabilities modelId) = [] :=
    List.filter_eq_nil_iff.mpr fun name member => by
      simpa using capable name (List.mem_dedup.mp member)
  rw [ModelCatalogSnapshot.require, if_neg (not_not.mpr selectable)]
  dsimp only
  rw [complete]
  rfl

theorem getD_given {mapped : Option String} (given : mapped.getD "" ≠ "") :
    mapped = some (mapped.getD "") := by
  cases mapped with
  | none => exact absurd rfl given
  | some text => rfl

theorem candidate_iff (policy : ModelPolicy) (tierMap : List (String × String))
    (modelId : String) :
    policy.candidate tierMap = .ok modelId ↔ policy.Chooses tierMap modelId := by
  constructor
  · intro chosen
    cases policy with
    | specific own given =>
        cases chosen
        exact .specific
    | tier level =>
        simp only [ModelPolicy.candidate] at chosen
        split at chosen
        next => contradiction
        next given =>
          cases chosen
          exact .tier (getD_given given) given
    | auto =>
        simp only [ModelPolicy.candidate] at chosen
        split at chosen
        next => contradiction
        next given =>
          cases chosen
          exact .auto (getD_given given) given
  · intro chosen
    cases chosen with
    | specific => rfl
    | tier mapped given | auto mapped given =>
        simp only [ModelPolicy.candidate, mapped, Option.getD_some]

/-- A policy is resolved exactly to the model it chooses, where that is selectable and capable. -/
theorem resolveModelPolicy_iff (policy : ModelPolicy) (tierMap : List (String × String))
    (now modelId : String) :
    (∃ decision, resolveModelPolicy py policy snapshot tierMap required now = .ok decision ∧
        decision.resolvedModel = modelId) ↔
      policy.Chooses tierMap modelId ∧ modelId ∈ snapshot.selectableIds ∧
        ∀ name ∈ required, name ∈ snapshot.capabilities modelId := by
  rw [← candidate_iff]
  constructor
  · rintro ⟨decision, resolved, rfl⟩
    obtain ⟨chosen, _, selectable, capable⟩ := resolveModelPolicy_ok resolved
    exact ⟨chosen, selectable, capable⟩
  · rintro ⟨chosen, selectable, capable⟩
    let decision : ModelDecision := {
      requested := policy.dump
      resolvedModel := modelId
      resolvedTier := policy.resolvedTier
      reason := policy.reason
      catalogVersion := snapshot.version
      resolvedAt := now }
    refine ⟨decision, ?_, rfl⟩
    rw [resolveModelPolicy, chosen]
    simp only [bind, Except.bind, require_of_capable selectable capable]
    rfl

end Resolve

section Calls
variable {py : Builtins} {service : ModelCatalogService} {call : CatalogCall}
variable {calls : List CatalogCall}

theorem fresh_iff : service.fresh call.checkedAt = false ↔ service.Expired call := by
  unfold ModelCatalogService.fresh ModelCatalogService.Expired
  split
  next snapshot cachedAt held cached => simp [held, cached]
  next other =>
    refine iff_of_true rfl fun snapshot cachedAt held cached => ?_
    exact absurd cached (other snapshot cachedAt held)

/-- Only a list iterates over objects. -/
theorem arr_of_toList {rows : Json} {items : List Json} {fields : Dict}
    (listed : rows.toList = some items) (member : .obj fields ∈ items) : rows = .arr items := by
  cases rows with
  | arr all =>
      cases listed
      rfl
  | obj all =>
      cases listed
      simp at member
  | str text =>
      cases listed
      simp at member
  | _ => contradiction

/-- The ids of the rows are what the reply offers. -/
theorem mem_offered {payload : Json} (replied : call.reply = .ok payload) {items : List Json}
    (listed : (catalogRows payload).toList = some items) (modelId : String) :
    modelId ∈ items.filterMap (rowId py) ↔ call.Offers py modelId := by
  rw [List.mem_filterMap]
  constructor
  · rintro ⟨row, member, own⟩
    cases row with
    | obj fields =>
        obtain ⟨id, kept, text⟩ := Option.map_eq_some_iff.mp own
        obtain ⟨stored, truthy⟩ := Option.filter_eq_some_iff.mp kept
        have list := arr_of_toList listed member
        cases payload with
        | obj payload =>
            cases found : Dict.get? payload "data" with
            | none =>
                rw [catalogRows, Dict.getD, found] at list
                cases list
                contradiction
            | some value =>
                rw [catalogRows, Dict.getD, found] at list
                cases list
                exact ⟨payload, items, fields, id, replied, found, member, stored, truthy, text⟩
        | _ =>
            cases list
            contradiction
    | _ => contradiction
  · rintro ⟨payload', items', fields, id, replied', found, member, stored, truthy, text⟩
    cases replied.symm.trans replied'
    rw [catalogRows, Dict.getD, found] at listed
    cases listed
    refine ⟨.obj fields, member, ?_⟩
    rw [rowId, stored, Option.filter_some, if_pos truthy, Option.map_some, text]

theorem ids_ok {ids : List String} (listed : call.ids py = .ok ids) :
    (∀ modelId, modelId ∈ ids ↔ call.Offers py modelId) ∧ ids ≠ [] := by
  unfold CatalogCall.ids at listed
  cases replied : call.reply with
  | error reason =>
      rw [replied] at listed
      contradiction
  | ok payload =>
      rw [replied] at listed
      simp only [bind, Except.bind, fetchedIds] at listed
      split at listed
      next => contradiction
      next items iterated =>
        split at listed
        next => contradiction
        next some =>
          cases listed
          refine ⟨mem_offered replied iterated, fun none => some ?_⟩
          rw [none]
          rfl

theorem ids_error {reason : String} (failed : call.ids py = .error reason) :
    ¬ ∃ modelId, call.Offers py modelId := by
  unfold CatalogCall.ids at failed
  rintro ⟨modelId, offered⟩
  cases replied : call.reply with
  | error reason =>
      obtain ⟨_, _, _, _, replied', _⟩ := offered
      cases replied.symm.trans replied'
  | ok payload =>
      rw [replied] at failed
      simp only [bind, Except.bind, fetchedIds] at failed
      split at failed
      next barren =>
        obtain ⟨_, _, _, _, replied', found, _⟩ := offered
        cases replied.symm.trans replied'
        rw [catalogRows, Dict.getD, found] at barren
        contradiction
      next items iterated =>
        have member := (mem_offered replied iterated modelId).mpr offered
        split at failed
        next none =>
          rw [List.isEmpty_iff.mp none] at member
          contradiction
        next => contradiction

/-- One call, by what it does about the snapshot. -/
inductive Answered (py : Builtins) (service : ModelCatalogService) (call : CatalogCall) :
    Except ModelSelectionError ListedSnapshot × ModelCatalogService → Prop
  | kept {snapshot} : ¬ service.Expired call → service.snapshot = some snapshot →
      Answered py service call (.ok snapshot, service)
  | fetched {ids} : service.Fetches py call → (∀ modelId, modelId ∈ ids ↔ call.Offers py modelId) →
      Answered py service call
        (.ok (buildSnapshot py ids call.now service.capabilities),
          { service with
            snapshot := some (buildSnapshot py ids call.now service.capabilities)
            cachedAt := some call.cachedAt })
  | stale {snapshot} : service.RefreshFails py call → service.snapshot = some snapshot →
      Answered py service call (.ok snapshot.asStale, service)
  | unavailable {reason} : service.RefreshFails py call → service.snapshot = none →
      Answered py service call
        (.error { message := "model catalog unavailable: " ++ reason, httpStatus := 503 }, service)

theorem getSnapshot_expired (expired : service.fresh call.checkedAt = false) :
    service.getSnapshot py call = service.update py call := by
  rw [ModelCatalogService.getSnapshot, expired]
  cases service.snapshot <;> rfl

theorem getSnapshot_answered (py : Builtins) (service : ModelCatalogService) (call : CatalogCall) :
    Answered py service call (service.getSnapshot py call) := by
  cases fresh : service.fresh call.checkedAt with
  | true =>
      have current : ¬ service.Expired call := by
        rw [← fresh_iff, fresh]
        exact Bool.noConfusion
      cases held : service.snapshot with
      | none => simp [ModelCatalogService.fresh, held] at fresh
      | some snapshot =>
          rw [ModelCatalogService.getSnapshot, held, fresh]
          exact .kept current held
  | false =>
      have expired := fresh_iff.mp fresh
      rw [getSnapshot_expired fresh, ModelCatalogService.update, ModelCatalogService.fetch]
      cases listed : call.ids py with
      | ok ids =>
          obtain ⟨offered, some⟩ := ids_ok listed
          obtain ⟨modelId, member⟩ := List.exists_mem_of_ne_nil ids some
          exact .fetched ⟨expired, modelId, (offered modelId).mp member⟩ offered
      | error reason =>
          have failed : service.RefreshFails py call := ⟨expired, ids_error listed⟩
          cases held : service.snapshot with
          | none => exact .unavailable failed held
          | some snapshot => exact .stale failed held

theorem after_snoc (service : ModelCatalogService) (calls : List CatalogCall)
    (call : CatalogCall) :
    service.after py (calls ++ [call]) = ((service.after py calls).getSnapshot py call).2 := by
  simp only [ModelCatalogService.after, List.foldl_append, List.foldl_cons, List.foldl_nil]

theorem not_fetches_of_fails (fails : service.RefreshFails py call) : ¬ service.Fetches py call :=
  fun fetches => fails.2 fetches.2

theorem lastFetch_snoc {source : CatalogCall}
    (last : service.LastFetch py (calls ++ [call]) source)
    (other : ¬ (service.after py calls).Fetches py call) : service.LastFetch py calls source := by
  generalize same : calls ++ [call] = all at last
  cases last with
  | last fetches =>
      obtain ⟨rfl, equal⟩ := List.append_inj' same rfl
      cases equal
      exact absurd fetches other
  | earlier before _ =>
      obtain ⟨rfl, _⟩ := List.append_inj' same rfl
      exact before

/-- The snapshot is the one that the last of the calls to fetch has built. -/
def Shows (py : Builtins) (service : ModelCatalogService) (calls : List CatalogCall)
    (snapshot : ListedSnapshot) : Prop :=
  ∃ source ids, service.LastFetch py calls source ∧
    (∀ modelId, modelId ∈ ids ↔ source.Offers py modelId) ∧
    snapshot = buildSnapshot py ids source.now service.capabilities

theorem Shows.snoc {snapshot : ListedSnapshot} (shows' : Shows py service calls snapshot)
    (other : ¬ (service.after py calls).Fetches py call) :
    Shows py service (calls ++ [call]) snapshot := by
  obtain ⟨source, ids, last, offered, built⟩ := shows'
  exact ⟨source, ids, .earlier last other, offered, built⟩

/-- Behind the calls the service holds the snapshot of the last of them that fetched. -/
structure Tracks (py : Builtins) (service : ModelCatalogService) (calls : List CatalogCall) :
    Prop where
  declared : (service.after py calls).capabilities = service.capabilities
  missing : (service.after py calls).snapshot = none → ¬ ∃ source, service.LastFetch py calls source
  held : ∀ snapshot, (service.after py calls).snapshot = some snapshot →
    Shows py service calls snapshot

theorem Tracks.snoc (tracks : Tracks py service calls) (call : CatalogCall) :
    Tracks py service (calls ++ [call]) := by
  have answered := getSnapshot_answered py (service.after py calls) call
  have behind : service.after py (calls ++ [call]) =
      ((service.after py calls).getSnapshot py call).2 := after_snoc service calls call
  generalize (service.after py calls).getSnapshot py call = result at answered behind
  have unchanged (same : result.2 = service.after py calls)
      (other : ¬ (service.after py calls).Fetches py call) :
      Tracks py service (calls ++ [call]) := by
    rw [same] at behind
    refine ⟨?_, ?_, ?_⟩
    · rw [behind]
      exact tracks.declared
    · rw [behind]
      rintro missing ⟨source, last⟩
      exact tracks.missing missing ⟨source, lastFetch_snoc last other⟩
    · rw [behind]
      exact fun snapshot held => (tracks.held snapshot held).snoc other
  cases answered with
  | kept current => exact unchanged rfl fun fetches => current fetches.1
  | stale fails | unavailable fails => exact unchanged rfl (not_fetches_of_fails fails)
  | @fetched ids fetches offered =>
      refine ⟨?_, ?_, ?_⟩
      · rw [behind]
        exact tracks.declared
      · rw [behind]
        intro missing
        contradiction
      · rw [behind]
        intro snapshot held
        cases held
        exact ⟨call, ids, .last fetches, offered, by rw [tracks.declared]⟩

theorem tracks_after (fresh : service.snapshot = none) (calls : List CatalogCall) :
    Tracks py service calls := by
  induction calls using List.reverseRecOn with
  | nil =>
      refine ⟨rfl, ?_, ?_⟩
      · rintro _ ⟨source, last⟩
        generalize same : ([] : List CatalogCall) = none' at last
        cases last <;> simp at same
      · intro snapshot held
        rw [ModelCatalogService.after, List.foldl_nil, fresh] at held
        contradiction
  | append_singleton calls call ih => exact ih.snoc call

theorem Shows.not_stale {snapshot : ListedSnapshot} (shows' : Shows py service calls snapshot) :
    snapshot.stale = false := by
  obtain ⟨source, ids, _, _, rfl⟩ := shows'
  rfl

/-- What is returned shows the last fetch, and says whether this call failed to refresh it. -/
theorem Tracks.returns (tracks : Tracks py service calls) {snapshot : ListedSnapshot}
    (returned : ((service.after py calls).getSnapshot py call).1 = .ok snapshot) :
    (∃ held, Shows py service (calls ++ [call]) held ∧ snapshot.catalog = held.catalog) ∧
      (snapshot.stale = true ↔ (service.after py calls).RefreshFails py call) := by
  have answered := getSnapshot_answered py (service.after py calls) call
  have stored := (tracks.snoc call).held
  rw [after_snoc] at stored
  generalize (service.after py calls).getSnapshot py call = result at answered returned stored
  cases answered with
  | kept current held =>
      cases returned
      have shown := stored snapshot held
      refine ⟨⟨snapshot, shown, rfl⟩, ?_⟩
      rw [shown.not_stale]
      exact iff_of_false Bool.noConfusion fun fails => current fails.1
  | fetched fetches =>
      cases returned
      have shown := stored _ rfl
      refine ⟨⟨_, shown, rfl⟩, ?_⟩
      rw [shown.not_stale]
      exact iff_of_false Bool.noConfusion fun fails => fails.2 fetches.2
  | stale fails held =>
      cases returned
      exact ⟨⟨_, stored _ held, catalog_asStale _⟩, iff_of_true rfl fails⟩
  | unavailable => contradiction

theorem Tracks.raises_iff (tracks : Tracks py service calls) :
    (∃ error, ((service.after py calls).getSnapshot py call).1 = .error error) ↔
      (service.after py calls).RefreshFails py call ∧
        ¬ ∃ source, service.LastFetch py calls source := by
  have answered := getSnapshot_answered py (service.after py calls) call
  generalize (service.after py calls).getSnapshot py call = result at answered
  have source {snapshot : ListedSnapshot}
      (held : (service.after py calls).snapshot = some snapshot) :
      ∃ source, service.LastFetch py calls source := by
    obtain ⟨source, ids, last, _⟩ := tracks.held snapshot held
    exact ⟨source, last⟩
  cases answered with
  | kept current => simp [current, ModelCatalogService.RefreshFails]
  | fetched fetches =>
      refine iff_of_false (by simp) fun fails => ?_
      exact not_fetches_of_fails fails.1 fetches
  | stale fails held => exact iff_of_false (by simp) fun never => never.2 (source held)
  | unavailable fails missing => exact iff_of_true ⟨_, rfl⟩ ⟨fails, tracks.missing missing⟩

/-- Against a built snapshot, a policy is resolved exactly to a listed model that is no embedding
model and declares the required capabilities. -/
theorem resolve_built_iff {ids : List String} {now : String} {capabilities : CapabilityMap}
    (policy : ModelPolicy) (tierMap : List (String × String)) (required : List String)
    (at' modelId : String) :
    (∃ decision, resolveModelPolicy py policy (buildSnapshot py ids now capabilities).catalog
        tierMap required at' = .ok decision ∧ decision.resolvedModel = modelId) ↔
      policy.Chooses tierMap modelId ∧ modelId ∈ ids ∧ embeds py modelId = false ∧
        ∀ name ∈ required, name ∈ capabilities.declared modelId := by
  rw [resolveModelPolicy_iff, mem_selectableIds_built]
  constructor
  · rintro ⟨chosen, ⟨listed, chat⟩, capable⟩
    rw [capabilities_built listed chat] at capable
    exact ⟨chosen, listed, chat, capable⟩
  · rintro ⟨chosen, listed, chat, capable⟩
    rw [capabilities_built listed chat]
    exact ⟨chosen, ⟨listed, chat⟩, capable⟩

/-- After any calls of a new service: a refresh that fails keeps the service as it is, a call fails
only where no fetch ever succeeded, and a snapshot shows the last successful fetch. A policy is
resolved against it exactly to the model it chooses, where the provider offered that model, it is no
embedding model and declares the required capabilities. -/
theorem getSnapshot_sound (py : Builtins) (ttlSeconds : Int) (capabilities : CapabilityMap)
    (calls : List CatalogCall) (call : CatalogCall) :
    let new : ModelCatalogService := { ttlSeconds, capabilities }
    let service := new.after py calls
    let result := service.getSnapshot py call
    (service.RefreshFails py call → result.2 = service) ∧
    ((∃ error, result.1 = .error error) ↔
      service.RefreshFails py call ∧ ¬ ∃ source, new.LastFetch py calls source) ∧
    ∀ snapshot, result.1 = .ok snapshot → ∃ source ids,
      new.LastFetch py (calls ++ [call]) source ∧
      (∀ modelId, modelId ∈ ids ↔ source.Offers py modelId) ∧
      snapshot.catalog = (buildSnapshot py ids source.now capabilities).catalog ∧
      (snapshot.stale = true ↔ service.RefreshFails py call) ∧
      ∀ (policy : ModelPolicy) (tierMap : List (String × String)) (required : List String)
        (at' modelId : String),
        (∃ decision, resolveModelPolicy py policy snapshot.catalog tierMap required at' =
            .ok decision ∧ decision.resolvedModel = modelId) ↔
          policy.Chooses tierMap modelId ∧ source.Offers py modelId ∧
            embeds py modelId = false ∧ ∀ name ∈ required, name ∈ capabilities.declared modelId := by
  intro new service result
  have tracks : Tracks py new calls := tracks_after rfl calls
  refine ⟨fun fails => ?_, tracks.raises_iff, fun snapshot returned => ?_⟩
  · have answered : Answered py service call result := getSnapshot_answered py service call
    generalize result = answer at answered
    cases answered with
    | kept | stale | unavailable => rfl
    | fetched fetches => exact absurd fetches (not_fetches_of_fails fails)
  · obtain ⟨⟨_, ⟨source, ids, last, offered, rfl⟩, same⟩, stale⟩ := tracks.returns returned
    refine ⟨source, ids, last, offered, same, stale, ?_⟩
    intro policy tierMap required at' modelId
    rw [same, ← offered]
    exact resolve_built_iff policy tierMap required at' modelId

end Calls

section Sample

/-- The provider lists a chat model and an embedding model. -/
def sampleFetch : CatalogCall where
  checkedAt := 0
  reply := .ok (.obj [("data", .arr [.obj [("id", .str "small")], .obj [("id", .str "embed")]])])
  now := "morning"
  cachedAt := 0

/-- The snapshot has expired, and the provider cannot be reached. -/
def sampleOutage : CatalogCall where
  checkedAt := 30
  reply := .error "connection refused"
  now := "noon"
  cachedAt := 30

def sampleService : ModelCatalogService := { ttlSeconds := 30 }

def sampleTiers : List (String × String) := [("balanced", "small"), ("performance", "embed")]

/-- In the outage the last snapshot is served: the balanced tier is resolved against it, and the tier
that is mapped to the embedding model is not. -/
theorem outage_resolves : ∃ snapshot,
    ((sampleService.after .onEmpty [sampleFetch]).getSnapshot .onEmpty sampleOutage).1 =
      .ok snapshot ∧ snapshot.stale = true ∧
    (∃ decision, resolveModelPolicy .onEmpty .auto snapshot.catalog sampleTiers [] "noon" =
      .ok decision ∧ decision.resolvedModel = "small") ∧
    ¬ ∃ decision, resolveModelPolicy .onEmpty (.tier .performance) snapshot.catalog sampleTiers []
      "noon" = .ok decision ∧ decision.resolvedModel = "embed" := by
  obtain ⟨_, _, returns⟩ := getSnapshot_sound .onEmpty 30 [] [sampleFetch] sampleOutage
  obtain ⟨source, ids, _, _, _, stale, resolves⟩ := returns _ rfl
  have fails : (sampleService.after .onEmpty [sampleFetch]).RefreshFails .onEmpty sampleOutage := by
    refine ⟨fresh_iff.mp (by decide), ?_⟩
    rintro ⟨_, _, _, _, _, replied, _⟩
    contradiction
  refine ⟨_, rfl, stale.mpr fails, ⟨_, rfl, rfl⟩, fun resolved => ?_⟩
  have chat := ((resolves (.tier .performance) sampleTiers [] "noon" "embed").mp resolved).2.2.1
  contradiction

end Sample
end AgentRuntime
