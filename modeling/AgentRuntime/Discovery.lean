import Mathlib.Data.List.Forall2
import AgentRuntime.OpenAPI

/-! Discovery of operations. The tables of the adapter are keyed by the name of the tool, so two
operations under one name are merged without an error. -/
namespace AgentRuntime
open Tables

/-- The operations of a specification, in their order. -/
def specOperations (py : Builtins) (spec : Dict) : List SpecOperation :=
  match spec.getD "paths" (.obj []) with
  | .obj paths => paths.flatMap fun item =>
      match item.2 with
      | .obj fields => fields.filterMap
          (SpecOperation.of? py item.1 (Dict.getD fields "parameters" (.arr [])))
      | _ => []
  | _ => []

/-- The objects of a list. -/
def objects (parameters : List Json) : List Dict :=
  parameters.filterMap fun parameter =>
    match parameter with
    | .obj fields => some fields
    | _ => none

namespace SpecOperation
variable (py : Builtins)

/-- The `operationId`, where it is given. -/
def operationId (operation : SpecOperation) : Option String :=
  match operation.fields.getD "operationId" .null with
  | .str id => if id = "" then none else some id
  | _ => none

/-- The name of the tool, where the operation is one. -/
def toolName (operation : SpecOperation) : String :=
  operation.operationId.getD (operationName py operation.method operation.path)

/-- What `invoke` performs for the operation. -/
def performed (operation : SpecOperation) : OpenAPIOperation where
  method := py.upper operation.method
  path := operation.path
  parameters := objects ((operation.shared.toList.getD []) ++
    ((operation.fields.getD "parameters" (.arr [])).toList.getD []))
  hasBody := (operation.fields.getD "requestBody" .null).given

/-- The letters and digits of the path, in runs. -/
def words (operation : SpecOperation) : List (List Char) :=
  Words.words Char.isAlphanum operation.path.toList

end SpecOperation

section Describe
variable {py : Builtins} {operation : SpecOperation} {tool : ToolDef} {performed : OpenAPIOperation}

theorem parameterSchema_ok {parameters : List Json} {properties : Dict} {required : List Json}
    {result : List Dict × Dict × List Json}
    (made : parameterSchema py properties required parameters = .ok result) :
    result.1 = objects parameters := by
  induction parameters generalizing properties required result with
  | nil =>
      cases made
      rfl
  | cons parameter rest ih =>
      cases parameter with
      | obj fields =>
          simp only [parameterSchema] at made
          split at made
          next =>
            obtain ⟨schema, later, made⟩ := of_bind_ok made
            cases made
            exact congrArg (fields :: ·) (ih later)
          next =>
            split at made
            next => contradiction
            next =>
              obtain ⟨schema, later, made⟩ := of_bind_ok made
              cases made
              exact congrArg (fields :: ·) (ih later)
      | _ => simp [parameterSchema] at made

theorem openAPIInputSchema_ok {parameters : List Json} {body : Json}
    {result : List Dict × Dict × Bool}
    (made : openAPIInputSchema py parameters body = .ok result) :
    result.1 = objects parameters ∧ result.2.2 = body.given := by
  obtain ⟨schema, first, made⟩ := of_bind_ok made
  obtain ⟨properties, _, made⟩ := of_bind_ok made
  cases made
  exact ⟨parameterSchema_ok first, rfl⟩

theorem name_eq (py : Builtins) {operation : SpecOperation} {name : String}
    (named : operation.name py = .str name) : name = operation.toolName py := by
  unfold SpecOperation.name Json.orElse at named
  unfold SpecOperation.toolName SpecOperation.operationId
  cases id : operation.fields.getD "operationId" .null with
  | str text =>
      rw [id] at named
      by_cases empty : text = ""
      · subst empty
        simpa [Json.truthy] using named.symm
      · simpa [Json.truthy, empty] using named.symm
  | _ =>
      rw [id] at named
      split at named
      next => contradiction
      next => simpa using named.symm

/-- What is described is named after the operation, and performs it. -/
theorem describe_ok (described : operation.describe py = .ok (tool, performed)) :
    tool.name = operation.toolName py ∧ performed = operation.performed py := by
  unfold SpecOperation.describe at described
  dsimp only at described
  split at described
  next => contradiction
  next => contradiction
  next shared parameters sharedItems ownItems =>
    obtain ⟨schema, made, described⟩ := of_bind_ok described
    obtain ⟨first, second⟩ := openAPIInputSchema_ok made
    split at described
    next name description named _ =>
      cases described
      refine ⟨name_eq py named, ?_⟩
      rw [SpecOperation.performed, sharedItems, ownItems]
      simp only [Option.getD_some, first, second]
    next => contradiction

end Describe
section Discover
variable {py : Builtins}

/-- The results of describing these operations, in their order. -/
abbrev Described (py : Builtins) (operations : List SpecOperation)
    (described : List (ToolDef × OpenAPIOperation)) : Prop :=
  List.Forall₂ (fun operation found => operation.describe py = .ok found) operations described

/-- What a loop of the discovery adds for these operations. -/
def Adds (py : Builtins) (operations : List SpecOperation)
    (state result : OpenAPIAdapter × List ToolDef) : Prop :=
  ∃ described, Described py operations described ∧
    result = (described.foldl OpenAPIAdapter.add state.1, state.2 ++ described.map Prod.fst)

theorem Adds.append {operations operations' : List SpecOperation}
    {state middle result : OpenAPIAdapter × List ToolDef} (first : Adds py operations state middle)
    (second : Adds py operations' middle result) :
    Adds py (operations ++ operations') state result := by
  obtain ⟨described, all, rfl⟩ := first
  obtain ⟨described', all', rfl⟩ := second
  refine ⟨described ++ described', List.rel_append all all', ?_⟩
  rw [List.foldl_append, List.map_append, List.append_assoc]

theorem discoverPath_adds {path : String} {shared : Json} {fields : List (String × Json)}
    {state result : OpenAPIAdapter × List ToolDef}
    (discovered : OpenAPIAdapter.discoverPath py path shared fields state = .ok result) :
    Adds py (fields.filterMap (SpecOperation.of? py path shared)) state result := by
  induction fields generalizing state with
  | nil =>
      cases discovered
      exact ⟨[], .nil, by simp⟩
  | cons field rest ih =>
      rw [OpenAPIAdapter.discoverPath] at discovered
      rw [List.filterMap_cons]
      cases made : SpecOperation.of? py path shared field with
      | none =>
          rw [made] at discovered
          exact ih discovered
      | some operation =>
          rw [made] at discovered
          obtain ⟨found, described, discovered⟩ := of_bind_ok discovered
          have one : Adds py [operation] state (state.1.add found, state.2 ++ [found.1]) :=
            ⟨[found], .cons described .nil, rfl⟩
          exact one.append (ih discovered)

theorem discoverPaths_adds {paths : List (String × Json)}
    {state result : OpenAPIAdapter × List ToolDef}
    (discovered : OpenAPIAdapter.discoverPaths py paths state = .ok result) :
    Adds py (paths.flatMap fun item =>
      match item.2 with
      | .obj fields => fields.filterMap
          (SpecOperation.of? py item.1 (Dict.getD fields "parameters" (.arr [])))
      | _ => []) state result := by
  induction paths generalizing state with
  | nil =>
      cases discovered
      exact ⟨[], .nil, by simp⟩
  | cons item rest ih =>
      obtain ⟨path, fields⟩ := item
      cases fields with
      | obj fields =>
          rw [OpenAPIAdapter.discoverPaths] at discovered
          obtain ⟨middle, first, discovered⟩ := of_bind_ok discovered
          exact (discoverPath_adds first).append (ih discovered)
      | _ => simp [OpenAPIAdapter.discoverPaths] at discovered

theorem tools_foldl_add (described : List (ToolDef × OpenAPIOperation)) (adapter : OpenAPIAdapter) :
    (described.foldl OpenAPIAdapter.add adapter).tools =
      (described.map Prod.fst).foldl Table.put adapter.tools := by
  induction described generalizing adapter with
  | nil => rfl
  | cons found rest ih => exact ih (adapter.add found)

theorem operations_foldl_add (described : List (ToolDef × OpenAPIOperation))
    (adapter : OpenAPIAdapter) :
    (described.foldl OpenAPIAdapter.add adapter).operations =
      (described.map fun found => NamedOperation.mk found.1.name found.2).foldl Table.put
        adapter.operations := by
  induction described generalizing adapter with
  | nil => rfl
  | cons found rest ih => exact ih (adapter.add found)

theorem specOperations_of_paths {spec : Dict} {paths : List (String × Json)}
    (listed : spec.getD "paths" (.obj []) = .obj paths) :
    specOperations py spec = paths.flatMap fun item =>
      match item.2 with
      | .obj fields => fields.filterMap
          (SpecOperation.of? py item.1 (Dict.getD fields "parameters" (.arr [])))
      | _ => [] := by
  rw [specOperations, listed]

/-- The tables of a new adapter behind the discovery. -/
theorem discover_ok {url : String} {headers : List (String × String)} {spec : Dict}
    {adapter : OpenAPIAdapter} {tools : List ToolDef}
    (discovered : (OpenAPIAdapter.new url headers).discover py spec = .ok (adapter, tools)) :
    ∃ described, Described py (specOperations py spec) described ∧
      tools = described.map Prod.fst ∧
      adapter.tools = (described.map Prod.fst).foldl Table.put .empty ∧
      adapter.operations =
        (described.map fun found => NamedOperation.mk found.1.name found.2).foldl Table.put
          .empty := by
  obtain ⟨server, _, discovered⟩ := of_bind_ok discovered
  split at discovered
  next paths listed =>
    obtain ⟨described, all, same⟩ := discoverPaths_adds discovered
    obtain ⟨rfl, rfl⟩ := Prod.mk.inj same
    rw [specOperations_of_paths listed]
    refine ⟨described, all, List.nil_append _, ?_, ?_⟩
    · rw [tools_foldl_add]
      cases server <;> rfl
    · rw [operations_foldl_add]
      cases server <;> rfl
  next => contradiction

end Discover

section Names
variable {py : Builtins}

theorem method_of_mem {spec : Dict} {operation : SpecOperation}
    (member : operation ∈ specOperations py spec) :
    py.lower operation.method ∈ openAPIMethods := by
  unfold specOperations at member
  split at member
  next paths _ =>
    obtain ⟨item, _, member⟩ := List.mem_flatMap.mp member
    split at member
    next fields _ =>
      obtain ⟨field, _, made⟩ := List.mem_filterMap.mp member
      unfold SpecOperation.of? at made
      split at made
      next method own =>
        split at made
        next listed =>
          cases made
          exact listed
        next => contradiction
      next => contradiction
    next => contradiction
  next => contradiction

/-- Two generated names are equal exactly when the methods and the words of the paths are. -/
theorem operationName_eq_iff {method method' path path' : String}
    (listed : py.lower method ∈ openAPIMethods) (listed' : py.lower method' ∈ openAPIMethods) :
    operationName py method path = operationName py method' path' ↔
      py.lower method = py.lower method' ∧
        Words.words Char.isAlphanum path.toList = Words.words Char.isAlphanum path'.toList := by
  have plain {name : String} (member : name ∈ openAPIMethods) : ∀ c ∈ name.toList, c ≠ '_' := by
    simp only [openAPIMethods, List.mem_cons, List.not_mem_nil, or_false] at member
    rcases member with rfl | rfl | rfl | rfl | rfl <;> simp
  have front {name : String} (member : name ∈ openAPIMethods) (suffix : List Char) :
      (name.toList ++ '_' :: suffix).takeWhile (fun c => c ≠ '_') = name.toList := by
    rw [List.takeWhile_append_of_pos fun c among => by simpa using plain member c among]
    simp
  have shape (method path : String) : (operationName py method path).toList =
      (py.lower method).toList ++
        '_' :: Words.strip '_' (Words.squeeze Char.isAlphanum '_' false path.toList) := by
    simp [operationName]
  rw [← String.toList_inj, shape, shape]
  constructor
  · intro same
    have methods := congrArg (List.takeWhile fun c => c ≠ '_') same
    rw [front listed, front listed'] at methods
    rw [methods] at same
    have suffixes := (List.cons.inj (List.append_cancel_left same)).2
    exact ⟨String.toList_inj.mp methods, (Words.strip_squeeze_eq_iff (by decide)).mp suffixes⟩
  · rintro ⟨methods, words⟩
    rw [methods, (Words.strip_squeeze_eq_iff (by decide)).mpr words]

/-- No generated name is given twice: two operations without an id differ in their method or in the
words of their paths, and no id is the name generated for another operation. -/
structure Separate (py : Builtins) (operations : List SpecOperation) : Prop where
  unnamed : operations.Pairwise fun a b => a.operationId = none → b.operationId = none →
    ¬ (py.lower a.method = py.lower b.method ∧ a.words = b.words)
  named : ∀ a ∈ operations, ∀ b ∈ operations, ∀ id, a.operationId = some id →
    b.operationId = none → id ≠ operationName py b.method b.path

theorem nodup_toolName_iff {operations : List SpecOperation}
    (methods : ∀ operation ∈ operations, py.lower operation.method ∈ openAPIMethods)
    (distinct : (operations.filterMap SpecOperation.operationId).Nodup) :
    (operations.map (SpecOperation.toolName py)).Nodup ↔ Separate py operations := by
  have ids := List.pairwise_filterMap.mp distinct
  constructor
  · intro names
    refine ⟨?_, fun a member b among id given unnamed same => ?_⟩
    · refine (List.pairwise_map.mp names).imp_of_mem fun {a b} member among differ noA noB => ?_
      rintro ⟨sameMethod, sameWords⟩
      refine differ ?_
      rw [SpecOperation.toolName, SpecOperation.toolName, noA, noB]
      exact (operationName_eq_iff (methods a member) (methods b among)).mpr
        ⟨sameMethod, sameWords⟩
    · have equal : a.toolName py = b.toolName py := by
        rw [SpecOperation.toolName, SpecOperation.toolName, given, unnamed]
        exact same
      rw [List.inj_on_of_nodup_map names member among equal, unnamed] at given
      contradiction
  · rintro ⟨unnamed, named⟩
    refine List.pairwise_map.mpr ?_
    refine (ids.and unnamed).imp_of_mem fun {a b} member among ⟨apart, differ⟩ same => ?_
    unfold SpecOperation.toolName at same
    cases idA : a.operationId with
    | none =>
        cases idB : b.operationId with
        | none =>
            rw [idA, idB] at same
            exact differ idA idB
              ((operationName_eq_iff (methods a member) (methods b among)).mp same)
        | some id =>
            rw [idA, idB] at same
            exact named b among a member id idB idA same.symm
    | some id =>
        cases idB : b.operationId with
        | none =>
            rw [idA, idB] at same
            exact named a member b among id idA idB same
        | some id' =>
            rw [idA, idB] at same
            exact apart id idA id' idB same

end Names

/-- The operations are not merged: the tools have distinct names, as many are registered as were
discovered, and a call of each with these arguments performs the operation it was made of. -/
structure Unmerged (py : Builtins) (operations : List SpecOperation) (adapter : OpenAPIAdapter)
    (tools : List ToolDef) (arguments : Dict) : Prop where
  distinct : (tools.map ToolDef.name).Nodup
  counted : adapter.tools.rows.length = operations.length
  performs : ∀ operation ∈ operations, ∀ tool performed,
    operation.describe py = .ok (tool, performed) → tool ∈ tools ∧
      adapter.operation py (OpenAPIAdapter.boundName tool.name arguments) = .ok performed

/-- The arguments do not hold `_name`, or they name an operation that performs the same. -/
def Addressed (py : Builtins) (operations : List SpecOperation) (arguments : Dict) : Prop :=
  ∀ operation ∈ operations, arguments.get? "_name" = none ∨ ∃ other ∈ operations,
    arguments.get? "_name" = some (.str (other.toolName py)) ∧
      other.performed py = operation.performed py

section Calls
variable {py : Builtins}

theorem Described.names {operations : List SpecOperation}
    {described : List (ToolDef × OpenAPIOperation)} (all : Described py operations described) :
    (described.map Prod.fst).map ToolDef.name = operations.map (SpecOperation.toolName py) ∧
      described.map Prod.snd = operations.map (SpecOperation.performed py) := by
  induction all with
  | nil => exact ⟨rfl, rfl⟩
  | cons first _ ih =>
      obtain ⟨name, performed⟩ := describe_ok first
      simp only [List.map_cons, name, performed, ih.1, ih.2, and_self]

theorem Described.of_mem {operations : List SpecOperation}
    {described : List (ToolDef × OpenAPIOperation)} (all : Described py operations described)
    {operation : SpecOperation} (member : operation ∈ operations) :
    ∃ found ∈ described, operation.describe py = .ok found := by
  induction all with
  | nil => contradiction
  | cons first _ ih =>
      rcases List.mem_cons.mp member with rfl | later
      · exact ⟨_, List.mem_cons_self, first⟩
      · obtain ⟨found, among, described⟩ := ih later
        exact ⟨found, List.mem_cons_of_mem _ among, described⟩

theorem Described.mem {operations : List SpecOperation}
    {described : List (ToolDef × OpenAPIOperation)} (all : Described py operations described)
    {found : ToolDef × OpenAPIOperation} (member : found ∈ described) :
    ∃ operation ∈ operations, operation.describe py = .ok found := by
  induction all with
  | nil => contradiction
  | cons first _ ih =>
      rcases List.mem_cons.mp member with rfl | later
      · exact ⟨_, List.mem_cons_self, first⟩
      · obtain ⟨operation, among, described⟩ := ih later
        exact ⟨operation, List.mem_cons_of_mem _ among, described⟩

/-- The adapter holds these operations under distinct names. -/
structure Holds (adapter : OpenAPIAdapter) (described : List (ToolDef × OpenAPIOperation)) :
    Prop where
  distinct : ((described.map Prod.fst).map ToolDef.name).Nodup
  tools : adapter.tools = (described.map Prod.fst).foldl Table.put .empty
  operations : adapter.operations =
    (described.map fun found => NamedOperation.mk found.1.name found.2).foldl Table.put .empty

section Holds
variable {adapter : OpenAPIAdapter} {described : List (ToolDef × OpenAPIOperation)}

/-- An operation is reached by its name. -/
theorem Holds.operation (holds : Holds adapter described) {found : ToolDef × OpenAPIOperation}
    (member : found ∈ described) : adapter.operation py (.str found.1.name) = .ok found.2 := by
  have tool : adapter.tools.find? found.1.name = some found.1 := by
    rw [holds.tools]
    exact Table.find?_foldl_put holds.distinct (List.mem_map_of_mem member) _
  have named : adapter.operations.find? found.1.name = some ⟨found.1.name, found.2⟩ := by
    rw [holds.operations]
    refine Table.find?_foldl_put ?_
      (List.mem_map_of_mem (f := fun found => NamedOperation.mk found.1.name found.2) member) _
    simpa [List.map_map, Function.comp_def, key] using holds.distinct
  simp only [OpenAPIAdapter.operation, OpenAPIAdapter.get, tool, bind, Except.bind, named]

/-- Only the names of the operations reach one. -/
theorem Holds.reached (holds : Holds adapter described) {name : Json}
    {performed : OpenAPIOperation} (reached : adapter.operation py name = .ok performed) :
    ∃ found ∈ described, name = .str found.1.name ∧ found.2 = performed := by
  obtain ⟨tool, got, _⟩ := of_bind_ok reached
  unfold OpenAPIAdapter.get at got
  split at got
  next text =>
    split at got
    next stored found =>
      cases got
      have own : tool.name = text := Table.key_of_find? found
      rw [holds.tools] at found
      rcases Table.mem_of_find?_foldl_put found with member | none
      · obtain ⟨pair, among, rfl⟩ := List.mem_map.mp member
        rw [← own, holds.operation among] at reached
        exact ⟨pair, among, by rw [own], Except.ok.inj reached⟩
      · contradiction
    next => contradiction
  next => split at got <;> contradiction

end Holds

/-- Discovery keeps the operations apart exactly when no name is generated twice or given to another
operation, and a call performs its own operation exactly when the arguments do not hold `_name`, or
name one that performs the same. -/
theorem discover_unmerged_iff {url : String} {headers : List (String × String)} {spec : Dict}
    {adapter : OpenAPIAdapter} {tools : List ToolDef}
    (discovered : (OpenAPIAdapter.new url headers).discover py spec = .ok (adapter, tools))
    (distinct : ((specOperations py spec).filterMap SpecOperation.operationId).Nodup)
    (arguments : Dict) :
    Unmerged py (specOperations py spec) adapter tools arguments ↔
      Separate py (specOperations py spec) ∧ Addressed py (specOperations py spec) arguments := by
  obtain ⟨described, all, rfl, stored, kept⟩ := discover_ok discovered
  have separate := nodup_toolName_iff (fun _ => method_of_mem) distinct
  rw [← all.names.1] at separate
  constructor
  · rintro ⟨apart, counted, performs⟩
    have holds : Holds adapter described := ⟨apart, stored, kept⟩
    refine ⟨separate.mp apart, fun operation member => ?_⟩
    obtain ⟨found, _, made⟩ := all.of_mem member
    have reached := (performs operation member found.1 found.2 made).2
    unfold OpenAPIAdapter.boundName Dict.getD at reached
    cases given : arguments.get? "_name" with
    | none => exact .inl rfl
    | some value =>
        rw [given, Option.getD_some] at reached
        obtain ⟨found', among, rfl, same⟩ := holds.reached reached
        obtain ⟨other, member', made'⟩ := all.mem among
        obtain ⟨name, performed⟩ := describe_ok made'
        refine .inr ⟨other, member', by rw [name], ?_⟩
        rw [← performed, same, (describe_ok made).2]
  · rintro ⟨apart, addressed⟩
    have holds : Holds adapter described := ⟨separate.mpr apart, stored, kept⟩
    refine ⟨holds.distinct, ?_, fun operation member tool performed made => ?_⟩
    · have count := (Table.length_foldl_put_iff (described.map Prod.fst) .empty).mpr
        ⟨holds.distinct, fun _ _ => List.not_mem_nil⟩
      rw [stored, count, all.length_eq, List.length_map]
      exact Nat.zero_add _
    · obtain ⟨found, among, made'⟩ := all.of_mem member
      cases made.symm.trans made'
      refine ⟨List.mem_map_of_mem among, ?_⟩
      unfold OpenAPIAdapter.boundName Dict.getD
      rcases addressed operation member with none | ⟨other, member', given, same⟩
      · rw [none, Option.getD_none]
        exact holds.operation among
      · obtain ⟨found', among', made''⟩ := all.of_mem member'
        obtain ⟨name, performed'⟩ := describe_ok made''
        rw [given, Option.getD_some, ← name, holds.operation among', performed', same,
          (describe_ok made).2]

end Calls
section Sample

/-- A specification in which each of these paths can be read. -/
def readSpec (paths : List String) : Dict :=
  [("paths", .obj (paths.map fun path => (path, .obj [("get", .obj [])])))]

theorem dashed_paths_unmerged :
    ∃ adapter tools,
      (OpenAPIAdapter.new "https://api.test/openapi.json" []).discover .onEmpty
        (readSpec ["/a-b", "/a-c"]) = .ok (adapter, tools) ∧
      Unmerged .onEmpty (specOperations .onEmpty (readSpec ["/a-b", "/a-c"])) adapter tools [] := by
  refine ⟨_, _, rfl, (discover_unmerged_iff rfl ?_ []).mpr ⟨⟨?_, ?_⟩, ?_⟩⟩
  · exact List.nodup_nil
  · decide +kernel
  · intro operation member _ _ id given
    have unnamed : ∀ operation ∈ specOperations .onEmpty (readSpec ["/a-b", "/a-c"]),
        operation.operationId = none := by
      simp [specOperations, readSpec, SpecOperation.of?, SpecOperation.operationId, Dict.getD,
        Dict.get?, Builtins.onEmpty, openAPIMethods]
    rw [unnamed operation member] at given
    contradiction
  · exact fun _ _ => .inl rfl

/-- The second operation takes the place of the first. -/
theorem dash_merged_with_underscore :
    ∃ adapter tools,
      (OpenAPIAdapter.new "https://api.test/openapi.json" []).discover .onEmpty
        (readSpec ["/a-b", "/a_b"]) = .ok (adapter, tools) ∧
      ((specOperations .onEmpty (readSpec ["/a-b", "/a_b"])).filterMap
        SpecOperation.operationId).Nodup ∧
      tools.map ToolDef.name = ["get_a_b", "get_a_b"] ∧ adapter.tools.rows.length = 1 ∧
      (adapter.call .onEmpty "get_a_b" []).map HttpRequest.url = .ok "https://api.test/a_b" ∧
      ¬ Unmerged .onEmpty (specOperations .onEmpty (readSpec ["/a-b", "/a_b"])) adapter tools
        [] := by
  refine ⟨_, _, rfl, List.nodup_nil, rfl, rfl, rfl, fun unmerged => ?_⟩
  exact absurd unmerged.counted (by decide +kernel)

end Sample
end AgentRuntime
