import AgentRuntime.Library.Joins
import AgentRuntime.OpenAPI

/-! The URL of a request, against the path template of its operation: each placeholder filled once,
with one encoded segment, behind the base. -/
namespace AgentRuntime
open Templates (Braceless)

/-- The base under which a path is resolved, with one slash at its end. -/
def requestBase (baseUrl : String) : Urls.Text := baseUrl.toList.rdropWhile (· = '/') ++ ['/']

/-- The name of a path parameter. -/
def pathName (parameter : Dict) : Option String :=
  match parameter.getD "name" .null, parameter.getD "in" .null with
  | .str name, .str "path" => some name
  | _, _ => none

/-- The value of a declared placeholder, where the arguments hold one. -/
def pathValue (py : Builtins) (parameters : List Dict) (arguments : Dict) (name : List Char) :
    Option (List Char) :=
  if String.ofList name ∈ parameters.filterMap pathName then
    (arguments.get? (String.ofList name)).map fun value => (value.text py).toList
  else none

namespace OpenAPIOperation
variable (py : Builtins) (operation : OpenAPIOperation)

/-- These are the parts of the path, behind its slashes: a path template in which only expressions
stand between braces. -/
structure Templated (parts : List (Templates.Part Char)) : Prop where
  path : operation.path.toList.dropWhile (· = '/') = Templates.render '{' '}' parts
  plain : ∀ part ∈ parts, part.Plain '{' '}'
  names : ∀ name ∈ operation.parameters.filterMap pathName, Braceless '{' '}' name.toList

/-- The template with the values of the placeholders. -/
def filled (arguments : Dict) (parts : List (Templates.Part Char)) : List Char :=
  Templates.fill '{' '}' (pathValue py operation.parameters arguments) parts

/-- The template with the values as encoded segments. -/
def encoded (arguments : Dict) (parts : List (Templates.Part Char)) : List Char :=
  Templates.fill '{' '}'
    (fun name => (pathValue py operation.parameters arguments name).map Urls.encode) parts

end OpenAPIOperation

section Loop
variable {py : Builtins} {arguments : Dict} {filling filling' : Filling}

/-- What one parameter does to the path. -/
theorem parameter_path {parameter : Dict}
    (taken : Filling.parameter py arguments filling parameter = .ok filling') :
    filling'.path = ((pathName parameter).bind fun name => (arguments.get? name).map fun value =>
      replacePlaceholder filling.path name (value.text py)).getD filling.path := by
  unfold Filling.parameter at taken
  unfold pathName
  cases named : parameter.getD "name" .null with
  | str name =>
      simp only [named] at taken
      split at taken
      next absent =>
        cases taken
        split <;> simp_all
      next value given =>
        split at taken
        next place =>
          cases taken
          simp [place, given]
        next place =>
          cases taken
          simp [place]
        next place =>
          cases taken
          simp [place]
        next other _ _ =>
          cases taken
          split
          next place => exact absurd place other
          next => rfl
  | _ =>
      simp only [named] at taken
      split at taken
      · cases taken
        rfl
      · contradiction

variable (py arguments) in
theorem pathValue_cons (parameter : Dict) (parameters : List Dict) (name : List Char) :
    pathValue py (parameter :: parameters) arguments name =
      (pathValue py [parameter] arguments name).or (pathValue py parameters arguments name) := by
  have listed : String.ofList name ∈ (parameter :: parameters).filterMap pathName ↔
      String.ofList name ∈ [parameter].filterMap pathName ∨
        String.ofList name ∈ parameters.filterMap pathName := by
    rw [← List.singleton_append, List.filterMap_append, List.mem_append]
  unfold pathValue
  by_cases first : String.ofList name ∈ [parameter].filterMap pathName
  · rw [if_pos (listed.mpr (.inl first)), if_pos first]
    cases arguments.get? (String.ofList name) <;> simp
  · rw [if_neg first, Option.none_or]
    simp only [listed, first, false_or]

theorem pathValue_singleton {parameter : Dict} (name : List Char) :
    pathValue py [parameter] arguments name =
      ((pathName parameter).bind fun own => if name = own.toList then
        (arguments.get? own).map fun value => (value.text py).toList else none) := by
  unfold pathValue
  cases found : pathName parameter with
  | none => simp [found]
  | some own =>
      by_cases same : name = own.toList
      · simp [found, same]
      · have differs : String.ofList name ≠ own := fun equal => same (by simp [← equal])
        simp [found, same, differs]

theorem parameter_fills {parameter : Dict} {parts : List (Templates.Part Char)}
    (taken : Filling.parameter py arguments filling parameter = .ok filling')
    (path : filling.path.toList = Templates.render '{' '}' parts)
    (plain : ∀ part ∈ parts, part.Plain '{' '}')
    (names : ∀ name ∈ pathName parameter, Braceless '{' '}' name.toList) :
    filling'.path.toList =
      Templates.fill '{' '}' (pathValue py [parameter] arguments) parts := by
  rw [parameter_path taken]
  cases found : pathName parameter with
  | none =>
      have nothing : pathValue py [parameter] arguments = fun _ => none := by
        funext name
        rw [pathValue_singleton, found]
        rfl
      rw [nothing, Templates.fill_none]
      exact path
  | some own =>
      cases given : arguments.get? own with
      | none =>
          have nothing : pathValue py [parameter] arguments = fun _ => none := by
            funext name
            rw [pathValue_singleton, found]
            simp [given]
          rw [nothing, Templates.fill_none]
          simpa [given] using path
      | some value =>
          have single : pathValue py [parameter] arguments =
              Templates.only own.toList (value.text py).toList := by
            funext name
            rw [pathValue_singleton, found]
            simp [given, Templates.only]
          have replaced := Templates.replace_render (value.text py).toList (by decide)
            (names own found) plain
          rw [single, ← replaced, ← path]
          simp [given, replacePlaceholder]

/-- The loop fills the template once, where no value for it holds a brace. -/
theorem parameters_fill {parameters : List Dict} {parts : List (Templates.Part Char)}
    (taken : parameters.foldlM (Filling.parameter py arguments) filling = .ok filling')
    (path : filling.path.toList = Templates.render '{' '}' parts)
    (plain : ∀ part ∈ parts, part.Plain '{' '}')
    (names : ∀ name ∈ parameters.filterMap pathName, Braceless '{' '}' name.toList)
    (values : ∀ name, Templates.Part.expression name ∈ parts → ∀ value,
      pathValue py parameters arguments name = some value → Braceless '{' '}' value) :
    filling'.path.toList = Templates.fill '{' '}' (pathValue py parameters arguments) parts := by
  induction parameters generalizing filling parts with
  | nil =>
      cases taken
      rw [path]
      exact Templates.fill_none.symm
  | cons parameter rest ih =>
      rw [List.foldlM_cons] at taken
      obtain ⟨middle, first, later⟩ := of_bind_ok taken
      have own : ∀ name ∈ pathName parameter, Braceless '{' '}' name.toList := fun name found =>
        names name (List.mem_filterMap.mpr ⟨parameter, List.mem_cons_self, found⟩)
      have filled := parameter_fills first path plain own
      have combined (name : List Char) := pathValue_cons py arguments parameter rest name
      have plain' := Templates.plain_bind (pathValue py [parameter] arguments) plain
        fun name member value found => values name member value (by simp [combined, found])
      rw [funext combined, ← Templates.fill_fill]
      refine ih later filled plain' (fun name member => names name ?_) ?_
      · obtain ⟨other, among, named⟩ := List.mem_filterMap.mp member
        exact List.mem_filterMap.mpr ⟨other, List.mem_cons_of_mem parameter among, named⟩
      · intro name member value found
        obtain ⟨part, among, bound⟩ := List.mem_map.mp member
        cases part with
        | literal text => contradiction
        | expression own =>
            cases given : pathValue py [parameter] arguments own with
            | some value' => simp [Templates.Part.bind, given] at bound
            | none =>
                have same : own = name := by simpa [Templates.Part.bind, given] using bound
                subst same
                exact values own among value (by simp [combined, given, found])

end Loop

/-- The arguments do not redirect the request: its URL is the base followed by the template with
each placeholder replaced by its value as one encoded segment, under the scheme and the host of the
base; and no value is substituted again. -/
structure Unredirected (py : Builtins) (operation : OpenAPIOperation) (adapter : OpenAPIAdapter)
    (arguments : Dict) (parts : List (Templates.Part Char)) (request : HttpRequest) : Prop where
  url : request.url.toList = requestBase adapter.baseUrl ++ operation.encoded py arguments parts
  origin : ∀ host, (Urls.parse adapter.baseUrl.toList).authority = some host → host ≠ [] →
    Urls.origin request.url.toList = Urls.origin adapter.baseUrl.toList
  once : ∀ filling, operation.parameters.foldlM (Filling.parameter py arguments)
      { path := operation.path, headers := adapter.headers } = .ok filling →
    filling.path.toList =
      operation.path.toList.takeWhile (· = '/') ++ operation.filled py arguments parts

/-- Every value that fills a placeholder consists of unreserved characters, and the filled template
continues the base: it does not begin with a slash, has no scheme and no dot segment, and finds
neither a query nor a fragment in the base. -/
structure Harmless (py : Builtins) (operation : OpenAPIOperation) (baseUrl : String)
    (arguments : Dict) (parts : List (Templates.Part Char)) : Prop where
  unreserved : ∀ name, Templates.Part.expression name ∈ parts → ∀ value,
    pathValue py operation.parameters arguments name = some value → ∀ c ∈ value, Urls.unreserved c
  head : (operation.filled py arguments parts).head? ≠ some '/'
  continues : Urls.Continues (Urls.parse (requestBase baseUrl))
    (Urls.parse (operation.filled py arguments parts))

section Invoke
variable {py : Builtins} {operation : OpenAPIOperation} {arguments : Dict}
  {parts : List (Templates.Part Char)}

theorem directory_requestBase (baseUrl : String) : Urls.Directory (requestBase baseUrl) :=
  ⟨_, rfl, Urls.getLast?_rdropWhile _⟩

theorem request_url {baseUrl : String} {headers : List (String × String)} {request : HttpRequest}
    (made : operation.request py baseUrl headers arguments = .ok request) :
    ∃ filling, operation.parameters.foldlM (Filling.parameter py arguments)
        { path := operation.path, headers } = .ok filling ∧
      request.url.toList =
        Urls.join (requestBase baseUrl) (filling.path.toList.dropWhile (· = '/')) := by
  obtain ⟨filling, taken, made⟩ := of_bind_ok made
  cases made
  exact ⟨filling, taken, by simp [urljoin, requestBase]⟩

theorem braceless_of_unreserved {value : List Char} (plain : ∀ c ∈ value, Urls.unreserved c) :
    Braceless '{' '}' value :=
  ⟨fun member => absurd (plain _ member) (by decide),
    fun member => absurd (plain _ member) (by decide)⟩

theorem encoded_of_unreserved (plain : ∀ name, Templates.Part.expression name ∈ parts → ∀ value,
      pathValue py operation.parameters arguments name = some value →
        ∀ c ∈ value, Urls.unreserved c) :
    operation.encoded py arguments parts = operation.filled py arguments parts := by
  refine Templates.fill_congr fun name member => ?_
  cases found : pathValue py operation.parameters arguments name with
  | none => rfl
  | some value => rw [Option.map_some, Urls.encode_of_unreserved (plain name member value found)]

/-- Where no value has a brace, the slashes and then each part of the template are filled once. -/
theorem path_filled {headers : List (String × String)} {filling : Filling}
    (templated : operation.Templated parts)
    (taken : operation.parameters.foldlM (Filling.parameter py arguments)
      { path := operation.path, headers } = .ok filling)
    (values : ∀ name, Templates.Part.expression name ∈ parts → ∀ value,
      pathValue py operation.parameters arguments name = some value → Braceless '{' '}' value) :
    filling.path.toList =
      operation.path.toList.takeWhile (· = '/') ++ operation.filled py arguments parts := by
  have plain : ∀ part ∈
      Templates.Part.literal (operation.path.toList.takeWhile (· = '/')) :: parts,
      part.Plain '{' '}' := by
    refine List.forall_mem_cons.mpr ⟨⟨?_, ?_⟩, templated.plain⟩
    · exact fun member => by simpa using List.mem_takeWhile_imp member
    · exact fun member => by simpa using List.mem_takeWhile_imp member
  refine parameters_fill taken ?_ plain templated.names fun name member value found => ?_
  · refine (List.takeWhile_append_dropWhile (p := (· = '/'))).symm.trans ?_
    rw [templated.path]
    rfl
  · have among : Templates.Part.expression name ∈ parts := by simpa using member
    exact values name among value found

theorem dropWhile_slashes (text filled : List Char) :
    (text.takeWhile (· = '/') ++ filled).dropWhile (· = '/') = filled.dropWhile (· = '/') := by
  refine List.dropWhile_append_of_pos fun c member => ?_
  exact List.mem_takeWhile_imp (p := (· = '/')) member

theorem head?_dropWhile_slash (text : List Char) :
    (text.dropWhile (· = '/')).head? ≠ some '/' := by
  intro slash
  have other := List.head?_dropWhile_not (· = '/') text
  rw [slash] at other
  simp at other

/-- The arguments of a call do not redirect it exactly when they are harmless. -/
theorem invoke_unredirected_iff {adapter : OpenAPIAdapter} {name : Json} {request : HttpRequest}
    (found : adapter.operation py name = .ok operation)
    (made : adapter.invoke py name arguments = .ok request)
    (templated : operation.Templated parts) :
    Unredirected py operation adapter arguments parts request ↔
      Harmless py operation adapter.baseUrl arguments parts := by
  rw [OpenAPIAdapter.invoke, found] at made
  obtain ⟨filling, taken, url⟩ := request_url made
  have directory := directory_requestBase adapter.baseUrl
  constructor
  · rintro ⟨encoded, _, once⟩
    rw [once filling taken, dropWhile_slashes, encoded] at url
    have suffix := List.dropWhile_suffix (· = '/') (l := operation.filled py arguments parts)
    have longer : (operation.filled py arguments parts).length ≤
        (operation.encoded py arguments parts).length :=
      Templates.length_fill_le _ _ _ _ Urls.length_le_encode
    have lengths := congrArg List.length url
    rw [List.length_append] at lengths
    have shorter := suffix.length_le
    rcases Urls.join_cases directory (head?_dropWhile_slash _) with
      ⟨continues, joined⟩ | ⟨_, joined⟩
    · rw [joined, List.length_append] at lengths
      have kept := suffix.eq_of_length (by omega)
      refine ⟨fun name member value found => Urls.unreserved_of_length ?_, ?_, ?_⟩
      · have enough : (operation.encoded py arguments parts).length ≤
            (operation.filled py arguments parts).length := by
          omega
        exact Templates.length_value_of_fill Urls.length_le_encode enough member found
      · rw [← kept]
        exact head?_dropWhile_slash _
      · rwa [kept] at continues
    · omega
  · rintro ⟨unreserved, head, continues⟩
    have once := path_filled templated taken fun name member value found =>
      braceless_of_unreserved (unreserved name member value found)
    have joined := (Urls.join_cases directory head).resolve_right fun wrong => wrong.1 continues
    have kept : (operation.filled py arguments parts).dropWhile (· = '/') =
        operation.filled py arguments parts := by
      cases found : operation.filled py arguments parts with
      | nil => rfl
      | cons c rest =>
          have other : c ≠ '/' := by simpa [found] using head
          simp [other]
    rw [once, dropWhile_slashes, kept, joined.2, ← encoded_of_unreserved unreserved] at url
    refine ⟨url, fun host named nonempty => ?_, fun other taken' => ?_⟩
    · rw [url, requestBase, List.append_assoc, List.singleton_append]
      rw [← encoded_of_unreserved unreserved] at head
      exact Urls.origin_continued named nonempty head
    · cases taken.symm.trans taken'
      exact once

end Invoke

section Sample

/-- A specification in which an item can be read at the path. -/
def itemSpec (path : String) : Dict :=
  [("paths", .obj [(path, .obj [("get", .obj [("operationId", .str "read_item"), ("parameters",
    .arr [.obj [("name", .str "item"), ("in", .str "path")]])])])])]

def itemTool : ToolDef where
  name := "read_item"
  description := "read_item"
  inputSchema := [("type", .str "object"),
    ("properties", .obj [("item", .obj [("type", .str "string")])])]
  source := .openapi

def itemOperation (path : String) : OpenAPIOperation where
  method := Builtins.onEmpty.upper "get"
  path := path
  parameters := [[("name", .str "item"), ("in", .str "path")]]
  hasBody := false

/-- What is discovered in it. -/
def itemAdapter (path : String) : OpenAPIAdapter :=
  (OpenAPIAdapter.new "https://api.test/openapi.json" []).add (itemTool, itemOperation path)

def itemRequest (url : String) : HttpRequest where
  method := Builtins.onEmpty.upper "get"
  url := url
  params := []
  headers := []
  json := .null

theorem item_kept :
    (OpenAPIAdapter.new "https://api.test/openapi.json" []).discover .onEmpty
        (itemSpec "/items/\x7bitem\x7d") =
      .ok (itemAdapter "/items/\x7bitem\x7d", [itemTool]) ∧
    Unredirected .onEmpty (itemOperation "/items/\x7bitem\x7d")
      (itemAdapter "/items/\x7bitem\x7d") [("item", .str "a7")]
      [.literal "items/".toList, .expression "item".toList]
      (itemRequest "https://api.test/items/a7") := by
  have values : ∀ name,
      Templates.Part.expression name ∈ [.literal "items/".toList, .expression "item".toList] →
        ∀ value, pathValue .onEmpty (itemOperation "/items/\x7bitem\x7d").parameters
          [("item", .str "a7")] name = some value → value = "a7".toList := by
    intro name member value found
    have same : name = "item".toList := by simpa using member
    subst same
    exact (Option.some.inj found).symm
  have found : (itemAdapter "/items/\x7bitem\x7d").operation .onEmpty (.str "read_item") =
      .ok (itemOperation "/items/\x7bitem\x7d") := rfl
  refine ⟨rfl, (invoke_unredirected_iff found rfl ?_).mpr ?_⟩
  · refine ⟨by decide +kernel, ?_, ?_⟩
    · simp [Templates.Part.Plain, Braceless]
    · simp [itemOperation, pathName, Dict.getD, Dict.get?, Braceless]
  · refine ⟨fun name member value found => ?_, by decide +kernel, ?_⟩
    · rw [values name member value found]
      simp [Urls.unreserved]
    · exact ⟨by decide +kernel, by decide +kernel, .inl (by decide +kernel), by decide +kernel⟩

/-- A value with a scheme takes the request to another host. -/
theorem item_redirected :
    (OpenAPIAdapter.new "https://api.test/openapi.json" []).discover .onEmpty
        (itemSpec "/\x7bitem\x7d") = .ok (itemAdapter "/\x7bitem\x7d", [itemTool]) ∧
    (itemOperation "/\x7bitem\x7d").Templated [.expression "item".toList] ∧
    (itemAdapter "/\x7bitem\x7d").invoke .onEmpty (.str "read_item")
        [("item", .str "https://evil.test/x")] = .ok (itemRequest "https://evil.test/x") ∧
    ¬ Unredirected .onEmpty (itemOperation "/\x7bitem\x7d") (itemAdapter "/\x7bitem\x7d")
      [("item", .str "https://evil.test/x")] [.expression "item".toList]
      (itemRequest "https://evil.test/x") := by
  refine ⟨rfl, ⟨?_, ?_, ?_⟩, ?_, fun kept => ?_⟩
  · decide +kernel
  · simp [Templates.Part.Plain, Braceless]
  · simp [itemOperation, pathName, Dict.getD, Dict.get?, Braceless]
  · exact rfl
  · have elsewhere := kept.origin "api.test".toList (by decide +kernel) (by decide)
    exact absurd elsewhere (by decide +kernel)

end Sample
end AgentRuntime
