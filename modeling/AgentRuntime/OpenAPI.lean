import AgentRuntime.Library.Templates
import AgentRuntime.Library.Urls
import AgentRuntime.Library.Words
import AgentRuntime.Tools

/-! The OpenAPI adapter: the operations that it discovers in a specification, the two tables it
keeps of them, and the requests of its tools. -/
namespace AgentRuntime
open Tables

theorem of_bind_ok {ε α β : Type} {first : Except ε α} {next : α → Except ε β} {result : β}
    (passed : (first >>= next) = .ok result) :
    ∃ value, first = .ok value ∧ next value = .ok result := by
  cases first with
  | error error => contradiction
  | ok value => exact ⟨value, rfl, passed⟩

def openAPIMethods : List String := ["get", "post", "put", "patch", "delete"]

/-- `urljoin`. -/
def urljoin (base url : String) : String := String.ofList (Urls.join base.toList url.toList)

/-- `_Operation`. -/
structure OpenAPIOperation where
  method : String
  path : String
  parameters : List Dict
  hasBody : Bool

structure NamedOperation where
  name : String
  operation : OpenAPIOperation

instance : Keyed NamedOperation String := ⟨NamedOperation.name⟩

/-- A request of the HTTP client. -/
structure HttpRequest where
  method : String
  url : String
  params : Dict
  headers : List (String × String)
  json : Json

structure OpenAPIAdapter where
  url : String
  headers : List (String × String) := []
  baseUrl : String
  tools : Table ToolDef := .empty
  operations : Table NamedOperation := .empty

/-- `f"{method.lower()}_{suffix}"`. -/
def operationName (py : Builtins) (method path : String) : String :=
  py.lower method ++ "_" ++
    String.ofList (Words.strip '_' (Words.squeeze Char.isAlphanum '_' false path.toList))

/-- The properties and the required names of the parameters, which must be objects. -/
def parameterSchema (py : Builtins) (properties : Dict) (required : List Json) :
    List Json → Except ExecError (List Dict × Dict × List Json)
  | [] => .ok ([], properties, required)
  | .obj fields :: rest => do
      let name := Dict.getD fields "name" .null
      if !name.truthy then
        let (parameters, schema) ← parameterSchema py properties required rest
        return (fields :: parameters, schema)
      else if !name.hashable then .error (.other (unhashable name))
      else
        let schema := Dict.getD fields "schema" (.obj [("type", .str "string")])
        let required :=
          if (Dict.getD fields "required" .null).truthy then required ++ [name] else required
        let (parameters, schema) ←
          parameterSchema py (properties.set (name.text py) schema) required rest
        return (fields :: parameters, schema)
  | other :: _ => .error (.other (noAttribute other "get"))

/-- The schema of the JSON body, or of the first other content. -/
def bodySchema (body : Dict) : Except ExecError Json :=
  match body.getD "content" (.obj []) with
  | .obj content =>
      let media := (Dict.getD content "application/json" .null).orElse
        ((content.head?.map Prod.snd).getD (.obj []))
      match media with
      | .obj media => .ok (Dict.getD media "schema" (.obj [("type", .str "object")]))
      | other => .error (.other (noAttribute other "get"))
  | other => .error (.other (noAttribute other "get"))

/-- `value is not None`. -/
def Json.given : Json → Bool
  | .null => false
  | _ => true

/-- The properties and the required names with those of the body. -/
def bodyProperties (properties : Dict) (required : List Json) :
    Json → Except ExecError (Dict × List Json)
  | .obj (field :: fields) => do
      let body : Dict := field :: fields
      let schema ← bodySchema body
      let required :=
        if (body.getD "required" .null).truthy then required ++ [.str "body"] else required
      return (properties.set "body" schema, required)
  | other =>
      if other.truthy then .error (.other (noAttribute other "get")) else .ok (properties, required)

/-- `_input_schema`, with the parameters as objects. -/
def openAPIInputSchema (py : Builtins) (parameters : List Json) (requestBody : Json) :
    Except ExecError (List Dict × Dict × Bool) := do
  let (parameters, properties, required) ← parameterSchema py [] [] parameters
  let (properties, required) ← bodyProperties properties required requestBody
  let schema : Dict := [("type", .str "object"), ("properties", .obj properties)]
  return (parameters, if required.isEmpty then schema else schema.set "required" (.arr required),
    requestBody.given)

/-- An operation of a specification: its path and method, the parameters its path shares and its
own fields. -/
structure SpecOperation where
  path : String
  method : String
  shared : Json
  fields : Dict

namespace SpecOperation

/-- The operations of a path are the objects under the names of methods. -/
def of? (py : Builtins) (path : String) (shared : Json) (field : String × Json) :
    Option SpecOperation :=
  match field with
  | (method, .obj fields) =>
      if py.lower method ∈ openAPIMethods then some ⟨path, method, shared, fields⟩ else none
  | _ => none

/-- `operation.get("operationId") or _operation_name(method, path)`. -/
def name (py : Builtins) (operation : SpecOperation) : Json :=
  (operation.fields.getD "operationId" .null).orElse
    (.str (operationName py operation.method operation.path))

/-- The tool and the operation, as `discover` makes them. -/
def describe (py : Builtins) (operation : SpecOperation) :
    Except ExecError (ToolDef × OpenAPIOperation) := do
  let own := operation.fields.getD "parameters" (.arr [])
  match operation.shared.toList, own.toList with
  | none, _ => .error (.other (notIterable operation.shared))
  | _, none => .error (.other (notIterable own))
  | some shared, some parameters => do
      let (parameters, schema, hasBody) ← openAPIInputSchema py (shared ++ parameters)
        (operation.fields.getD "requestBody" .null)
      let name := operation.name py
      let description := ((operation.fields.getD "description" .null).orElse
        (operation.fields.getD "summary" .null)).orElse name
      match name, description with
      | .str name, .str description =>
          .ok ({ name, description, inputSchema := schema, source := .openapi
                 risk := if py.lower operation.method = "get" then .read else .write },
            { method := py.upper operation.method, path := operation.path, parameters, hasBody })
      | _, _ => .error (.other (py.invalid "ToolDef" name))

end SpecOperation

namespace OpenAPIAdapter
variable (py : Builtins)

/-- A new adapter for the specification at the address. Its base ends with the last slash. -/
def new (url : String) (headers : List (String × String)) : OpenAPIAdapter where
  url := url
  headers := headers
  baseUrl :=
    if '/' ∈ url.toList then String.ofList (url.toList.rdropWhile fun c => c ≠ '/')
    else url ++ "/"

def register (adapter : OpenAPIAdapter) (tool : ToolDef) : OpenAPIAdapter :=
  { adapter with tools := adapter.tools.put tool }

/-- The tool is registered, and its operation kept under its name. -/
def add (adapter : OpenAPIAdapter) (found : ToolDef × OpenAPIOperation) : OpenAPIAdapter :=
  let adapter := adapter.register found.1
  { adapter with operations := adapter.operations.put ⟨found.1.name, found.2⟩ }

/-- `servers[0].get("url")`, where there are servers and it is not empty. -/
def serverUrl (spec : Dict) : Except ExecError (Option String) :=
  match spec.getD "servers" .null with
  | .arr (.obj fields :: _) =>
      match Dict.getD fields "url" .null with
      | .str url => .ok (if url = "" then none else some url)
      | other =>
          if other.truthy then .error (.other "Cannot mix str and non-str arguments") else .ok none
  | .arr (other :: _) => .error (.other (noAttribute other "get"))
  | .str text =>
      if text = "" then .ok none else .error (.other (noAttribute (.str text) "get"))
  | .obj fields => if fields.isEmpty then .ok none else .error (.other "0")
  | other =>
      if other.truthy then .error (.other ("'" ++ other.typeName ++ "' object is not subscriptable"))
      else .ok none

/-- The loop over the fields of a path. -/
def discoverPath (path : String) (shared : Json) :
    List (String × Json) → OpenAPIAdapter × List ToolDef →
      Except ExecError (OpenAPIAdapter × List ToolDef)
  | [], state => .ok state
  | field :: rest, state =>
      match SpecOperation.of? py path shared field with
      | none => discoverPath path shared rest state
      | some operation => do
          let found ← operation.describe py
          discoverPath path shared rest (state.1.add found, state.2 ++ [found.1])

/-- The loop over the paths. -/
def discoverPaths : List (String × Json) → OpenAPIAdapter × List ToolDef →
    Except ExecError (OpenAPIAdapter × List ToolDef)
  | [], state => .ok state
  | (path, .obj item) :: rest, state => do
      let state ← discoverPath py path (Dict.getD item "parameters" (.arr [])) item state
      discoverPaths rest state
  | (_, other) :: _, _ => .error (.other (noAttribute other "get"))

/-- The adapter with the address of the server as its base. -/
def located (adapter : OpenAPIAdapter) : Option String → OpenAPIAdapter
  | some url => { adapter with baseUrl := urljoin adapter.url url }
  | none => adapter

/-- `discover`, on the specification that the request for it returned. -/
def discover (adapter : OpenAPIAdapter) (spec : Dict) :
    Except ExecError (OpenAPIAdapter × List ToolDef) := do
  let server ← serverUrl spec
  match spec.getD "paths" (.obj []) with
  | .obj paths => discoverPaths py paths (adapter.located server, [])
  | other => .error (.other (noAttribute other "items"))

def get (adapter : OpenAPIAdapter) (name : Json) : Except ExecError ToolDef :=
  match name with
  | .str text =>
      match adapter.tools.find? text with
      | some tool => .ok tool
      | none => .error (.toolNotFound ("OpenAPI tool not found: " ++ text))
  | value =>
      if value.hashable then .error (.toolNotFound ("OpenAPI tool not found: " ++ value.text py))
      else .error (.other (unhashable value))

/-- The operation that `invoke` performs. -/
def operation (adapter : OpenAPIAdapter) (name : Json) : Except ExecError OpenAPIOperation := do
  let tool ← adapter.get py name
  match adapter.operations.find? tool.name with
  | some named => .ok named.operation
  | none => .error (.toolNotFound ("OpenAPI operation not discovered: " ++ tool.name))

end OpenAPIAdapter

/-- What the loop over the parameters has put together. -/
structure Filling where
  path : String
  query : Dict := []
  headers : List (String × String)

/-- `headers[name] = value`. -/
def setHeader (headers : List (String × String)) (name value : String) : List (String × String) :=
  if headers.any fun header => header.1 = name then
    headers.map fun header => if header.1 = name then (name, value) else header
  else headers ++ [(name, value)]

/-- `path.replace("\x7b" + name + "\x7d", value)`. -/
def replacePlaceholder (path name value : String) : String :=
  String.ofList (Templates.replace ('{' :: name.toList ++ ['}']) value.toList path.toList)

namespace Filling
variable (py : Builtins)

/-- One parameter of the operation. -/
def parameter (arguments : Dict) (filling : Filling) (parameter : Dict) :
    Except ExecError Filling :=
  match parameter.getD "name" .null with
  | .str name =>
      match arguments.get? name with
      | none => .ok filling
      | some value =>
          match parameter.getD "in" .null with
          | .str "path" =>
              .ok { filling with path := replacePlaceholder filling.path name (value.text py) }
          | .str "query" => .ok { filling with query := filling.query.set name value }
          | .str "header" =>
              .ok { filling with headers := setHeader filling.headers name (value.text py) }
          | _ => .ok filling
  | other => if other.hashable then .ok filling else .error (.other (unhashable other))

end Filling

namespace OpenAPIOperation
variable (py : Builtins)

/-- The request of the operation under the base address. -/
def request (operation : OpenAPIOperation) (baseUrl : String) (headers : List (String × String))
    (arguments : Dict) : Except ExecError HttpRequest := do
  let filling ← operation.parameters.foldlM (Filling.parameter py arguments)
    { path := operation.path, headers }
  return {
    method := operation.method
    url := urljoin (String.ofList (baseUrl.toList.rdropWhile (· = '/')) ++ "/")
      (String.ofList (filling.path.toList.dropWhile (· = '/')))
    params := filling.query
    headers := filling.headers
    json := if operation.hasBody then arguments.getD "body" .null else .null }

end OpenAPIOperation

namespace OpenAPIAdapter
variable (py : Builtins)

def invoke (adapter : OpenAPIAdapter) (name : Json) (arguments : Dict) :
    Except ExecError HttpRequest := do
  let operation ← adapter.operation py name
  operation.request py adapter.baseUrl adapter.headers arguments

/-- The name that the callable of a tool invokes: its own, unless the arguments hold the name of
the keyword that the name is bound to. -/
def boundName (name : String) (arguments : Dict) : Json := arguments.getD "_name" (.str name)

/-- The callable that `bind` registers for a tool. -/
def call (adapter : OpenAPIAdapter) (name : String) (arguments : Dict) :
    Except ExecError HttpRequest :=
  adapter.invoke py (boundName name arguments) (arguments.filter fun field => field.1 ≠ "_name")

end OpenAPIAdapter
end AgentRuntime
