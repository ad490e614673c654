import AgentRuntime.Discovery
import AgentRuntime.Spending

/-! The tools of a process. The registry is built from the builtin tools, the MCP servers and the
OpenAPI specifications, in this order, and each of them may take over a name. -/
namespace AgentRuntime
open Machines Programs Tables

structure McpAnnotations where
  readOnlyHint : Option Bool := none
  destructiveHint : Option Bool := none

/-- A tool as an MCP server lists it. -/
structure McpTool where
  name : String
  description : Option String := none
  inputSchema : Dict := []
  annotations : Option McpAnnotations := none

namespace McpTool

def readOnly (tool : McpTool) : Bool :=
  (tool.annotations.bind McpAnnotations.readOnlyHint).getD false

def destructive (tool : McpTool) : Bool :=
  (tool.annotations.bind McpAnnotations.destructiveHint).getD false

def toolDef (tool : McpTool) : ToolDef where
  name := tool.name
  description := (tool.description.filter fun text => text ≠ "").getD tool.name
  inputSchema := tool.inputSchema
  risk := if tool.destructive then .sensitive else if tool.readOnly then .read else .write
  source := .mcp

end McpTool

/-- A reply to `list_tools`. -/
structure McpPage where
  tools : List McpTool
  nextCursor : Option String := none

structure MCPAdapter where
  endpoint : String
  tools : Table ToolDef := .empty

def MCPAdapter.register (adapter : MCPAdapter) (tool : ToolDef) : MCPAdapter :=
  { adapter with tools := adapter.tools.put tool }

/-- The loop of `discover`: the adapter, the tools found so far and the cursors that were sent. -/
structure McpDiscovery where
  adapter : MCPAdapter
  discovered : List McpTool := []
  cursors : List (Option String) := []

namespace McpDiscovery

def read (state : McpDiscovery) (cursor : Option String) (page : McpPage) : McpDiscovery where
  adapter := (page.tools.map McpTool.toolDef).foldl MCPAdapter.register state.adapter
  discovered := state.discovered ++ page.tools
  cursors := state.cursors ++ [cursor]

/-- The requests from a cursor on, with the replies in their order. There is no result where the
replies end before the cursors do. -/
def listPages (state : McpDiscovery) (cursor : Option String) : List McpPage → Option McpDiscovery
  | [] => none
  | page :: pages =>
      match page.nextCursor with
      | none => some (state.read cursor page)
      | some next => (state.read cursor page).listPages (some next) pages

end McpDiscovery

/-- `discover` of a new adapter. -/
def MCPAdapter.discover (endpoint : String) (replies : List McpPage) : Option McpDiscovery :=
  McpDiscovery.listPages { adapter := { endpoint } } none replies

/-- What a callable of the registry does. -/
inductive ToolEffect where
  | builtin (name : String) (arguments : Dict)
  | callTool (endpoint name : String) (arguments : Dict)
  | request (sent : HttpRequest)

namespace MCPAdapter
variable (py : Builtins)

def get (adapter : MCPAdapter) (name : Json) : Except ExecError ToolDef :=
  match name with
  | .str text =>
      match adapter.tools.find? text with
      | some tool => .ok tool
      | none => .error (.toolNotFound ("MCP tool not found: " ++ text))
  | value =>
      if value.hashable then .error (.toolNotFound ("MCP tool not found: " ++ value.text py))
      else .error (.other (unhashable value))

def invoke (adapter : MCPAdapter) (name : Json) (arguments : Dict) :
    Except ExecError ToolEffect := do
  let tool ← adapter.get py name
  return .callTool adapter.endpoint tool.name arguments

end MCPAdapter

/-- Where a callable comes from. -/
inductive Provider where
  | builtin
  | mcp (adapter : MCPAdapter)
  | openapi (adapter : OpenAPIAdapter)

/-- The callable that is registered for a tool. The adapters bind its name to a keyword, so the
arguments may hold another one. -/
def Provider.call (py : Builtins) (provider : Provider) (name : String) (arguments : Dict) :
    Except ExecError ToolEffect :=
  match provider with
  | .builtin => .ok (.builtin name arguments)
  | .mcp adapter =>
      adapter.invoke py (OpenAPIAdapter.boundName name arguments)
        (arguments.filter fun field => field.1 ≠ "_name")
  | .openapi adapter => (adapter.call py name arguments).map .request

structure BoundCallable where
  name : String
  provider : Provider

instance : Keyed BoundCallable String := ⟨BoundCallable.name⟩

/-- The `ToolRegistry` with its callables. -/
structure BoundRegistry where
  tools : Table ToolDef := .empty
  callables : Table BoundCallable := .empty
  scope : ToolScope := {}

namespace BoundRegistry

def register (registry : BoundRegistry) (tool : ToolDef) : BoundRegistry :=
  { registry with tools := registry.tools.put tool }

def registerCallable (registry : BoundRegistry) (name : String) (provider : Provider) :
    BoundRegistry :=
  { registry with callables := registry.callables.put ⟨name, provider⟩ }

/-- `bind`. -/
def bind (registry : BoundRegistry) (provider : Provider) (tools : List ToolDef) :
    BoundRegistry :=
  tools.foldl (fun registry tool => (registry.register tool).registerCallable tool.name provider)
    registry

/-- The registry as a graph uses it. -/
def toRegistry (registry : BoundRegistry) : ToolRegistry where
  tools := registry.tools
  callables := registry.callables.rows.map BoundCallable.name
  scope := registry.scope

/-- What a call under the name does. -/
def perform (py : Builtins) (registry : BoundRegistry) (name : String) (arguments : Dict) :
    Option (Except ExecError ToolEffect) :=
  (registry.callables.find? name).map fun bound => bound.provider.call py name arguments

end BoundRegistry

def numberSchema : Json := .obj [("type", .str "number")]

def calculatorTool : ToolDef where
  name := "calculator"
  description := "Perform basic arithmetic operations (add, sub, mul, div, pow)"
  inputSchema := [("type", .str "object"),
    ("properties", .obj [
      ("operation", .obj [("type", .str "string"),
        ("enum", .arr (["add", "sub", "mul", "div", "pow"].map Json.str))]),
      ("a", numberSchema), ("b", numberSchema)]),
    ("required", .arr (["operation", "a", "b"].map Json.str))]

def datetimeTool : ToolDef where
  name := "datetime"
  description := "Get the current UTC time in ISO or Unix format"
  inputSchema := [("type", .str "object"),
    ("properties", .obj [
      ("format", .obj [("type", .str "string"), ("enum", .arr [.str "iso", .str "unix"]),
        ("default", .str "iso")])])]

/-- An MCP server with its replies to the discovery. -/
structure McpEndpoint where
  endpoint : String
  replies : List McpPage

/-- The address of a specification with what is read from it. -/
structure OpenAPISource where
  url : String
  spec : Dict

structure ToolSources where
  mcpEndpoints : List McpEndpoint := []
  openapiUrls : List OpenAPISource := []

namespace ToolSources
variable (py : Builtins)

def bindMcp : List McpEndpoint → BoundRegistry → Option BoundRegistry
  | [], registry => some registry
  | source :: rest, registry => do
      let found ← MCPAdapter.discover source.endpoint source.replies
      bindMcp rest (registry.bind (.mcp found.adapter) found.adapter.tools.rows)

def bindOpenapi : List OpenAPISource → BoundRegistry → Option BoundRegistry
  | [], registry => some registry
  | source :: rest, registry => do
      let (adapter, _) ← ((OpenAPIAdapter.new source.url []).discover py source.spec).toOption
      bindOpenapi rest (registry.bind (.openapi adapter) adapter.tools.rows)

/-- `build_tool_registry`, and none where it raises or a discovery does not end. -/
def buildToolRegistry (sources : ToolSources) : Option BoundRegistry := do
  let registry := BoundRegistry.bind {} .builtin [calculatorTool, datetimeTool]
  bindOpenapi py sources.openapiUrls (← bindMcp sources.mcpEndpoints registry)

end ToolSources

/-- A tool as one of the sources provides it. -/
structure Offer where
  provider : Provider
  tool : ToolDef

/-- A discovery has read all pages of a listing: each request carries the cursor of the page before,
and only the last page has none. -/
structure McpEndpoint.Discovered (source : McpEndpoint) (found : McpDiscovery) : Prop where
  pages : ∃ read last rest, source.replies = read ++ last :: rest ∧
    (∀ page ∈ read, page.nextCursor.isSome) ∧ last.nextCursor = none ∧
    found.cursors = none :: read.map McpPage.nextCursor ∧
    found.discovered = (read ++ [last]).flatMap McpPage.tools
  adapter : found.adapter = (found.discovered.map McpTool.toolDef).foldl MCPAdapter.register
    { endpoint := source.endpoint }

def McpDiscovery.offers (found : McpDiscovery) : List Offer :=
  (found.discovered.map McpTool.toolDef).map (Offer.mk (.mcp found.adapter))

def builtinOffers : List Offer := [calculatorTool, datetimeTool].map (Offer.mk .builtin)

/-- What the sources offer, in the order of their registration. -/
structure ToolSources.Offers (py : Builtins) (sources : ToolSources) (offers : List Offer) :
    Prop where
  found : ∃ mcp openapi, List.Forall₂ McpEndpoint.Discovered sources.mcpEndpoints mcp ∧
    List.Forall₂ (fun source found =>
      (OpenAPIAdapter.new source.url []).discover py source.spec = .ok found)
      sources.openapiUrls openapi ∧
    offers = builtinOffers ++ mcp.flatMap McpDiscovery.offers ++
      openapi.flatMap fun found => found.2.map (Offer.mk (.openapi found.1))

def lastOffer (offers : List Offer) (name : String) : Option Offer :=
  offers.reverse.find? fun offer => offer.tool.name = name

section Binding
variable {py : Builtins} {registry : BoundRegistry} {provider : Provider}

theorem tools_bind (tools : List ToolDef) :
    (registry.bind provider tools).tools = tools.foldl Table.put registry.tools := by
  induction tools generalizing registry with
  | nil => rfl
  | cons tool tools ih => exact ih

theorem callables_bind (tools : List ToolDef) : (registry.bind provider tools).callables =
    (tools.map fun tool => BoundCallable.mk tool.name provider).foldl Table.put
      registry.callables := by
  induction tools generalizing registry with
  | nil => rfl
  | cons tool tools ih => exact ih

theorem lastOffer_append (offers more : List Offer) (name : String) :
    lastOffer (offers ++ more) name = (lastOffer more name).or (lastOffer offers name) := by
  rw [lastOffer, List.reverse_append, List.find?_append]
  rfl

theorem lastOffer_map (tools : List ToolDef) (name : String) :
    lastOffer (tools.map (Offer.mk provider)) name =
      (tools.reverse.find? fun tool => tool.name = name).map (Offer.mk provider) := by
  rw [lastOffer, ← List.map_reverse, List.find?_map]
  rfl

/-- A tool in the table of its source. -/
def Provider.Lists (provider : Provider) (tool : ToolDef) : Prop :=
  match provider with
  | .builtin => tool.risk = .read
  | .mcp adapter => adapter.tools.find? tool.name = some tool
  | .openapi adapter => adapter.tools.find? tool.name = some tool ∧ tool.risk ≠ .sensitive

/-- The last offer of a name decides what is registered under it. -/
structure Offered (registry : BoundRegistry) (offers : List Offer) : Prop where
  tools : ∀ name, registry.tools.find? name = (lastOffer offers name).map Offer.tool
  callables : ∀ name, registry.callables.find? name =
    (lastOffer offers name).map fun offer => ⟨name, offer.provider⟩
  lists : ∀ name offer, lastOffer offers name = some offer → offer.provider.Lists offer.tool

/-- The tools that a source has put into its own table are bound. -/
theorem Offered.bind {offers : List Offer} (offered : Offered registry offers)
    (provider : Provider)
    {discovered : List ToolDef} {table : Table ToolDef}
    (filled : table = discovered.foldl Table.put .empty)
    (lists : ∀ tool, table.find? tool.name = some tool → provider.Lists tool) :
    Offered (registry.bind provider table.rows)
      (offers ++ discovered.map (Offer.mk provider)) := by
  have last (name : String) :
      (discovered.reverse.find? fun tool => tool.name = name) = table.find? name := by
    rw [filled, Table.find?_foldl_put_reverse, Table.find?_empty, Option.or_none]
    rfl
  constructor
  · intro name
    rw [tools_bind, Table.find?_foldl_put_reverse, Table.find?_reverse_rows, offered.tools,
      lastOffer_append, lastOffer_map, last]
    cases table.find? name <;> rfl
  · intro name
    have put : (registry.bind provider table.rows).callables.find? name =
        ((table.rows.reverse.find? fun tool => key tool = name).map fun tool =>
          BoundCallable.mk tool.name provider).or (registry.callables.find? name) := by
      rw [callables_bind, Table.find?_foldl_put_reverse, ← List.map_reverse, List.find?_map]
      rfl
    rw [put, Table.find?_reverse_rows, offered.callables, lastOffer_append, lastOffer_map, last]
    cases found : table.find? name with
    | none => rfl
    | some tool =>
        have same : tool.name = name := Table.key_of_find? found
        rw [← same]
        rfl
  · intro name offer chosen
    rw [lastOffer_append, lastOffer_map, last] at chosen
    cases found : table.find? name with
    | none =>
        rw [found] at chosen
        exact offered.lists name offer chosen
    | some tool =>
        rw [found] at chosen
        cases chosen
        have same : tool.name = name := Table.key_of_find? found
        exact lists tool (same ▸ found)

theorem register_foldl (tools : List ToolDef) (adapter : MCPAdapter) :
    tools.foldl MCPAdapter.register adapter =
      { adapter with tools := tools.foldl Table.put adapter.tools } := by
  induction tools generalizing adapter with
  | nil => rfl
  | cons tool tools ih => exact ih _

theorem listPages_some {state found : McpDiscovery} {cursor : Option String}
    {pages : List McpPage} (listed : state.listPages cursor pages = some found) :
    ∃ read last rest, pages = read ++ last :: rest ∧ (∀ page ∈ read, page.nextCursor.isSome) ∧
      last.nextCursor = none ∧
      found.cursors = state.cursors ++ cursor :: read.map McpPage.nextCursor ∧
      found.discovered = state.discovered ++ (read ++ [last]).flatMap McpPage.tools ∧
      found.adapter = (((read ++ [last]).flatMap McpPage.tools).map McpTool.toolDef).foldl
        MCPAdapter.register state.adapter := by
  induction pages generalizing state cursor with
  | nil => contradiction
  | cons page pages ih =>
      rw [McpDiscovery.listPages] at listed
      cases next : page.nextCursor with
      | none =>
          rw [next] at listed
          cases listed
          refine ⟨[], page, pages, rfl, ?_, next, rfl, ?_, ?_⟩
          · intro other member
            contradiction
          · simp [McpDiscovery.read]
          · simp [McpDiscovery.read]
      | some following =>
          rw [next] at listed
          obtain ⟨read, last, rest, rfl, more, ended, cursors, discovered, adapter⟩ := ih listed
          refine ⟨page :: read, last, rest, rfl, ?_, ended, ?_, ?_, ?_⟩
          · intro other member
            rcases List.mem_cons.mp member with rfl | later
            · rw [next]
              rfl
            · exact more other later
          · simp [cursors, McpDiscovery.read, next]
          · simp [discovered, McpDiscovery.read]
          · simp [adapter, McpDiscovery.read]

theorem discover_some {source : McpEndpoint} {found : McpDiscovery}
    (discovers : MCPAdapter.discover source.endpoint source.replies = some found) :
    source.Discovered found := by
  obtain ⟨read, last, rest, replies, more, ended, cursors, discovered, adapter⟩ :=
    listPages_some discovers
  rw [List.nil_append] at cursors discovered
  exact ⟨⟨read, last, rest, replies, more, ended, cursors, discovered⟩, discovered ▸ adapter⟩

theorem Offered.mcp {sources : List McpEndpoint} {offers : List Offer} {after : BoundRegistry}
    (offered : Offered registry offers)
    (bound : ToolSources.bindMcp sources registry = some after) :
    ∃ found, List.Forall₂ McpEndpoint.Discovered sources found ∧
      Offered after (offers ++ found.flatMap McpDiscovery.offers) := by
  induction sources generalizing registry offers with
  | nil =>
      cases bound
      exact ⟨[], .nil, by simpa using offered⟩
  | cons source sources ih =>
      obtain ⟨found, discovers, bound⟩ := Option.bind_eq_some_iff.mp bound
      have discovered := discover_some discovers
      have filled : found.adapter.tools =
          (found.discovered.map McpTool.toolDef).foldl Table.put .empty := by
        rw [discovered.adapter, register_foldl]
      have more := offered.bind (.mcp found.adapter) filled fun _ stored => stored
      obtain ⟨others, all, offered⟩ := ih more bound
      refine ⟨found :: others, .cons discovered all, ?_⟩
      rwa [List.flatMap_cons, ← List.append_assoc]

theorem describe_risk {operation : SpecOperation} {tool : ToolDef} {performed : OpenAPIOperation}
    (described : operation.describe py = .ok (tool, performed)) : tool.risk ≠ .sensitive := by
  unfold SpecOperation.describe at described
  dsimp only at described
  split at described
  next => contradiction
  next => contradiction
  next =>
    obtain ⟨schema, _, described⟩ := of_bind_ok described
    split at described
    next =>
      cases described
      dsimp only
      split <;> decide
    next => contradiction

theorem Offered.openapi {sources : List OpenAPISource} {offers : List Offer}
    {after : BoundRegistry} (offered : Offered registry offers)
    (bound : ToolSources.bindOpenapi py sources registry = some after) :
    ∃ found, List.Forall₂ (fun source found =>
        (OpenAPIAdapter.new source.url []).discover py source.spec = .ok found) sources found ∧
      Offered after (offers ++ found.flatMap fun found =>
        found.2.map (Offer.mk (.openapi found.1))) := by
  induction sources generalizing registry offers with
  | nil =>
      cases bound
      exact ⟨[], .nil, by simpa using offered⟩
  | cons source sources ih =>
      obtain ⟨found, discovers, bound⟩ := Option.bind_eq_some_iff.mp bound
      cases discovered : (OpenAPIAdapter.new source.url []).discover py source.spec with
      | error => rw [discovered] at discovers; contradiction
      | ok result =>
          rw [discovered] at discovers
          cases discovers
          obtain ⟨described, all, tools, filled, _⟩ := discover_ok discovered
          rw [← tools] at filled
          have lists (tool : ToolDef) (stored : found.1.tools.find? tool.name = some tool) :
              (Provider.openapi found.1).Lists tool := by
            refine ⟨stored, ?_⟩
            rw [filled] at stored
            rcases Table.mem_of_find?_foldl_put stored with member | none
            · rw [tools] at member
              obtain ⟨pair, among, rfl⟩ := List.mem_map.mp member
              obtain ⟨_, _, described⟩ := all.mem among
              exact describe_risk described
            · contradiction
          obtain ⟨others, rest, offered⟩ := ih (offered.bind _ filled lists) bound
          refine ⟨found :: others, .cons discovered rest, ?_⟩
          rwa [List.flatMap_cons, ← List.append_assoc]

end Binding

section Registry
variable {py : Builtins} {sources : ToolSources} {registry : BoundRegistry}

theorem builtin_offered :
    Offered (BoundRegistry.bind {} .builtin [calculatorTool, datetimeTool]) builtinOffers := by
  have empty : Offered {} [] := ⟨fun _ => rfl, fun _ => rfl, fun _ _ chosen => by contradiction⟩
  let table : Table ToolDef := [calculatorTool, datetimeTool].foldl Table.put .empty
  have lists (tool : ToolDef) (stored : table.find? tool.name = some tool) :
      Provider.builtin.Lists tool := by
    rcases Table.mem_of_find?_foldl_put stored with member | none
    · simp only [List.mem_cons, List.not_mem_nil, or_false] at member
      rcases member with rfl | rfl <;> rfl
    · contradiction
  exact empty.bind .builtin rfl lists

theorem build_offered (built : sources.buildToolRegistry py = some registry) :
    ∃ offers, sources.Offers py offers ∧ Offered registry offers := by
  obtain ⟨bound, mcp, openapi⟩ := Option.bind_eq_some_iff.mp built
  obtain ⟨found, listed, offered⟩ := builtin_offered.mcp mcp
  obtain ⟨described, read, offered⟩ := offered.openapi openapi
  exact ⟨_, ⟨found, described, listed, read, rfl⟩, offered⟩

theorem isSensitive_iff (name : String) : registry.toRegistry.isSensitive name = true ↔
    ∃ tool, registry.tools.find? name = some tool ∧ tool.risk = .sensitive := by
  simp [ToolRegistry.isSensitive, BoundRegistry.toRegistry, Option.any_eq_true]

theorem lastOffer_some {offers : List Offer} {name : String} {offer : Offer}
    (last : lastOffer offers name = some offer) : offer ∈ offers ∧ offer.tool.name = name :=
  ⟨List.mem_reverse.mp (List.mem_of_find?_eq_some last), by simpa using List.find?_some last⟩

/-- An MCP adapter offers tools of its server. -/
theorem ToolSources.Offers.of_mcp {offers : List Offer} (all : sources.Offers py offers)
    {offer : Offer} {adapter : MCPAdapter} (member : offer ∈ offers)
    (provided : offer.provider = .mcp adapter) : ∃ tool : McpTool, offer.tool = tool.toolDef := by
  obtain ⟨mcp, openapi, _, _, rfl⟩ := all.found
  simp only [List.mem_append, List.mem_flatMap, builtinOffers, List.mem_map,
    McpDiscovery.offers] at member
  rcases member with (⟨_, _, rfl⟩ | ⟨_, _, _, ⟨tool, _, rfl⟩, rfl⟩) | ⟨_, _, _, _, rfl⟩
  · contradiction
  · exact ⟨tool, rfl⟩
  · contradiction

theorem toolDef_sensitive (tool : McpTool) :
    tool.toolDef.risk = .sensitive ↔ tool.destructive = true := by
  unfold McpTool.toolDef
  dsimp only
  cases tool.destructive with
  | true => simp
  | false =>
      rw [if_neg Bool.false_ne_true]
      cases tool.readOnly <;> simp

/-- The source that offers a name last provides its definition and its callable, and the tool is
sensitive only where a server has marked it as destructive. -/
theorem registry_follows_sources (built : sources.buildToolRegistry py = some registry) :
    ∃ offers, sources.Offers py offers ∧ ∀ name,
      registry.tools.find? name = (lastOffer offers name).map Offer.tool ∧
      (∀ arguments, registry.perform py name arguments =
        (lastOffer offers name).map fun offer => offer.provider.call py name arguments) ∧
      (registry.toRegistry.isSensitive name = true ↔ ∃ (adapter : MCPAdapter) (tool : McpTool),
        lastOffer offers name = some ⟨.mcp adapter, tool.toolDef⟩ ∧
          tool.destructive = true) := by
  obtain ⟨offers, all, offered⟩ := build_offered built
  refine ⟨offers, all, fun name => ⟨offered.tools name, fun arguments => ?_, ?_⟩⟩
  · rw [BoundRegistry.perform, offered.callables, Option.map_map]
    rfl
  · rw [isSensitive_iff, offered.tools]
    constructor
    · rintro ⟨tool, chosen, sensitive⟩
      obtain ⟨offer, last, rfl⟩ := Option.map_eq_some_iff.mp chosen
      have lists := offered.lists name offer last
      obtain ⟨provider, tool⟩ := offer
      cases provider with
      | builtin =>
          rw [show tool.risk = .read from lists] at sensitive
          contradiction
      | openapi adapter => exact absurd sensitive lists.2
      | mcp adapter =>
          obtain ⟨listed, rfl⟩ := all.of_mcp (lastOffer_some last).1 rfl
          exact ⟨adapter, listed, last, (toolDef_sensitive listed).mp sensitive⟩
    · rintro ⟨adapter, tool, last, destructive⟩
      exact ⟨tool.toolDef, by rw [last]; rfl, (toolDef_sensitive tool).mpr destructive⟩

end Registry

/-- The call reaches a tool that is sensitive to its server. -/
def BoundRegistry.Destroys (py : Builtins) (registry : BoundRegistry) (name : String)
    (arguments : Dict) : Prop :=
  ∃ adapter target rest tool, registry.callables.find? name = some ⟨name, .mcp adapter⟩ ∧
    registry.perform py name arguments = some (.ok (.callTool adapter.endpoint target rest)) ∧
    adapter.tools.find? target = some tool ∧ tool.risk = .sensitive

/-- A tool node reaches such a tool right behind an interrupt for the call, answered with an
approval. -/
def Approves (py : Builtins) (registry : BoundRegistry) (history : List OpEntry) : Op → Prop
  | .invoke .toolNode name arguments =>
      registry.Destroys py name arguments → ApprovedCall py name arguments history
  | _ => True

/-- The arguments of a call hold the keyword of the adapters. -/
def Op.renames : Op → Bool
  | .invoke _ _ arguments => (arguments.get? "_name").isSome
  | _ => false

section Calls
variable {sources : ToolSources} {registry : BoundRegistry} {c : RunConfig}

theorem mcp_get_ok {py : Builtins} {adapter : MCPAdapter} {name : Json} {tool : ToolDef}
    (found : adapter.get py name = .ok tool) :
    name = .str tool.name ∧ adapter.tools.find? tool.name = some tool := by
  unfold MCPAdapter.get at found
  split at found
  next text =>
    split at found
    next stored =>
      cases found
      have same : tool.name = text := Table.key_of_find? stored
      exact ⟨by rw [same], same ▸ stored⟩
    next => contradiction
  next => split at found <;> contradiction

/-- A call of an MCP callable reaches the tool of its server that goes by the keyword, where the
arguments hold it, and otherwise by the name of the callable. -/
theorem perform_mcp_iff {py : Builtins} {name : String} {adapter : MCPAdapter} {arguments : Dict}
    (bound : registry.callables.find? name = some ⟨name, .mcp adapter⟩) (endpoint target : String)
    (rest : Dict) :
    registry.perform py name arguments = some (.ok (.callTool endpoint target rest)) ↔
      endpoint = adapter.endpoint ∧ (arguments.get? "_name").getD (.str name) = .str target ∧
        (adapter.tools.find? target).isSome ∧
        rest = arguments.filter fun field => field.1 ≠ "_name" := by
  have performs : registry.perform py name arguments =
      some ((Provider.mcp adapter).call py name arguments) := by
    rw [BoundRegistry.perform, bound]
    rfl
  rw [performs, Option.some.injEq]
  constructor
  · intro performed
    obtain ⟨found, got, effect⟩ := of_bind_ok performed
    cases effect
    obtain ⟨named, stored⟩ := mcp_get_ok got
    exact ⟨rfl, named, Option.isSome_of_eq_some stored, rfl⟩
  · rintro ⟨rfl, named, stored, rfl⟩
    obtain ⟨tool, stored⟩ := Option.isSome_iff_exists.mp stored
    have own : tool.name = target := Table.key_of_find? stored
    have keyword : OpenAPIAdapter.boundName name arguments = .str target := named
    simp only [Provider.call, MCPAdapter.invoke, keyword, MCPAdapter.get, stored, own, bind,
      Except.bind, pure, Except.pure]

theorem destroys_sensitive {py : Builtins} {name : String} {arguments : Dict}
    (built : sources.buildToolRegistry py = some registry)
    (plain : arguments.get? "_name" = none) (destroys : registry.Destroys py name arguments) :
    registry.toRegistry.isSensitive name = true := by
  obtain ⟨offers, _, offered⟩ := build_offered built
  obtain ⟨adapter, target, rest, tool, bound, performed, stored, sensitive⟩ := destroys
  obtain ⟨_, named, _⟩ := (perform_mcp_iff bound _ _ _).mp performed
  rw [plain] at named
  cases named
  rw [offered.callables] at bound
  obtain ⟨offer, last, provided⟩ := Option.map_eq_some_iff.mp bound
  have lists := offered.lists name offer last
  rw [show offer.provider = .mcp adapter from congrArg BoundCallable.provider provided] at lists
  rw [isSensitive_iff, offered.tools, last]
  have own := (lastOffer_some last).2
  have same : offer.tool = tool := Option.some.inj (lists.symm.trans (own ▸ stored))
  exact ⟨offer.tool, rfl, same ▸ sensitive⟩

/-- A tool node reaches a tool that its server has marked as destructive only right behind an
interrupt for the call that is answered with an approval, unless the arguments hold the keyword of
the adapters. Where they do, the keyword decides which tool is reached. -/
theorem destructive_calls_approved (built : sources.buildToolRegistry c.py = some registry)
    (used : c.deps.toolRegistry = some registry.toRegistry) :
    (∀ s, Reachable (executions c) anyStep s → ∀ e ∈ s.executed,
      Follows (fun history op => op.renames = false → Approves c.py registry history op)
        e.history) ∧
    ∀ name adapter arguments, registry.callables.find? name = some ⟨name, .mcp adapter⟩ →
      ∀ endpoint target rest,
        registry.perform c.py name arguments = some (.ok (.callTool endpoint target rest)) ↔
          endpoint = adapter.endpoint ∧ (arguments.get? "_name").getD (.str name) = .str target ∧
            (adapter.tools.find? target).isSome ∧
            rest = arguments.filter fun field => field.1 ≠ "_name" := by
  refine ⟨fun s reached e member => ?_, fun name adapter arguments bound => perform_mcp_iff bound⟩
  have obeys : Inductive (executions c) anyStep (Obeys fun history op =>
      op.renames = false → Approves c.py registry history op) := by
    refine ⟨fun s first => .of_initial first, fun s a t obeys _ stepped => ?_⟩
    refine obeys.step (RunState.step_sound stepped) fun _ stored _ _ => course_wp ?_ ?_ _ stored
    · intro node state history op _ rule plain
      cases op with
      | invoke site name arguments =>
          cases site with
          | toolNode =>
              intro destroys
              have absent : arguments.get? "_name" = none := by
                simpa [Op.renames] using plain
              have sensitive := destroys_sensitive built absent destroys
              apply rule.2
              rw [RuntimeDependencies.sensitive, Site.registry, used]
              exact sensitive
          | subagent => trivial
      | _ => trivial
    · intro history stored _
      trivial
  exact (obeys.reachable reached).executed member

end Calls

section Sample

def balanceTool : McpTool :=
  { name := "balance", annotations := some { readOnlyHint := some true } }

def transferTool : McpTool :=
  { name := "transfer", annotations := some { destructiveHint := some true } }

/-- A server that lists its tools on two pages. -/
def bankSources : ToolSources where
  mcpEndpoints :=
    [⟨"https://bank.test/mcp", [⟨[balanceTool], some "2"⟩, ⟨[transferTool], none⟩]⟩]

def bankAdapter : MCPAdapter :=
  [balanceTool.toolDef, transferTool.toolDef].foldl MCPAdapter.register
    { endpoint := "https://bank.test/mcp" }

def bankRegistry : BoundRegistry :=
  (BoundRegistry.bind {} .builtin [calculatorTool, datetimeTool]).bind (.mcp bankAdapter)
    bankAdapter.tools.rows

theorem bankSources_built : bankSources.buildToolRegistry .onEmpty = some bankRegistry := rfl

theorem bank_offers : bankRegistry.toRegistry.isSensitive "transfer" = true ∧
    ∃ offers, bankSources.Offers .onEmpty offers ∧ ∀ name,
      bankRegistry.tools.find? name = (lastOffer offers name).map Offer.tool ∧
      (∀ arguments, bankRegistry.perform .onEmpty name arguments =
        (lastOffer offers name).map fun offer =>
          offer.provider.call .onEmpty name arguments) ∧
      (bankRegistry.toRegistry.isSensitive name = true ↔
        ∃ (adapter : MCPAdapter) (tool : McpTool),
          lastOffer offers name = some ⟨.mcp adapter, tool.toolDef⟩ ∧
            tool.destructive = true) :=
  ⟨by decide +kernel, registry_follows_sources bankSources_built⟩

def bankRun : RunConfig where
  py := .onEmpty
  runId := sampleRun
  program := transferRun.program
  deps := { sampleDeps with toolRegistry := some bankRegistry.toRegistry }

/-- The transfer is made on its approval. A call of the balance that holds the keyword makes it
too. -/
theorem bank_transfer_approved : (∃ s, Reachable (executions bankRun) anyStep s ∧
    authorisers bankRun.deps s.executed = [some "a1"] ∧
    ∀ e ∈ s.executed, Follows (fun history op =>
      op.renames = false → Approves bankRun.py bankRegistry history op) e.history) ∧
    bankRegistry.toRegistry.isSensitive "balance" = false ∧
    bankRegistry.perform .onEmpty "balance" [("_name", .str "transfer")] =
      some (.ok (.callTool "https://bank.test/mcp" "transfer" [])) := by
  obtain ⟨approved, reaches⟩ := destructive_calls_approved (c := bankRun) bankSources_built rfl
  obtain ⟨s, run, calls⟩ := Run.of_test (M := executions bankRun) bankRun.created
    (sampleApproved ++ sampleCall)
    (fun s => authorisers bankRun.deps s.executed = [some "a1"]) (by decide +kernel)
  have reached := (Reachable.start bankRun.created_initial).run run
  have bound : bankRegistry.callables.find? "balance" = some ⟨"balance", .mcp bankAdapter⟩ := rfl
  exact ⟨⟨s, reached, calls, approved s reached⟩, by decide +kernel,
    (reaches "balance" bankAdapter _ bound _ _ _).mpr ⟨rfl, rfl, rfl, rfl⟩⟩

end Sample
end AgentRuntime
