import Mathlib.Data.List.Perm.Basic
import AgentRuntime.Routing

/-! Graph definitions in the columns of a database. A definition is stored as JSON, whose objects
come back with their keys in the order of the column, and read back it compiles to the same graph. -/
namespace AgentRuntime
open Machines Tables

namespace Json

mutual

/-- The value as a JSON column keeps it: the keys of every object in the order of the column. -/
def column (le : String → String → Bool) : Json → Json
  | .arr items => .arr (columnItems le items)
  | .obj fields => .obj ((columnFields le fields).insertionSort fun f g => le f.1 g.1)
  | value => value

def columnItems (le : String → String → Bool) : List Json → List Json
  | [] => []
  | item :: rest => item.column le :: columnItems le rest

def columnFields (le : String → String → Bool) : List (String × Json) → List (String × Json)
  | [] => []
  | (key, item) :: rest => (key, item.column le) :: columnFields le rest

end

mutual

/-- The keys of a Python dictionary are distinct. -/
def Proper : Json → Prop
  | .arr items => ProperItems items
  | .obj fields => (fields.map Prod.fst).Nodup ∧ ProperFields fields
  | _ => True

def ProperItems : List Json → Prop
  | [] => True
  | item :: rest => item.Proper ∧ ProperItems rest

def ProperFields : List (String × Json) → Prop
  | [] => True
  | (_, item) :: rest => item.Proper ∧ ProperFields rest

end

end Json

namespace NodeType

def ofText? : String → Option NodeType
  | "llm" => some .llm
  | "supervisor" => some .supervisor
  | "tool" => some .tool
  | "rag" => some .rag
  | "subagent" => some .subagent
  | "approval" => some .approval
  | "transform" => some .transform
  | _ => none

theorem ofText?_value (type : NodeType) : ofText? type.value = some type := by
  cases type <;> rfl

end NodeType

namespace NodeDef

def parse (raw : Json) : Option NodeDef := do
  let fields ← raw.obj?
  return {
    type := ← NodeType.ofText? (← (← Dict.get? fields "type").str?)
    id := ← (← Dict.get? fields "id").str?
    prompt := ← Dict.optional? fields "prompt" Json.str?
    config := ← (Dict.getD fields "config" (.obj [])).obj? }

def dump (node : NodeDef) : Json :=
  .obj [("type", .str node.type.value), ("id", .str node.id), ("prompt", .ofText node.prompt),
    ("config", .obj node.config)]

/-- The node with its configuration in the order of the column. -/
def column (le : String → String → Bool) (node : NodeDef) : NodeDef :=
  { node with
    config := (Json.columnFields le node.config).insertionSort fun f g => le f.1 g.1 }

end NodeDef

namespace EdgeDef

def parse (raw : Json) : Option EdgeDef := do
  let fields ← raw.obj?
  return {
    source := ← (← Dict.get? fields "source").str?
    target := ← (← Dict.get? fields "target").str?
    condition := ← Dict.optional? fields "condition" Json.str? }

def dump (edge : EdgeDef) : Json :=
  .obj [("source", .str edge.source), ("target", .str edge.target),
    ("condition", .ofText edge.condition)]

end EdgeDef

def Json.arr? : Json → Option (List Json)
  | .arr items => some items
  | _ => none

namespace AgentDefinition

/-- `AgentDefinition.model_validate`, and none where it raises. -/
def parse (raw : Json) : Option AgentDefinition := do
  let fields ← raw.obj?
  return {
    name := ← (← Dict.get? fields "name").str?
    nodes := ← (← (← Dict.get? fields "nodes").arr?).mapM NodeDef.parse
    edges := ← (← (← Dict.get? fields "edges").arr?).mapM EdgeDef.parse
    entry := ← (Dict.getD fields "entry" (.str "START")).str?
    exit := ← (Dict.getD fields "exit" (.str "END")).str? }

/-- `model_dump(mode="json")`. -/
def dump (definition : AgentDefinition) : Json :=
  .obj [("name", .str definition.name), ("nodes", .arr (definition.nodes.map NodeDef.dump)),
    ("edges", .arr (definition.edges.map EdgeDef.dump)), ("entry", .str definition.entry),
    ("exit", .str definition.exit)]

def column (le : String → String → Bool) (definition : AgentDefinition) : AgentDefinition :=
  { definition with nodes := definition.nodes.map (NodeDef.column le) }

end AgentDefinition

section Columns
variable {le : String → String → Bool}

theorem columnItems_eq (items : List Json) :
    Json.columnItems le items = items.map (Json.column le) := by
  induction items with
  | nil => rfl
  | cons item items ih => rw [Json.columnItems, ih, List.map_cons]

theorem columnFields_eq (fields : Dict) :
    Json.columnFields le fields = fields.map fun field => (field.1, field.2.column le) := by
  induction fields with
  | nil => rfl
  | cons field fields ih => rw [Json.columnFields, ih, List.map_cons]

/-- Where the keys are distinct, their order does not matter. -/
theorem get?_perm {fields other : Dict} (distinct : (fields.map Prod.fst).Nodup)
    (perm : fields.Perm other) (k : String) : other.get? k = fields.get? k := by
  induction perm with
  | nil => rfl
  | cons field _ ih =>
      rw [List.map_cons, List.nodup_cons] at distinct
      rw [Dict.get?_cons, Dict.get?_cons, ih distinct.2]
  | swap a b rest =>
      rw [List.map_cons, List.map_cons, List.nodup_cons, List.mem_cons] at distinct
      simp only [Dict.get?_cons]
      by_cases first : a.1 = k
      · by_cases second : b.1 = k
        · exact absurd (.inl (second.trans first.symm)) distinct.1
        · rw [if_pos first, if_neg second, if_pos first]
      · rw [if_neg first, if_neg first]
  | trans first _ ih ih' =>
      rw [ih' ((first.map Prod.fst).nodup_iff.mp distinct), ih distinct]

theorem get?_columnFields (fields : Dict) (k : String) :
    Dict.get? (Json.columnFields le fields) k = (fields.get? k).map (Json.column le) := by
  induction fields with
  | nil => rfl
  | cons field fields ih =>
      rw [Json.columnFields, Dict.get?_cons, Dict.get?_cons, ih]
      by_cases same : field.1 = k <;> simp [same]

variable (le) in
theorem get?_column (fields : Dict) (distinct : (fields.map Prod.fst).Nodup) (k : String) :
    Dict.get? ((Json.columnFields le fields).insertionSort fun f g => le f.1 g.1) k =
      (fields.get? k).map (Json.column le) := by
  have keys : ((Json.columnFields le fields).map Prod.fst).Nodup := by
    rw [columnFields_eq, List.map_map]
    exact distinct
  rw [get?_perm keys (List.perm_insertionSort _ _).symm, get?_columnFields]

theorem column_ofText (text : Option String) : (Json.ofText text).column le = .ofText text := by
  cases text <;> rfl

theorem NodeDef.parse_column (node : NodeDef) :
    NodeDef.parse (node.dump.column le) = some (node.column le) := by
  have field (k : String) := get?_column le [("type", .str node.type.value),
    ("id", .str node.id), ("prompt", .ofText node.prompt), ("config", .obj node.config)]
    (by simp) k
  have prompt := optional?_ofText ((field "prompt").trans (congrArg some (column_ofText _)))
  simp only [NodeDef.parse, NodeDef.dump, Json.column, Json.obj?, Option.bind_eq_bind,
    Option.bind_some, field, prompt, Dict.getD]
  simp [Json.column, Json.str?, NodeType.ofText?_value, NodeDef.column]

theorem EdgeDef.parse_column (edge : EdgeDef) : EdgeDef.parse (edge.dump.column le) = some edge := by
  have field (k : String) := get?_column le [("source", .str edge.source),
    ("target", .str edge.target), ("condition", .ofText edge.condition)] (by simp) k
  have condition := optional?_ofText ((field "condition").trans (congrArg some (column_ofText _)))
  simp only [EdgeDef.parse, EdgeDef.dump, Json.column, Json.obj?, Option.bind_eq_bind,
    Option.bind_some, field, condition]
  simp [Json.column, Json.str?]

variable (le) in
theorem mapM_parse {α : Type} {dump : α → Json} {parse : Json → Option α} (read : α → α)
    (reads : ∀ a, parse ((dump a).column le) = some (read a)) (items : List α) :
    (Json.columnItems le (items.map dump)).mapM parse = some (items.map read) := by
  induction items with
  | nil => rfl
  | cons item items ih =>
      rw [List.map_cons, Json.columnItems, List.mapM_cons, reads, ih]
      rfl

/-- A stored definition is read back, with its configurations in the order of the column. -/
theorem AgentDefinition.parse_column (definition : AgentDefinition) :
    AgentDefinition.parse (definition.dump.column le) = some (definition.column le) := by
  have field (k : String) := get?_column le [("name", .str definition.name),
    ("nodes", .arr (definition.nodes.map NodeDef.dump)),
    ("edges", .arr (definition.edges.map EdgeDef.dump)), ("entry", .str definition.entry),
    ("exit", .str definition.exit)] (by simp) k
  have nodes := mapM_parse le (NodeDef.column le) NodeDef.parse_column definition.nodes
  have edges := mapM_parse le id EdgeDef.parse_column definition.edges
  rw [List.map_id] at edges
  simp only [AgentDefinition.parse, AgentDefinition.dump, Json.column, Json.obj?,
    Option.bind_eq_bind, Option.bind_some, field, Dict.getD]
  simp [Json.column, Json.str?, Json.arr?, nodes, edges, AgentDefinition.column]

end Columns

/-- The configurations are Python dictionaries. -/
def AgentDefinition.Proper (definition : AgentDefinition) : Prop :=
  ∀ node ∈ definition.nodes, (Json.obj node.config).Proper

section Proper
variable {le : String → String → Bool}

theorem properFields_get? {fields : Dict} (proper : Json.ProperFields fields) {k : String}
    {value : Json} (found : fields.get? k = some value) : value.Proper := by
  induction fields with
  | nil => contradiction
  | cons field fields ih =>
      obtain ⟨key, item⟩ := field
      rw [Dict.get?_cons] at found
      by_cases same : key = k
      · rw [if_pos same, Option.some.injEq] at found
        exact found ▸ proper.1
      · rw [if_neg same] at found
        exact ih proper.2 found

theorem properItems_mem {items : List Json} (proper : Json.ProperItems items) :
    ∀ item ∈ items, item.Proper := by
  induction items with
  | nil =>
      intro item member
      contradiction
  | cons first rest ih =>
      intro item member
      rcases List.mem_cons.mp member with rfl | later
      · exact proper.1
      · exact ih proper.2 item later

theorem mem_mapM {α β : Type} {f : α → Option β} {items : List α} {results : List β}
    (mapped : items.mapM f = some results) : ∀ result ∈ results, ∃ item ∈ items,
      f item = some result := by
  induction items generalizing results with
  | nil =>
      cases mapped
      intro result member
      contradiction
  | cons item items ih =>
      rw [List.mapM_cons] at mapped
      obtain ⟨first, here, mapped⟩ := Option.bind_eq_some_iff.mp mapped
      obtain ⟨rest, later, same⟩ := Option.bind_eq_some_iff.mp mapped
      cases same
      intro result member
      rcases List.mem_cons.mp member with rfl | inside
      · exact ⟨item, List.mem_cons_self, here⟩
      · obtain ⟨other, among, found⟩ := ih later result inside
        exact ⟨other, List.mem_cons_of_mem _ among, found⟩

theorem getD_proper {fields : Dict} (proper : Json.ProperFields fields) {k : String}
    {default : Json} (also : default.Proper) : (Dict.getD fields k default).Proper := by
  unfold Dict.getD
  cases found : fields.get? k with
  | none => exact also
  | some value => exact properFields_get? proper found

theorem obj?_eq {value : Json} {fields : Dict} (read : value.obj? = some fields) :
    value = .obj fields := by
  cases value <;> simp_all [Json.obj?]

theorem arr?_eq {value : Json} {items : List Json} (read : value.arr? = some items) :
    value = .arr items := by
  cases value <;> simp_all [Json.arr?]

theorem NodeDef.proper_of_parse {raw : Json} (proper : raw.Proper) {node : NodeDef}
    (parsed : NodeDef.parse raw = some node) : (Json.obj node.config).Proper := by
  simp only [NodeDef.parse, Option.bind_eq_bind, Option.bind_eq_some_iff, Option.pure_def,
    Option.some.injEq] at parsed
  obtain ⟨fields, read, _, _, _, _, _, _, _, _, _, _, _, _, config, own, rfl⟩ := parsed
  rw [obj?_eq read] at proper
  rw [← obj?_eq own]
  exact getD_proper proper.2 ⟨List.nodup_nil, trivial⟩

/-- A definition that is read from Python values has Python dictionaries. -/
theorem AgentDefinition.proper_of_parse {raw : Json} (proper : raw.Proper)
    {definition : AgentDefinition} (parsed : AgentDefinition.parse raw = some definition) :
    definition.Proper := by
  simp only [AgentDefinition.parse, Option.bind_eq_bind, Option.bind_eq_some_iff, Option.pure_def,
    Option.some.injEq] at parsed
  obtain ⟨fields, read, _, _, _, _, value, found, items, listed, nodes, mapped, _, _, _, _, _, _,
    _, _, _, _, rfl⟩ := parsed
  rw [obj?_eq read] at proper
  have all : (Json.arr items).Proper := arr?_eq listed ▸ properFields_get? proper.2 found
  intro node member
  obtain ⟨item, inside, own⟩ := mem_mapM mapped node member
  exact NodeDef.proper_of_parse (properItems_mem all item inside) own

end Proper

section Compiled
variable {le : String → String → Bool} {py : Builtins} {definition : AgentDefinition}

@[simp] theorem column_id (node : NodeDef) : (node.column le).id = node.id := rfl

@[simp] theorem column_type (node : NodeDef) : (node.column le).type = node.type := rfl

theorem str?_column (value : Json) : (value.column le).str? = value.str? := by
  cases value <;> rfl

theorem checkChildren_column {items : List Json} (proper : Json.ProperItems items) :
    AgentDefinition.checkChildren (items.map (Json.column le)) =
      AgentDefinition.checkChildren items := by
  induction items with
  | nil => rfl
  | cons item items ih =>
      have later := ih proper.2
      cases item with
      | obj fields =>
          have same : (Dict.get? ((Json.columnFields le fields).insertionSort
              fun f g => le f.1 g.1) "type").bind Json.str? =
                (Dict.get? fields "type").bind Json.str? := by
            rw [get?_column le fields proper.1.1]
            cases Dict.get? fields "type" with
            | none => rfl
            | some value => exact str?_column value
          simp only [List.map_cons, Json.column, AgentDefinition.checkChildren, same, later]
      | _ => rfl

variable (le) in
/-- The order of a column changes nothing for the check of the nested nodes. -/
theorem checkChildren_toList {children : Json} (proper : children.Proper) :
    (children.column le).toList.map AgentDefinition.checkChildren =
      children.toList.map AgentDefinition.checkChildren := by
  cases children with
  | arr items =>
      rw [Json.column, columnItems_eq]
      exact congrArg some (checkChildren_column proper)
  | obj fields =>
      cases fields with
      | nil => rfl
      | cons field rest =>
          cases ordered : (Json.columnFields le (field :: rest)).insertionSort
              fun f g => le f.1 g.1 with
          | nil =>
              have length := (List.perm_insertionSort (fun f g => le f.1 g.1 = true)
                (Json.columnFields le (field :: rest))).length_eq
              rw [ordered, columnFields_eq, List.length_map] at length
              contradiction
          | cons other others =>
              rw [Json.column, ordered]
              rfl
  | _ => rfl

theorem notIterable_column (value : Json) : notIterable (value.column le) = notIterable value := by
  cases value <;> rfl

variable (le) in
theorem checkNoNestedSubagent_column {nodes : List NodeDef}
    (proper : ∀ node ∈ nodes, (Json.obj node.config).Proper) :
    AgentDefinition.checkNoNestedSubagent (nodes.map (NodeDef.column le)) =
      AgentDefinition.checkNoNestedSubagent nodes := by
  induction nodes with
  | nil => rfl
  | cons node nodes ih =>
      have own := proper node List.mem_cons_self
      have later := ih fun other inside => proper other (List.mem_cons_of_mem _ inside)
      have children : Dict.getD (node.column le).config "nodes" (.arr []) =
          (Dict.getD node.config "nodes" (.arr [])).column le := by
        unfold Dict.getD
        rw [NodeDef.column, get?_column le node.config own.1]
        cases Dict.get? node.config "nodes" <;> rfl
      have defaulted : (Dict.getD node.config "nodes" (.arr [])).Proper :=
        getD_proper own.2 trivial
      have same := checkChildren_toList le defaulted
      rw [List.map_cons, AgentDefinition.checkNoNestedSubagent,
        AgentDefinition.checkNoNestedSubagent, column_type, children, later]
      by_cases nested : node.type = .subagent
      · rw [if_pos nested, if_pos nested]
        dsimp only
        rw [notIterable_column]
        cases read : (Dict.getD node.config "nodes" (.arr [])).toList <;>
          cases again : ((Dict.getD node.config "nodes" (.arr [])).column le).toList <;>
            simp_all
      · rw [if_neg nested, if_neg nested]

variable (le) in
theorem checkNoDuplicateIds_column (nodes : List NodeDef) (seen : List NodeId) :
    AgentDefinition.checkNoDuplicateIds (nodes.map (NodeDef.column le)) seen =
      AgentDefinition.checkNoDuplicateIds nodes seen := by
  induction nodes generalizing seen with
  | nil => rfl
  | cons node nodes ih => simp only [List.map_cons, AgentDefinition.checkNoDuplicateIds,
      column_id, ih]

theorem nodeIds_column : (definition.column le).nodeIds = definition.nodeIds := by
  simp [AgentDefinition.nodeIds, AgentDefinition.column, Function.comp_def]

variable (le definition) in
theorem idsOfType_column (p : NodeType → Bool) :
    ((definition.column le).nodes.filter fun node => p node.type).map NodeDef.id =
      (definition.nodes.filter fun node => p node.type).map NodeDef.id := by
  rw [AgentDefinition.column, List.filter_map, List.map_map]
  rfl

theorem adjacency_column : (definition.column le).adjacency = definition.adjacency := by
  have supervisors := idsOfType_column le definition (· = .supervisor)
  have capabilities := idsOfType_column le definition NodeType.capability
  funext id
  simp only [AgentDefinition.adjacency, supervisors, capabilities]
  rfl

theorem roots_column : (definition.column le).roots = definition.roots := by
  simp only [AgentDefinition.roots, nodeIds_column]
  rfl

theorem reached_column : (definition.column le).reached = definition.reached := by
  simp only [AgentDefinition.reached, nodeIds_column, roots_column, adjacency_column]

variable (le) in
/-- A definition is valid in the order of a column exactly if it is valid. -/
theorem validateGraph_column (proper : definition.Proper) :
    (definition.column le).validateGraph py = definition.validateGraph py := by
  have duplicates := checkNoDuplicateIds_column le definition.nodes []
  have nested := checkNoNestedSubagent_column le proper
  have supervisors : (definition.column le).checkAtMostOneSupervisor =
      definition.checkAtMostOneSupervisor := by
    have same := congrArg List.length
      (idsOfType_column le definition (· = .supervisor))
    simp only [List.length_map] at same
    simp only [AgentDefinition.checkAtMostOneSupervisor, AgentDefinition.supervisors, same]
    rfl
  have reachable : (definition.column le).checkEntryReachable py =
      definition.checkEntryReachable py := by
    simp only [AgentDefinition.checkEntryReachable, nodeIds_column, reached_column]
    rfl
  simp only [AgentDefinition.validateGraph, supervisors, reachable, nodeIds_column]
  simp only [AgentDefinition.column, duplicates, nested]

theorem ofDefinition_rows_column :
    (CompiledGraph.ofDefinition (definition.column le)).nodeMap.rows =
      (CompiledGraph.ofDefinition definition).nodeMap.rows.map (NodeDef.column le) := by
  have keeps (node : NodeDef) : key (node.column le) = key node := rfl
  exact Table.rows_foldl_insert_map keeps definition.nodes rfl

theorem ofDefinition_find?_column (id : NodeId) :
    (CompiledGraph.ofDefinition (definition.column le)).nodeMap.find? id =
      ((CompiledGraph.ofDefinition definition).nodeMap.find? id).map (NodeDef.column le) := by
  rw [Table.find?, ofDefinition_rows_column, List.find?_map]
  rfl

theorem supervisorId_column :
    (CompiledGraph.ofDefinition (definition.column le)).supervisorId =
      (CompiledGraph.ofDefinition definition).supervisorId := by
  have same := congrArg List.head?
    (idsOfType_column le definition (· = .supervisor))
  rw [List.head?_map, List.head?_map] at same
  exact same

theorem edge_column (node : NodeDef) :
    (CompiledGraph.ofDefinition (definition.column le)).edge (node.column le) =
      (CompiledGraph.ofDefinition definition).edge node := by
  simp only [CompiledGraph.edge, column_type, column_id, supervisorId_column]
  rfl

/-- The edges behind the nodes do not depend on the order of a column. -/
theorem compileLanggraph_column :
    (CompiledGraph.ofDefinition (definition.column le)).compileLanggraph =
      (CompiledGraph.ofDefinition definition).compileLanggraph := by
  have entry : (CompiledGraph.ofDefinition (definition.column le)).entryId =
      (CompiledGraph.ofDefinition definition).entryId := rfl
  simp only [CompiledGraph.compileLanggraph, entry, ofDefinition_find?_column, Option.isNone_map,
    ofDefinition_rows_column, List.mapM_map, Function.comp_def, edge_column, column_id]

theorem route_column (decision : SupervisorDecision) :
    (CompiledGraph.ofDefinition (definition.column le)).route decision =
      (CompiledGraph.ofDefinition definition).route decision := by
  have same : (CompiledGraph.ofDefinition (definition.column le)).validateDecision decision =
      (CompiledGraph.ofDefinition definition).validateDecision decision := by
    simp only [CompiledGraph.validateDecision, ofDefinition_find?_column]
    cases (CompiledGraph.ofDefinition definition).nodeMap.find?
      (decision.selectedNodeId.getD "") <;> rfl
  simp only [CompiledGraph.route, same]

end Compiled

section Canonical
variable {le : String → String → Bool}

theorem canonicalFields_eq (fields : Dict) : Json.canonicalFields fields =
    fields.map fun field => (field.1, field.2.canonical) := by
  induction fields with
  | nil => rfl
  | cons field fields ih => rw [Json.canonicalFields, ih, List.map_cons]

/-- Distinct keys have one order. -/
theorem insertionSort_keys {fields other : Dict} (distinct : (fields.map Prod.fst).Nodup)
    (perm : fields.Perm other) :
    (fields.insertionSort fun f g => f.1 ≤ g.1) = other.insertionSort fun f g => f.1 ≤ g.1 := by
  have total : Std.Total fun f g : String × Json => f.1 ≤ g.1 := ⟨fun f g => String.le_total f.1 g.1⟩
  have trans : IsTrans (String × Json) fun f g => f.1 ≤ g.1 :=
    ⟨fun _ _ _ => String.le_trans⟩
  refine List.Perm.eq_of_pairwise ?_ (List.pairwise_insertionSort _ _)
    (List.pairwise_insertionSort _ _)
    ((List.perm_insertionSort _ _).trans (perm.trans (List.perm_insertionSort _ _).symm))
  intro f g left right below above
  have inside : f ∈ fields := (List.mem_insertionSort _).mp left
  have within : g ∈ fields := perm.mem_iff.mpr ((List.mem_insertionSort _).mp right)
  exact List.inj_on_of_nodup_map distinct inside within (String.le_antisymm below above)

mutual

/-- The order of a column is no part of what a value is. -/
theorem canonical_column : ∀ {value : Json}, value.Proper →
    (value.column le).canonical = value.canonical
  | .obj fields, proper => by
      rw [Json.column, Json.canonical, Json.canonical, ← canonicalFields_column proper.2]
      refine congrArg Json.obj (insertionSort_keys ?_ ?_)
      · have keys := ((List.perm_insertionSort (fun f g => le f.1 g.1 = true)
          (Json.columnFields le fields)).map Prod.fst).nodup_iff
        rw [columnFields_eq, List.map_map] at keys
        rw [canonicalFields_eq, List.map_map, columnFields_eq]
        exact keys.mpr proper.1
      · rw [canonicalFields_eq, canonicalFields_eq]
        exact (List.perm_insertionSort _ _).map _
  | .arr items, proper => by
      rw [Json.column, Json.canonical, Json.canonical, canonicalItems_column proper]
  | .null, _ | .bool _, _ | .int _, _ | .float _ _, _ | .str _, _ => rfl

theorem canonicalItems_column : ∀ {items : List Json}, Json.ProperItems items →
    Json.canonicalItems (Json.columnItems le items) = Json.canonicalItems items
  | [], _ => rfl
  | item :: rest, proper => by
      rw [Json.columnItems, Json.canonicalItems, Json.canonicalItems, canonical_column proper.1,
        canonicalItems_column proper.2]

theorem canonicalFields_column : ∀ {fields : List (String × Json)}, Json.ProperFields fields →
    Json.canonicalFields (Json.columnFields le fields) = Json.canonicalFields fields
  | [], _ => rfl
  | (key, item) :: rest, proper => by
      rw [Json.columnFields, Json.canonicalFields, Json.canonicalFields,
        canonical_column proper.1, canonicalFields_column proper.2]

end

theorem properItems_of_mem {items : List Json} (all : ∀ item ∈ items, item.Proper) :
    Json.ProperItems items := by
  induction items with
  | nil => trivial
  | cons item items ih =>
      exact ⟨all item List.mem_cons_self,
        ih fun other inside => all other (List.mem_cons_of_mem _ inside)⟩

theorem ofText_proper (text : Option String) : (Json.ofText text).Proper := by
  cases text <;> trivial

theorem NodeDef.dump_proper {node : NodeDef} (proper : (Json.obj node.config).Proper) :
    node.dump.Proper :=
  ⟨by simp, trivial, trivial, ofText_proper _, proper, trivial⟩

theorem EdgeDef.dump_proper (edge : EdgeDef) : edge.dump.Proper :=
  ⟨by simp, trivial, trivial, ofText_proper _, trivial⟩

theorem AgentDefinition.dump_proper {definition : AgentDefinition} (proper : definition.Proper) :
    definition.dump.Proper := by
  refine ⟨by simp, trivial, properItems_of_mem ?_, properItems_of_mem ?_, trivial, trivial,
    trivial⟩
  · intro item member
    obtain ⟨node, inside, rfl⟩ := List.mem_map.mp member
    exact NodeDef.dump_proper (proper node inside)
  · intro item member
    obtain ⟨edge, _, rfl⟩ := List.mem_map.mp member
    exact edge.dump_proper

end Canonical
end AgentRuntime
