import AgentRuntime.GraphColumns
import AgentRuntime.Library.Machines
import AgentRuntime.OpenAPI

/-! Graph files and the snapshots of runs. A process loads a graph once and keeps it, a run stores
the definition it was created from, and its executions read that back. The files change at any
time. -/
namespace AgentRuntime
open Machines

/-- A graph file: what `yaml.safe_load` makes of its text, and none where it raises. Only values of
JSON are represented, so no dates, no sets and no keys but strings. -/
structure GraphFile where
  raw : Option Json
  proper : ∀ value ∈ raw, value.Proper

inductive LoadError where
  | valueError (message : String)
  | fileNotFound (message : String)
  | yamlError
  | validationError
  | raised (error : ExecError)

def orRaise {α : Type} (error : LoadError) (value : Option α) : Except LoadError α :=
  value.elim (.error error) .ok

structure GraphConfig where
  py : Builtins
  graphsDir : String
  /-- `str.isalnum` on a single character. -/
  isalnum : Char → Bool
  /-- The order of the keys in a JSON column. -/
  le : String → String → Bool

abbrev GraphDirectory := String → Option GraphFile

namespace GraphConfig
variable (c : GraphConfig)

/-- `name.replace("-", "").replace("_", "").isalnum()`. -/
def validName (name : String) : Bool :=
  let letters := name.toList.filter fun ch => ch ≠ '-' ∧ ch ≠ '_'
  !letters.isEmpty && letters.all c.isalnum

def path (name : String) : String := c.graphsDir ++ "/" ++ name ++ ".yaml"

def loadGraphFromYaml (file : GraphFile) : Except LoadError AgentDefinition := do
  let raw ← orRaise .yamlError file.raw
  orRaise .validationError (AgentDefinition.parse raw)

def compile (definition : AgentDefinition) : Except LoadError CompiledGraph :=
  (compileGraph c.py definition).mapError .raised

/-- `load_graph` without its cache. -/
def readGraph (files : GraphDirectory) (name : String) : Except LoadError CompiledGraph :=
  if c.validName name then do
    let file ← orRaise (.fileNotFound ("graph not found: " ++ name)) (files (c.path name))
    c.compile (← loadGraphFromYaml file)
  else .error (.valueError "invalid graph name")

end GraphConfig

/-- `_graphs`, what a process has loaded. -/
structure GraphCache where
  graphs : List (String × CompiledGraph) := []

namespace GraphCache
variable (c : GraphConfig)

def cached (cache : GraphCache) (name : String) : Option CompiledGraph :=
  (cache.graphs.find? fun entry => entry.1 = name).map Prod.snd

def loadGraph (files : GraphDirectory) (cache : GraphCache) (name : String) :
    Except LoadError CompiledGraph × GraphCache :=
  match cache.cached name with
  | some graph => (.ok graph, cache)
  | none =>
      match c.readGraph files name with
      | .ok graph => (.ok graph, ⟨cache.graphs ++ [(name, graph)]⟩)
      | .error error => (.error error, cache)

/-- The file that `load_graph` looks for. -/
def looksFor (cache : GraphCache) (name : String) : List String :=
  if (cache.cached name).isNone && c.validName name then [c.path name] else []

end GraphCache

/-- What a run stores of its graph. -/
structure GraphRow where
  graphName : String
  graphSnapshot : Json
  graphDefinitionHash : String

/-- The graph as `execute_run_sync` reads it. -/
def GraphRow.compiled (c : GraphConfig) (files : GraphDirectory) (cache : GraphCache)
    (row : GraphRow) : Except LoadError CompiledGraph × GraphCache :=
  if row.graphSnapshot.truthy then
    (orRaise .validationError (AgentDefinition.parse row.graphSnapshot) >>= c.compile, cache)
  else cache.loadGraph c files row.graphName

/-- A call of `create_run` behind its checks of the graph, in the process at the position. -/
structure LoadedGraph where
  process : Nat
  graphName : String
  graph : CompiledGraph

def LoadedGraph.row (c : GraphConfig) (call : LoadedGraph) : GraphRow where
  graphName := call.graphName
  graphSnapshot := call.graph.definition.dump.column c.le
  graphDefinitionHash := c.py.sha256 (c.py.dumps call.graph.definition.dump)

/-- A stored run and the call that created it. -/
structure CreatedRun where
  call : LoadedGraph
  row : GraphRow

/-- An execution of a run, with the graph it reads. -/
structure GraphRead where
  run : CreatedRun
  compiled : Except LoadError CompiledGraph

/-- The processes of a deployment over one directory, with the files they have looked for. -/
structure Deployment where
  files : GraphDirectory
  caches : List GraphCache := []
  creating : List LoadedGraph := []
  runs : List CreatedRun := []
  reads : List GraphRead := []
  opened : List String := []

inductive DeploymentAction where
  | write (path : String) (file : Option GraphFile)
  | start
  | load (process : Nat) (graphName : String)
  | store (position : Nat)
  | getGraph (process : Nat) (graphName : String)
  | execute (process run : Nat)

namespace Deployment
variable (c : GraphConfig)

/-- A process looks for files and keeps what it has loaded. -/
def visit (s : Deployment) (process : Nat) (paths : List String) (cache : GraphCache) :
    Deployment :=
  { s with
    caches := s.caches.set process cache
    opened := s.opened ++ paths }

/-- `create_run` until its first statement. `_ensure_runtime_compilable` raises behind the cache. -/
def create (s : Deployment) (process : Nat) (name : String) (cache : GraphCache) : Deployment :=
  let (result, after) := cache.loadGraph c s.files name
  let visited := s.visit process (cache.looksFor c name) after
  match result with
  | .error _ => visited
  | .ok graph =>
      match graph.compileLanggraph with
      | .error _ => visited
      | .ok _ => { visited with creating := s.creating ++ [⟨process, name, graph⟩] }

def execute (s : Deployment) (process : Nat) (cache : GraphCache) (run : CreatedRun) :
    Deployment :=
  let (compiled, after) := run.row.compiled c s.files cache
  let paths := if run.row.graphSnapshot.truthy then [] else cache.looksFor c run.row.graphName
  { s.visit process paths after with reads := s.reads ++ [⟨run, compiled⟩] }

def step (s : Deployment) : DeploymentAction → Option Deployment
  | .write path file =>
      some { s with files := fun other => if other = path then file else s.files other }
  | .start => some { s with caches := s.caches ++ [{}] }
  | .load process name => s.caches[process]?.map (s.create c process name)
  | .store position =>
      s.creating[position]?.map fun call =>
        { s with
          creating := s.creating.eraseIdx position
          runs := s.runs ++ [⟨call, call.row c⟩] }
  | .getGraph process name =>
      s.caches[process]?.map fun cache =>
        s.visit process (cache.looksFor c name) (cache.loadGraph c s.files name).2
  | .execute process run =>
      s.caches[process]?.bind fun cache => s.runs[run]?.map (s.execute c process cache)

end Deployment

def deployments (c : GraphConfig) : Machine Deployment DeploymentAction where
  init s := ∃ files, s = { files }
  step := Deployment.step c

section Loading
variable {c : GraphConfig} {files : GraphDirectory} {cache : GraphCache} {name : String}
  {graph : CompiledGraph}

/-- A graph that was loaded under a name. -/
structure GraphConfig.Loaded (c : GraphConfig) (name : String) (graph : CompiledGraph) : Prop where
  named : c.validName name = true
  proper : graph.definition.Proper
  compiles : compileGraph c.py graph.definition = .ok graph

theorem orRaise_ok {α : Type} {error : LoadError} {value : Option α} {result : α}
    (returned : orRaise error value = .ok result) : value = some result := by
  cases value with
  | none => contradiction
  | some => cases returned; rfl

theorem compile_ok {definition : AgentDefinition} (compiles : c.compile definition = .ok graph) :
    compileGraph c.py definition = .ok graph ∧ graph.definition = definition := by
  unfold GraphConfig.compile at compiles
  cases checked : compileGraph c.py definition with
  | error => rw [checked] at compiles; contradiction
  | ok other =>
      rw [checked] at compiles
      cases compiles
      exact ⟨rfl, (compileGraph_ok checked).2 ▸ rfl⟩

theorem readGraph_loaded (read : c.readGraph files name = .ok graph) : c.Loaded name graph := by
  unfold GraphConfig.readGraph at read
  split at read
  next named =>
    obtain ⟨file, _, read⟩ := of_bind_ok read
    obtain ⟨definition, loads, compiles⟩ := of_bind_ok read
    obtain ⟨raw, text, parsed⟩ := of_bind_ok loads
    obtain ⟨checked, rfl⟩ := compile_ok compiles
    have proper := file.proper raw (orRaise_ok text)
    exact ⟨named, AgentDefinition.proper_of_parse proper (orRaise_ok parsed), checked⟩
  next => contradiction

/-- Every graph a process has cached was loaded under its name. -/
def GraphCache.Sound (c : GraphConfig) (cache : GraphCache) : Prop :=
  ∀ entry ∈ cache.graphs, c.Loaded entry.1 entry.2

theorem GraphCache.Sound.loaded (sound : cache.Sound c) (found : cache.cached name = some graph) :
    c.Loaded name graph := by
  obtain ⟨entry, first, rfl⟩ := Option.map_eq_some_iff.mp found
  have same : entry.1 = name := by simpa using List.find?_some first
  exact same ▸ sound entry (List.mem_of_find?_eq_some first)

/-- What is cached stays. -/
def GraphCache.Grows (cache after : GraphCache) : Prop :=
  ∀ name graph, cache.cached name = some graph → after.cached name = some graph

theorem loadGraph_grows : cache.Grows (cache.loadGraph c files name).2 := by
  intro other graph found
  unfold GraphCache.loadGraph
  split
  next => exact found
  next =>
    split
    next =>
      obtain ⟨entry, first, rfl⟩ := Option.map_eq_some_iff.mp found
      rw [GraphCache.cached, List.find?_append, first]
      rfl
    next => exact found

theorem loadGraph_sound (sound : cache.Sound c) : (cache.loadGraph c files name).2.Sound c := by
  unfold GraphCache.loadGraph
  split
  next => exact sound
  next =>
    split
    next graph read =>
      intro entry member
      rcases List.mem_append.mp member with earlier | added
      · exact sound entry earlier
      · rw [List.mem_singleton.mp added]
        exact readGraph_loaded read
    next => exact sound

/-- A graph that is returned is the one that is cached from then on. -/
theorem loadGraph_cached (loads : (cache.loadGraph c files name).1 = .ok graph) :
    (cache.loadGraph c files name).2.cached name = some graph := by
  unfold GraphCache.loadGraph at loads ⊢
  split
  next found =>
    rw [found] at loads
    cases loads
    exact found
  next missing =>
    rw [missing] at loads
    cases read : c.readGraph files name with
    | error => rw [read] at loads; contradiction
    | ok other =>
        rw [read] at loads
        cases loads
        have none : cache.graphs.find? (fun entry => decide (entry.1 = name)) = none :=
          Option.map_eq_none_iff.mp missing
        simp [GraphCache.cached, List.find?_append, none]

end Loading

section Stored
variable {c : GraphConfig} {call : LoadedGraph}

theorem truthy_column (le : String → String → Bool) (value : Json) :
    (value.column le).truthy = value.truthy := by
  cases value with
  | arr items => cases items <;> rfl
  | obj fields =>
      have sorted := (List.perm_insertionSort (fun f g => le f.1 g.1 = true)
        (Json.columnFields le fields)).isEmpty_eq
      rw [columnFields_eq, List.isEmpty_map, ← columnFields_eq] at sorted
      exact congrArg not sorted
  | _ => rfl

/-- A stored snapshot is read back as the graph of its creation, in the order of the column and
whatever the files are. -/
theorem row_compiled (loaded : c.Loaded call.graphName call.graph) (files : GraphDirectory)
    (cache : GraphCache) : (call.row c).compiled c files cache =
      (.ok (.ofDefinition (call.graph.definition.column c.le)), cache) := by
  have stored : (call.row c).graphSnapshot.truthy = true := truthy_column c.le _
  have valid := (compileGraph_ok loaded.compiles).1
  rw [← validateGraph_column c.le loaded.proper] at valid
  have compiles : c.compile (call.graph.definition.column c.le) =
      .ok (.ofDefinition (call.graph.definition.column c.le)) := by
    simp only [GraphConfig.compile, compileGraph, valid]
    rfl
  rw [GraphRow.compiled, if_pos stored, LoadedGraph.row, AgentDefinition.parse_column]
  exact congrArg (·, cache) compiles

end Stored

namespace Deployment
variable {c : GraphConfig} {s t : Deployment}

/-- A call of `create_run` whose process has the graph in its cache. -/
structure Cached (c : GraphConfig) (caches : List GraphCache) (call : LoadedGraph) : Prop where
  loaded : c.Loaded call.graphName call.graph
  executes : ∃ edges, call.graph.compileLanggraph = .ok edges
  kept : ∃ cache, caches[call.process]? = some cache ∧
    cache.cached call.graphName = some call.graph

/-- An execution read the graph of the creation of its run. -/
def ReadsBack (c : GraphConfig) (read : GraphRead) : Prop :=
  read.compiled = .ok (.ofDefinition (read.run.call.graph.definition.column c.le))

structure Sound (c : GraphConfig) (s : Deployment) : Prop where
  caches : ∀ cache ∈ s.caches, cache.Sound c
  creating : ∀ call ∈ s.creating, Cached c s.caches call
  runs : ∀ run ∈ s.runs, Cached c s.caches run.call ∧ run.row = run.call.row c
  reads : ∀ read ∈ s.reads, read.run ∈ s.runs ∧ ReadsBack c read
  opened : ∀ path ∈ s.opened, ∃ name, c.validName name = true ∧ path = c.path name

/-- The processes go on with what they have cached. -/
def Steady (caches later : List GraphCache) : Prop :=
  ∀ (process : Nat) (cache : GraphCache), caches[process]? = some cache →
    ∃ after, later[process]? = some after ∧ cache.Grows after

theorem Cached.steady {caches later : List GraphCache} {call : LoadedGraph}
    (cached : Cached c caches call) (steady : Steady caches later) : Cached c later call := by
  obtain ⟨cache, here, found⟩ := cached.kept
  obtain ⟨after, there, grows⟩ := steady _ _ here
  exact ⟨cached.loaded, cached.executes, after, there, grows _ _ found⟩

theorem Steady.set {caches : List GraphCache} {process : Nat} {cache after : GraphCache}
    (here : caches[process]? = some cache) (grows : cache.Grows after) :
    Steady caches (caches.set process after) := by
  intro other found there
  by_cases same : other = process
  · subst same
    rw [here, Option.some.injEq] at there
    have inside := (List.getElem?_eq_some_iff.mp here).1
    exact ⟨after, List.getElem?_set_self inside, there ▸ grows⟩
  · refine ⟨found, ?_, fun _ _ cached => cached⟩
    rw [List.getElem?_set_ne (Ne.symm same), there]

theorem Steady.append (caches : List GraphCache) (added : GraphCache) :
    Steady caches (caches ++ [added]) := by
  intro process cache here
  have inside := (List.getElem?_eq_some_iff.mp here).1
  exact ⟨cache, (List.getElem?_append_left inside).trans here, fun _ _ cached => cached⟩

/-- The processes of a sound deployment may go on. -/
theorem Sound.caching {caches : List GraphCache} {opened : List String} (sound : s.Sound c)
    (steady : Steady s.caches caches) (kept : ∀ cache ∈ caches, cache.Sound c)
    (valid : ∀ path ∈ opened, ∃ name, c.validName name = true ∧ path = c.path name) :
    Sound c { s with caches, opened := s.opened ++ opened } where
  caches := kept
  creating call member := (sound.creating call member).steady steady
  runs run member := ⟨(sound.runs run member).1.steady steady, (sound.runs run member).2⟩
  reads := sound.reads
  opened path member := (List.mem_append.mp member).elim (sound.opened path) (valid path)

theorem looksFor_valid {cache : GraphCache} {name : String} :
    ∀ path ∈ cache.looksFor c name, ∃ name, c.validName name = true ∧ path = c.path name := by
  intro path member
  unfold GraphCache.looksFor at member
  split at member
  next looks =>
    rw [Bool.and_eq_true] at looks
    exact ⟨name, looks.2, List.mem_singleton.mp member⟩
  next => contradiction

theorem visit_sound {process : Nat} {cache : GraphCache} (sound : s.Sound c)
    (here : s.caches[process]? = some cache) (name : String) :
    (s.visit process (cache.looksFor c name) (cache.loadGraph c s.files name).2).Sound c := by
  refine sound.caching (.set here loadGraph_grows) ?_ looksFor_valid
  intro other member
  rcases List.mem_or_eq_of_mem_set member with before | rfl
  · exact sound.caches other before
  · exact loadGraph_sound (sound.caches cache (List.mem_of_getElem? here))

theorem create_sound {process : Nat} {cache : GraphCache} (sound : s.Sound c)
    (here : s.caches[process]? = some cache) (name : String) :
    (s.create c process name cache).Sound c := by
  have visited := visit_sound sound here name
  unfold create
  dsimp only
  split
  next => exact visited
  next graph loads =>
    split
    next => exact visited
    next edges executes =>
      refine ⟨visited.caches, ?_, visited.runs, visited.reads, visited.opened⟩
      intro call member
      rcases List.mem_append.mp member with before | added
      · exact visited.creating call before
      · rw [List.mem_singleton.mp added]
        have inside := (List.getElem?_eq_some_iff.mp here).1
        have found := loadGraph_cached loads
        have kept : (cache.loadGraph c s.files name).2.Sound c :=
          loadGraph_sound (sound.caches cache (List.mem_of_getElem? here))
        exact ⟨kept.loaded found, ⟨edges, executes⟩, _, List.getElem?_set_self inside, found⟩

theorem store_sound {position : Nat} {call : LoadedGraph} (sound : s.Sound c)
    (here : s.creating[position]? = some call) :
    Sound c { s with
      creating := s.creating.eraseIdx position
      runs := s.runs ++ [⟨call, call.row c⟩] } where
  caches := sound.caches
  creating call member := sound.creating call (List.mem_of_mem_eraseIdx member)
  runs run member := by
    rcases List.mem_append.mp member with before | added
    · exact sound.runs run before
    · rw [List.mem_singleton.mp added]
      exact ⟨sound.creating call (List.mem_of_getElem? here), rfl⟩
  reads read member :=
    ⟨List.mem_append_left _ (sound.reads read member).1, (sound.reads read member).2⟩
  opened := sound.opened

/-- An execution changes nothing but what was read: the snapshot is enough for it. -/
theorem execute_eq {process : Nat} {cache : GraphCache} {run : CreatedRun} (sound : s.Sound c)
    (here : s.caches[process]? = some cache) (member : run ∈ s.runs) :
    s.execute c process cache run = { s with reads := s.reads ++
      [⟨run, .ok (.ofDefinition (run.call.graph.definition.column c.le))⟩] } := by
  obtain ⟨cached, stored⟩ := sound.runs run member
  have truthy : run.row.graphSnapshot.truthy = true := by
    rw [stored]
    exact truthy_column c.le _
  have compiled := row_compiled cached.loaded s.files cache
  rw [← stored] at compiled
  obtain ⟨inside, own⟩ := List.getElem?_eq_some_iff.mp here
  have same : s.caches.set process cache = s.caches := own ▸ List.set_getElem_self inside
  simp only [execute, visit, compiled, truthy, if_true, List.append_nil, same]

theorem execute_sound {process : Nat} {cache : GraphCache} {run : CreatedRun} (sound : s.Sound c)
    (here : s.caches[process]? = some cache) (member : run ∈ s.runs) :
    (s.execute c process cache run).Sound c := by
  rw [execute_eq sound here member]
  refine ⟨sound.caches, sound.creating, sound.runs, ?_, sound.opened⟩
  intro read among
  rcases List.mem_append.mp among with before | added
  · exact sound.reads read before
  · rw [List.mem_singleton.mp added]
    exact ⟨member, rfl⟩

theorem step_sound {action : DeploymentAction} (sound : s.Sound c)
    (stepped : s.step c action = some t) : t.Sound c := by
  cases action with
  | write path file =>
      cases stepped
      exact ⟨sound.caches, sound.creating, sound.runs, sound.reads, sound.opened⟩
  | start =>
      cases stepped
      let started : GraphCache := {}
      have kept : ∀ cache ∈ s.caches ++ [started], cache.Sound c := by
        intro cache member
        rcases List.mem_append.mp member with before | added
        · exact sound.caches cache before
        · rw [List.mem_singleton.mp added]
          intro entry inside
          contradiction
      have none : ∀ path ∈ ([] : List String),
          ∃ name, c.validName name = true ∧ path = c.path name := by
        intro path member
        contradiction
      have after := sound.caching (.append s.caches started) kept none
      rwa [List.append_nil] at after
  | load process name =>
      obtain ⟨cache, here, rfl⟩ := Option.map_eq_some_iff.mp stepped
      exact create_sound sound here name
  | store position =>
      obtain ⟨call, here, rfl⟩ := Option.map_eq_some_iff.mp stepped
      exact store_sound sound here
  | getGraph process name =>
      obtain ⟨cache, here, rfl⟩ := Option.map_eq_some_iff.mp stepped
      exact visit_sound sound here name
  | execute process run =>
      obtain ⟨cache, here, stepped⟩ := Option.bind_eq_some_iff.mp stepped
      obtain ⟨run, member, rfl⟩ := Option.map_eq_some_iff.mp stepped
      exact execute_sound sound here (List.mem_of_getElem? member)

theorem deployments_sound : Inductive (deployments c) anyStep (Sound c) where
  init := by
    rintro s ⟨files, rfl⟩
    refine ⟨?_, ?_, ?_, ?_, ?_⟩ <;>
      · intro entry member
        contradiction
  step s action t sound _ stepped := step_sound sound stepped

end Deployment

section Deployed
variable {c : GraphConfig} {s : Deployment}

/-- Runs that one process has created under a name share their snapshot. -/
theorem snapshot_shared (sound : s.Sound c) {run other : CreatedRun} (member : run ∈ s.runs)
    (among : other ∈ s.runs) (process : run.call.process = other.call.process)
    (named : run.row.graphName = other.row.graphName) :
    run.row.graphSnapshot = other.row.graphSnapshot := by
  obtain ⟨⟨_, _, cache, here, found⟩, own⟩ := sound.runs run member
  obtain ⟨⟨_, _, otherCache, there, cached⟩, stored⟩ := sound.runs other among
  have name : run.call.graphName = other.call.graphName := by
    rw [own, stored] at named
    exact named
  rw [process, there, Option.some.injEq] at here
  rw [name, ← here, cached, Option.some.injEq] at found
  rw [own, stored, LoadedGraph.row, LoadedGraph.row, found]

theorem validName_plain {name : String} (valid : c.validName name = true) {ch : Char}
    (other : c.isalnum ch = false) (letter : ch ≠ '-' ∧ ch ≠ '_') : ch ∉ name.toList := by
  intro member
  obtain ⟨_, all⟩ := Bool.and_eq_true_iff.mp valid
  have alnum := List.all_eq_true.mp all ch (List.mem_filter.mpr ⟨member, by simpa using letter⟩)
  rw [other] at alnum
  contradiction

end Deployed

section Sample

def notesFile : GraphFile where
  raw := some (.obj [("name", .str "notes"),
    ("nodes", .arr [.obj [("type", .str "llm"), ("id", .str "write")]]), ("edges", .arr []),
    ("entry", .str "write")])
  proper value found := by
    cases found
    simp [Json.Proper, Json.ProperFields, Json.ProperItems]

/-- The keys of JSONB by their length. -/
def notesGraphs : GraphConfig where
  py := { Builtins.onEmpty with
    dumps := fun _ =>
      "\x7b\"edges\":[],\"entry\":\"write\",\"exit\":\"END\",\"name\":\"notes\"" ++
        ",\"nodes\":[\x7b\"config\":\x7b\x7d,\"id\":\"write\",\"prompt\":null,\"type\":\"llm\"\x7d]\x7d"
    sha256 := fun _ => "41a94b30e7d138520e7955cbe3a452afdb48c585fbd8c20a649e02e4fcad56cd"
    sha256_length := fun _ => by decide }
  graphsDir := "graphs"
  isalnum := Char.isAlphanum
  le a b := a.length < b.length || (a.length == b.length && a ≤ b)

/-- The file is gone before the run is stored, and another process executes it. -/
def notesHistory : List DeploymentAction :=
  [.write "graphs/notes.yaml" (some notesFile), .start, .start, .load 0 "notes",
    .write "graphs/notes.yaml" none, .store 0, .load 1 "notes", .execute 1 0]

end Sample
end AgentRuntime
