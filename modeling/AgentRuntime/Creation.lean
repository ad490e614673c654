import AgentRuntime.Agreement
import AgentRuntime.Catalog
import AgentRuntime.Graph

/-! `create_run`. The session, the run and its job are inserted in one transaction; the event
`model.resolved` is appended in a second one, and a last statement reads the run back. Calls are
interleaved with each other and with the rest of the system, and any statement may raise. -/
namespace AgentRuntime
open Machines Tables Logs

structure CreationConfig where
  system : Config
  tierMap : List (String × String)

/-- What the checks of `create_run` make of the graph and the policy. -/
structure Prepared where
  definition : AgentDefinition
  decision : ModelDecision

/-- Where a call stands: the statement that is next, or its end. A call that inserted its session
itself holds that key until it commits or raises. -/
inductive CreatePhase where
  | checking
  | selecting (prepared : Prepared)
  | addingSession (prepared : Prepared)
  | addingRun (prepared : Prepared) (ownsSession : Bool)
  | committing (prepared : Prepared) (ownsSession : Bool)
  | appending (prepared : Prepared)
  | refreshing
  | returned
  | raised

/-- A call of `create_run` with its `run_id`. `jobId` is the key of the job it has committed. -/
structure CreateCall where
  sessionId : String
  graphName : String
  inputText : String
  modelPolicy : Option ModelPolicy
  id : RunId
  jobId : Option JobId := none
  phase : CreatePhase := .checking

structure CreationState where
  sys : Sys
  sessions : List String
  calls : List CreateCall

/-- `fails` lets the pending statement of a call raise. -/
inductive CreationAction where
  | system (action : Action)
  | begin (sessionId graphName inputText : String) (modelPolicy : Option ModelPolicy) (id : RunId)
  | check (position : Nat) (loaded : Option AgentDefinition)
      (snapshot : Option ModelCatalogSnapshot) (now : String)
  | advance (position : Nat) (jobId : JobId)
  | fails (position : Nat)

namespace CreateCall

def goto (call : CreateCall) (phase : CreatePhase) : CreateCall := { call with phase := phase }

/-- The call has inserted its session and not committed. -/
def locks (call : CreateCall) (sessionId : String) : Bool :=
  match call.phase with
  | .addingRun _ owns | .committing _ owns => owns && call.sessionId = sessionId
  | _ => false

def newRun (call : CreateCall) (prepared : Prepared) : NewRun where
  id := call.id
  graphName := call.graphName
  graphSnapshot := prepared.definition
  modelDecision := prepared.decision.dump
  inputText := call.inputText

/-- `model.resolved`, with what it tells of the decision. -/
def resolvedEvent (call : CreateCall) (decision : ModelDecision) : RuntimeEvent :=
  ⟨.modelResolved, call.id, none,
    [("requested", .obj decision.requested), ("resolved_model", .str decision.resolvedModel),
      ("reason", .str decision.reason), ("catalog_version", .str decision.catalogVersion)]⟩

/-- `load_graph`, `_ensure_runtime_compilable` and `resolve_model_decision`, on the definition that
is loaded and the snapshot the catalog returns. -/
def prepare (c : CreationConfig) (call : CreateCall) (loaded : Option AgentDefinition)
    (snapshot : Option ModelCatalogSnapshot) (now : String) : Option Prepared := do
  let definition ← loaded
  let compiled ← (compileGraph c.system.py definition).toOption
  let _ ← compiled.compileLanggraph.toOption
  let decision ← (resolveModelPolicy c.system.py (call.modelPolicy.getD .auto) (← snapshot)
    c.tierMap definition.requiredCapabilities now).toOption
  return ⟨definition, decision⟩

def check (c : CreationConfig) (call : CreateCall) (loaded : Option AgentDefinition)
    (snapshot : Option ModelCatalogSnapshot) (now : String) : CreateCall :=
  match call.prepare c loaded snapshot now with
  | some prepared => call.goto (.selecting prepared)
  | none => call.goto .raised

end CreateCall

/-- `POST /runs` creates runs by the calls here, and by nothing else. -/
def Action.creates : Action → Bool
  | .request (.createRun ..) => true
  | _ => false

namespace CreationState

def setCall (s : CreationState) (position : Nat) (call : CreateCall) : CreationState :=
  { s with calls := s.calls.set position call }

/-- The next statement of a call succeeds. `INSERT` of a session waits while another call has
inserted the key, and raises when it is stored by then. -/
def advance (c : CreationConfig) (s : CreationState) (position : Nat) (call : CreateCall)
    (jobId : JobId) : Option CreationState :=
  match call.phase with
  | .selecting prepared =>
      some (s.setCall position (call.goto
        (if s.sessions.contains call.sessionId then .addingRun prepared false
          else .addingSession prepared)))
  | .addingSession prepared =>
      if s.sessions.contains call.sessionId then some (s.setCall position (call.goto .raised))
      else if s.calls.any fun other => other.locks call.sessionId then none
      else some (s.setCall position (call.goto (.addingRun prepared true)))
  | .addingRun prepared owns => some (s.setCall position (call.goto (.committing prepared owns)))
  | .committing prepared owns =>
      if (s.sys.db.jobs.find? jobId).isSome then none
      else
        some
          { sys := { s.sys with
              db := (Tx.createRun (call.newRun prepared) jobId s.sys.clock).apply c.system.py
                s.sys.db }
            sessions := if owns then s.sessions ++ [call.sessionId] else s.sessions
            calls := s.calls.set position
              { call with phase := .appending prepared, jobId := some jobId } }
  | .appending prepared =>
      some
        { s with
          sys := { s.sys with
            db := (Tx.appendMany call.id [call.resolvedEvent prepared.decision]).apply c.system.py
              s.sys.db }
          calls := s.calls.set position (call.goto .refreshing) }
  | .refreshing => some (s.setCall position (call.goto .returned))
  | .checking | .returned | .raised => none

def step (c : CreationConfig) (s : CreationState) : CreationAction → Option CreationState
  | .system action =>
      if action.creates then none
      else (s.sys.step c.system action).map fun sys => { s with sys := sys }
  | .begin sessionId graphName inputText modelPolicy id =>
      -- `uuid4` draws a key that no run and no call has
      if (s.sys.db.runs.find? id).isSome || s.calls.any fun call => call.id = id then none
      else
        some { s with calls := s.calls ++
          [{ sessionId := sessionId
             graphName := graphName
             inputText := inputText
             modelPolicy := modelPolicy
             id := id }] }
  | .check position loaded snapshot now =>
      match s.calls[position]? with
      | some call =>
          match call.phase with
          | .checking => some (s.setCall position (call.check c loaded snapshot now))
          | _ => none
      | none => none
  | .advance position jobId =>
      match s.calls[position]? with
      | some call => s.advance c position call jobId
      | none => none
  | .fails position =>
      match s.calls[position]? with
      | some call =>
          match call.phase with
          | .returned | .raised => none
          | _ => some (s.setCall position (call.goto .raised))
      | none => none

end CreationState

def creation (c : CreationConfig) : Machine CreationState CreationAction where
  init s := ∃ clock sessions, s = ⟨.start clock, sessions, []⟩
  step := CreationState.step c

/-- No row of the run `id` is stored. -/
structure Database.Unknown (db : Database) (id : RunId) : Prop where
  run : db.runs.find? id = none
  job : ∀ k row, db.jobs.find? k = some row → row.runId ≠ id
  event : ∀ row ∈ db.events, row.runId ≠ id

/-- Nothing of the run `id` is stored, executed or on its way to the timeline. -/
structure Sys.Unknown (s : Sys) (id : RunId) : Prop where
  db : s.db.Unknown id
  attempt : ∀ w a, s.attempt? w = some a → a.job.runId ≠ id
  lane : ∀ w, ∀ lane ∈ (s.workers w).lanes, ∀ event ∈ lane, event.runId ≠ id
  api : ∀ event ∈ s.apiEvents, event.runId ≠ id

namespace CreationState

/-- The store holds the run of the call, one job that a call inserted for it, and its event. -/
structure Holds (s : CreationState) (call : CreateCall) : Prop where
  run : (s.sys.db.runs.find? call.id).isSome = true
  job : ∃! row, row ∈ s.sys.db.jobs.rows ∧ row.runId = call.id ∧
    ∃ other ∈ s.calls, other.jobId = some row.id
  event : ∃ row ∈ s.sys.db.events, row.runId = call.id ∧ row.type = .modelResolved

/-- A call that returned left everything, and a call that raised left nothing. -/
def AllOrNothing (s : CreationState) : Prop :=
  ∀ call ∈ s.calls, (call.phase = .returned → s.Holds call) ∧
    (call.phase = .raised → s.sys.Unknown call.id)

end CreationState

/-- A statement raises only while its call has not committed. -/
def failsBeforeCommit : Guard CreationState CreationAction := fun s action =>
  ∀ position call, action = .fails position → s.calls[position]? = some call → call.jobId = none

section Unknown
variable {c : Config} {s t : Sys} {action : Action} {py : Builtins} {db : Database} {tx : Tx}
  {id : RunId} {w : WorkerId} {a : Attempt} {e : Effect}

/-- A transaction makes a run known by inserting it; a job or an event comes with a known run. -/
theorem Database.Unknown.apply (unknown : db.Unknown id)
    (absent : (tx.apply py db).runs.find? id = none)
    (jobs : ∀ row, tx.newJob db = some row → row.runId ≠ id)
    (appends : ∀ k events, tx = .appendMany k events → k ≠ id) :
    (tx.apply py db).Unknown id where
  run := absent
  job k row stored := by
    rw [Tx.find?_jobs] at stored
    obtain ⟨old, before, rfl⟩ | ⟨_, inserted, _⟩ := rowAfter_cases stored
    · rw [(tx.onJob_step old).fixed.2.1]
      exact unknown.job k old before
    · exact jobs row inserted
  event row member := by
    rcases tx.events_cases py db with same | ⟨k, events, rfl⟩
    · rw [same] at member
      exact unknown.event row member
    · obtain ⟨kept, whole, sub⟩ :=
        insertAll_append db.events (eventRows py k events (db.nextSeq k))
      simp only [Tx.apply, Database.appendMany, whole, List.mem_append] at member
      rcases member with old | new
      · exact unknown.event row old
      · have owned := (eventRows_batch py k events (db.nextSeq k)).owned row (sub.subset new)
        rw [owner_event] at owned
        exact owned ▸ appends k events rfl

theorem Tx.newJob_apart (py : Builtins) (tx : Tx) (issued : tx.Issued s)
    (absent : (tx.apply py s.db).runs.find? id = none) :
    ∀ row, tx.newJob s.db = some row → row.runId ≠ id := by
  rintro row inserted rfl
  have owned : ((tx.apply py s.db).runs.find? row.runId).isSome = true :=
    Tx.newJob_owned issued inserted
  rw [absent] at owned
  contradiction

theorem Issues.appends {m : Move} (issues : Issues c s w a m tx) {k : RunId}
    {events : List RuntimeEvent} (same : tx = .appendMany k events) : k = a.job.runId := by
  cases issues with
  | emitFailed | emitRetry => cases same; rfl
  | _ => contradiction

theorem Sys.Unknown.serve {r : Request} (unknown : s.Unknown id)
    (served : s.serve c r = some t) (absent : t.db.runs.find? id = none) : t.Unknown id := by
  cases Sys.serve_cases served with
  | @createRun new jobId fresh free =>
      have apart := Tx.newJob_apart c.py (.createRun new jobId s.clock) ⟨rfl, fresh, free⟩ absent
      refine ⟨unknown.db.apply absent apart (by simp), unknown.attempt, unknown.lane, ?_⟩
      intro event member
      rcases List.mem_append.mp member with old | new'
      · exact unknown.api event old
      · rw [List.mem_singleton.mp new']
        exact apart _ rfl
  | @cancelRun k live =>
      refine ⟨unknown.db.apply absent (by simp [Tx.newJob]) (by simp), unknown.attempt,
        unknown.lane, ?_⟩
      intro event member
      rcases List.mem_append.mp member with old | new
      · exact unknown.api event old
      · rw [List.mem_singleton.mp new]
        rintro rfl
        rw [unknown.db.run] at live
        contradiction
  | @resolve approval status resolvedBy reason jobId decided free =>
      exact ⟨unknown.db.apply absent (Tx.newJob_apart c.py
          (.resolveAndEnqueue approval status resolvedBy reason s.clock jobId)
          ⟨rfl, decided, free⟩ absent) (by simp), unknown.attempt, unknown.lane, unknown.api⟩
  | @enqueue k jobId known free =>
      exact ⟨unknown.db.apply absent (Tx.newJob_apart c.py (.enqueue k jobId s.clock)
          ⟨rfl, known, free⟩ absent) (by simp), unknown.attempt, unknown.lane, unknown.api⟩
  | @append position event found =>
      refine ⟨unknown.db.apply absent (by simp [Tx.newJob]) ?_, unknown.attempt, unknown.lane,
        fun other member => unknown.api other (List.mem_of_mem_eraseIdx member)⟩
      rintro k events ⟨⟩
      exact unknown.api event (List.mem_of_getElem? found)
  | abandon =>
      exact ⟨unknown.db, unknown.attempt, unknown.lane,
        fun other member => unknown.api other (List.mem_of_mem_eraseIdx member)⟩

/-- A step of a worker, from what it makes of the worker and of the database. -/
theorem Sys.Unknown.update {worker : Worker} (unknown : s.Unknown id) (db : t.db.Unknown id)
    (workers : t.workers = Function.update s.workers w worker) (api : t.apiEvents = s.apiEvents)
    (attempt : ∀ b, worker.activity = .busy b → b.job.runId ≠ id)
    (lanes : ∀ lane ∈ worker.lanes, ∀ event ∈ lane, event.runId ≠ id) : t.Unknown id := by
  refine ⟨db, ?_, ?_, api ▸ unknown.api⟩
  · simp only [Sys.attempt?_eq_some, workers]
    apply (Function.forall_update_iff s.workers fun _ worker =>
      ∀ b, worker.activity = .busy b → b.job.runId ≠ id).mpr
    exact ⟨attempt, fun v _ b busy => unknown.attempt v b (Sys.attempt?_eq_some.mpr busy)⟩
  · rw [workers]
    apply (Function.forall_update_iff s.workers fun _ worker =>
      ∀ lane ∈ worker.lanes, ∀ event ∈ lane, event.runId ≠ id).mpr
    exact ⟨lanes, fun v _ => unknown.lane v⟩

theorem Sys.Unknown.work {m : Move} (unknown : s.Unknown id)
    (step : Sys.Step c s (.work w m) t) (absent : t.db.runs.find? id = none) : t.Unknown id := by
  have attempt (b : Attempt) (busy : (s.workers w).activity = .busy b) : b.job.runId ≠ id :=
    unknown.attempt w b (Sys.attempt?_eq_some.mpr busy)
  cases step with
  | @persist _ lane event rest found =>
      refine unknown.update (unknown.db.apply absent (by simp [Tx.newJob]) ?_) rfl rfl attempt ?_
      · rintro k events ⟨⟩
        exact unknown.lane w _ (List.mem_of_getElem? found) event List.mem_cons_self
      · intro lane' member
        rcases List.mem_or_eq_of_mem_set member with old | rfl
        · exact unknown.lane w lane' old
        · exact fun other among => unknown.lane w _ (List.mem_of_getElem? found) other
            (List.mem_cons_of_mem _ among)
  | crash => exact unknown.update unknown.db rfl rfl (by simp) (by simp)
  | poll | claimNone => exact unknown.update unknown.db rfl rfl (by simp) (unknown.lane w)
  | @claim _ _ _ job polling found =>
      obtain ⟨_, run, stored, _⟩ := Sys.claimCandidate_sound found
      refine unknown.update (unknown.db.apply absent (by simp [Tx.newJob]) (by simp)) rfl rfl ?_
        (unknown.lane w)
      rintro b ⟨⟩ same
      rw [show job.runId = id from same, unknown.db.run] at stored
      contradiction
  | @effect _ _ a e busy effected =>
      have own := unknown.attempt w a busy
      have issues := Sys.effect_issues effected
      refine unknown.update (unknown.db.apply absent ?_ fun k events same => ?_) rfl rfl ?_ ?_
      · simp [issues.newJob]
      · rw [issues.appends same]
        exact own
      · intro b after
        rw [(Sys.effect_lease effected).job (Worker.after_busy.mp after)]
        exact own
      · intro lane member event among
        rcases Worker.mem_emit member among with new | ⟨old, before, among⟩
        · rw [(Sys.effect_emits effected event new).1]
          exact own
        · exact unknown.lane w old before event among

/-- What is unknown stays so until the run is inserted. -/
theorem Sys.Unknown.step (unknown : s.Unknown id) (stepped : s.step c action = some t)
    (absent : t.db.runs.find? id = none) : t.Unknown id := by
  cases action with
  | tick seconds => cases stepped; exact ⟨unknown.db, unknown.attempt, unknown.lane, unknown.api⟩
  | request r => exact unknown.serve stepped absent
  | work w m => exact unknown.work (Sys.step_sound stepped) absent

theorem Tx.job_kept (tx : Tx) {k : JobId}
    (stored : ∃ row, db.jobs.find? k = some row ∧ row.runId = id) :
    ∃ row, (tx.apply py db).jobs.find? k = some row ∧ row.runId = id := by
  obtain ⟨row, found, own⟩ := stored
  refine ⟨tx.onJob row, ?_, (tx.onJob_step row).fixed.2.1.trans own⟩
  rw [Tx.find?_jobs, found, rowAfter_some]

theorem Tx.event_kept (tx : Tx) {type : EventType}
    (stored : ∃ row ∈ db.events, row.runId = id ∧ row.type = type) :
    ∃ row ∈ (tx.apply py db).events, row.runId = id ∧ row.type = type := by
  obtain ⟨row, member, own⟩ := stored
  exact ⟨row, (tx.events_prefix py db).subset member, own⟩

/-- An event that is not terminal is never dropped. -/
theorem Database.appendMany_stored (py : Builtins) (db : Database) (id : RunId)
    {event : RuntimeEvent} (lasting : event.type.terminal = false) :
    ∃ row ∈ (db.appendMany py id [event]).events, row.runId = id ∧ row.type = event.type := by
  have batch := eventRows_batch py id [event] (db.nextSeq id)
  obtain ⟨kept, whole, _, dropped⟩ := insertAll_batch batch (Behind.of_next batch)
  refine ⟨event.row py id (db.nextSeq id), ?_, rfl, rfl⟩
  simp only [appendMany, whole]
  by_contra absent
  have ends := (dropped (event.row py id (db.nextSeq id)) (by simp [eventRows])
    fun member => absent (List.mem_append_right _ member)).1
  rw [final_event, show (event.row py id (db.nextSeq id)).type = event.type from rfl,
    lasting] at ends
  contradiction

/-- Only `create_run` makes a run known. -/
theorem Sys.run_absent (other : action.creates = false) (stepped : s.step c action = some t)
    (absent : s.db.runs.find? id = none) : t.db.runs.find? id = none := by
  obtain ⟨tx, commits⟩ := (Sys.step_sound stepped).commits
  have new : tx.newRun = none := by
    cases commits.origin with
    | idle | persist | claim => rfl
    | request r =>
        cases r with
        | createRun => contradiction
        | append =>
            simp only [Request.tx]
            split <;> rfl
        | cancelRun | resolve | enqueue | abandon => rfl
    | @work _ _ _ e _ effected =>
        have issues := Sys.effect_issues effected
        generalize e.tx = issued at issues ⊢
        cases issues <;> rfl
  rw [commits.db, Tx.find?_runs, absent, new]
  rfl

end Unknown

/-- Phases behind the commit of the run and its job. -/
def CreatePhase.committed : CreatePhase → Bool
  | .appending _ | .refreshing | .returned => true
  | _ => false

def CreatePhase.ended : CreatePhase → Bool
  | .returned | .raised => true
  | _ => false

namespace CreationState

/-- A move of the call at a position that writes nothing. -/
inductive Turn (position : Nat) : CreationAction → CreatePhase → CreatePhase → Prop
  | within {action phase next} : phase.committed = false → next.committed = false →
      Turn position action phase next
  | returns {action} : Turn position action .refreshing .returned
  | fails {phase} : Turn position (.fails position) phase .raised

inductive Step (c : CreationConfig) (s : CreationState) : CreationAction → CreationState → Prop
  | system {action sys} : action.creates = false → s.sys.step c.system action = some sys →
      Step c s (.system action) { s with sys := sys }
  | begins {action} (call : CreateCall) : call.jobId = none → call.phase = .checking →
      s.sys.db.runs.find? call.id = none → (∀ other ∈ s.calls, other.id ≠ call.id) →
      Step c s action { s with calls := s.calls ++ [call] }
  | turns {action position call next} : s.calls[position]? = some call →
      call.phase.ended = false → Turn position action call.phase next →
      Step c s action (s.setCall position (call.goto next))
  | commits {action position call prepared owns jobId sessions} :
      s.calls[position]? = some call → call.phase = .committing prepared owns →
      s.sys.db.jobs.find? jobId = none →
      Step c s action
        { sys := { s.sys with
            db := (Tx.createRun (call.newRun prepared) jobId s.sys.clock).apply c.system.py
              s.sys.db }
          sessions := sessions
          calls := s.calls.set position
            { call with phase := .appending prepared, jobId := some jobId } }
  | appends {action position call prepared} :
      s.calls[position]? = some call → call.phase = .appending prepared →
      Step c s action
        { s with
          sys := { s.sys with
            db := (Tx.appendMany call.id [call.resolvedEvent prepared.decision]).apply c.system.py
              s.sys.db }
          calls := s.calls.set position (call.goto .refreshing) }

variable {c : CreationConfig} {s t : CreationState} {action : CreationAction}

theorem advance_sound {position : Nat} {call : CreateCall} {jobId : JobId}
    (found : s.calls[position]? = some call)
    (advanced : s.advance c position call jobId = some t) : Step c s action t := by
  unfold advance at advanced
  split at advanced
  next at' =>
    cases advanced
    refine .turns found (by rw [at']; rfl) (.within (by rw [at']; rfl) ?_)
    split <;> rfl
  next at' =>
    split at advanced
    next => cases advanced; exact .turns found (by rw [at']; rfl) (.within (by rw [at']; rfl) rfl)
    next =>
      split at advanced
      next => contradiction
      next =>
        cases advanced
        exact .turns found (by rw [at']; rfl) (.within (by rw [at']; rfl) rfl)
  next at' => cases advanced; exact .turns found (by rw [at']; rfl) (.within (by rw [at']; rfl) rfl)
  next at' =>
    split at advanced
    next => contradiction
    next free =>
      cases advanced
      exact .commits found at' (Option.not_isSome_iff_eq_none.mp free)
  next at' => cases advanced; exact .appends found at'
  next at' => cases advanced; exact .turns found (by rw [at']; rfl) (at' ▸ .returns)
  next => contradiction
  next => contradiction
  next => contradiction

theorem step_sound (stepped : s.step c action = some t) : Step c s action t := by
  cases action with
  | system action =>
      simp only [step] at stepped
      split at stepped
      next => contradiction
      next other =>
        obtain ⟨sys, moved, rfl⟩ := Option.map_eq_some_iff.mp stepped
        exact .system (by simpa using other) moved
  | begin sessionId graphName inputText modelPolicy id =>
      simp only [step] at stepped
      split at stepped
      next => contradiction
      next fresh =>
        cases stepped
        simp only [Bool.or_eq_true, not_or, Bool.not_eq_true, Option.isSome_eq_false_iff,
          Option.isNone_iff_eq_none, List.any_eq_false, decide_eq_true_eq] at fresh
        exact .begins _ rfl rfl fresh.1 fresh.2
  | check position loaded snapshot now =>
      simp only [step] at stepped
      split at stepped
      next call found =>
        split at stepped
        next at' =>
          cases stepped
          unfold CreateCall.check
          split
          next => exact .turns found (by rw [at']; rfl) (.within (by rw [at']; rfl) rfl)
          next => exact .turns found (by rw [at']; rfl) (.within (by rw [at']; rfl) rfl)
        next => contradiction
      next => contradiction
  | advance position jobId =>
      simp only [step] at stepped
      split at stepped
      next call found => exact advance_sound found stepped
      next => contradiction
  | fails position =>
      simp only [step] at stepped
      split at stepped
      next call found =>
        split at stepped
        next => contradiction
        next => contradiction
        next going raising =>
          cases stepped
          refine .turns found ?_ .fails
          cases at' : call.phase with
          | returned => exact absurd at' going
          | raised => exact absurd at' raising
          | checking | selecting | addingSession | addingRun | committing | appending
          | refreshing => rfl
      next => contradiction

/-- What holds between the calls and the store, whatever fails. -/
structure Sound (s : CreationState) : Prop where
  known : ∀ id, s.sys.db.runs.find? id = none → s.sys.Unknown id
  distinct : ∀ (m n : Nat) (a b : CreateCall), s.calls[m]? = some a → s.calls[n]? = some b →
    a.id = b.id → m = n
  fits : ∀ (n : Nat) (call : CreateCall), s.calls[n]? = some call → call.phase ≠ .raised →
    call.phase.committed = call.jobId.isSome
  unmade : ∀ (n : Nat) (call : CreateCall), s.calls[n]? = some call → call.jobId = none →
    s.sys.db.runs.find? call.id = none
  made : ∀ (n : Nat) (call : CreateCall) (k : JobId), s.calls[n]? = some call →
    call.jobId = some k → (s.sys.db.runs.find? call.id).isSome = true ∧
      ∃ row, s.sys.db.jobs.find? k = some row ∧ row.runId = call.id
  told : ∀ (n : Nat) (call : CreateCall), s.calls[n]? = some call →
    call.phase = .refreshing ∨ call.phase = .returned →
      ∃ row ∈ s.sys.db.events, row.runId = call.id ∧ row.type = .modelResolved

theorem set_get? {calls : List CreateCall} {position n : Nat} {call b : CreateCall}
    (found : (calls.set position call)[n]? = some b) :
    (n = position ∧ b = call) ∨ (n ≠ position ∧ calls[n]? = some b) := by
  rw [List.getElem?_set] at found
  split at found
  next same =>
    split at found
    next => exact .inl ⟨same.symm, (Option.some.inj found).symm⟩
    next => contradiction
  next other => exact .inr ⟨fun same => other same.symm, found⟩

theorem append_get? {calls : List CreateCall} {n : Nat} {call b : CreateCall}
    (found : (calls ++ [call])[n]? = some b) :
    calls[n]? = some b ∨ (calls.length ≤ n ∧ b = call) := by
  rw [List.getElem?_append] at found
  split at found
  next => exact .inl found
  next beyond =>
    have member := List.mem_of_getElem? found
    exact .inr ⟨Nat.le_of_not_lt beyond, List.mem_singleton.mp member⟩

/-- The keys stay apart when a call is replaced by one of the same run. -/
theorem Sound.distinct_set (sound : s.Sound) {position : Nat} {call next : CreateCall}
    (found : s.calls[position]? = some call) (same : next.id = call.id) (m n : Nat)
    (a b : CreateCall) (first : (s.calls.set position next)[m]? = some a)
    (second : (s.calls.set position next)[n]? = some b) (equal : a.id = b.id) : m = n := by
  have origin {k : Nat} {x : CreateCall} (found' : (s.calls.set position next)[k]? = some x) :
      ∃ y, s.calls[k]? = some y ∧ y.id = x.id := by
    rcases set_get? found' with ⟨rfl, rfl⟩ | ⟨_, old⟩
    · exact ⟨call, found, same.symm⟩
    · exact ⟨x, old, rfl⟩
  obtain ⟨a', foundA, sameA⟩ := origin first
  obtain ⟨b', foundB, sameB⟩ := origin second
  exact sound.distinct m n a' b' foundA foundB (by rw [sameA, sameB, equal])

theorem Sound.begins (sound : s.Sound) (call : CreateCall) (unmade : call.jobId = none)
    (at' : call.phase = .checking) (fresh : s.sys.db.runs.find? call.id = none)
    (others : ∀ other ∈ s.calls, other.id ≠ call.id) :
    Sound { s with calls := s.calls ++ [call] } where
  known := sound.known
  distinct m n a b first second equal := by
    have within {k : Nat} {x : CreateCall} (found : s.calls[k]? = some x) : k < s.calls.length :=
      (List.getElem?_eq_some_iff.mp found).1
    have last {k : Nat} {x : CreateCall} (found : (s.calls ++ [call])[k]? = some x) :
        k < s.calls.length + 1 := by
      have bound := (List.getElem?_eq_some_iff.mp found).1
      rwa [List.length_append] at bound
    have top := last first
    have top' := last second
    rcases append_get? first with old | ⟨beyond, rfl⟩ <;>
      rcases append_get? second with old' | ⟨beyond', rfl⟩
    · exact sound.distinct m n a b old old' equal
    · exact absurd equal (others a (List.mem_of_getElem? old))
    · exact absurd equal.symm (others b (List.mem_of_getElem? old'))
    · omega
  fits n other found going := by
    rcases append_get? found with old | ⟨_, rfl⟩
    · exact sound.fits n other old going
    · rw [at', unmade]
      rfl
  unmade n other found none := by
    rcases append_get? found with old | ⟨_, rfl⟩
    · exact sound.unmade n other old none
    · exact fresh
  made n other k found some := by
    rcases append_get? found with old | ⟨_, rfl⟩
    · exact sound.made n other k old some
    · rw [unmade] at some
      contradiction
  told n other found done := by
    rcases append_get? found with old | ⟨_, rfl⟩
    · exact sound.told n other old done
    · rw [at'] at done
      rcases done with done | done <;> contradiction

theorem Sound.turns (sound : s.Sound) {position : Nat} {call : CreateCall} {next : CreatePhase}
    (found : s.calls[position]? = some call) (going : call.phase.ended = false)
    (turn : Turn position action call.phase next) :
    Sound (s.setCall position (call.goto next)) where
  known := sound.known
  distinct := sound.distinct_set found rfl
  fits n other stored unraised := by
    rcases set_get? stored with ⟨rfl, rfl⟩ | ⟨_, old⟩
    · have fits := sound.fits n call found fun raised => by rw [raised] at going; contradiction
      generalize call.phase = phase at turn fits
      cases turn with
      | within before after => exact after.trans (before.symm.trans fits)
      | returns => exact fits
      | fails => exact absurd rfl unraised
    · exact sound.fits n other old unraised
  unmade n other stored none := by
    rcases set_get? stored with ⟨rfl, rfl⟩ | ⟨_, old⟩
    · exact sound.unmade n call found none
    · exact sound.unmade n other old none
  made n other k stored some := by
    rcases set_get? stored with ⟨rfl, rfl⟩ | ⟨_, old⟩
    · exact sound.made n call k found some
    · exact sound.made n other k old some
  told n other stored done := by
    rcases set_get? stored with ⟨rfl, rfl⟩ | ⟨_, old⟩
    · generalize at' : call.phase = phase at turn
      cases turn with
      | within before after => rcases done with rfl | rfl <;> contradiction
      | returns => exact sound.told n call found (.inl at')
      | fails => rcases done with done | done <;> contradiction
    · exact sound.told n other old done

theorem Sound.system (sound : s.Sound) {action : Action} {sys : Sys}
    (other : action.creates = false) (stepped : s.sys.step c.system action = some sys) :
    Sound { s with sys := sys } := by
  obtain ⟨tx, commits⟩ := (Sys.step_sound stepped).commits
  have db := commits.db
  constructor
  · intro id absent
    refine (sound.known id ?_).step stepped absent
    by_contra known
    have kept := commits.run_kept (Option.isSome_iff_ne_none.mpr known)
    rw [absent] at kept
    contradiction
  · exact sound.distinct
  · exact sound.fits
  · exact fun n call found none => Sys.run_absent other stepped (sound.unmade n call found none)
  · intro n call k found some
    obtain ⟨run, job⟩ := sound.made n call k found some
    dsimp only
    rw [db]
    exact ⟨tx.run_kept _ run, tx.job_kept job⟩
  · intro n call found done
    dsimp only
    rw [db]
    exact tx.event_kept (sound.told n call found done)

/-- A transaction of a call, with the call behind it. -/
theorem Sound.write (sound : s.Sound) {position : Nat} {call next : CreateCall} {tx : Tx}
    {sessions : List String} (found : s.calls[position]? = some call) (same : next.id = call.id)
    (db : ∀ id, (tx.apply c.system.py s.sys.db).runs.find? id = none → s.sys.db.Unknown id →
      (tx.apply c.system.py s.sys.db).Unknown id)
    (spares : ∀ id, id ≠ call.id → s.sys.db.runs.find? id = none →
      (tx.apply c.system.py s.sys.db).runs.find? id = none)
    (fits : next.phase.committed = true ∧ next.jobId.isSome = true)
    (made : ∀ k, next.jobId = some k →
      ((tx.apply c.system.py s.sys.db).runs.find? call.id).isSome = true ∧
        ∃ row, (tx.apply c.system.py s.sys.db).jobs.find? k = some row ∧ row.runId = call.id)
    (told : next.phase = .refreshing ∨ next.phase = .returned →
      ∃ row ∈ (tx.apply c.system.py s.sys.db).events,
        row.runId = call.id ∧ row.type = .modelResolved) :
    Sound
      { sys := { s.sys with db := tx.apply c.system.py s.sys.db }
        sessions := sessions
        calls := s.calls.set position next } where
  known id absent := by
    have unknown := sound.known id (by
      by_contra known
      have kept := tx.run_kept c.system.py (Option.isSome_iff_ne_none.mpr known)
      rw [absent] at kept
      contradiction)
    exact ⟨db id absent unknown.db, unknown.attempt, unknown.lane, unknown.api⟩
  distinct := sound.distinct_set found same
  fits n other stored going := by
    rcases set_get? stored with ⟨rfl, rfl⟩ | ⟨_, old⟩
    · rw [fits.1, fits.2]
    · exact sound.fits n other old going
  unmade n other stored none := by
    rcases set_get? stored with ⟨rfl, rfl⟩ | ⟨apart, old⟩
    · have some := fits.2
      rw [none] at some
      contradiction
    · refine spares other.id (fun equal => apart ?_) (sound.unmade n other old none)
      exact sound.distinct n position other call old found equal
  made n other k stored some := by
    rcases set_get? stored with ⟨rfl, rfl⟩ | ⟨_, old⟩
    · rw [same]
      exact made k some
    · obtain ⟨run, job⟩ := sound.made n other k old some
      exact ⟨tx.run_kept _ run, tx.job_kept job⟩
  told n other stored done := by
    rcases set_get? stored with ⟨rfl, rfl⟩ | ⟨_, old⟩
    · rw [same]
      exact told done
    · exact tx.event_kept (sound.told n other old done)

theorem Sound.commits (sound : s.Sound) {position : Nat} {call : CreateCall} {prepared : Prepared}
    {owns : Bool} {jobId : JobId} {sessions : List String} (found : s.calls[position]? = some call)
    (at' : call.phase = .committing prepared owns) (free : s.sys.db.jobs.find? jobId = none) :
    Sound
      { sys := { s.sys with
          db := (Tx.createRun (call.newRun prepared) jobId s.sys.clock).apply c.system.py s.sys.db }
        sessions := sessions
        calls := s.calls.set position
          { call with phase := .appending prepared, jobId := some jobId } } := by
  have unmade : call.jobId = none := by
    have fits := sound.fits position call found (by rw [at']; simp)
    rw [at'] at fits
    exact Option.isSome_eq_false_iff.mp fits.symm |> Option.isNone_iff_eq_none.mp
  have fresh := sound.unmade position call found unmade
  refine sound.write found rfl (fun id absent unknown => ?_) (fun id apart absent => ?_) ⟨rfl, rfl⟩
    ?_ (fun done => ?_)
  · exact unknown.apply absent (Tx.newJob_apart c.system.py
      (.createRun (call.newRun prepared) jobId s.sys.clock) ⟨rfl, fresh, free⟩ absent) (by simp)
  · rw [Tx.find?_runs, absent]
    simp [rowAfter, Tx.newRun, CreateCall.newRun, Option.filter, apart.symm]
  · rintro k ⟨⟩
    constructor
    · rw [Tx.find?_runs, fresh]
      simp [rowAfter, Tx.newRun, CreateCall.newRun]
    · refine ⟨{ id := jobId, runId := call.id, createdAt := s.sys.clock }, ?_, rfl⟩
      rw [Tx.find?_jobs, free]
      simp [rowAfter, Tx.newJob, CreateCall.newRun]
  · rcases done with done | done <;> contradiction

theorem Sound.appends (sound : s.Sound) {position : Nat} {call : CreateCall} {prepared : Prepared}
    (found : s.calls[position]? = some call) (at' : call.phase = .appending prepared) :
    Sound
      { s with
        sys := { s.sys with
          db := (Tx.appendMany call.id [call.resolvedEvent prepared.decision]).apply c.system.py
            s.sys.db }
        calls := s.calls.set position (call.goto .refreshing) } := by
  have fits := sound.fits position call found (by rw [at']; simp)
  rw [at'] at fits
  obtain ⟨k, committed⟩ := Option.isSome_iff_exists.mp fits.symm
  obtain ⟨known, job⟩ := sound.made position call k found committed
  refine sound.write found rfl (fun id absent unknown => ?_) (fun id _ absent => ?_)
    ⟨rfl, fits.symm⟩ (fun k' same => ?_) fun _ => ?_
  · refine unknown.apply absent (by simp [Tx.newJob]) ?_
    rintro k events ⟨⟩ rfl
    rw [unknown.run] at known
    contradiction
  · exact absent
  · rw [show call.jobId = some k' from same] at committed
    cases committed
    exact ⟨known, job⟩
  · exact Database.appendMany_stored c.system.py s.sys.db call.id rfl

theorem Sound.step (sound : s.Sound) (step : Step c s action t) : t.Sound := by
  cases step with
  | system other moved => exact sound.system other moved
  | begins call unmade at' fresh others => exact sound.begins call unmade at' fresh others
  | turns found going turn => exact sound.turns found going turn
  | commits found at' free => exact sound.commits found at' free
  | appends found at' => exact sound.appends found at'

theorem sound_start (clock : Time) (sessions : List String) :
    Sound ⟨.start clock, sessions, []⟩ where
  known id _ := ⟨⟨rfl, by simp [Sys.start, Database.empty], by simp [Sys.start, Database.empty]⟩,
    by simp [Sys.start, Sys.attempt?], by simp [Sys.start], by simp [Sys.start]⟩
  distinct := by simp
  fits := by simp
  unmade := by simp
  made := by simp
  told := by simp

/-- A call that committed and stored its event left one run, one job and the event. -/
theorem Sound.holds (sound : s.Sound) {n : Nat} {call : CreateCall}
    (found : s.calls[n]? = some call) (returned : call.phase = .returned) : s.Holds call := by
  have fits := sound.fits n call found (by rw [returned]; simp)
  rw [returned] at fits
  obtain ⟨k, committed⟩ := Option.isSome_iff_exists.mp fits.symm
  obtain ⟨known, row, stored, own⟩ := sound.made n call k found committed
  have key : row.id = k := Table.key_of_find? stored
  refine ⟨known, ⟨row, ⟨?_, own, call, List.mem_of_getElem? found, by rw [key, committed]⟩, ?_⟩,
    sound.told n call found (.inr returned)⟩
  · exact (Table.find?_eq_some.mp stored).1
  · rintro other ⟨member, ofRun, maker, among, made⟩
    obtain ⟨m, at'⟩ := List.mem_iff_getElem?.mp among
    obtain ⟨_, again, storedAgain, ownAgain⟩ := sound.made m maker other.id at' made
    have found' : s.sys.db.jobs.find? other.id = some other := Table.mem_rows_iff.mp member
    rw [found'] at storedAgain
    cases storedAgain
    have same := sound.distinct m n maker call at' found (by rw [← ownAgain, ofRun])
    subst same
    rw [found] at at'
    cases at'
    rw [committed] at made
    rw [← Option.some.inj made, stored] at found'
    exact (Option.some.inj found').symm

/-- A call that raised before its commit left nothing. -/
theorem Sound.nothing (sound : s.Sound) {n : Nat} {call : CreateCall}
    (found : s.calls[n]? = some call) (unmade : call.jobId = none) : s.sys.Unknown call.id :=
  sound.known call.id (sound.unmade n call found unmade)

/-- A call has raised behind its commit. -/
def Torn (s : CreationState) : Prop :=
  ∃ (n : Nat) (call : CreateCall), s.calls[n]? = some call ∧ call.phase = .raised ∧
    call.jobId.isSome = true

theorem Torn.step (torn : s.Torn) (step : Step c s action t) : t.Torn := by
  obtain ⟨n, call, found, raised, committed⟩ := torn
  have kept {position : Nat} {other next : CreateCall} (found' : s.calls[position]? = some other)
      (going : other.phase.ended = false) : (s.calls.set position next)[n]? = some call := by
    rw [List.getElem?_set_ne, found]
    rintro rfl
    rw [found] at found'
    cases found'
    rw [raised] at going
    contradiction
  cases step with
  | system => exact ⟨n, call, found, raised, committed⟩
  | begins =>
      refine ⟨n, call, ?_, raised, committed⟩
      dsimp only
      rw [List.getElem?_append_left (List.getElem?_eq_some_iff.mp found).1, found]
  | turns found' going => exact ⟨n, call, kept found' going, raised, committed⟩
  | commits found' at' => exact ⟨n, call, kept found' (by rw [at']; rfl), raised, committed⟩
  | appends found' at' => exact ⟨n, call, kept found' (by rw [at']; rfl), raised, committed⟩

/-- While statements raise before the commit only, so have the calls that raised. -/
theorem whole_step (sound : s.Sound) (allowed : failsBeforeCommit s action)
    (step : Step c s action t)
    (whole : ∀ (n : Nat) (call : CreateCall), s.calls[n]? = some call → call.phase = .raised →
      call.jobId = none) (n : Nat) (call : CreateCall) (found : t.calls[n]? = some call)
    (raised : call.phase = .raised) : call.jobId = none := by
  cases step with
  | system => exact whole n call found raised
  | begins new unmade =>
      rcases append_get? found with old | ⟨_, rfl⟩
      · exact whole n call old raised
      · exact unmade
  | @turns _ position other next found' going turn =>
      rcases set_get? found with ⟨rfl, rfl⟩ | ⟨_, old⟩
      · have fits := sound.fits n other found' fun done => by rw [done] at going; contradiction
        generalize other.phase = phase at turn fits
        cases turn with
        | within before =>
            rw [before] at fits
            exact Option.isNone_iff_eq_none.mp (Option.isSome_eq_false_iff.mp fits.symm)
        | returns => contradiction
        | fails => exact allowed n other rfl found'
      · exact whole n call old raised
  | commits | appends =>
      rcases set_get? found with ⟨rfl, rfl⟩ | ⟨_, old⟩
      · contradiction
      · exact whole n call old raised

theorem torn_of_fails (late : ¬ failsBeforeCommit s action)
    (stepped : (creation c).step s action = some t) : t.Torn := by
  simp only [failsBeforeCommit, not_forall] at late
  obtain ⟨position, call, rfl, found, committed⟩ := late
  simp only [creation, step, found] at stepped
  split at stepped
  next => contradiction
  next => contradiction
  next =>
    cases stepped
    refine ⟨position, call.goto .raised, ?_, rfl, Option.isSome_iff_ne_none.mpr committed⟩
    exact List.getElem?_set_self (List.getElem?_eq_some_iff.mp found).1

end CreationState

/-- Creation is all or nothing exactly in the runs where no statement raises behind the commit of
its call. -/
theorem create_run_all_or_nothing_iff (c : CreationConfig) {s u : CreationState}
    {actions : List CreationAction} (first : (creation c).init s)
    (run : Run (creation c) anyStep s actions u) :
    u.AllOrNothing ↔ Run (creation c) failsBeforeCommit s actions u := by
  obtain ⟨clock, sessions, rfl⟩ := first
  have start := CreationState.sound_start clock sessions
  have preserved (s : CreationState) (a : CreationAction) (t : CreationState) (sound : s.Sound)
      (stepped : (creation c).step s a = some t) : t.Sound :=
    sound.step (CreationState.step_sound stepped)
  constructor
  · intro whole
    have sound := run.invariant (fun s a t sound _ stepped => preserved s a t sound stepped) start
    refine run.guarded (fun s a t sound _ stepped => preserved s a t sound stepped)
      (fun s a t _ _ stepped torn => torn.step (CreationState.step_sound stepped))
      (fun s a t _ _ stepped late => CreationState.torn_of_fails late stepped) start ?_
    rintro ⟨n, call, found, raised, committed⟩
    have unknown := (whole call (List.mem_of_getElem? found)).2 raised
    obtain ⟨k, made⟩ := Option.isSome_iff_exists.mp committed
    have known := (sound.made n call k found made).1
    rw [unknown.db.run] at known
    contradiction
  · intro guarded call member
    obtain ⟨n, found⟩ := List.mem_iff_getElem?.mp member
    obtain ⟨sound, whole⟩ := guarded.invariant
      (I := fun s => s.Sound ∧ ∀ (n : Nat) (call : CreateCall), s.calls[n]? = some call →
        call.phase = .raised → call.jobId = none)
      (fun s a t both allowed stepped => ⟨preserved s a t both.1 stepped,
        CreationState.whole_step both.1 allowed (CreationState.step_sound stepped) both.2⟩)
      ⟨start, by simp⟩
    exact ⟨fun returned => sound.holds found returned,
      fun raised => sound.nothing found (whole n call found raised)⟩

def failsBeforeCommitCheck (s : CreationState) : CreationAction → Bool
  | .fails position => s.calls[position]?.all fun call => call.jobId.isNone
  | _ => true

theorem failsBeforeCommit_checks (c : CreationConfig) :
    Checks (creation c) failsBeforeCommit (fun _ => True) failsBeforeCommitCheck where
  sound s action _ passed := by
    intro position call same found
    subst same
    simpa [failsBeforeCommitCheck, found] using passed
  kept _ _ _ _ _ _ := trivial

def welcomeDefinition : AgentDefinition where
  name := "welcome"
  nodes := [{ type := .llm, id := "greet" }]
  edges := []
  entry := "greet"

def sampleCreation : CreationConfig := ⟨sampleConfig, [("balanced", "small-model")]⟩

def secondRun : RunId := ⟨"0b9f6c1d-2e4a-4f8b-a7c3-9d1e5f2a6b8c", by decide⟩

/-- A call up to the statement that commits it. -/
def untilCommit (position : Nat) (id : RunId) : List CreationAction :=
  [.begin "session" "welcome" "hello" none id,
    .check position (some welcomeDefinition) (some ⟨"v1", [⟨"small-model", [], true⟩]⟩) "today",
    .advance position "", .advance position "", .advance position ""]

/-- The commit of the first call fails, and the call that is made again returns. -/
theorem repeated_call_creates_once :
    ∃ u actions, Run (creation sampleCreation) anyStep ⟨.start 100, [], []⟩ actions u ∧
      u.calls.map (fun call => (call.id, call.jobId)) =
        [(sampleRun, none), (secondRun, some "job")] ∧ u.AllOrNothing := by
  let actions := untilCommit 0 sampleRun ++ [.fails 0] ++ untilCommit 1 secondRun ++
    [.advance 1 "job", .advance 1 "", .advance 1 ""]
  obtain ⟨u, run, _, calls⟩ := (failsBeforeCommit_checks sampleCreation).of_test
    (s := ⟨.start 100, [], []⟩) trivial actions
    (fun u => u.calls.map (fun call => (call.id, call.jobId)) =
      [(sampleRun, none), (secondRun, some "job")])
    (by decide)
  exact ⟨u, actions, run.anyStep, calls,
    (create_run_all_or_nothing_iff sampleCreation ⟨100, [], rfl⟩ run.anyStep).mpr run⟩

theorem CreatePhase.raised_of_ended {phase : CreatePhase} (ended : phase.ended = true)
    (uncommitted : phase.committed = false) : phase = .raised := by
  cases phase <;> first | rfl | contradiction

/-- The append of `model.resolved` fails: the call raises, and a worker executes its run. -/
theorem raised_call_executed :
    ¬ ∀ s actions u, (creation sampleCreation).init s →
      Run (creation sampleCreation) anyStep s actions u → u.AllOrNothing := by
  intro whole
  obtain ⟨u, run, calls, claimed⟩ := Run.of_test (M := creation sampleCreation)
    ⟨.start 100, [], []⟩
    (untilCommit 0 sampleRun ++ [.advance 0 "job", .fails 0, .system (.work "w1" .poll),
      .system (.work "w1" (.claim fun _ => false))])
    (fun u => u.calls.any (fun call =>
        call.phase.ended && !call.phase.committed && call.id = sampleRun) = true ∧
      (u.sys.attempt? "w1").any (fun a => a.job.runId = sampleRun) = true)
    (by decide)
  obtain ⟨call, member, raised⟩ := List.any_eq_true.mp calls
  obtain ⟨a, busy, own⟩ := (Option.any_eq_true _ _).mp claimed
  simp only [Bool.and_eq_true, Bool.not_eq_true', decide_eq_true_eq] at raised own
  obtain ⟨⟨ended, uncommitted⟩, same⟩ := raised
  have unknown := (whole _ _ u ⟨100, [], rfl⟩ run call member).2
    (CreatePhase.raised_of_ended ended uncommitted)
  exact unknown.attempt "w1" a busy (own.trans same.symm)

end AgentRuntime
