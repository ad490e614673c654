import AgentRuntime.Reports

/-! Terminal status and terminal event agree at rest. The invariant says where the other half
of each is while only one of them is written. -/
namespace AgentRuntime
open Machines Tables Logs

/-- What a worker and its lanes tell about their runs. -/
structure Worker.Tells (db : Database) (worker : Worker) : Prop where
  attempt : ∀ a, worker.activity = .busy a → a.Tells db (worker.lanes.headD [])
  newest : ∀ event ∈ worker.lanes.headD [], event.type.terminal = true →
    event.type = .runCompleted ∧
      ∃ a, worker.activity = .busy a ∧ a.job.runId = event.runId ∧ a.completes = true
  older : ∀ lane ∈ worker.lanes.tail, ∀ event ∈ lane, event.type.terminal = false

/-- A stored terminal event fits the status of its run, and while only one of them is written,
the other is on its way. -/
structure Sys.Timely (s : Sys) : Prop where
  housed : s.Housed
  once : ∀ id, (s.db.terminalEvents id).length ≤ 1
  matching : ∀ id status type, s.db.Settled id status → type ∈ s.db.terminalEvents id →
    status.ending = some type
  backed : ∀ id type, type ∈ s.db.terminalEvents id → s.db.Ended id ∨
    ∃ w a, s.attempt? w = some a ∧ a.job.runId = id ∧ a.completes = true
  reported : ∀ id, s.db.Ended id → s.db.terminalEvents id ≠ [] ∨
    (∃ event ∈ s.apiEvents, event.runId = id ∧ event.type = .runCancelled) ∨
      ∃ w a, s.attempt? w = some a ∧ a.job.runId = id ∧ a.failing = true
  workers : ∀ w, (s.workers w).Tells s.db
  requests : ∀ event ∈ s.apiEvents, event.type.terminal = true → s.db.Ended event.runId

namespace Worker.Tells
variable {db : Database} {worker : Worker}

theorem apply (py : Builtins) (tells : worker.Tells db) (tx : Tx) :
    worker.Tells (tx.apply py db) where
  attempt a busy := by
    have kept := (tells.attempt a busy).apply py tx []
    rwa [List.append_nil] at kept
  newest := tells.newest
  older := tells.older

/-- Without an execution that has completed, no terminal event waits in a lane. -/
theorem silent (tells : worker.Tells db)
    (idle : ∀ a, worker.activity = .busy a → a.completes = false) :
    ∀ lane ∈ worker.lanes, ∀ event ∈ lane, event.type.terminal = false := by
  intro lane member event among
  cases lanes : worker.lanes with
  | nil => rw [lanes] at member; contradiction
  | cons first rest =>
      rw [lanes] at member
      cases member with
      | tail _ later => exact tells.older lane (by rw [lanes]; exact later) event among
      | head =>
          by_contra ends
          obtain ⟨_, a, busy, _, done⟩ :=
            tells.newest event (by rw [lanes]; exact among) (by simpa using ends)
          rw [idle a busy] at done
          contradiction

theorem silent_head (tells : worker.Tells db)
    (idle : ∀ a, worker.activity = .busy a → a.completes = false) :
    ∀ event ∈ worker.lanes.headD [], event.type.terminal = false := by
  intro event member
  cases lanes : worker.lanes with
  | nil => simp [lanes] at member
  | cons first rest =>
      exact tells.silent idle first (by rw [lanes]; exact List.mem_cons_self) event
        (by simpa [lanes] using member)

/-- A terminal event that is next in its lane is the one of an execution that has completed. -/
theorem waiting {lane : Nat} {event : RuntimeEvent} {rest : List RuntimeEvent}
    (tells : worker.Tells db) (found : worker.lanes[lane]? = some (event :: rest))
    (ends : event.type.terminal = true) :
    ∃ a, worker.activity = .busy a ∧ a.job.runId = event.runId ∧ a.completes = true := by
  cases lanes : worker.lanes with
  | nil => rw [lanes] at found; contradiction
  | cons top others =>
      rw [lanes] at found
      cases lane with
      | zero =>
          cases found
          exact (tells.newest event (by rw [lanes]; exact List.mem_cons_self) ends).2
      | succ lane =>
          have older := tells.older
          rw [lanes] at older
          have quiet := older _ (List.mem_of_getElem? found) event List.mem_cons_self
          rw [quiet] at ends
          contradiction

/-- A worker that takes up a job, or none, has no terminal event in its lanes. -/
theorem free (tells : worker.Tells db) (unbound : ∀ a, worker.activity ≠ .busy a)
    {activity : Activity} (fresh : ∀ a, activity = .busy a → a.phase = .setRunning) :
    Worker.Tells db { worker with activity := activity } := by
  have silent := tells.silent_head fun a busy => absurd busy (unbound a)
  refine ⟨fun a busy => ?_, fun event member ends => ?_, tells.older⟩
  · have phase := fresh a busy
    exact .none (by simp [Attempt.completes, phase]) (by simp [Attempt.cancels, phase])
      (by simp [Attempt.settles, phase])
  · have quiet := silent event member
    rw [quiet] at ends
    contradiction

theorem persist {c : Config} {lane : Nat} {event : RuntimeEvent} {rest : List RuntimeEvent}
    (tells : worker.Tells db) (found : worker.lanes[lane]? = some (event :: rest)) :
    Worker.Tells ((Tx.appendMany event.runId [event]).apply c.py db)
      { worker with lanes := worker.lanes.set lane rest } := by
  cases lanes : worker.lanes with
  | nil => rw [lanes] at found; contradiction
  | cons first others =>
      cases lane with
      | zero =>
          rw [lanes] at found
          cases found
          refine ⟨fun a busy => ?_, fun other member => ?_, fun other member => ?_⟩
          · have kept := (tells.attempt a busy).apply c.py (.appendMany event.runId [event]) []
            refine ⟨fun done => ?_, kept.cancels, kept.settles⟩
            rcases (tells.attempt a busy).completes done with ⟨other, member, type⟩ | stored
            · have ends : other.type.terminal = true := by rw [type]; rfl
              obtain ⟨_, b, busy', own, _⟩ := tells.newest other member ends
              rw [busy] at busy'
              cases busy'
              rw [lanes] at member
              cases member with
              | head =>
                  have announced : (Tx.appendMany event.runId [event]).announces =
                      some (event.runId, event.type) := by simp [Tx.announces, ends]
                  refine .inr ?_
                  rw [own]
                  exact Tx.terminalEvents_announced c.py db announced
              | tail _ later => exact .inl ⟨other, later, type⟩
            · exact .inr (Tx.terminalEvents_ne _ stored)
          · exact tells.newest other (by rw [lanes]; exact .tail _ member)
          · exact tells.older other (by rw [lanes]; exact member)
      | succ lane =>
          rw [lanes] at found
          have kept := tells.apply c.py (.appendMany event.runId [event])
          refine ⟨fun a busy => ?_, fun other member => ?_, fun other member later among => ?_⟩
          · have told := kept.attempt a busy
            rwa [lanes] at told
          · exact tells.newest other (by rw [lanes]; exact member)
          · have older := tells.older
            rw [lanes] at older
            rcases List.mem_or_eq_of_mem_set member with before | rfl
            · exact older other before later among
            · exact older (event :: other) (List.mem_of_getElem? found) later (.tail _ among)

theorem drained_head {worker : Worker} (drained : worker.drained = true) :
    worker.lanes.headD [] = [] := by
  unfold Worker.drained at drained
  cases lanes : worker.lanes with
  | nil => rfl
  | cons first rest =>
      rw [lanes] at drained
      exact List.isEmpty_iff.mp drained

theorem after {c : Config} {s : Sys} {w : WorkerId} {a : Attempt} {e : Effect}
    (tells : (s.workers w).Tells s.db) (busy : (s.workers w).activity = .busy a)
    (report : a.Report c.py s.db ((s.workers w).lanes.headD []) e) :
    ((s.workers w).after e).Tells (e.tx.apply c.py s.db) := by
  have going (b : Attempt) : ((s.workers w).after e).activity = .busy b ↔ e.attempt = some b := by
    simp only [Worker.after]
    cases e.attempt <;> simp
  -- a terminal event in the newest lane was there before, or the step emits it
  have heard (event : RuntimeEvent) (ends : event.type.terminal = true)
      (member : event ∈ (s.workers w).lanes.headD [] ++ e.emitted) :
      event.type = .runCompleted ∧ ∃ b, e.attempt = some b ∧ b.job.runId = event.runId ∧
        b.completes = true := by
    rcases List.mem_append.mp member with before | emitted
    · obtain ⟨type, a', busy', own, done⟩ := tells.newest event before ends
      rw [busy] at busy'
      cases busy'
      rcases report.completes done with ⟨b, next, job, done⟩ | ⟨empty, _⟩
      · exact ⟨type, b, next, job ▸ own, done⟩
      · rw [empty] at before
        contradiction
    · exact report.emitted event emitted ends
  cases opens : e.opensLane with
  | true =>
      have idle (b : Attempt) (busy' : (s.workers w).activity = .busy b) : b.completes = false := by
        rw [busy] at busy'
        cases busy'
        exact report.opens opens
      have lanes : ((s.workers w).after e).lanes = e.emitted :: (s.workers w).lanes := by
        simp [Worker.after, Worker.emit, opens]
      refine ⟨fun b next => ?_, fun event member ends => ?_, ?_⟩
      · rw [lanes]
        obtain ⟨job, told⟩ := report.next b ((going b).mp next)
        refine ⟨fun done => ?_, told.cancels, told.settles⟩
        rcases told.completes done with ⟨event, member, type⟩ | stored
        · rcases List.mem_append.mp member with before | emitted
          · have quiet := tells.silent_head idle event before
            rw [type] at quiet
            contradiction
          · exact .inl ⟨event, emitted, type⟩
        · exact .inr stored
      · rw [lanes] at member
        obtain ⟨type, b, next, rest⟩ := heard event ends (List.mem_append_right _ member)
        exact ⟨type, b, (going b).mpr next, rest⟩
      · rw [lanes]
        exact tells.silent idle
  | false =>
      have head : ((s.workers w).after e).lanes.headD [] =
          (s.workers w).lanes.headD [] ++ e.emitted := by
        simp only [Worker.after, Worker.emit, opens]
        cases (s.workers w).lanes <;> rfl
      have tail : ((s.workers w).after e).lanes.tail = (s.workers w).lanes.tail := by
        simp only [Worker.after, Worker.emit, opens]
        cases (s.workers w).lanes <;> rfl
      refine ⟨fun b next => ?_, fun event member ends => ?_, ?_⟩
      · rw [head]
        exact (report.next b ((going b).mp next)).2
      · rw [head] at member
        obtain ⟨type, b, next, rest⟩ := heard event ends member
        exact ⟨type, b, (going b).mpr next, rest⟩
      · rw [tail]
        exact tells.older

end Worker.Tells

section Requests
variable {c : Config} {s t : Sys} {r : Request} {action : Action} {tx : Tx}

theorem Sys.serve_new (served : s.serve c r = some t) {event : RuntimeEvent}
    (member : event ∈ t.apiEvents) :
    event ∈ s.apiEvents ∨ event.type.terminal = false ∨ r = .cancelRun event.runId := by
  cases serve_cases served with
  | createRun =>
      rcases List.mem_append.mp member with before | new
      · exact .inl before
      · rw [List.mem_singleton.mp new]
        exact .inr (.inl rfl)
  | cancelRun =>
      rcases List.mem_append.mp member with before | new
      · exact .inl before
      · rw [List.mem_singleton.mp new]
        exact .inr (.inr rfl)
  | resolve | enqueue => exact .inl member
  | append | abandon => exact .inl (List.mem_of_mem_eraseIdx member)

theorem Sys.serve_kept (served : s.serve c r = some t) (keeps : ∀ position, r ≠ .abandon position)
    {event : RuntimeEvent} (member : event ∈ s.apiEvents) :
    event ∈ t.apiEvents ∨ r.tx s = .appendMany event.runId [event] := by
  cases serve_cases served with
  | createRun | cancelRun => exact .inl (List.mem_append_left _ member)
  | resolve | enqueue => exact .inl member
  | @append position taken found =>
      obtain ⟨index, at'⟩ := List.getElem?_of_mem member
      by_cases same : index = position
      · subst same
        rw [at'] at found
        cases found
        exact .inr (by simp only [Request.tx, at'])
      · exact .inl (List.mem_eraseIdx_iff_getElem?.mpr ⟨index, same, at'⟩)
  | abandon => exact absurd rfl (keeps _)

theorem Sys.serve_cancel {id : RunId} (served : s.serve c (.cancelRun id) = some t) :
    ∃ event ∈ t.apiEvents, event.runId = id ∧ event.type = .runCancelled := by
  cases serve_cases served
  exact ⟨_, List.mem_append_right _ (List.mem_singleton_self _), rfl, rfl⟩

theorem Sys.Step.apiEvents (step : Sys.Step c s action t) (work : ∀ r, action ≠ .request r) :
    t.apiEvents = s.apiEvents := by
  cases step with
  | request r => exact absurd rfl (work r)
  | tick | persist | crash | poll | claimNone | claim | effect => rfl

end Requests

namespace Sys.Timely
variable {c : Config} {s t : Sys} {action : Action} {tx : Tx}

theorem report (timely : s.Timely) (allowed : unbroken s action) {w : WorkerId} {m : Move}
    {a : Attempt} {e : Effect} (same : action = .work w m) (busy : s.attempt? w = some a)
    (effected : s.effect c w a m = some e) :
    a.Report c.py s.db ((s.workers w).lanes.headD []) e :=
  effect_report ((timely.workers w).attempt a (attempt?_eq_some.mp busy))
    (timely.housed.attempts w a busy) (allowed.2.2 w m a same busy) Worker.Tells.drained_head
    effected

/-- An attempt is kept by the steps of the others, and reports its own. -/
theorem before_step (timely : s.Timely) (allowed : unbroken s action)
    (commits : Commits c s action t tx) {w : WorkerId} {a : Attempt} (busy : s.attempt? w = some a) :
    t.attempt? w = some a ∨ ∃ e, t.attempt? w = e.attempt ∧ t.db = e.tx.apply c.py s.db ∧
      a.Report c.py s.db ((s.workers w).lanes.headD []) e := by
  generalize same : action = act at commits
  cases commits.before w a busy with
  | kept after => exact .inl after
  | crashed => exact absurd same (allowed.2.1 w)
  | stepped effected reached db =>
      exact .inr ⟨_, reached, db, timely.report allowed same busy effected⟩

/-- An execution that has completed stays in the way until the run has ended. -/
theorem completes_step (timely : s.Timely) (allowed : unbroken s action)
    (commits : Commits c s action t tx) {w : WorkerId} {a : Attempt} (busy : s.attempt? w = some a)
    (done : a.completes = true) : t.db.Ended a.job.runId ∨
      ∃ v b, t.attempt? v = some b ∧ b.job.runId = a.job.runId ∧ b.completes = true := by
  rcases timely.before_step allowed commits busy with after | ⟨e, reached, db, report⟩
  · exact .inr ⟨w, a, after, rfl, done⟩
  · rcases report.completes done with ⟨b, next, job, done⟩ | ⟨_, ended⟩
    · exact .inr ⟨w, b, reached.trans next, by rw [job], done⟩
    · exact .inl (db ▸ ended)

theorem failing_step (timely : s.Timely) (allowed : unbroken s action)
    (commits : Commits c s action t tx) {w : WorkerId} {a : Attempt} (busy : s.attempt? w = some a)
    (fails : a.failing = true) : t.db.terminalEvents a.job.runId ≠ [] ∨
      ∃ v b, t.attempt? v = some b ∧ b.job.runId = a.job.runId ∧ b.failing = true := by
  rcases timely.before_step allowed commits busy with after | ⟨e, reached, db, report⟩
  · exact .inr ⟨w, a, after, rfl, fails⟩
  · rcases report.failing fails with ⟨b, next, job, fails⟩ | ⟨type, announced⟩
    · exact .inr ⟨w, b, reached.trans next, by rw [job], fails⟩
    · rw [db]
      exact .inl (Tx.terminalEvents_announced c.py s.db announced)

/-- A terminal event is stored behind the end of its run, or by an execution that has
completed. -/
theorem backed_step (timely : s.Timely) (allowed : unbroken s action)
    (commits : Commits c s action t tx) (id : RunId) (type : EventType)
    (stored : type ∈ t.db.terminalEvents id) : t.db.Ended id ∨
      ∃ w a, t.attempt? w = some a ∧ a.job.runId = id ∧ a.completes = true := by
  have kept (ended : s.db.Ended id) : t.db.Ended id := commits.db ▸ ended.apply tx
  have completing {w : WorkerId} {a : Attempt} (busy : s.attempt? w = some a)
      (own : a.job.runId = id) (done : a.completes = true) : t.db.Ended id ∨
        ∃ w a, t.attempt? w = some a ∧ a.job.runId = id ∧ a.completes = true := by
    subst own
    exact timely.completes_step allowed commits busy done
  rw [commits.db] at stored
  rcases tx.terminalEvents_apply c.py s.db id with same | ⟨type', announced, _, _⟩
  · rw [same] at stored
    rcases timely.backed id type stored with ended | ⟨w, a, busy, own, done⟩
    · exact .inl (kept ended)
    · exact completing busy own done
  · have source := commits.tx_eq
    have origin := commits.origin
    cases origin with
    | idle | claim => contradiction
    | @persist w lane other events =>
        simp only [transaction] at source
        split at source
        next event rest found =>
          cases source
          obtain ⟨rfl, _, ends⟩ := Tx.announces_single announced
          obtain ⟨a, busy, own, done⟩ := (timely.workers w).waiting found ends
          exact completing (attempt?_eq_some.mpr busy) own done
        next => rw [← source] at announced; contradiction
    | request r =>
        cases r with
        | append position =>
            simp only [Request.tx] at announced
            split at announced
            next event found =>
              obtain ⟨rfl, _, ends⟩ := Tx.announces_single announced
              exact .inl (kept (timely.requests event (List.mem_of_getElem? found) ends))
            next => contradiction
        | createRun | cancelRun | resolve | enqueue | abandon => contradiction
    | work busy effected reached =>
        exact .inl (kept ((timely.report allowed rfl busy effected).announces id type' announced))

/-- The end of a run is written by a request that goes on to report it, by a worker that does,
or behind a terminal event. -/
theorem ending_step (timely : s.Timely) (allowed : unbroken s action)
    (stepped : s.step c action = some t) (commits : Commits c s action t tx) (id : RunId)
    (open' : ¬ s.db.Ended id) (ended : t.db.Ended id) : t.db.terminalEvents id ≠ [] ∨
      (∃ event ∈ t.apiEvents, event.runId = id ∧ event.type = .runCancelled) ∨
        ∃ w a, t.attempt? w = some a ∧ a.job.runId = id ∧ a.failing = true := by
  obtain ⟨status, settled⟩ := ended
  rw [commits.db] at settled
  obtain ⟨concludes, _⟩ := tx.concludes_of_ended open' settled
  have terminal := settled.1
  cases commits.origin with
  | idle | claim | persist => contradiction
  | request r =>
      cases r with
      | cancelRun other => cases concludes; exact .inr (.inl (serve_cancel stepped))
      | append position =>
          simp only [Request.tx] at concludes
          split at concludes <;> contradiction
      | createRun | resolve | enqueue | abandon => contradiction
  | @work w m a e busy effected reached =>
      obtain ⟨rfl, before | stored | ⟨b, next, job, fails⟩⟩ :=
        (timely.report allowed rfl busy effected).concludes id status concludes terminal
      · exact absurd before open'
      · rw [commits.db]
        exact .inl (Tx.terminalEvents_ne _ stored)
      · exact .inr (.inr ⟨w, b, reached.trans next, by rw [job], fails⟩)

theorem reported_step (timely : s.Timely) (allowed : unbroken s action)
    (stepped : s.step c action = some t) (commits : Commits c s action t tx) (id : RunId)
    (ended : t.db.Ended id) : t.db.terminalEvents id ≠ [] ∨
      (∃ event ∈ t.apiEvents, event.runId = id ∧ event.type = .runCancelled) ∨
        ∃ w a, t.attempt? w = some a ∧ a.job.runId = id ∧ a.failing = true := by
  by_cases before : s.db.Ended id
  · rcases timely.reported id before with
      stored | ⟨event, member, own, type⟩ | ⟨w, a, busy, rfl, fails⟩
    · rw [commits.db]
      exact .inl (tx.terminalEvents_ne stored)
    · cases action with
      | request r =>
          have keeps : ∀ position, r ≠ .abandon position :=
            fun position same => allowed.1 position (by rw [same])
          rcases serve_kept stepped keeps member with kept | appended
          · exact .inr (.inl ⟨event, kept, own, type⟩)
          · have announced : tx.announces = some (id, .runCancelled) := by
              rw [← commits.tx_eq, transaction, appended]
              simp [Tx.announces, own, type, EventType.terminal]
            rw [commits.db]
            exact .inl (Tx.terminalEvents_announced c.py s.db announced)
      | tick | work =>
          have same := (step_sound stepped).apiEvents (by simp)
          exact .inr (.inl ⟨event, same ▸ member, own, type⟩)
    · rcases timely.failing_step allowed commits busy fails with stored | kept
      · exact .inl stored
      · exact .inr (.inr kept)
  · exact timely.ending_step allowed stepped commits id before ended

theorem matching_step (timely : s.Timely) (ordered : inOrder c s action)
    (commits : Commits c s action t tx) (id : RunId) (status : RunStatus) (type : EventType)
    (settled : t.db.Settled id status) (stored : type ∈ t.db.terminalEvents id) :
    status.ending = some type := by
  rw [inOrder, commits.tx_eq] at ordered
  rw [commits.db] at settled stored
  have unique {status' : RunStatus} (before : s.db.Settled id status') : status' = status := by
    obtain ⟨_, run, found, rfl⟩ := Database.Settled.apply before tx
    obtain ⟨_, run', found', rfl⟩ := settled
    rw [found] at found'
    cases found'
    rfl
  by_cases before : s.db.Ended id
  · obtain ⟨status', before⟩ := before
    obtain rfl := unique before
    rcases tx.terminalEvents_apply c.py s.db id with same | ⟨type', announced, empty, after⟩
    · rw [same] at stored
      exact timely.matching id status' type before stored
    · rw [after, List.mem_singleton] at stored
      subst stored
      exact ordered.1 id type status' announced empty before
  · obtain ⟨concludes, run, found, live⟩ := tx.concludes_of_ended before settled
    rcases tx.terminalEvents_apply c.py s.db id with same | ⟨type', announced, _, _⟩
    · rw [same] at stored
      exact ordered.2 id status run concludes settled.1 found live type stored
    · cases tx <;> contradiction

theorem workers_step (timely : s.Timely) (allowed : unbroken s action)
    (step : Sys.Step c s action t) (v : WorkerId) : (t.workers v).Tells t.db := by
  have updated {w : WorkerId} {worker : Worker} {db : Database} (tx : Tx)
      (same : db = tx.apply c.py s.db) (told : worker.Tells db) :
      (Function.update s.workers w worker v).Tells db := by
    by_cases own : v = w
    · subst own
      rwa [Function.update_self]
    · rw [Function.update_of_ne own, same]
      exact (timely.workers v).apply c.py tx
  cases step with
  | tick => exact timely.workers v
  | request r => exact (timely.workers v).apply c.py (r.tx s)
  | @persist w lane event rest found =>
      exact updated (.appendMany event.runId [event]) rfl ((timely.workers w).persist found)
  | crash w => exact absurd rfl (allowed.2.1 w)
  | @poll w idle =>
      refine updated .idle rfl ((timely.workers w).free (by simp [idle]) fun a busy => ?_)
      contradiction
  | @claimNone w _ _ polling =>
      refine updated .idle rfl ((timely.workers w).free (by simp [polling]) fun a busy => ?_)
      contradiction
  | @claim w now locked job polling =>
      have told := (timely.workers w).apply c.py (.claim w (c.worker w).leaseSeconds now job.id)
      refine updated (.claim w (c.worker w).leaseSeconds now job.id) rfl
        (told.free (by simp [polling]) fun a busy => ?_)
      cases busy
      rfl
  | @effect w m a e busy effected =>
      exact updated e.tx rfl ((timely.workers w).after (attempt?_eq_some.mp busy)
        (timely.report allowed rfl busy effected))

theorem requests_step (timely : s.Timely) (stepped : s.step c action = some t)
    (commits : Commits c s action t tx) (event : RuntimeEvent) (member : event ∈ t.apiEvents)
    (ends : event.type.terminal = true) : t.db.Ended event.runId := by
  have kept (before : event ∈ s.apiEvents) : t.db.Ended event.runId := by
    rw [commits.db]
    exact (timely.requests event before ends).apply tx
  cases action with
  | request r =>
      rcases serve_new stepped member with before | quiet | rfl
      · exact kept before
      · rw [quiet] at ends
        contradiction
      · have concludes : tx.concludes = some (event.runId, .cancelled) := by
          rw [← commits.tx_eq]
          rfl
        rw [commits.db]
        cases serve_cases (r := .cancelRun event.runId) stepped with
        | cancelRun open' =>
            obtain ⟨run, stored, live⟩ := (Option.any_eq_true _ _).mp open'
            exact ⟨.cancelled, tx.settled_of_concludes concludes rfl stored (by simpa using live)⟩
  | tick | work =>
      have same := (step_sound stepped).apiEvents (by simp)
      exact kept (same ▸ member)

theorem step (timely : s.Timely) (allowed : unbroken s action) (ordered : inOrder c s action)
    (stepped : s.step c action = some t) : t.Timely := by
  have step := step_sound stepped
  obtain ⟨tx, commits⟩ := step.commits
  refine ⟨timely.housed.step step, fun id => ?_, timely.matching_step ordered commits,
    timely.backed_step allowed commits, timely.reported_step allowed stepped commits,
    timely.workers_step allowed step, timely.requests_step stepped commits⟩
  rw [commits.db]
  rcases tx.terminalEvents_apply c.py s.db id with same | ⟨_, _, _, after⟩
  · rw [same]
    exact timely.once id
  · rw [after]
    exact Nat.le_refl 1

theorem start (clock : Time) : (Sys.start clock).Timely := by
  refine ⟨(housed_inductive sampleConfig).init _ ⟨clock, rfl⟩, fun id => Nat.zero_le _, ?_, ?_, ?_,
    fun w => ⟨?_, ?_, ?_⟩, ?_⟩
  · intro id status type settled stored
    contradiction
  · intro id type stored
    contradiction
  · rintro id ⟨status, _, run, stored, _⟩
    contradiction
  · intro a busy
    contradiction
  · intro event member
    contradiction
  · intro lane member
    contradiction
  · intro event member
    contradiction

/-- At rest nothing is on its way. -/
theorem agrees (timely : s.Timely) (quiescent : s.Quiescent) : s.db.Agrees := by
  obtain ⟨free, answered⟩ := quiescent
  have busy {w : WorkerId} {a : Attempt} (found : s.attempt? w = some a) : False := by
    rw [free w] at found
    contradiction
  intro id run stored type final
  constructor
  · intro ending
    have ended : s.db.Ended id := .of_find? stored (RunStatus.terminal_of_ending ending)
    rcases timely.reported id ended with some | ⟨event, member, _⟩ | ⟨w, a, found, _⟩
    · obtain ⟨only, events⟩ := List.length_eq_one_iff.mp
        (Nat.le_antisymm (timely.once id) (List.length_pos_of_ne_nil some))
      have reports := timely.matching id run.status only
        ⟨RunStatus.terminal_of_ending ending, run, stored, rfl⟩ (by simp [events])
      rw [ending] at reports
      rw [events, Option.some.inj reports]
    · rw [answered] at member
      contradiction
    · exact (busy found).elim
  · intro events
    have member : type ∈ s.db.terminalEvents id := by simp [events]
    rcases timely.backed id type member with ⟨status, settled⟩ | ⟨w, a, found, _⟩
    · have reports := timely.matching id status type settled member
      obtain ⟨_, run', stored', rfl⟩ := settled
      rw [stored] at stored'
      cases stored'
      exact reports
    · exact (busy found).elim

end Sys.Timely

/-- When nothing is in progress any more, every terminal status agrees with the terminal event,
exactly if each of them was stored behind a matching other one, or first. -/
theorem timeline_agrees_iff (c : Config) {s u : Sys} {actions : List Action}
    (first : (system c).init s) (run : Run (system c) unbroken s actions u)
    (quiescent : u.Quiescent) :
    u.db.Agrees ↔
      Run (system c) (fun s action => unbroken s action ∧ inOrder c s action) s actions u := by
  constructor
  · intro agrees
    refine run.guarded (I := fun _ => True) (P := Sys.Contradicts) (fun _ _ _ _ _ _ => trivial)
      ?_ ?_ trivial agrees.consistent
    · intro s a t _ _ stepped contradicts
      exact contradicts.step (Sys.step_sound stepped)
    · intro s a t _ allowed stepped outside
      exact .of_disorder (Sys.step_sound stepped) fun ordered => outside ⟨allowed, ordered⟩
  · intro guarded
    obtain ⟨clock, rfl⟩ := first
    have timely : u.Timely := guarded.invariant (I := Sys.Timely)
      (fun s a t timely allowed stepped => timely.step allowed.1 allowed.2 stepped) (.start clock)
    exact timely.agrees quiescent

section Sample

def unbrokenCheck (s : Sys) : Action → Bool
  | .request (.abandon _) | .work _ .crash => false
  | .work w m => (s.attempt? w).all fun a => a.persists m
  | _ => true

def inOrderCheck (c : Config) (s : Sys) (action : Action) : Bool :=
  ((s.transaction c action).announces.all fun report =>
    !(s.db.terminalEvents report.1).isEmpty ||
      (s.db.runs.find? report.1).all fun run =>
        !run.status.terminal || run.status.ending = some report.2) &&
  (s.transaction c action).concludes.all fun write =>
    !write.2.terminal ||
      (s.db.runs.find? write.1).all fun run =>
        run.status.terminal ||
          (s.db.terminalEvents write.1).all fun type => write.2.ending = some type

theorem unbroken_of_check {s : Sys} {action : Action} (passed : unbrokenCheck s action = true) :
    unbroken s action := by
  refine ⟨?_, ?_, ?_⟩
  · rintro position rfl
    contradiction
  · rintro w rfl
    contradiction
  · rintro w m a rfl busy
    cases m with
    | crash => contradiction
    | _ => simpa [unbrokenCheck, busy] using passed

theorem inOrder_of_check {c : Config} {s : Sys} {action : Action}
    (passed : inOrderCheck c s action = true) : inOrder c s action := by
  simp only [inOrderCheck, Bool.and_eq_true] at passed
  refine ⟨?_, ?_⟩
  · rintro id type status announced empty ⟨terminal, run, stored, rfl⟩
    simpa [announced, empty, stored, terminal] using passed.1
  · intro id status run concludes terminal stored live type member
    have fits := passed.2
    simp only [concludes, stored, terminal, live, Option.all_some, Bool.not_true, Bool.false_or,
      List.all_eq_true] at fits
    exact of_decide_eq_true (fits type member)

/-- `w1` executes the run to its end, and `run.completed` is stored. -/
def sampleFinish : List Action :=
  sampleClaim "w1" ++
    [.work "w1" .advance, .work "w1" (.handler (.load fun _ => 0)),
      .work "w1" (.handler (.load fun _ => 0)), .work "w1" (.handler .start),
      .work "w1" (.handler .launch), .work "w1" (.handler (.finish "done")),
      .work "w1" (.persist 0), .work "w1" (.persist 0)]

/-- The status is recorded and `run_once` returns. -/
def sampleReturn : List Action :=
  .work "w1" (.handler .updateRun) :: List.replicate 3 (.work "w1" .advance)

theorem completed_run_agrees :
    ∃ s : Sys, s.Quiescent ∧ s.db.Agrees ∧
      (s.db.runs.find? sampleRun).map RunRow.status = some .completed := by
  obtain ⟨s, run, idle, completed, free, silent⟩ :=
    (Sys.checks_within sampleConfig ["w1"]
      (fun s action => unbrokenCheck s action && inOrderCheck sampleConfig s action)
      (fun s action passed => by
        have both := Bool.and_eq_true_iff.mp passed
        exact And.intro (unbroken_of_check both.1)
          (inOrder_of_check (c := sampleConfig) both.2))).of_test
      (Sys.idleOutside_start _ 100) (sampleFinish ++ sampleReturn ++ [.request (.append 0)])
      (fun s =>
        (s.db.runs.find? sampleRun).map RunRow.status = some .completed ∧
          (s.attempt? "w1").isNone = true ∧ s.apiEvents.isEmpty = true)
      (by decide)
  have quiescent := Sys.quiescent_of_idle idle free silent
  have whole := run.weaken (H := unbroken) fun _ _ both => both.1
  exact ⟨s, quiescent, (timeline_agrees_iff sampleConfig ⟨100, rfl⟩ whole quiescent).mpr run,
    completed⟩

/-- The run is cancelled after `run.completed` was stored and before `_update_run` records
its status: the cancellation stands, and its event is dropped. -/
theorem cancelled_run_reports_completion :
    ¬ ∀ s, Reachable (system sampleConfig) unbroken s → s.Quiescent → s.db.Agrees := by
  intro agree
  obtain ⟨s, run, idle, ⟨cancelled, events⟩, free, silent⟩ :=
    (Sys.checks_within sampleConfig ["w1"] (G := unbroken) unbrokenCheck
      fun _ _ => unbroken_of_check).of_test (Sys.idleOutside_start _ 100)
      (sampleFinish ++ [.request (.cancelRun sampleRun)] ++ sampleReturn ++
        [.request (.append 0), .request (.append 0)])
      (fun s =>
        ((s.db.runs.find? sampleRun).map RunRow.status = some .cancelled ∧
          s.db.terminalEvents sampleRun = [.runCompleted]) ∧
          (s.attempt? "w1").isNone = true ∧ s.apiEvents.isEmpty = true)
      (by decide)
  have quiescent := Sys.quiescent_of_idle idle free silent
  obtain ⟨row, stored, status⟩ := Option.map_eq_some_iff.mp cancelled
  have reports := (agree s ⟨_, _, ⟨100, rfl⟩, run⟩ quiescent sampleRun row stored .runCompleted
    rfl).mpr events
  rw [status] at reports
  contradiction

end Sample
end AgentRuntime
