import AgentRuntime.Fencing

/-! Delivery of approval decisions. `resolve_and_enqueue` queues the paused run and
`run_once` marks it running before `execute_run_sync` reads the status, so the decision is
resumed with only if another execution of the run pauses it again in between. -/
namespace AgentRuntime
open Machines Tables

def Phase.reading? : Phase → Option String
  | .handling (.loadRun inputText) => some inputText
  | _ => none

theorem Phase.reading?_eq_some {phase : Phase} {inputText : String} :
    phase.reading? = some inputText ↔ phase = .handling (.loadRun inputText) := by
  unfold reading?
  split
  next => simp
  next other => exact ⟨fun same => by contradiction, fun same => absurd same (other inputText)⟩

namespace Sys

/-- The thread of the run is interrupted for the approval, the pause is recorded and the
decision is still to be made. -/
structure Awaits (s : Sys) (id : RunId) (approval : ApprovalRow) : Prop where
  stored : s.db.approvals.find? approval.id = some approval
  ofRun : approval.runId = id
  pending : approval.status = .pending
  unexpired : approval.expiresAt.any (· ≤ s.clock) = false
  interrupted : (s.threads id).outstanding.map Interrupt.approvalId = some approval.id
  paused : (s.db.runs.find? id).map RunRow.status = some .paused

def readsRun (s : Sys) (id : RunId) : Action → Bool
  | .work w (.handler (.load _)) =>
      (s.attempt? w).any fun a => a.job.runId = id && a.phase.reading?.isSome
  | _ => false

def unread (id : RunId) : Guard Sys Action := fun s action => s.readsRun id action = false

/-- After `actions` the worker is about to make the first read of the run since `s`, and
the run is not cancelled. -/
structure FirstRead (c : Config) (s : Sys) (id : RunId) (actions : List Action) (t : Sys)
    (w : WorkerId) (a : Attempt) (inputText : String) : Prop where
  run : Run (system c) (unread id) s actions t
  busy : t.attempt? w = some a
  ofRun : a.job.runId = id
  reads : a.phase = .handling (.loadRun inputText)
  alive : a.leaseLost = false
  uncancelled : (t.db.runs.find? id).map RunRow.status ≠ some .cancelled

/-- The read lets the execution continue the thread with the decision of the approval. -/
def Delivers (c : Config) (t : Sys) (w : WorkerId) (a : Attempt) (inputText : String)
    (ties : ApprovalRow → Nat) (decision : ApprovalStatus) (approval : ApprovalRow) : Prop :=
  ∃ e, t.effect c w a (.handler (.load ties)) = some e ∧
    e.attempt = a.handler
      (.start inputText (.aresume ⟨decision, approval.id, approval.actionId⟩))

def PausedRun (id : RunId) (s : Sys) : Prop :=
  (s.db.runs.find? id).map RunRow.status = some .paused

/-- Since `s` an execution of the run has committed its own pause, which no later
statement replaced. -/
def PausedAgain (c : Config) (id : RunId) (s : Sys) (actions : List Action) (t : Sys) : Prop :=
  ∃ entered : Entered (system c) (unread id) (PausedRun id) s actions t,
    ∃ v b outcome, entered.action = .work v (.handler .updateRun) ∧
      entered.source.attempt? v = some b ∧ b.job.runId = id ∧
      b.phase = .handling (.record outcome) ∧ outcome.status = .paused

end Sys

theorem persistedAttemptStatus_paused {outcome : Outcome}
    (paused : persistedAttemptStatus outcome = .paused) : outcome.status = .paused := by
  unfold persistedAttemptStatus at paused
  split at paused
  next => contradiction
  next => exact paused

theorem Tx.RunWrite.paused {db : Database} {tx : Tx} {run after : RunRow}
    (write : RunWrite db tx run after) (paused : after.status = .paused) :
    run.status = .paused ∨
      (∃ output error reason, tx = .updateRun run.id .paused output error reason) ∨
      ∃ error, tx = .setRunStatus run.id .paused error := by
  cases write with
  | kept => exact .inl paused
  | cancelled | requeued => contradiction
  | set status error issued => exact .inr (.inr ⟨error, paused ▸ issued⟩)
  | updated status output error reason issued =>
      exact .inr (.inl ⟨output, error, reason, paused ▸ issued⟩)

namespace Sys
variable {c : Config} {s t : Sys} {id : RunId} {action : Action}

/-- A step after which a run is paused that was not is the update of an execution. -/
theorem Step.pauses (step : Step c s action t) (before : ¬ PausedRun id s)
    (after : PausedRun id t) :
    ∃ v b outcome, action = .work v (.handler .updateRun) ∧ s.attempt? v = some b ∧
      b.job.runId = id ∧ b.phase = .handling (.record outcome) ∧ outcome.status = .paused := by
  obtain ⟨tx, commits⟩ := step.commits
  obtain ⟨row, stored, paused⟩ := Option.map_eq_some_iff.mp after
  have update : (∃ output error reason, tx = .updateRun id .paused output error reason) ∨
      ∃ error, tx = .setRunStatus id .paused error := by
    rw [commits.db, Tx.find?_runs] at stored
    obtain ⟨old, found, rfl⟩ | ⟨_, inserted, _⟩ := rowAfter_cases stored
    · have key : old.id = id := Table.key_of_find? found
      subst key
      refine ((Tx.onRun_write _ _ _).paused paused).resolve_left fun wasPaused => before ?_
      exact Option.map_eq_some_iff.mpr ⟨old, found, wasPaused⟩
    · cases tx <;> first | contradiction | (cases inserted; contradiction)
  cases commits.origin with
  | idle | persist | claim => obtain ⟨_, _, _, same⟩ | ⟨_, same⟩ := update <;> contradiction
  | request r =>
      have api := r.tx_api s
      obtain ⟨_, _, _, same⟩ | ⟨_, same⟩ := update <;> (rw [same] at api; contradiction)
  | @work w m a e busy effected _ =>
      refine ⟨w, a, ?_⟩
      have issues := effect_issues effected
      generalize e.tx = tx at issues update
      obtain ⟨output, error, reason, update⟩ | ⟨error, update⟩ := update
      · cases issues with
        | @updateRun outcome at' =>
            obtain ⟨ofRun, status, _⟩ := Tx.updateRun.inj update
            exact ⟨outcome, rfl, busy, ofRun, at', persistedAttemptStatus_paused status⟩
        | _ => contradiction
      · cases issues with
        | setRetry at' =>
            obtain ⟨_, status, _⟩ := Tx.setRunStatus.inj update
            split at status <;> contradiction
        | setRunning | promote | setFailed =>
            exact RunStatus.noConfusion (Tx.setRunStatus.inj update).2.1
        | _ => contradiction

end Sys

namespace Sys
variable {c : Config} {s t : Sys} {id : RunId}

theorem settled_kept {G : Guard Sys Action} {actions : List Action} {approval : ApprovalRow}
    (run : Run (system c) G s actions t)
    (stored : s.db.approvals.find? approval.id = some approval)
    (settled : approval.status ≠ .pending) :
    t.db.approvals.find? approval.id = some approval :=
  run.invariant (I := fun s => s.db.approvals.find? approval.id = some approval)
    (fun s a t stored _ stepped => by
      obtain ⟨tx, commits⟩ := (step_sound stepped).commits
      rw [commits.db]
      exact tx.keeps_settled stored settled)
    stored

/-- The state after the decision of an awaited approval. -/
theorem Awaits.resolved {approval : ApprovalRow} (awaits : s.Awaits id approval)
    {decision : ApprovalStatus} {resolvedBy : String} {reason : Option String} {jobId : JobId}
    (stepped : (system c).step s
      (.request (.resolve approval.id decision resolvedBy reason jobId)) = some t) :
    ∃ row, t.db.approvals.find? approval.id = some row ∧ row.id = approval.id ∧
      row.status = decision ∧ row.actionId = approval.actionId ∧ decision ≠ .pending ∧
      ¬ PausedRun id t := by
  obtain ⟨run, found, paused⟩ := Option.map_eq_some_iff.mp awaits.paused
  have decides : s.db.decides approval.id s.clock = some approval := by
    simp [Database.decides, awaits.stored, awaits.pending, awaits.unexpired]
  have wakes : s.db.wakes approval.id s.clock = some run := by
    simp [Database.wakes, decides, awaits.ofRun, found, paused]
  have fresh : s.db.expires approval.id s.clock = none := by
    simp [Database.expires, awaits.stored, awaits.pending, awaits.unexpired]
  simp only [system, step, serve] at stepped
  split at stepped
  next allowed =>
    cases stepped
    have settled : decision ≠ .pending := by rcases allowed.1 with rfl | rfl <;> simp
    refine ⟨_, by rw [Tx.find?_approvals, awaits.stored, rowAfter_some], ?_⟩
    have key : run.id = id := Table.key_of_find? found
    refine ⟨?_, ?_, ?_, settled, fun still => ?_⟩
    · simp [Tx.onApproval, fresh, decides, awaits.ofRun, found]
    · simp [Tx.onApproval, fresh, decides, awaits.ofRun, found]
    · simp [Tx.onApproval, fresh, decides, awaits.ofRun, found]
    · simp [PausedRun, Tx.find?_runs, found, rowAfter_some, Tx.onRun, wakes] at still
  next => contradiction

theorem delivers_iff {w : WorkerId} {a : Attempt} {inputText : String} {ties : ApprovalRow → Nat}
    {decision : ApprovalStatus} {approval : ApprovalRow} (alive : a.leaseLost = false)
    (reads : a.phase = .handling (.loadRun inputText)) :
    t.Delivers c w a inputText ties decision approval ↔
      t.db.admission a.job.runId ties =
        .enter (.aresume ⟨decision, approval.id, approval.actionId⟩) := by
  have effected : t.effect c w a (.handler (.load ties)) =
      some (a.loadRun t.db ties inputText) := by
    simp [effect, reads, Attempt.handle, alive, Attempt.handlerStep]
  simp only [Delivers, effected, Option.some.injEq, exists_eq_left', Attempt.loadRun]
  cases t.db.admission a.job.runId ties with
  | notFound => simp [Attempt.goto, Attempt.handler]
  | pausedWithoutApproval => simp [Attempt.goto, Attempt.handler]
  | enter entry => simp [Attempt.goto, Attempt.handler]

end Sys

theorem Sys.Delivers.pausedAgain {c : Config} {u t : Sys} {id : RunId} {actions : List Action}
    {w : WorkerId} {a : Attempt} {inputText : String} {ties : ApprovalRow → Nat}
    {decision : ApprovalStatus} {approval : ApprovalRow}
    (first : u.FirstRead c id actions t w a inputText) (unpaused : ¬ Sys.PausedRun id u)
    (delivers : t.Delivers c w a inputText ties decision approval) :
    Sys.PausedAgain c id u actions t := by
  rw [Sys.delivers_iff first.alive first.reads, first.ofRun,
    Database.admission_eq_aresume] at delivers
  rcases first.run.stays_or_entered (P := Sys.PausedRun id) delivers.1 with
    ⟨wasPaused, _⟩ | ⟨⟨entered⟩⟩
  · exact absurd wasPaused unpaused
  · exact ⟨entered, (Sys.step_sound entered.step).pauses entered.outside entered.inside⟩

def Phase.unread : Phase → Bool
  | .handling .loadJob | .handling (.loadRun _) => true
  | .handling _ => false
  | _ => true

namespace Sys
variable {c : Config} {s t : Sys} {id : RunId} {action : Action}

theorem effect_unread {w : WorkerId} {a next : Attempt} {m : Move} {e : Effect}
    (busy : s.attempt? w = some a) (unread : a.phase.unread = true)
    (still : s.readsRun a.job.runId (.work w m) = false) (effected : s.effect c w a m = some e)
    (after : e.attempt = some next) : next.phase.unread = true := by
  generalize reached : next.phase = phase
  have moved := effect_phase effected after
  rw [reached] at moved
  cases moved with
  | beat => exact unread
  | started | promoted | excepted | escaped | gaveUp | reportedGivingUp | failed
  | reportedFailure => rfl
  | @joined _ result => cases result <;> rfl
  | @handler _ inner move e' _ at' stepped same _ =>
      rw [at'] at unread
      cases inner with
      | loadJob =>
          cases move <;> simp only [Attempt.handlerStep] at stepped <;> try contradiction
          cases stepped
          unfold Attempt.loadJob at same
          split at same
          next => cases same; rfl
          next => split at same <;> (cases same; rfl)
      | loadRun inputText =>
          cases move <;> simp only [Attempt.handlerStep] at stepped <;> try contradiction
          simp [readsRun, busy, at', Phase.reading?] at still
      | start | launch | graph | record => contradiction

def NoneReading (id : RunId) (s : Sys) : Prop :=
  ∀ w a, s.attempt? w = some a → a.job.runId = id → a.phase.unread = true

theorem NoneReading.step (none : NoneReading id s) (allowed : s.readsRun id action = false)
    (step : Step c s action t) : NoneReading id t := by
  intro v b busy ofRun
  obtain ⟨tx, commits⟩ := step.commits
  cases commits.after v b busy with
  | kept before => exact none v b before ofRun
  | @stepped m a e before effected after =>
      have job := (effect_lease effected).job after
      rw [job] at ofRun
      exact effect_unread before (none v a before ofRun) (ofRun ▸ allowed) effected after
  | claimed _ _ fresh => subst fresh; rfl

end Sys

/-- Where no other execution of the run is under way at the decision, the next execution
does not deliver it. -/
theorem not_delivered_alone (c : Config) {u t : Sys} {id : RunId} {actions : List Action}
    (alone : ∀ w a, u.attempt? w = some a → a.job.runId ≠ id) :
    ¬ Sys.PausedAgain c id u actions t := by
  rintro ⟨entered, v, b, outcome, _, busy, ofRun, at', _⟩
  have none := entered.first.invariant (I := Sys.NoneReading id)
    (fun s a t none allowed stepped => none.step allowed (Sys.step_sound stepped))
    (fun w a busy same => absurd same (alone w a busy))
  have unread := none v b busy ofRun
  rw [at'] at unread
  contradiction

/-- `w1` executes the run up to a gate of the node `pay`. -/
def sampleGate : List Action :=
  sampleClaim "w1" ++
    [.work "w1" .advance, .work "w1" (.handler (.load fun _ => 0)),
      .work "w1" (.handler (.load fun _ => 0)), .work "w1" (.handler .start),
      .work "w1" (.handler .launch), .work "w1" (.handler (.checkCancel "pay")),
      .work "w1" (.handler (.gate "tool:transfer" (some "transfer") [] 3700 "approval"))]

/-- The thread is interrupted, the pause is recorded and the job completed. -/
def sampleRecord : List Action :=
  [.work "w1" (.handler .interrupt), .work "w1" (.persist 0), .work "w1" (.persist 0),
    .work "w1" (.persist 0), .work "w1" (.handler .updateRun), .work "w1" .advance,
    .work "w1" .advance]

def samplePause : List Action := sampleGate ++ sampleRecord

def sampleApprove : Action :=
  .request (.resolve "approval" .approved "operator" none "resume")

/-- `w2` claims the resume job and comes to read the run. -/
def sampleResume : List Action :=
  [.work "w2" .poll, .work "w2" (.claim fun _ => false), .work "w2" .advance,
    .work "w2" (.handler (.load fun _ => 0))]

def unreadCheck (s : Sys) (action : Action) : Bool :=
  action.within ["w1", "w2"] && !s.readsRun sampleRun action

theorem approved_run_read :
    ∃ s u t approval a inputText, Reachable (system sampleConfig) anyStep s ∧
      s.Awaits sampleRun approval ∧
      (system sampleConfig).step s
        (.request (.resolve approval.id .approved "operator" none "resume")) = some u ∧
      (∀ w b, u.attempt? w = some b → b.job.runId ≠ sampleRun) ∧
      u.FirstRead sampleConfig sampleRun sampleResume t "w2" a inputText := by
  obtain ⟨s, run, idle, pending, interrupted, paused, continues⟩ :=
    (Sys.checks_within sampleConfig ["w1", "w2"] (G := anyStep) (fun _ _ => true)
      (fun _ _ _ => trivial)).of_test (Sys.idleOutside_start _ 100) samplePause
      (fun s =>
        ((s.db.approvals.find? "approval").any fun approval =>
          approval.runId = sampleRun && approval.status = .pending &&
            !approval.expiresAt.any (· ≤ s.clock)) = true ∧
        (s.threads sampleRun).outstanding.map Interrupt.approvalId = some "approval" ∧
        (s.db.runs.find? sampleRun).map RunRow.status = some .paused ∧
        (((system sampleConfig).step s sampleApprove).any fun u =>
          (u.attempt? "w1").isNone && (u.attempt? "w2").isNone &&
            ((system sampleConfig).replayChecked unreadCheck u sampleResume).any fun t =>
              (t.db.runs.find? sampleRun).map RunRow.status = some .running &&
                (t.attempt? "w2").any fun a =>
                  a.job.runId = sampleRun && !a.leaseLost && a.phase.reading?.isSome) = true)
      (by decide)
  obtain ⟨approval, stored, fits⟩ := (Option.any_eq_true _ _).mp pending
  obtain ⟨u, decided, continues⟩ := (Option.any_eq_true _ _).mp continues
  simp only [Bool.and_eq_true, decide_eq_true_eq, Bool.not_eq_true', Option.isNone_iff_eq_none]
    at fits continues
  obtain ⟨⟨idle1, idle2⟩, continues⟩ := continues
  obtain ⟨t, replayed, reads⟩ := (Option.any_eq_true _ _).mp continues
  simp only [Bool.and_eq_true, decide_eq_true_eq] at reads
  obtain ⟨running, reads⟩ := reads
  obtain ⟨a, busy, reads⟩ := (Option.any_eq_true _ _).mp reads
  simp only [Bool.and_eq_true, decide_eq_true_eq, Bool.not_eq_true', Option.isSome_iff_exists]
    at reads
  obtain ⟨⟨ofRun, alive⟩, inputText, reading⟩ := reads
  have key : approval.id = "approval" := Table.key_of_find? stored
  have idleAfter := idle.step (show sampleApprove.within _ = true from rfl) (Sys.step_sound decided)
  have unreadRun := ((Sys.checks_within sampleConfig ["w1", "w2"] (G := Sys.unread sampleRun)
    (fun s a => !s.readsRun sampleRun a) (fun _ _ unread => by simpa [Sys.unread] using unread)).run
      idleAfter replayed).1
  refine ⟨s, u, t, approval, a, inputText, ⟨_, _, ⟨100, rfl⟩, run⟩, ?_, key ▸ decided, ?_, ?_⟩
  · exact ⟨key.symm ▸ stored, fits.1.1, fits.1.2, fits.2, key.symm ▸ interrupted, paused⟩
  · intro w b found
    rcases List.mem_pair.mp (idleAfter.mem found) with rfl | rfl
    · rw [idle1] at found; contradiction
    · rw [idle2] at found; contradiction
  · exact ⟨unreadRun, busy, ofRun, Phase.reading?_eq_some.mp reading, alive, by rw [running]; simp⟩

/-- Every decision on an awaited approval is delivered by the next execution. -/
def DecisionsDelivered (c : Config) : Prop :=
  ∀ s u t id approval decision resolvedBy reason jobId actions w a inputText ties,
    Reachable (system c) anyStep s → s.Awaits id approval →
    (system c).step s (.request (.resolve approval.id decision resolvedBy reason jobId)) = some u →
    u.FirstRead c id actions t w a inputText →
    t.Delivers c w a inputText ties decision approval

/-- After the decision on an awaited approval the first read of the run delivers the
decision exactly when an execution that was under way has paused the run again before the
read, and the approval is the newest decided one of the run. -/
theorem decision_delivered_iff (c : Config) {s u t : Sys} {id : RunId} {approval : ApprovalRow}
    {decision : ApprovalStatus} {resolvedBy : String} {reason : Option String} {jobId : JobId}
    {actions : List Action} {w : WorkerId} {a : Attempt} {inputText : String}
    (awaits : s.Awaits id approval)
    (resolved : (system c).step s
      (.request (.resolve approval.id decision resolvedBy reason jobId)) = some u)
    (first : u.FirstRead c id actions t w a inputText) (ties : ApprovalRow → Nat) :
    t.Delivers c w a inputText ties decision approval ↔
      Sys.PausedAgain c id u actions t ∧
        (t.db.latestResolved id ties).map ApprovalRow.id = some approval.id := by
  obtain ⟨row, stored, key, status, actionId, settled, unpaused⟩ := awaits.resolved resolved
  have kept : t.db.approvals.find? row.id = some row :=
    Sys.settled_kept first.run (key.symm ▸ stored) (status ▸ settled)
  constructor
  · intro delivers
    refine ⟨delivers.pausedAgain first unpaused, ?_⟩
    rw [Sys.delivers_iff first.alive first.reads, first.ofRun,
      Database.admission_eq_aresume] at delivers
    obtain ⟨_, latest, found, value⟩ := delivers
    rw [found, (ResumeValue.mk.inj value).2.1]
    rfl
  · rintro ⟨⟨entered, _⟩, newest⟩
    obtain ⟨latest, found, sameId⟩ := Option.map_eq_some_iff.mp newest
    rw [Sys.delivers_iff first.alive first.reads, first.ofRun, Database.admission_eq_aresume]
    refine ⟨entered.final, latest, found, ?_⟩
    have same : latest = row := by
      have storedLatest := (Database.latestResolved_stored found).1
      rw [sameId, ← key, kept] at storedLatest
      exact (Option.some.inj storedLatest).symm
    rw [same, status, key, actionId]

theorem approved_run_not_resumed :
    ∃ t approval w a inputText,
      ¬ Sys.Delivers sampleConfig t w a inputText (fun _ => 0) .approved approval := by
  obtain ⟨s, u, t, approval, a, inputText, _, awaits, resolved, alone, first⟩ := approved_run_read
  refine ⟨t, approval, "w2", a, inputText, fun delivers => ?_⟩
  exact not_delivered_alone sampleConfig alone
    ((decision_delivered_iff sampleConfig awaits resolved first _).mp delivers).1

/-- The approved run is entered anew instead of being resumed. -/
theorem approved_decision_dropped : ¬ DecisionsDelivered sampleConfig := by
  obtain ⟨s, u, t, approval, a, inputText, reached, awaits, resolved, alone, first⟩ :=
    approved_run_read
  intro delivered
  obtain ⟨_, _, _, _, _, _, unpaused⟩ := awaits.resolved resolved
  have delivers := delivered s u t sampleRun approval _ _ _ _ _ "w2" a inputText (fun _ => 0)
    reached awaits resolved first
  exact not_delivered_alone sampleConfig alone (delivers.pausedAgain first unpaused)

end AgentRuntime
