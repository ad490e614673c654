import Mathlib.Tactic.Common

/-! Sessions of a database. A program adds rows, a flush sends them to the transaction, which may
reject one, and a commit stores what the transaction holds. -/
namespace Sessions

structure Session (δ ρ : Type) where
  stored : δ
  working : δ
  added : List ρ := []

/-- A new session of the database. -/
def Session.opened {δ ρ : Type} (stored : δ) : Session δ ρ := { stored, working := stored }

/-- A program over a session. It raises, and it is none where one of its loops does not end. -/
abbrev Work (δ ρ ε : Type) := ExceptT ε (StateT (Session δ ρ) Option)

variable {δ ρ ε α β : Type}

def runOn (session : Session δ ρ) (work : Work δ ρ ε α) :
    Option (Except ε α × Session δ ρ) :=
  StateT.run (ExceptT.run work) session

def attempt : Except ε α → Work δ ρ ε α
  | .ok value => pure value
  | .error error => throw error

/-- What a loop of the program returns. -/
def awaitLoop : Option α → Work δ ρ ε α
  | some value => pure value
  | none => ExceptT.mk fun _ => none

def add (row : ρ) : Work δ ρ ε Unit :=
  modify fun session => { session with added := session.added ++ [row] }

def flush (insert : δ → ρ → Except ε δ) : Work δ ρ ε Unit := do
  let session : Session δ ρ ← get
  match session.added.foldlM insert session.working with
  | .ok working => set ({ stored := session.stored, working } : Session δ ρ)
  | .error error => throw error

def commit (insert : δ → ρ → Except ε δ) : Work δ ρ ε Unit := do
  flush insert
  modify fun session => { session with stored := session.working }

/-- What the caller gets, and what is stored behind the program. -/
def transact (stored : δ) (work : Work δ ρ ε α) : Option (Except ε α × δ) :=
  (runOn (.opened stored) work).map fun result => (result.1, result.2.stored)

section Rules
variable {work : Work δ ρ ε α} {next : α → Work δ ρ ε β} {session session' : Session δ ρ}
variable {insert : δ → ρ → Except ε δ}

@[simp] theorem runOn_pure (value : α) :
    runOn session (pure value : Work δ ρ ε α) = some (.ok value, session) := rfl

@[simp] theorem runOn_throw (error : ε) :
    runOn session (throw error : Work δ ρ ε α) = some (.error error, session) := rfl

@[simp] theorem runOn_get :
    runOn session (get : Work δ ρ ε (Session δ ρ)) = some (.ok session, session) := rfl

@[simp] theorem runOn_attempt (result : Except ε α) :
    runOn session (attempt result : Work δ ρ ε α) = some (result, session) := by
  cases result <;> rfl

@[simp] theorem runOn_awaitLoop (value : α) :
    runOn session (awaitLoop (some value) : Work δ ρ ε α) = some (.ok value, session) := rfl

@[simp] theorem runOn_add (row : ρ) : runOn session (add row : Work δ ρ ε Unit) =
    some (.ok (), { session with added := session.added ++ [row] }) := rfl

theorem runOn_bind_ok {value : α} (first : runOn session work = some (.ok value, session')) :
    runOn session (work >>= next) = runOn session' (next value) := by
  unfold runOn at first ⊢
  rw [ExceptT.run_bind, StateT.run_bind, first]
  rfl

theorem runOn_bind_error {error : ε} (first : runOn session work = some (.error error, session')) :
    runOn session (work >>= next) = some (.error error, session') := by
  unfold runOn at first ⊢
  rw [ExceptT.run_bind, StateT.run_bind, first]
  rfl

theorem runOn_flush_ok {working : δ}
    (accepted : session.added.foldlM insert session.working = .ok working) :
    runOn session (flush insert) = some (.ok (), { stored := session.stored, working }) := by
  rw [flush, runOn_bind_ok runOn_get]
  rw [accepted]
  rfl

theorem runOn_flush_error {error : ε}
    (rejected : session.added.foldlM insert session.working = .error error) :
    runOn session (flush insert) = some (.error error, session) := by
  rw [flush, runOn_bind_ok runOn_get]
  rw [rejected]
  rfl

theorem runOn_commit_ok {working : δ}
    (accepted : session.added.foldlM insert session.working = .ok working) :
    runOn session (commit insert) = some (.ok (), { stored := working, working }) := by
  rw [commit, runOn_bind_ok (runOn_flush_ok accepted)]
  rfl

theorem runOn_commit_error {error : ε}
    (rejected : session.added.foldlM insert session.working = .error error) :
    runOn session (commit insert) = some (.error error, session) := by
  rw [commit, runOn_bind_error (runOn_flush_error rejected)]

end Rules
end Sessions
