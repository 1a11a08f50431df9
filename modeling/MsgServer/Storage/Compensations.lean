import Mathlib.Data.List.Basic

/-!
Transactions, their savepoints and the compensations registered inside them:
`on_rollback` and `run_rollback_effects` of storage/session.py, `transaction` and
`enqueue` of storage/postgres.py. Cancellation is an exception that the body raises.
The checks for a closed session and for a foreign task, the writer fence and the
delivery of the signal are left out, as are the statements of a body: one that the
database refuses is an exception as well.
-/

namespace MsgServer.Compensations

/-- An exception on its way out, with the notes added to it. -/
structure Raised where
  code : String
  notes : List String
  deriving DecidableEq

/-- A compensation by its place in the order of registration, and the type of the
exception that it raises when it fails. -/
structure Compensation where
  number : Nat
  raises : Option String
  deriving DecidableEq

structure Session where
  write : Bool
  rollbackEffects : List Compensation
  pendingEffectIds : List String
  deriving DecidableEq

/-- What an observer of the scopes writes down. A registration is noted with the scopes
that are open around it, the innermost first. -/
inductive Event where
  | registered (effect : Nat) (scopes : List Nat)
  | aborted (scope : Nat)
  | ran (effect scope : Nat)
  deriving DecidableEq

structure Run where
  session : Session
  /-- The open scopes, the innermost first. -/
  within : List Nat
  scopes : Nat
  registrations : Nat
  history : List Event
  deriving DecidableEq

/-- How the database answers the statements of one scope: the error that a statement
raises, nothing where it succeeds. -/
structure Answers where
  savepoint : Option String
  release : Option String
  rollback : Option String
  deriving DecidableEq

/-- What the code inside a scope does, in order. `attempt` is a `try` that keeps what it
catches; what it tries may open scopes of its own. -/
inductive Body where
  | done
  | onRollback (raises : Option String) (rest : Body)
  | enqueue (job : String) (rest : Body)
  | fail (code : String)
  | attempt (tried rest : Body)
  | nested (write : Bool) (answers : Answers) (inner rest : Body)
  deriving DecidableEq

/-- No statement that rolls a scope of the body back fails. -/
def Body.rollsBack : Body → Bool
  | .done => true
  | .onRollback _ rest => rest.rollsBack
  | .enqueue _ rest => rest.rollsBack
  | .fail _ => true
  | .attempt tried rest => tried.rollsBack && rest.rollsBack
  | .nested _ answers inner rest =>
      answers.rollback.isNone && inner.rollsBack && rest.rollsBack

def Run.note (run : Run) (event : Event) : Run :=
  { run with history := run.history ++ [event] }

def Run.onRollback (run : Run) (raises : Option String) : Run :=
  { run with
    session := { run.session with
      rollbackEffects := run.session.rollbackEffects ++ [⟨run.registrations, raises⟩] }
    registrations := run.registrations + 1
    history := run.history ++ [.registered run.registrations run.within] }

def Run.enqueue (run : Run) (job : String) : Run :=
  { run with
    session := { run.session with pendingEffectIds := run.session.pendingEffectIds ++ [job] } }

def Raised.addNote (cause : Raised) (effect : Compensation) : Raised :=
  match effect.raises with
  | none => cause
  | some type =>
      { cause with notes := cause.notes ++ ["rollback compensation failed: " ++ type] }

/-- The loop of `compensate`: an effect that raises leaves a note and the next one runs. -/
def compensate (scope : Nat) : List Compensation → Run → Raised → Run × Raised
  | [], run, cause => (run, cause)
  | effect :: rest, run, cause =>
      compensate scope rest (run.note (.ran effect.number scope)) (cause.addNote effect)

def runRollbackEffects (scope start : Nat) (run : Run) (cause : Raised) : Run × Raised :=
  let effects := run.session.rollbackEffects.drop start
  let kept := { run with
    session := { run.session with
      rollbackEffects := run.session.rollbackEffects.take start } }
  compensate scope effects.reverse kept cause

/-- Entering a scope, which only the observer sees. -/
def Run.enter (run : Run) : Run :=
  { run with within := run.scopes :: run.within, scopes := run.scopes + 1 }

def refusal (code : String) : Option Raised :=
  some { code, notes := [] }

/-- What leaves the `try` of a scope: the exception of its body, or that of the statement
that ends it. -/
def leaving (answers : Answers) : Option Raised → Option Raised
  | some cause => some cause
  | none => answers.release.bind refusal

/-- The `except` branch of a savepoint. Where the rollback itself fails its error replaces
the first one, and neither the list of jobs nor a compensation is touched. -/
def abortNested (answers : Answers) (entry run : Run) (cause : Raised) : Run × Option Raised :=
  let run := { run with within := entry.within }.note (.aborted entry.scopes)
  match answers.rollback with
  | some code => (run, refusal code)
  | none =>
      let run := { run with
        session := { run.session with
          pendingEffectIds :=
            run.session.pendingEffectIds.take entry.session.pendingEffectIds.length } }
      let (run, cause) :=
        runRollbackEffects entry.scopes entry.session.rollbackEffects.length run cause
      (run, some cause)

def endNested (answers : Answers) (entry : Run) (ended : Run × Option Raised) :
    Run × Option Raised :=
  match leaving answers ended.2 with
  | none => ({ ended.1 with within := entry.within }, none)
  | some cause => abortNested answers entry ended.1 cause

/-- Goes on with the rest of a body where nothing was raised. -/
def andThen (rest : Run → Run × Option Raised) (ended : Run × Option Raised) :
    Run × Option Raised :=
  match ended.2 with
  | none => rest ended.1
  | some _ => ended

def perform : Body → Run → Run × Option Raised
  | .done, run => (run, none)
  | .onRollback raises rest, run =>
      if run.session.write then perform rest (run.onRollback raises)
      else (run, refusal "read_only_transaction")
  | .enqueue job rest, run =>
      if run.session.write then perform rest (run.enqueue job)
      else (run, refusal "read_only_transaction")
  | .fail code, run => (run, refusal code)
  | .attempt tried rest, run => perform rest (perform tried run).1
  | .nested write answers inner rest, run =>
      if write ∧ ¬ run.session.write then (run, refusal "read_only_transaction")
      else
        match answers.savepoint with
        | some code => (run, refusal code)
        | none => andThen (perform rest) (endNested answers run (perform inner run.enter))

/-- A savepoint as a whole, opened in any state of a session. -/
def savepoint (answers : Answers) (inner : Body) (run : Run) : Run × Option Raised :=
  endNested answers run (perform inner run.enter)

/-- A new session inside its outermost scope. -/
def opened (write : Bool) : Run :=
  { session := { write, rollbackEffects := [], pendingEffectIds := [] }
    within := [0], scopes := 1, registrations := 0, history := [] }

structure Outcome where
  run : Run
  raised : Option Raised
  signalled : List String
  deriving DecidableEq

/-- The `except` branch of the outermost scope, which leaves the list of jobs to the
session that is dropped with it. -/
def abortOutermost (answers : Answers) (run : Run) (cause : Raised) : Outcome :=
  let run := run.note (.aborted 0)
  match answers.rollback with
  | some code => { run, raised := refusal code, signalled := [] }
  | none =>
      let (run, cause) := runRollbackEffects 0 0 run cause
      { run, raised := some cause, signalled := [] }

def endOutermost (answers : Answers) (ended : Run × Option Raised) : Outcome :=
  match leaving answers ended.2 with
  | none =>
      { run := ended.1, raised := none, signalled := ended.1.session.pendingEffectIds }
  | some cause => abortOutermost answers ended.1 cause

def transaction (write : Bool) (answers : Answers) (body : Body) : Outcome :=
  match answers.savepoint with
  | some code => endOutermost answers (opened write, refusal code)
  | none => endOutermost answers (perform body (opened write))

/-! What the statements do to a run -/

section Statements

variable (run : Run)

@[simp] theorem enter_session : run.enter.session = run.session := rfl
@[simp] theorem enter_within : run.enter.within = run.scopes :: run.within := rfl
@[simp] theorem enter_scopes : run.enter.scopes = run.scopes + 1 := rfl
@[simp] theorem enter_registrations : run.enter.registrations = run.registrations := rfl
@[simp] theorem enter_history : run.enter.history = run.history := rfl

variable (event : Event)

@[simp] theorem note_session : (run.note event).session = run.session := rfl
@[simp] theorem note_within : (run.note event).within = run.within := rfl
@[simp] theorem note_scopes : (run.note event).scopes = run.scopes := rfl
@[simp] theorem note_registrations : (run.note event).registrations = run.registrations := rfl
@[simp] theorem note_history : (run.note event).history = run.history ++ [event] := rfl

end Statements

/-- Every effect of the list runs, in the order of the list, whatever any of them raises. -/
theorem compensate_run (scope : Nat) (effects : List Compensation) (run : Run)
    (cause : Raised) :
    (compensate scope effects run cause).1 =
      { run with
        history := run.history ++ effects.map fun effect => .ran effect.number scope } := by
  induction effects generalizing run cause with
  | nil => simp [compensate]
  | cons effect rest ih =>
      simp only [compensate, ih]
      simp [Run.note]

theorem runRollbackEffects_run (scope start : Nat) (run : Run) (cause : Raised) :
    (runRollbackEffects scope start run cause).1 =
      { run with
        session := { run.session with
          rollbackEffects := run.session.rollbackEffects.take start }
        history := run.history ++
          (run.session.rollbackEffects.drop start).reverse.map fun effect =>
            .ran effect.number scope } := by
  simp only [runRollbackEffects, compensate_run]

theorem abortNested_run {answers : Answers} (rolledBack : answers.rollback = none)
    (entry run : Run) (cause : Raised) :
    (abortNested answers entry run cause).1 =
      { run with
        within := entry.within
        session := { run.session with
          pendingEffectIds :=
            run.session.pendingEffectIds.take entry.session.pendingEffectIds.length
          rollbackEffects :=
            run.session.rollbackEffects.take entry.session.rollbackEffects.length }
        history := run.history ++ (.aborted entry.scopes ::
          (run.session.rollbackEffects.drop
            entry.session.rollbackEffects.length).reverse.map fun effect =>
              .ran effect.number entry.scopes) } := by
  simp only [abortNested, rolledBack, runRollbackEffects_run]
  simp [Run.note]

theorem abortOutermost_run {answers : Answers} (rolledBack : answers.rollback = none)
    (run : Run) (cause : Raised) :
    (abortOutermost answers run cause).run =
      { run with
        session := { run.session with rollbackEffects := [] }
        history := run.history ++ (.aborted 0 ::
          run.session.rollbackEffects.reverse.map fun effect => .ran effect.number 0) } := by
  simp only [abortOutermost, rolledBack, runRollbackEffects_run]
  simp [Run.note]

/-! The list of jobs to signal only grows while a scope is open -/

theorem endNested_grows {answers : Answers} {entry : Run} {ended : Run × Option Raised}
    (grown : entry.session.pendingEffectIds <+: ended.1.session.pendingEffectIds) :
    entry.session.pendingEffectIds <+:
      (endNested answers entry ended).1.session.pendingEffectIds := by
  rw [endNested]
  cases leaving answers ended.2 with
  | none => exact grown
  | some cause =>
      cases rollback : answers.rollback with
      | some code => simpa [abortNested, rollback, Run.note] using grown
      | none =>
          simp only [abortNested_run rollback]
          have kept := List.prefix_iff_eq_take.mp grown
          exact ⟨[], (List.append_nil _).trans kept⟩

theorem perform_grows (body : Body) (run : Run) :
    run.session.pendingEffectIds <+: (perform body run).1.session.pendingEffectIds := by
  induction body generalizing run with
  | done => exact List.prefix_refl _
  | onRollback raises rest ih =>
      rw [perform]
      split
      · exact ih (run.onRollback raises)
      · exact List.prefix_refl _
  | enqueue job rest ih =>
      rw [perform]
      split
      · exact (List.prefix_append _ _).trans (ih (run.enqueue job))
      · exact List.prefix_refl _
  | fail code => exact List.prefix_refl _
  | attempt tried rest triedGrows restGrows =>
      exact (triedGrows run).trans (restGrows _)
  | nested write answers inner rest innerGrows restGrows =>
      have inside : run.session.pendingEffectIds <+:
          (endNested answers run (perform inner run.enter)).1.session.pendingEffectIds :=
        endNested_grows (innerGrows run.enter)
      rw [perform]
      split
      · exact List.prefix_refl _
      · split
        · exact List.prefix_refl _
        · rw [andThen]
          split
          · exact inside.trans (restGrows _)
          · exact inside

/-- A savepoint that aborts leaves the list of jobs as it was when the savepoint began. -/
theorem savepoint_restores {answers : Answers} {inner : Body} {run : Run} {cause : Raised}
    (rolledBack : answers.rollback = none)
    (aborted : (savepoint answers inner run).2 = some cause) :
    (savepoint answers inner run).1.session.pendingEffectIds =
      run.session.pendingEffectIds := by
  have grown := perform_grows inner run.enter
  rw [savepoint, endNested] at aborted ⊢
  cases leaves : leaving answers (perform inner run.enter).2 with
  | none => simp [leaves] at aborted
  | some first =>
      simp only [abortNested_run rolledBack]
      exact (List.prefix_iff_eq_take.mp grown).symm

end MsgServer.Compensations
