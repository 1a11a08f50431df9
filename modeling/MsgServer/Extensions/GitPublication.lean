import MsgServer.Core.Models
import MsgServer.Library.Program

/-!
extensions/git_publication.py: `ReferenceGuard` and the end of `guarded_command`. One task
answers the messages of Git's reference hook and keeps a metadata transaction open from
`prepared` to `committed`. A transaction is what `asynccontextmanager` makes of the source's
`transaction`: it is closed when it is exited, also when exiting raises, and exiting it once
more raises. What the database answers comes with the message.
-/

namespace MsgServer.GitPublication

open Library

/-! Change lists. -/

structure Change where
  ref : List Char
  old : List Char
  new : List Char
  deriving DecidableEq

/-- The text of a message; `size` is its length in bytes. -/
structure Text where
  size : Nat
  lines : List (List Char)
  deriving DecidableEq

/-- `line.split(' ')`. -/
def fields : List Char → List (List Char)
  | [] => [[]]
  | ' ' :: rest => [] :: fields rest
  | letter :: rest =>
      match fields rest with
      | [] => [[letter]]
      | first :: others => (letter :: first) :: others

def hexDigit (letter : Char) : Bool := letter.isDigit || ('a' ≤ letter && letter ≤ 'f')

def isHash (text : List Char) : Bool := text.length == 40 && text.all hexDigit

/-- `\s`; the hook sends ASCII only. -/
def blank (letter : Char) : Bool :=
  letter.isWhitespace || letter.toNat == 11 || letter.toNat == 12 ||
    (28 ≤ letter.toNat && letter.toNat ≤ 31)

def under (folder ref : List Char) : Bool :=
  folder.isPrefixOf ref && decide (folder.length < ref.length) &&
    (ref.drop folder.length).all fun letter => !blank letter

def isRef (ref : List Char) : Bool :=
  ref == "HEAD".toList || under "refs/heads/".toList ref || under "refs/tags/".toList ref

def parseChange (line : List Char) : Except Failure Change :=
  match fields line with
  | [old, new, ref] => do
      require (isHash old = true ∧ isHash new = true) "invalid_git_change"
      require (isRef ref = true) "invalid_git_ref"
      return ⟨ref, old, new⟩
  | _ => .error { code := "invalid_git_change" }

def validateChanges (text : Text) : Except Failure (List Change) := do
  require (text.size ≤ 65536) "git_ref_batch_too_large"
  let rows ← text.lines.mapM parseChange
  require (0 < rows.length ∧ rows.length ≤ 128 ∧ (rows.map Change.ref).Nodup) "invalid_git_change"
  return rows

/-! The guard. -/

inductive Phase where
  | preparing | prepared | committed | aborted | other
  deriving DecidableEq

inductive Message where
  | stop
  | hook (phase : Phase) (text : Text)
  deriving DecidableEq

/-- `opened` says that it was entered, `exits` how often it was exited. -/
structure Transaction where
  opened : Bool
  closed : Bool
  exits : Nat
  deriving DecidableEq

def Transaction.live (row : Transaction) : Bool := row.opened && !row.closed

def Transaction.exited (row : Transaction) : Transaction :=
  { row with closed := true, exits := row.exits + 1 }

/-- `transactions` are those made so far and `manager` and `tx` the local variables that name one
of them; `published` are the durable refs_committed events and `generation` how often the
repository was advanced. -/
structure Guard where
  transactions : List Transaction
  manager : Option Nat
  tx : Option Nat
  preparing : Option (List Change)
  prepared : Option (List Change)
  changed : Bool
  uncertain : Bool
  failures : List String
  published : List (List Change)
  generation : Nat
  stopped : Bool
  deriving DecidableEq

def Guard.initial : Guard := ⟨[], none, none, none, none, false, false, [], [], 0, false⟩

/-- A message with what it meets: `preflight` and `authority` are `authorize` in the two phases,
`enter` is entering the transaction, `rollback` what exiting raises besides the failure that is
passed in, `writes` the statements after `committed` and `commit` the commit. -/
structure Turn where
  message : Message
  preflight : Except Failure Unit
  enter : Except Failure Unit
  authority : Except Failure Unit
  rollback : Option Failure
  writes : Except Failure Unit
  commit : Except Failure Unit
  deriving DecidableEq

abbrev Tx := EStateM Failure Guard

def guardFailed : Failure := { code := "git_guard_failed" }

def Guard.alter (guard : Guard) (number : Nat) (change : Transaction → Transaction) : Guard :=
  { guard with transactions := guard.transactions.modify number change }

def Guard.live (guard : Guard) (number : Nat) : Bool :=
  (guard.transactions[number]?).any Transaction.live

def set (change : Guard → Guard) : Tx Unit := Program.write fun guard => .ok (change guard)

def raised (outcome : Except Failure Unit) : Tx Unit := Program.query fun _ => outcome

def raisedBy (rollback : Option Failure) : Tx Unit :=
  match rollback with
  | none => pure ()
  | some failure => throw failure

variable (turn : Turn)

/-- `__aexit__` with a failure. -/
def exitFailed (number : Nat) : Tx Unit := do
  let open' ← Program.query fun guard => .ok (guard.live number)
  set fun guard => guard.alter number Transaction.exited
  if open' = true then raisedBy turn.rollback else throw guardFailed

/-- `__aexit__` without one: the writes become durable with the commit. -/
def exitCommitted (number : Nat) (changes : List Change) : Tx Unit := do
  let open' ← Program.query fun guard => .ok (guard.live number)
  set fun guard => guard.alter number Transaction.exited
  raised (if open' = true then turn.commit else .error guardFailed)
  set fun guard =>
    { guard with published := guard.published ++ [changes], generation := guard.generation + 1 }

def closeManager : Option Nat → Tx Unit
  | none => pure ()
  | some number => do
      set fun guard => { guard with uncertain := true }
      exitFailed turn number

def stop : Tx Unit := do
  let manager ← Program.query fun guard => .ok guard.manager
  closeManager turn manager
  set fun guard => { guard with stopped := true }

def prepareFirst (changes : List Change) : Tx Unit := do
  Program.query fun guard => require (guard.manager = none) "git_transaction_already_prepared"
  raised turn.preflight
  set fun guard => { guard with preparing := some changes }

/-- `manager` is set before the transaction is entered. -/
def openManager : Tx Nat := do
  let number ← Program.query fun guard => .ok guard.transactions.length
  set fun guard =>
    { guard with
      transactions := guard.transactions ++ [⟨false, true, 0⟩]
      manager := some number }
  raised turn.enter
  set fun guard =>
    { guard.alter number (fun _ => ⟨true, false, 0⟩) with tx := some number }
  return number

def refuse (number : Nat) (failure : Failure) : Tx Unit := do
  exitFailed turn number
  set fun guard => { guard with manager := none, tx := none }
  throw failure

def prepare (changes : List Change) : Tx Unit := do
  Program.query fun guard => require (guard.manager = none) "git_transaction_already_prepared"
  Program.query fun guard =>
    require (∀ first ∈ guard.preparing, changes = first) "git_transaction_mismatch"
  let number ← openManager turn
  Program.recover (raised turn.authority) (refuse turn number)
  set fun guard => { guard with prepared := some changes }

/-- The manager that a matching `committed` or `aborted` takes. -/
def takeManager (changes : List Change) : Tx Nat := do
  let active ← Program.query fun guard =>
    requireRow (guard.manager.filter fun _ => guard.prepared == some changes)
      "git_transaction_mismatch"
  set fun guard => { guard with manager := none }
  return active

def forget : Tx Unit :=
  set fun guard => { guard with tx := none, preparing := none, prepared := none }

def abort (changes : List Change) : Tx Unit := do
  let active ← takeManager changes
  exitFailed turn active
  forget

/-- Whether `tx` can still be used; without a session, or with a closed one, every use raises. -/
def Guard.usable (guard : Guard) : Bool := guard.tx.any guard.live

def publish (active : Nat) (changes : List Change) : Tx Unit := do
  Program.query fun guard => if guard.usable = true then turn.writes else .error guardFailed
  exitCommitted turn active changes

def unpublished (active : Nat) (failure : Failure) : Tx Unit := do
  set fun guard => { guard with uncertain := true }
  let usable ← Program.query fun guard => .ok guard.usable
  if usable = true then exitFailed turn active else pure ()
  throw failure

def commit (changes : List Change) : Tx Unit := do
  let active ← takeManager changes
  set fun guard => { guard with changed := true }
  Program.recover (publish turn active changes) (unpublished turn active)
  forget

def hook (phase : Phase) (text : Text) : Tx Unit := do
  let changes ← Program.query fun _ => validateChanges text
  match phase with
  | .preparing => prepareFirst turn changes
  | .prepared => prepare turn changes
  | .committed => commit turn changes
  | .aborted => abort turn changes
  | .other => throw { code := "invalid_git_hook_state" }

def answer : Tx Unit :=
  match turn.message with
  | .stop => stop turn
  | .hook phase text => hook turn phase text

def Guard.fail (guard : Guard) (failure : Failure) : Guard :=
  { guard with failures := guard.failures ++ [failure.code] }

/-- One turn of `run`; after the stop no message is read. -/
def step (guard : Guard) : Guard :=
  if guard.stopped = true then guard
  else match answer turn guard with
    | .ok _ next => next
    | .error failure next => next.fail failure

/-! The final state of the job. -/

inductive JobState where
  | uncertain | done | failed
  deriving DecidableEq

/-- `code` is Git's exit status, absent if it was never read; `killed` says that the process had
to be killed, which sets `uncertain` before the stop. -/
structure Ending where
  code : Option Int
  killed : Bool

def jobUncertain (guard : Guard) (ending : Ending) : Bool :=
  (guard.uncertain || ending.killed) ||
    (guard.changed && (ending.code != some 0 || !guard.failures.isEmpty))

def jobState (guard : Guard) (ending : Ending) : JobState :=
  if jobUncertain guard ending = true then .uncertain
  else if ending.code = some 0 ∧ guard.failures = [] then .done
  else .failed

end MsgServer.GitPublication
