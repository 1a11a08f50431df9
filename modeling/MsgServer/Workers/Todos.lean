import Mathlib.Data.String.Basic
import MsgServer.Library.RoundRobin
import MsgServer.Storage.Session

/-!
The reminders of workers/maintenance.py. One run reads the next batch of the active todos in
the order of their ids, moves the cursor to the last one read, and for each that is due puts
one message into its owner's inbox, under an id derived from the todo and the text of its due
time. The fields of a todo come from the content of its revision.
-/

namespace MsgServer.Todos

open Library Session

def todoDeliveryBatchSize : Nat := 64

def onlineCa : String := "u_online_ca"

/-- The fields of a todo that a run reads. -/
structure Details where
  dueAt : Option String
  status : String
  deriving DecidableEq

/-- The record of a reminder. -/
structure Notice where
  actor : String
  time : Nat
  source : String
  dueAt : String
  todoRevisionAtDelivery : String
  statusAtDelivery : String
  deriving DecidableEq

/-- A row of the inbox; other messages have their own records. -/
structure Message where
  id : String
  sender : Option String
  recipient : String
  resource : Option String
  eventId : String
  notice : Option Notice
  deriving DecidableEq

/-- The audit entry of a reminder. -/
structure DueNotice where
  time : Nat
  requestId : String
  actor : String
  subject : String
  resource : ResourceRef
  messageId : String
  dueAt : String
  deriving DecidableEq

structure World where
  store : Store
  /-- The content of a revision, by the resource and the revision. -/
  details : String → String → Except Failure Details
  messages : Table Message.id
  audit : List DueNotice
  cursor : String

/-- The texts of instants and the id of a reminder, which is
`'m_' + digest(('todo_due', id, due_at))[7:39]`. -/
structure Worker where
  app : App
  wire : Nat → String
  parseTime : String → Except Failure Nat
  parseWire : ∀ time, parseTime (wire time) = .ok time
  noticeId : String → String → String

variable (worker : Worker)

/-- `SELECT ... WHERE type='todo' AND state='active' ... ORDER BY id`. -/
def todos (world : World) : List Resource :=
  (world.store.resources.rows.filter fun row =>
    row.type == "todo" && row.state == .active).mergeSort fun left right => left.id ≤ right.id

/-- Whether the parent is the private folder of the owner's todos. -/
def TodoFolder (todo parent : Resource) : Prop :=
  parent.name = "todos" ∧ parent.parent = some todo.owner ∧ parent.owner = todo.owner ∧
    parent.mode &&& 0o077 = 0 ∧ parent.state = .active

instance (todo parent : Resource) : Decidable (TodoFolder todo parent) :=
  inferInstanceAs (Decidable (_ ∧ _ ∧ _ ∧ _ ∧ _))

/-- What is due of a todo: its revision, the text of its due time and its status. -/
structure Due where
  revision : String
  dueAt : String
  status : String
  deriving DecidableEq

/-- The tests on one todo; a todo that fails one is skipped. -/
def dueOf (world : World) (now : Nat) (todo : Resource) : Except Failure (Option Due) :=
  match todo.revision with
  | none => .ok none
  | some revision =>
      if todo.mode &&& 0o077 ≠ 0 then .ok none
      else
        match todo.parent with
        | none => .error { code := "not_found" }
        | some above => do
            let parent ← resource worker.app world.store above
            if TodoFolder todo parent then do
              let details ← world.details todo.id revision
              match details.dueAt with
              | none => return none
              | some dueAt =>
                  if dueAt = "" ∨ details.status ∉ ["pending", "in_progress"] then return none
                  else do
                    let time ← worker.parseTime dueAt
                    return if now < time then none
                      else some { revision, dueAt, status := details.status }
            else return none

def reminder (now : Nat) (todo : Resource) (due : Due) : Message :=
  let id := worker.noticeId todo.id due.dueAt
  { id, sender := none, recipient := todo.owner, resource := some todo.id, eventId := id,
    notice := some
      { actor := onlineCa, time := now, source := "todo_due", dueAt := due.dueAt,
        todoRevisionAtDelivery := due.revision, statusAtDelivery := due.status } }

def dueNotice (now : Nat) (todo : Resource) (due : Due) : DueNotice :=
  let id := worker.noticeId todo.id due.dueAt
  { time := now, requestId := "todo-due:" ++ id, actor := onlineCa, subject := todo.owner,
    resource := { id := todo.id, revision := some due.revision },
    messageId := id, dueAt := due.dueAt }

/-- One turn of the loop; `ON CONFLICT(id) DO NOTHING` leaves a reminder that exists. -/
def deliver (now : Nat) (state : World × Nat) (todo : Resource) :
    Except Failure (World × Nat) := do
  let (world, delivered) := state
  let found ← dueOf worker world now todo
  match found with
  | none => return (world, delivered)
  | some due =>
      match world.messages.insert (reminder worker now todo due) with
      | none => return (world, delivered)
      | some messages =>
          return ({ world with
            messages
            audit := world.audit ++ [dueNotice worker now todo due] }, delivered + 1)

/-- `_deliver_due_todos`. -/
def deliverDueTodos (now : Nat) (world : World) : Except Failure (World × Nat) :=
  let rows := RoundRobin.batch Resource.id todoDeliveryBatchSize (todos world) world.cursor
  let world := { world with cursor := RoundRobin.next Resource.id rows world.cursor }
  rows.foldlM (deliver worker now) (world, 0)

/-- What `todo_put` stores as the due time. -/
def storedDue (given : Option String) : Except Failure (Option String) :=
  match given with
  | none => .ok none
  | some text => do
      let time ← worker.parseTime text
      return some (worker.wire time)

end MsgServer.Todos
