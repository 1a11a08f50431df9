import Mathlib.Data.List.Sort
import MsgServer.Library.Program
import MsgServer.Workers.Effects

/-!
`enqueue` of plugins/watches.py: the messages that a committed event puts into inboxes.
A refused watch or reference is caught without a savepoint, so what the watch has already
written stays. The id of a message is a fresh random one and is left out.
-/

namespace MsgServer.Watches

open Library Session Authorization

def postEvents : List String :=
  ["content.post_create", "content.post_edit", "discussion.reply", "content.archive"]

def queryEventTypes : List String :=
  postEvents ++ ["content.tags_set", "content.move", "content.chown"]

def recordCorruption : List String :=
  ["content_missing", "content_truncated", "content_size_mismatch", "content_digest_mismatch",
    "invalid_json", "duplicate_json_key", "non_finite_float", "revision_not_found",
    "watch_record_invalid", "watch_content_invalid", "use_transfer"]

structure Event where
  id : String
  type : String
  subject : Option String
  time : Nat
  resources : List ResourceRef

/-- What `record` reads of a watch; `operation` includes its version and `active` is the
status of the record. -/
structure Watch where
  subject : String
  target : String
  queryRef : Option ResourceRef
  queryBinding : Option String
  eventTypes : List String
  known : ∀ type ∈ eventTypes, type ∈ queryEventTypes
  expiresAt : Option Nat
  active : Bool
  legacy : Bool
  principal : Principal
  operation : String

/-- What `query_contract` returns for a pinned query; `binding` is the digest of the arguments
and `operation` that of the read. -/
structure Query where
  principal : Principal
  operation : String
  parent : String
  binding : String

structure Message where
  sender : Option String
  recipient : String
  resource : String
  eventId : String
  source : String
  time : Nat
  deriving DecidableEq

abbrev Inbox := List Message

/-- What one event meets outside the authority tables: the records of the watches, the
registered operations, the saved queries and, for a query, the resources its SELECT finds. -/
structure World where
  app : App
  store : Store
  clock : Nat
  records : String → Except Failure Watch
  registered : String → Bool
  contract : Principal → ResourceRef → Except Failure Query
  predicates : Query → Except Failure (String → Bool)

abbrev Tx := EStateM Failure Inbox

variable (world : World)

/-- The SELECT of the watches, `ORDER BY id`. -/
def watchIds : List String :=
  ((world.store.resources.rows.filter fun row => row.type == "watch" && row.state == .active).map
    Resource.id).insertionSort (· ≤ ·)

/-- `check_access` for reading, as the worker. -/
def checkRead (principal : Principal) (operation id : String) : Except Failure Unit := do
  let _ ← requireAccess world.app world.store world.clock ⟨principal, .worker, world.clock⟩ none
    [⟨id, operation, .read⟩]
  return ()

def pinnedQuery (principal : Principal) (watch : Watch) :
    Except Failure (Option (Query × (String → Bool))) :=
  match watch.queryRef with
  | none => .ok none
  | some ref => do
      let query ← world.contract principal ref
      require (query.parent = watch.target ∧ some query.binding = watch.queryBinding)
        "watch_query_scope_changed"
      let filters ← world.predicates query
      return some (query, filters)

/-- A watch that may deliver: its principal as it stands now, and the query it selects by. -/
structure Admission where
  principal : Principal
  query : Option (Query × (String → Bool))

def admitted (watch : Watch) : Except Failure Admission := do
  let principal ←
    Effects.currentPrincipal world.app world.store world.clock watch.principal
  require (world.registered watch.operation = true) "unknown_operation"
  checkRead world principal watch.operation watch.target
  let query ← pinnedQuery world principal watch
  return ⟨principal, query⟩

def checkQueried (admission : Admission) (query : Query) (id : String) : Except Failure Unit := do
  checkRead world admission.principal query.operation id
  checkRead world query.principal query.operation id

/-- Whether the reference lies in the watched subtree or satisfies the query. -/
def selected (watch : Watch) (admission : Admission) (id : String) : Except Failure Bool :=
  match admission.query with
  | some (query, filters) =>
      if filters id = true then do
        checkQueried world admission query id
        return true
      else .ok false
  | none => do
      let above ← ancestors world.app world.store id
      return id == watch.target || above.any fun item => item.id == watch.target

/-- One turn of the loop up to the writing: whether the reference is to be notified. -/
def handled (watch : Watch) (admission : Admission) (ref : ResourceRef) : Except Failure Bool := do
  let hit ← selected world watch admission ref.id
  if hit = true then do
    checkRead world admission.principal watch.operation ref.id
    return true
  else return false

def message (event : Event) (watch : Watch) (id : String) : Message where
  sender := event.subject
  recipient := watch.subject
  resource := id
  eventId := event.id
  source := if watch.legacy then "follow" else "watch"
  time := event.time

def addressed (eventId recipient resource : String) (message : Message) : Bool :=
  message.eventId == eventId && message.recipient == recipient && message.resource == resource

/-- The INSERT, unless the message is there. -/
def deliver (event : Event) (watch : Watch) (id : String) (inbox : Inbox) : Inbox :=
  if inbox.any (addressed event.id watch.subject id) = true then inbox
  else inbox ++ [message event watch id]

def deliverIf (event : Event) (watch : Watch) (ref : ResourceRef) (hit : Bool) (inbox : Inbox) :
    Inbox :=
  if hit = true then deliver event watch ref.id inbox else inbox

def notifyAll (event : Event) (watch : Watch) (admission : Admission) : List ResourceRef → Tx Unit
  | [] => pure ()
  | ref :: rest => do
      let hit ← Program.query fun _ => handled world watch admission ref
      Program.write fun inbox => .ok (deliverIf event watch ref hit inbox)
      notifyAll event watch admission rest

def notifyWatch (event : Event) (watch : Watch) : Tx Unit := do
  let admission ← Program.query fun _ => admitted world watch
  notifyAll world event watch admission event.resources

def due (event : Event) (watch : Watch) : Bool :=
  watch.active && decide (event.type ∈ watch.eventTypes) &&
    watch.expiresAt.all fun expiry => decide (world.clock < expiry)

def enqueueRecord (event : Event) : Except Failure Watch → Tx Unit
  | .error failure => if failure.code ∈ recordCorruption then pure () else throw failure
  | .ok watch =>
      if due world event watch = true then
        Program.recover (notifyWatch world event watch) fun _ => pure ()
      else pure ()

def enqueueAll (event : Event) : List String → Tx Unit
  | [] => pure ()
  | id :: rest => do
      enqueueRecord world event (world.records id)
      enqueueAll event rest

def enqueue (event : Event) : Tx Unit :=
  if quarantineActive world.store = true ∨ event.type ∉ queryEventTypes then pure ()
  else enqueueAll world event (watchIds world)

end MsgServer.Watches
