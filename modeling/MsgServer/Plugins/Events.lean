import MsgServer.Plugins.EventLog
import MsgServer.Storage.Paths

/-!
The two change feeds: `communication.events` of plugins/event_stream.py and
`communication.changes` of plugins/communication.py. A request reads its authority and its
start from the database, and its rows in one statement from the log as it is then.
-/

namespace MsgServer.EventLog

open Library Session Authorization

variable (app : Deployment) (db : Database) (reader : Reader)

/-! The envelope of core/events.py. -/

def resourceEventTypes : List (String × String) :=
  [("content.post_create", "resource.created"), ("content.topic_create", "resource.created"),
    ("content.mkdir", "resource.created"), ("discussion.reply", "resource.created"),
    ("discussion.quote", "resource.created"), ("content.post_edit", "resource.updated"),
    ("content.move", "resource.moved"), ("content.archive", "resource.archived"),
    ("content.purge", "resource.purged"), ("content.restore", "resource.restored"),
    ("content.chmod", "resource.permissions_changed"),
    ("content.chgrp", "resource.permissions_changed"),
    ("content.chown", "resource.permissions_changed")]

structure Address where
  service : String
  ref : ResourceRef
  path : String
  url : String
  deriving DecidableEq

structure Envelope where
  version : Nat
  path : String
  url : String
  id : String
  source : String
  type : String
  operation : String
  time : Nat
  requestId : String
  actor : Option String
  subject : Option String
  resources : List Address
  deriving DecidableEq

def resourcePath (ref : ResourceRef) : Except Failure String := do
  require (validId ref.id = true) "invalid_resource_id"
  require (∀ revision ∈ ref.revision, validId revision = true) "invalid_revision_id"
  return "/_r/" ++ ref.id ++ match ref.revision with
    | some revision => "/rev/" ++ revision
    | none => "/json"

def resourceAddress (ref : ResourceRef) : Except Failure Address := do
  let path ← resourcePath ref
  return ⟨app.service, ref, path, app.service ++ path⟩

/-- `event_envelope`: it shows authorized references only. -/
def eventEnvelope (event : Event) (resources : List ResourceRef) (actor subject : Option String) :
    Except Failure Envelope := do
  let addresses ← resources.mapM (resourceAddress app)
  return {
    version := 1
    path := "/_e/" ++ event.id
    url := app.service ++ "/_e/" ++ event.id
    id := event.id
    source := app.service
    type := (setting resourceEventTypes event.type).getD event.type
    operation := event.type
    time := event.time
    requestId := event.requestId
    actor := actor
    subject := subject
    resources := addresses }

/-! `communication.events`. -/

def eventsOperation : String := "communication.events@1"

structure EventItem where
  seq : Nat
  envelope : Envelope
  deriving DecidableEq

structure EventsRequest where
  resource : Option String
  cursor : Presented
  limit : Option Nat
  deriving DecidableEq

structure EventsPage where
  items : List EventItem
  cursor : Token
  next : EventsRequest
  nextRequiresAuth : Bool
  deriving DecidableEq

def readableRow (operation id : String) : Except Failure Bool := do
  let row ← resource app.toApp db.store id
  if row.state = .purged then return false
  else visible app db reader operation id

/-- `readable`. -/
def readable (operation : String) (id : Option String) : Except Failure Bool :=
  match id with
  | none => .ok false
  | some id => do
      let answer ← catches absentCodes (readableRow app db reader operation id)
      return answer.getD false

/-- An identity of the envelope, where the reader may read it. -/
def readableIdentity (id : Option String) : Except Failure (Option String) := do
  let shown ← readable app db reader eventsOperation id
  return if shown then id else none

def referenceRelevant (subject : String) (scope : Option String) (followed : List String)
    (event : Event) (ref : ResourceRef) : Except Failure Bool := do
  let above ← ancestorIds app db ref.id
  match scope with
  | some scope => return decide (ref.id = scope ∨ scope ∈ above)
  | none =>
      if event.subject = some subject ∨ ref.id ∈ followed ∨ ∃ id ∈ above, id ∈ followed then
        return true
      else do
        let direct ← directAncestor app db ref.id
        return inConversation direct subject

def permittedReference (subject : String) (scope : Option String) (followed : List String)
    (event : Event) (ref : ResourceRef) : Except Failure Bool := do
  let shown ← readable app db reader eventsOperation (some ref.id)
  if shown then referenceRelevant app db subject scope followed event ref
  else return false

/-- What the feed shows of one row: an item or nothing. -/
def eventFound (subject : String) (scope : Option String) (followed : List String)
    (entry : Nat × Event) : Except Failure (List EventItem) := do
  let permitted ← keep (permittedReference app db reader subject scope followed entry.2)
    entry.2.resources
  if permitted ≠ [] ∨ (scope = none ∧ entry.2.resources = [] ∧ entry.2.subject = some subject) then do
    let actor ← readableIdentity app db reader entry.2.actor
    let owner ← readableIdentity app db reader entry.2.subject
    let envelope ← eventEnvelope app entry.2 permitted actor owner
    return [⟨entry.1, envelope⟩]
  else return []

/-- One turn of the loop; `late` says where the deadline of the request has passed. -/
def eventTurn (subject : String) (scope : Option String) (followed : List String) (limit : Nat)
    (late : Nat → Bool) (entry : Nat × Event) (items : List EventItem) :
    Except Failure (Feed.Turn (List EventItem)) := do
  require (late entry.1 = false) "query_cost_exceeded"
  let found ← eventFound app db reader subject scope followed entry
  return if found ≠ [] ∧ limit ≤ (items ++ found).length then .last (items ++ found)
    else .more (items ++ found)

def activeTopics (subject : String) : List (String × String) :=
  ((topicsOf db subject).filter fun row => row.status == "active").map
    fun row => (row.topic, row.role)

/-- `watches | topics`. -/
def followedBy (subject : String) : List String :=
  watchesOf db subject ++ (activeTopics db subject).map Prod.fst

def eventsAuthority (subject : String) : String :=
  app.eventsDigest db.authorizationEpoch (sorted (watchesOf db subject)) (activeTopics db subject)

def eventsBinding (scope : Option String) : EventsBinding where
  actor := reader.context.principal.actor
  subject := reader.context.principal.subject
  credentialId := reader.context.principal.credentialId
  certificates := sorted reader.context.principal.certificates
  resource := scope

def eventsScope (request : EventsRequest) : Except Failure (Option String) :=
  match request.resource with
  | none => .ok none
  | some address => do
      let scope ← app.resolveScope db.store address
      let _ ← requireAccess app.toApp db.store reader.clock reader.context none
        [⟨scope, eventsOperation, .read⟩]
      return some scope

/-- Where the page starts and when its cursor expires. -/
def eventsStart (subject : String) (scope : Option String) (cursor : Presented) :
    Except Failure (Nat × Nat) :=
  match cursor with
  | none => .ok (db.syncFloor, reader.context.now + 15 * 60)
  | some text => do
      let token ← inspect app text
      match token with
      | .events query position =>
          require (query = eventsBinding reader scope) "cursor_query_mismatch"
          require (reader.context.now < position.expiresAt) "cursor_expired"
          require (position.authority = eventsAuthority app db subject) "resync_required"
          require (db.syncFloor ≤ position.seq) "resync_required"
          return (position.seq, position.expiresAt)
      | _ => .error { code := "cursor_query_mismatch" }

/-- `events`; `log` is what the statement over the events sees. -/
def events (request : EventsRequest) (late : Nat → Bool) (log : Feed.Log Event) :
    Except Failure EventsPage := do
  let subject ← subjectOf reader
  requireBase app.toApp db.store reader.clock reader.context.principal eventsOperation subject
  let scope ← eventsScope app db reader request
  let (position, expires) ← eventsStart app db reader subject scope request.cursor
  let (stop, items) ← Feed.scan
    (eventTurn app db reader subject scope (followedBy db subject) (request.limit.getD 50) late)
    ((Feed.after position log).take 500) position []
  let token := Token.events (eventsBinding reader scope)
    ⟨stop, eventsAuthority app db subject, expires⟩
  return ⟨items, token, { request with cursor := some (some token) }, true⟩

/-! `communication.changes`. -/

def changesOperation : String := "communication.changes@1"

structure ParentInfo where
  parent : Option String
  name : String
  deriving DecidableEq

structure ChangeItem where
  seq : Nat
  event : Event
  resourceParents : List (String × ParentInfo)
  resumeCursor : Token
  deriving DecidableEq

structure ChangesRequest where
  cursor : Presented
  limit : Option Nat
  deriving DecidableEq

structure ChangesPage where
  items : List ChangeItem
  syncCursor : Token
  tailCursor : Token
  hasMore : Bool
  deriving DecidableEq

/-- The checks of the clocks: before a row, at a reference in either loop over the references,
and the end of the time slice after a row. -/
structure Timing where
  late : Nat → Bool
  lateReference : Nat → ResourceRef → Bool
  lateRelevance : Nat → ResourceRef → Bool
  sliced : Nat → Bool

def truthy : Atom → Bool
  | .null => false
  | .flag value => value
  | .number value => value != 0
  | .text value => value != ""

def dataText (event : Event) (key : String) : Option String :=
  match setting event.data key with
  | some (.text value) => some value
  | _ => none

def isTopicEvent (event : Event) : Bool := "topic.".toList.isPrefixOf event.type.toList

/-- The reason of a topic event is for the admins of its topic. -/
def withoutReason (subject : String) (event : Event) : Event :=
  if isTopicEvent event = true ∧ ((setting event.data "reason").map truthy).getD false = true ∧
      ∀ topic ∈ dataText event "topic_id", isAdmin db.store topic subject = false then
    { event with data := event.data.filter fun field => field.1 != "reason" }
  else event

/-- The references that the reader sees, each with the place it is at. -/
def permittedChanges (timing : Timing) (seq : Nat) :
    List ResourceRef → Except Failure (List (ResourceRef × ParentInfo))
  | [] => .ok []
  | ref :: rest => do
      require (timing.lateReference seq ref = false) "query_cost_exceeded"
      let shown ← visible app db reader changesOperation ref.id
      if shown then do
        let row ← resource app.toApp db.store ref.id
        let others ← permittedChanges timing seq rest
        return (ref, ⟨row.parent, row.name⟩) :: others
      else permittedChanges timing seq rest

def topicMember (subject : String) (event : Event) : Bool :=
  isTopicEvent event &&
    match dataText event "topic_id" with
    | some topic => topic != "" && (topicsOf db subject).any fun row =>
        row.topic == topic && row.status == "active"
    | none => false

def subjectRelevant (subject : String) (event : Event) : Prop :=
  event.subject = some subject ∨ (∃ owner ∈ event.subject, owner ∈ watchesOf db subject) ∨
    topicMember db subject event = true

instance (subject : String) (event : Event) : Decidable (subjectRelevant db subject event) :=
  inferInstanceAs (Decidable (_ ∨ _))

/-- The ancestors are looked up only where the reference itself is not watched. -/
def unwatchedAbove (subject id : String) : Except Failure (List String) :=
  if id ∈ watchesOf db subject then .ok [] else ancestorIds app db id

/-- The loop over the permitted references, until one is relevant. -/
def reachesWatched (subject : String) (timing : Timing) (seq : Nat) :
    List ResourceRef → Except Failure Bool
  | [] => .ok false
  | ref :: rest => do
      require (timing.lateRelevance seq ref = false) "query_cost_exceeded"
      let above ← unwatchedAbove app db subject ref.id
      let direct ← directAncestor app db ref.id
      if ref.id ∈ watchesOf db subject ∨ (∃ id ∈ above, id ∈ watchesOf db subject) ∨
          direct.isSome = true then return true
      else reachesWatched subject timing seq rest

def resume (subject : String) (seq : Nat) : Token :=
  .sync subject ⟨seq, db.authorizationEpoch, app.watchDigest (sorted (watchesOf db subject))⟩

def changeItem (subject : String) (entry : Nat × Event)
    (permitted : List (ResourceRef × ParentInfo)) : ChangeItem where
  seq := entry.1
  event := { withoutReason db subject entry.2 with resources := permitted.map Prod.fst }
  resourceParents := (permitted.map fun pair => (pair.1.id, pair.2)).eraseDups
  resumeCursor := resume app db subject entry.1

def changeRelevant (subject : String) (timing : Timing) (entry : Nat × Event)
    (permitted : List ResourceRef) : Except Failure Bool :=
  if subjectRelevant db subject entry.2 then .ok true
  else reachesWatched app db subject timing entry.1 permitted

def changeFound (subject : String) (timing : Timing) (entry : Nat × Event) :
    Except Failure (List ChangeItem) := do
  let permitted ← permittedChanges app db reader timing entry.1 entry.2.resources
  let relevant ← changeRelevant app db subject timing entry (permitted.map Prod.fst)
  if relevant = true ∧
      (permitted ≠ [] ∨ (entry.2.resources = [] ∧ entry.2.subject = some subject)) then
    return [changeItem app db subject entry permitted]
  else return []

def changeTurn (subject : String) (limit : Nat) (timing : Timing) (entry : Nat × Event)
    (items : List ChangeItem) : Except Failure (Feed.Turn (List ChangeItem)) := do
  require (timing.late entry.1 = false) "query_cost_exceeded"
  let found ← changeFound app db reader subject timing entry
  return if limit ≤ (items ++ found).length ∨ timing.sliced entry.1 = true then
      .last (items ++ found)
    else .more (items ++ found)

def changesStart (subject : String) (cursor : Presented) : Except Failure Nat :=
  match cursor with
  | none => .ok db.syncFloor
  | some text => do
      let token ← inspect app text
      match token with
      | .sync query position =>
          require (query = subject) "cursor_query_mismatch"
          require (position.authorizationEpoch = db.authorizationEpoch ∧
            position.watchDigest = app.watchDigest (sorted (watchesOf db subject)))
            "resync_required"
          require (db.syncFloor ≤ position.seq) "resync_required"
          return position.seq
      | _ => .error { code := "cursor_query_mismatch" }

/-- `SELECT COALESCE(MAX(seq),0)`. -/
def lastSeq (log : Feed.Log Event) : Nat := log.foldl (fun most entry => max most entry.1) 0

/-- `changes`; the end of the log is read before the rows, and `log` is what the statement
over the rows sees. -/
def changes (request : ChangesRequest) (timing : Timing) (log : Feed.Log Event) :
    Except Failure ChangesPage := do
  let subject ← subjectOf reader
  requireBase app.toApp db.store reader.clock reader.context.principal changesOperation subject
  let position ← changesStart app db subject request.cursor
  let tailPosition := max position (lastSeq db.events)
  let (stop, items) ← Feed.scan
    (changeTurn app db reader subject (request.limit.getD 50) timing)
    (((Feed.between position tailPosition log).take 65).take 64) position []
  return {
    items := items
    syncCursor := resume app db subject stop
    tailCursor := resume app db subject tailPosition
    hasMore := decide (stop < tailPosition) }

end MsgServer.EventLog
