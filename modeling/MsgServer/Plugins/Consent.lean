import Mathlib.Logic.Relation
import MsgServer.Plugins.Content

/-!
The direct messages of plugins/communication.py as a machine together with the content
operations: `dm_request` with its introduction, `dm_accept`, `dm_reject`, `dm_send`,
`dm_block` and `dm_archive`. A block is never taken back. Notices to the other side are
left out.
-/

namespace MsgServer.Consent

open Library Session Policy Authorization ResourceTree Content

/-- The tables, with the pairs that a subject has filed away in dm_archives. -/
structure Server where
  store : Store
  archives : List (String × String)

variable (app : App)

def callerOf (context : Context) : Caller := { context := context, now := context.now }

/-- No conversation of the pair is there yet. -/
def unmet (store : Store) (request : Conversations.DmRequest) : Bool :=
  match request.context.principal.subject with
  | none => false
  | some sender =>
      (store.conversations.find?
        (app.pairDigest (Conversations.participants sender request.recipient))).isNone

/-- The introduction goes into the conversation that the request has opened. -/
def introduce (opened : Store) (request : Conversations.DmRequest) (introduction : NewResource)
    (other : Except Failure Unit) : Except Failure Store :=
  createResource app opened (callerOf request.context) (request.row app).id
    { introduction with type := "post", mode := 0o600 } other

def dmRequest (store : Store) (request : Conversations.DmRequest)
    (introduction : Option NewResource) (other : Except Failure Unit) : Except Failure Store := do
  let opened ← Conversations.dmRequest app store request
  match introduction with
  | none => return opened
  | some introduction =>
      if unmet app store request then introduce app opened request introduction other
      else return opened

structure Decision where
  context : Context
  conversationId : String

def dmAccept (store : Store) (request : Decision) : Except Failure Store :=
  Conversations.dmDecision app store
    { context := request.context
      operation := "communication.dm_accept@1"
      conversationId := request.conversationId
      desired := .active }

def dmReject (store : Store) (request : Decision) : Except Failure Store :=
  Conversations.dmDecision app store
    { context := request.context
      operation := "communication.dm_reject@1"
      conversationId := request.conversationId
      desired := .rejected }

def dmSendOperation : String := "communication.dm_send@1"

def dmSend (store : Store) (caller : Caller) (conversationId : String) (new : NewResource)
    (other : Except Failure Unit) : Except Failure Store := do
  let sender ← Conversations.signedSubject caller.context.principal
  let row ← requireRow (directOf store conversationId) "dm_not_found"
  require (participates row (some sender)) "dm_not_found"
  checkAccess app store caller dmSendOperation conversationId .create
  require (row.state = .active) "dm_not_active"
  createResource app store caller conversationId { new with type := "post" } other

def dmBlock (store : Store) (context : Context) (blocked : String) : Except Failure Store := do
  let sender ← Conversations.signedSubject context.principal
  requireBase app store context.now context.principal "communication.dm_block@1" sender
  let _ ← subject store blocked
  require (blocked ≠ sender) "dm_self_request"
  return { store with
    dmBlocks :=
      if (sender, blocked) ∈ store.dmBlocks then store.dmBlocks
      else (sender, blocked) :: store.dmBlocks }

def dmArchive (server : Server) (context : Context) (conversationId : String) :
    Except Failure Server := do
  let sender ← Conversations.signedSubject context.principal
  requireBase app server.store context.now context.principal "communication.dm_archive@1" sender
  let row ← requireRow (directOf server.store conversationId) "dm_not_found"
  require (participates row (some sender)) "dm_not_found"
  return { server with
    archives :=
      if (sender, row.pair) ∈ server.archives then server.archives
      else (sender, row.pair) :: server.archives }

def postEditOperation : String := "content.post_edit@1"

/-- A name in the registry other than the two with a handler of their own below. -/
structure Registered where
  name : String
  notSend : name ≠ dmSendOperation
  notEdit : name ≠ postEditOperation

inductive Operation where
  | dmRequest (request : Conversations.DmRequest) (introduction : Option NewResource)
      (other : Except Failure Unit)
  | dmAccept (request : Decision)
  | dmReject (request : Decision)
  | dmSend (caller : Caller) (conversationId : String) (new : NewResource)
      (other : Except Failure Unit)
  | dmBlock (context : Context) (blocked : String)
  | postEdit (caller : Caller) (id revision : String) (other : Except Failure Unit)
  | create (caller : Caller) (operation : Registered) (parentId : String) (new : NewResource)
      (other : Except Failure Unit)
  | change (caller : Caller) (operation : Registered) (id : String) (wanted : Change)
      (other : Except Failure Unit)
  | lifecycle (caller : Caller) (operation : Registered) (id : String) (state : ResourceState)
      (other : Except Failure Unit)
  | attach (caller : Caller) (operation : Registered) (id : String) (new : NewResource)
      (revision : String) (other : Except Failure Unit)
  | textPatchBatch (caller : Caller) (operation : Registered) (items : List (String × String))
      (other : Except Failure Unit)
  | move (request : Conversations.Move)
  /-- Credentials, certificates, grants, memberships and settings change at any time. -/
  | authority (change : Store → Store)

inductive Act where
  | operation (next : Operation)
  | dmArchive (context : Context) (conversationId : String)

def perform (store : Store) : Operation → Except Failure Store
  | .dmRequest request introduction other => dmRequest app store request introduction other
  | .dmAccept request => dmAccept app store request
  | .dmReject request => dmReject app store request
  | .dmSend caller conversationId new other => dmSend app store caller conversationId new other
  | .dmBlock context blocked => dmBlock app store context blocked
  | .postEdit caller id revision other =>
      change app store caller postEditOperation id (.postEdit revision) other
  | .create caller operation parentId new other =>
      create app store caller operation.name parentId new other
  | .change caller operation id wanted other =>
      change app store caller operation.name id wanted other
  | .lifecycle caller operation id state other =>
      lifecycle app store caller operation.name id state other
  | .attach caller operation id new revision other =>
      attach app store caller operation.name id new revision other
  | .textPatchBatch caller operation items other =>
      textPatchBatch app store caller operation.name items other
  | .move request => Conversations.move app store request
  | .authority change => .ok
      { change store with
        resources := store.resources
        conversations := store.conversations
        dmBlocks := store.dmBlocks }

/-- A refused operation is rolled back. -/
def step (act : Act) (server : Server) : Server :=
  match act with
  | .operation next =>
      match perform app server.store next with
      | .ok store => { server with store := store }
      | .error _ => server
  | .dmArchive context conversationId =>
      match dmArchive app server context conversationId with
      | .ok next => next
      | .error _ => server

/-- One resource right below another. -/
def Under (store : Store) (child parent : Resource) : Prop :=
  ∃ id, child.parent = some id ∧ resource app store id = .ok parent

/-- A resource at any depth below the one with an id. -/
def Below (store : Store) (row : Resource) (top : String) : Prop :=
  ∃ topic, Relation.TransGen (Under app store) row topic ∧ topic.id = top

/-- The decision of the other side, at a time when nobody blocks. -/
structure Decided (store : Store) (request : Decision) (conversation : Conversation) : Prop where
  pending : conversation.state = .pending
  signed : ∃ sender, request.context.principal.subject = some sender ∧
    request.context.principal.actor = some sender ∧
    request.context.principal.method = .signature ∧
    participates conversation (some sender) ∧ sender ≠ conversation.initiator
  unblocked : dmBlocked store conversation = false

/-- The participant who speaks may do so, and neither side blocks the other. -/
structure Admitted (store : Store) (caller : Caller) (conversation : Conversation) : Prop where
  participant : participates conversation caller.context.principal.subject
  active : conversation.state = .active
  unblocked : dmBlocked store conversation = false

/-- The introduction, by the initiator, with the request that opens the conversation. -/
def Introduced (store : Store) (act : Act) (conversation : Conversation) (row : Resource) : Prop :=
  ∃ request introduction other,
    act = .operation (.dmRequest request (some introduction) other) ∧
      store.conversations.find? conversation.pair = none ∧ conversation.state = .pending ∧
      request.context.principal.subject = some conversation.initiator ∧
      row.id = introduction.id ∧ row.owner = conversation.initiator ∧ row.type = "post" ∧
      row.parent = some conversation.resourceId

def Sent (store : Store) (act : Act) (conversation : Conversation) (row : Resource) : Prop :=
  ∃ caller new other,
    act = .operation (.dmSend caller conversation.resourceId new other) ∧
      Admitted store caller conversation ∧ caller.context.principal.subject = some row.owner ∧
      row.type = "post" ∧ row.parent = some conversation.resourceId

/-- The one edit there is: a new revision of one's own post. -/
def Edited (store : Store) (act : Act) (conversation : Conversation) (old row : Resource) : Prop :=
  ∃ caller id revision other,
    act = .operation (.postEdit caller id revision other) ∧
      row = (Change.postEdit revision).apply old ∧ old.type = "post" ∧
      caller.context.principal.subject = some old.owner ∧ Admitted store caller conversation

/-- What one step leaves of the direct conversations. -/
structure Consented (store : Store) (act : Act) (next : Store) : Prop where
  single : ∀ left ∈ next.conversations.rows, ∀ right ∈ next.conversations.rows,
    ({left.participantA, left.participantB} : Set String) =
      {right.participantA, right.participantB} → left = right
  parties : ∀ conversation ∈ next.conversations.rows,
    participates conversation (some conversation.initiator)
  kept : ∀ conversation ∈ store.conversations.rows,
    conversation ∈ next.conversations.rows ∨
      (∃ request, act = .operation (.dmAccept request) ∧ Decided store request conversation ∧
        { conversation with state := .active } ∈ next.conversations.rows) ∨
      ∃ request, act = .operation (.dmReject request) ∧ Decided store request conversation ∧
        { conversation with state := .rejected } ∈ next.conversations.rows
  opened : ∀ conversation ∈ next.conversations.rows,
    store.conversations.find? conversation.pair = none → conversation.state = .pending
  created : ∀ conversation ∈ next.conversations.rows, ∀ row ∈ next.resources.rows,
    Below app next row conversation.resourceId →
      (∃ old ∈ store.resources.rows, old.id = row.id ∧
        Below app store old conversation.resourceId) ∨
      Introduced store act conversation row ∨ Sent store act conversation row
  edited : ∀ conversation ∈ store.conversations.rows, ∀ old ∈ store.resources.rows,
    Below app store old conversation.resourceId → ∀ row ∈ next.resources.rows,
      row.id = old.id → row = old ∨ Edited store act conversation old row

end MsgServer.Consent
