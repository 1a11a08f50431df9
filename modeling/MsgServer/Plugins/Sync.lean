import MsgServer.Plugins.Events

/-!
Synchronisation of plugins/communication.py: the inline page, which carries the seen list in
its cursor, and the checkpoint, which keeps it in a row that an acknowledged page replaces. A
request reads one state of the database.
-/

namespace MsgServer.EventLog

open Library Session Authorization

variable (app : Deployment) (db : Database) (reader : Reader)

def syncOperation : String := "communication.sync@1"

/-- `can_read`. -/
def canRead (id : String) : Except Failure Bool := do
  let answer ← catches absentCodes (visible app db reader syncOperation id)
  return answer.getD false

/-! The scan of the events, which the two paths have in common up to the bound on the seen list. -/

def changeKind (type : String) : ChangeKind :=
  if type ∈ ["content.archive", "content.purge"] then .archived
  else if type ∈ ["content.post_create", "content.topic_create", "discussion.reply",
      "discussion.quote"] then .created
  else .modified

def syncRelevant (subject : String) (event : Event) (ref : ResourceRef) : Except Failure Bool :=
  if event.subject = some subject ∨ ref.id ∈ watchesOf db subject then .ok true
  else do
    let above ← ancestorIds app db ref.id
    if ∃ id ∈ above, id ∈ watchesOf db subject then return true
    else do
      let direct ← directAncestor app db ref.id
      return inConversation direct subject

def syncPermitted (subject : String) (event : Event) (ref : ResourceRef) : Except Failure Bool := do
  let shown ← canRead app db reader ref.id
  if shown then syncRelevant app db subject event ref else return false

def candidates (subject : String) (entry : Nat × Event) : Except Failure (List SyncItem) := do
  let refs ← keep (syncPermitted app db reader subject entry.2) entry.2.resources
  return refs.map fun ref => .change entry.1 (changeKind entry.2.type) entry.2.type ref

/-- What the loops carry: the items of the page, the seen list and how many rows were scanned. -/
structure Progress where
  items : List SyncItem
  seen : List String
  scanned : Nat
  deriving DecidableEq

/-- The references of one event join the seen list. -/
def addSeen (bound : Nat) : List SyncItem → List String → Except Failure (List String)
  | [], seen => .ok seen
  | .revoked _ :: rest, seen => addSeen bound rest seen
  | .change _ _ _ ref :: rest, seen =>
      if ref.id ∈ seen then addSeen bound rest seen
      else do
        require (seen.length < bound) "resync_required"
        addSeen bound rest (seen ++ [ref.id])

/-- One row: an event that does not fit on the page is left for the next one as a whole. -/
def syncTurn (bound limit : Nat) (subject : String) (entry : Nat × Event) (state : Progress) :
    Except Failure (Feed.Turn Progress) := do
  require (state.scanned + 1 ≤ 5000) "resync_required"
  let found ← candidates app db reader subject entry
  require (found.length ≤ limit) "resync_required"
  if limit < state.items.length + found.length then return .defer
  else do
    let seen ← addSeen bound found state.seen
    return .more ⟨state.items ++ found, seen, state.scanned + 1⟩

def syncScan (bound limit : Nat) (subject : String) (seq : Nat) (state : Progress) :
    Except Failure (Nat × Progress) :=
  Feed.scan (syncTurn app db reader bound limit subject) (Feed.after seq db.events) seq state

def Progress.revoke (state : Progress) (id : String) : Progress :=
  { state with items := state.items ++ [.revoked id], seen := state.seen.erase id }

/-! The inline page. -/

/-- The loop over the seen references: the test of the limit stands before the item. -/
def inlineRevoke (limit : Nat) : List String → Progress → Except Failure Progress
  | [], state => .ok state
  | id :: rest, state => do
      let shown ← canRead app db reader id
      if shown then inlineRevoke limit rest state
      else if state.items.length = limit then return state
      else inlineRevoke limit rest (state.revoke id)

def inlineDelta (subject : String) (limit seq : Nat) (seen : List String) :
    Except Failure (Nat × Progress) := do
  let revoked ← inlineRevoke app db reader limit seen ⟨[], seen, 0⟩
  if revoked.items.length < limit then syncScan app db reader 64 limit subject seq revoked
  else return (seq, revoked)

structure SyncRequest where
  cursor : Presented
  limit : Option Nat
  deriving DecidableEq

inductive SyncAnswer where
  | page (items : List SyncItem) (cursor : Token)
  | resync (items : List SyncItem)
  | checkpoint (items : List SyncItem) (cursor ack : Token) (stale : Bool)
  deriving DecidableEq

def syncPrincipal : SyncPrincipal where
  actor := reader.context.principal.actor
  subject := reader.context.principal.subject
  credentialId := reader.context.principal.credentialId

def watchHash (subject : String) : String := app.watchDigest (sorted (watchesOf db subject))

def topicHash (subject : String) : String :=
  app.topicDigest ((topicsOf db subject).map fun row => (row.topic, row.role, row.status))

/-- `open_sync_seen`. -/
def openSyncSeen (sealedSeen : SealedSeen) (context : SeenContext) : Except Failure (List String) := do
  require (sealedSeen.context = context) "invalid_cursor"
  require (sealedSeen.seen.length ≤ 64 ∧ (∀ id ∈ sealedSeen.seen, id.length ≤ 160) ∧
    sealedSeen.seen.Nodup) "resync_required"
  return sealedSeen.seen

/-- `seal_sync_seen`. -/
def sealSyncSeen (seen : List String) (context : SeenContext) : Except Failure SealedSeen := do
  require (seen.length ≤ 64) "resync_required"
  require (app.seenBytes seen ≤ 4096) "resync_required"
  return ⟨context, seen⟩

/-- Where an inline page starts, with the part of its cursor that decides whether it is stale. -/
structure SyncStart where
  seq : Nat
  seen : List String
  expiresAt : Nat
  authorizationEpoch : Nat
  topicMembershipDigest : String
  deriving DecidableEq

def firstStart (subject : String) : SyncStart where
  seq := db.syncFloor
  seen := []
  expiresAt := (reader.context.now / 60 + 15) * 60
  authorizationEpoch := db.authorizationEpoch
  topicMembershipDigest := topicHash app db subject

def inlineStart (subject : String) (cursor : Presented) : Except Failure SyncStart :=
  match cursor with
  | none => .ok (firstStart app db reader subject)
  | some text => do
      let token ← inspect app text
      match token with
      | .syncV2 query position =>
          require (query = subject) "cursor_principal_mismatch"
          require (position.principal = syncPrincipal reader) "cursor_principal_mismatch"
          require (position.watchDigest = watchHash app db subject) "resync_required"
          require (reader.context.now < position.expiresAt) "resync_required"
          require (db.syncFloor ≤ position.seq) "resync_required"
          let seen ← openSyncSeen position.seenCiphertext ⟨subject, position.seq, position.expiresAt⟩
          return ⟨position.seq, seen, position.expiresAt, position.authorizationEpoch,
            position.topicMembershipDigest⟩
      | _ => .error { code := "cursor_kind_mismatch" }

/-- After a change of authority the known losses may be reported, and nothing else. -/
def inlineStale (limit : Nat) (seen : List String) : Except Failure SyncAnswer := do
  let lost ← keep (fun id => (canRead app db reader id).map not) seen
  require (lost ≠ []) "resync_required"
  return .resync ((lost.map SyncItem.revoked).take limit)

def inlineToken (subject : String) (start : SyncStart) (seq : Nat) (sealedSeen : SealedSeen) : Token :=
  .syncV2 subject {
    seq := seq
    seenCiphertext := sealedSeen
    principal := syncPrincipal reader
    watchDigest := watchHash app db subject
    authorizationEpoch := db.authorizationEpoch
    topicMembershipDigest := topicHash app db subject
    expiresAt := start.expiresAt }

def inlinePage (subject : String) (limit : Nat) (start : SyncStart) : Except Failure SyncAnswer := do
  let (seq, state) ← inlineDelta app db reader subject limit start.seq start.seen
  let sealedSeen ← sealSyncSeen app state.seen ⟨subject, seq, start.expiresAt⟩
  let token := inlineToken app db reader subject start seq sealedSeen
  require ("/_r/s/".length + app.tokenLength token ≤ min 8192 app.maxPathBytes) "resync_required"
  return .page state.items token

def inlineSync (subject : String) (request : SyncRequest) : Except Failure SyncAnswer := do
  let start ← inlineStart app db reader subject request.cursor
  if start.authorizationEpoch ≠ db.authorizationEpoch ∨
      start.topicMembershipDigest ≠ topicHash app db subject then
    inlineStale app db reader (request.limit.getD 50) start.seen
  else inlinePage app db reader subject (request.limit.getD 50) start

/-! Checkpoints. -/

/-- The loop over the seen references: the test of the limit stands after the item. -/
def checkpointRevoke (limit : Nat) : List String → Progress → Except Failure Progress
  | [], state => .ok state
  | id :: rest, state => do
      let shown ← canRead app db reader id
      if shown then checkpointRevoke limit rest state
      else if limit ≤ (state.revoke id).items.length then return state.revoke id
      else checkpointRevoke limit rest (state.revoke id)

/-- What a page of a checkpoint shows and would make of the checkpoint. -/
structure Delta where
  items : List SyncItem
  updated : SyncState
  stale : Bool
  deriving DecidableEq

def staleFor (subject : String) (body : SyncState) : Bool :=
  decide (body.authorizationEpoch ≠ db.authorizationEpoch ∨
    body.topicMembershipDigest ≠ topicHash app db subject)

def SyncState.moved (body : SyncState) (seq : Nat) (seen : List String) : SyncState :=
  { body with seq := seq, seen := seen }

/-- The events after the losses, unless the checkpoint is stale or the page is full. -/
def checkpointEvents (subject : String) (limit : Nat) (body : SyncState) (revoked : Progress) :
    Except Failure (Nat × Progress) :=
  if staleFor app db subject body then do
    require (revoked.items ≠ []) "resync_required"
    return (body.seq, revoked)
  else if revoked.items.length < limit then
    syncScan app db reader 10000 limit subject body.seq revoked
  else return (body.seq, revoked)

/-- `checkpoint_delta`. -/
def checkpointDelta (subject : String) (body : SyncState) (limit : Nat) : Except Failure Delta := do
  require (body.watchDigest = watchHash app db subject) "resync_required"
  let revoked ← checkpointRevoke app db reader limit body.seen ⟨[], body.seen, 0⟩
  let (seq, state) ← checkpointEvents app db reader subject limit body revoked
  return ⟨state.items, body.moved seq state.seen, staleFor app db subject body⟩

def checkpointToken (subject id : String) (version : Nat) : Token := .checkpoint subject ⟨id, version⟩

/-- `sync_checkpoint_record`. -/
def checkpointRecord (subject : String) (text : Option Token) : Except Failure CheckpointRow := do
  let token ← inspect app text
  match token with
  | .checkpoint query position =>
      require (query = subject) "cursor_principal_mismatch"
      let row ← requireRow (db.checkpoints.find? position.id) "resync_required"
      require (row.subject = subject ∧ row.credentialId = reader.context.principal.credentialId ∧
        reader.context.principal.actor = some subject ∧
        reader.context.principal.method = .signature) "cursor_principal_mismatch"
      require (row.version = position.version) "checkpoint_conflict"
      require (reader.context.now < row.expiresAt) "resync_required"
      require (row.body.seen.length ≤ 10000 ∧ row.body.seen.Nodup ∧
        ∀ id ∈ row.body.seen, id.length ≤ 160) "resync_required"
      require (db.syncFloor ≤ row.body.seq) "resync_required"
      return row
  | _ => .error { code := "cursor_kind_mismatch" }

/-- The token by which the client acknowledges just this delta. -/
def ackToken (subject : String) (row : CheckpointRow) (limit : Nat) (delta : Delta) : Token :=
  .checkpointAck subject ⟨row.id, row.version, limit, ⟨delta.items, delta.updated, delta.stale⟩⟩

def checkpointSync (subject : String) (token : Token) (limit : Nat) : Except Failure SyncAnswer := do
  let row ← checkpointRecord app db reader subject (some token)
  let delta ← checkpointDelta app db reader subject row.body limit
  return .checkpoint delta.items token (ackToken subject row limit delta) delta.stale

/-- `sync`. -/
def sync (request : SyncRequest) : Except Failure SyncAnswer := do
  let subject ← subjectOf reader
  requireBase app.toApp db.store reader.clock reader.context.principal syncOperation subject
  match request.cursor with
  | none => inlineSync app db reader subject request
  | some text => do
      let token ← inspect app text
      match token with
      | .checkpoint _ _ => checkpointSync app db reader subject token (request.limit.getD 50)
      | _ => inlineSync app db reader subject request

/-- `_signed_subject`. -/
def signedSubject : Except Failure String := do
  let subject ← requireRow reader.context.principal.subject "signature_required"
  require (reader.context.principal.actor = some subject ∧
    reader.context.principal.method = .signature) "signature_required"
  return subject

def thirtyDays : Nat := 30 * 24 * 60 * 60

structure Opened where
  cursor : Token
  expiresAt : Nat
  deriving DecidableEq

/-- `sync_checkpoint_open`; `checkpointId` is the new identifier. -/
def syncCheckpointOpen (checkpointId : String) (text : Option Token) :
    Except Failure (Database × Opened) := do
  let subject ← signedSubject reader
  requireBase app.toApp db.store reader.clock reader.context.principal
    "communication.sync_checkpoint_open@1" subject
  let token ← inspect app text
  match token with
  | .syncV2 query position =>
      require (query = subject) "cursor_kind_mismatch"
      require (position.principal = ⟨some subject, some subject,
        reader.context.principal.credentialId⟩) "cursor_principal_mismatch"
      require (position.watchDigest = watchHash app db subject ∧
        position.authorizationEpoch = db.authorizationEpoch ∧
        position.topicMembershipDigest = topicHash app db subject ∧
        reader.context.now < position.expiresAt ∧ db.syncFloor ≤ position.seq) "resync_required"
      let seen ← openSyncSeen position.seenCiphertext ⟨subject, position.seq, position.expiresAt⟩
      let expires := reader.context.now + thirtyDays
      let rows ← insertRow db.checkpoints {
        id := checkpointId
        subject := subject
        credentialId := reader.context.principal.credentialId
        version := 0
        expiresAt := expires
        body := ⟨position.seq, seen, watchHash app db subject, db.authorizationEpoch,
          topicHash app db subject⟩ }
      return ({ db with checkpoints := rows }, ⟨checkpointToken subject checkpointId 0, expires⟩)
  | _ => .error { code := "cursor_kind_mismatch" }

structure Acked where
  cursor : Token
  resyncRequired : Bool
  expiresAt : Nat
  deriving DecidableEq

def CheckpointRow.advance (delta : Delta) (expires : Nat) (row : CheckpointRow) : CheckpointRow :=
  { row with version := row.version + 1, expiresAt := expires, body := delta.updated }

/-- `sync_checkpoint_ack`. -/
def syncCheckpointAck (text : Option Token) : Except Failure (Database × Acked) := do
  let subject ← signedSubject reader
  requireBase app.toApp db.store reader.clock reader.context.principal
    "communication.sync_checkpoint_ack@1" subject
  let token ← inspect app text
  match token with
  | .checkpointAck query position =>
      require (query = subject) "invalid_cursor"
      require (1 ≤ position.limit ∧ position.limit ≤ 100) "invalid_cursor"
      let row ← checkpointRecord app db reader subject
        (some (checkpointToken subject position.id position.version))
      let delta ← checkpointDelta app db reader subject row.body position.limit
      require (⟨delta.items, delta.updated, delta.stale⟩ = position.digest) "checkpoint_stale"
      let expires := reader.context.now + thirtyDays
      return ({ db with checkpoints := db.checkpoints.modify row.id (CheckpointRow.advance delta expires) },
        ⟨checkpointToken subject row.id (row.version + 1), delta.stale, expires⟩)
  | _ => .error { code := "invalid_cursor" }

end MsgServer.EventLog
