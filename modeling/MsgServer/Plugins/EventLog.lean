import MsgServer.Library.Feed
import MsgServer.Security.Authorization

/-!
The committed event log and what the feeds over it read: who watches what, the memberships of
topics, the checkpoints of synchronisation and the signed cursors of core/cursors.py. A cursor
is its content, since no text carries the server's tag that the server did not make; a seen
list is sealed together with the context that opens it. Instants are in seconds.
-/

namespace MsgServer.EventLog

open Library Session Authorization

structure Event where
  id : String
  type : String
  time : Nat
  requestId : String
  actor : Option String
  subject : Option String
  resources : List ResourceRef
  data : List (String × Atom)
  deriving DecidableEq

/-- A row of topic_memberships. -/
structure TopicRow where
  topic : String
  subject : String
  role : String
  status : String
  deriving DecidableEq

/-- The query an events cursor is bound to. -/
structure EventsBinding where
  actor : Option String
  subject : Option String
  credentialId : Option String
  certificates : List String
  resource : Option String
  deriving DecidableEq

structure EventsPosition where
  seq : Nat
  authority : String
  expiresAt : Nat
  deriving DecidableEq

structure ChangesPosition where
  seq : Nat
  authorizationEpoch : Nat
  watchDigest : String
  deriving DecidableEq

structure SeenContext where
  subject : String
  seq : Nat
  expiresAt : Nat
  deriving DecidableEq

/-- A seen list under authenticated encryption. -/
structure SealedSeen where
  context : SeenContext
  seen : List String
  deriving DecidableEq

structure SyncPrincipal where
  actor : Option String
  subject : Option String
  credentialId : Option String
  deriving DecidableEq

structure SyncPosition where
  seq : Nat
  seenCiphertext : SealedSeen
  principal : SyncPrincipal
  watchDigest : String
  authorizationEpoch : Nat
  topicMembershipDigest : String
  expiresAt : Nat
  deriving DecidableEq

structure CheckpointPosition where
  id : String
  version : Nat
  deriving DecidableEq

inductive ChangeKind where
  | archived | created | modified
  deriving DecidableEq

inductive SyncItem where
  | revoked (id : String)
  | change (seq : Nat) (kind : ChangeKind) (eventType : String) (ref : ResourceRef)
  deriving DecidableEq

/-- The body of a checkpoint. -/
structure SyncState where
  seq : Nat
  seen : List String
  watchDigest : String
  authorizationEpoch : Nat
  topicMembershipDigest : String
  deriving DecidableEq

/-- `digest` of what a page of a checkpoint shows; it stands for just that, since two different
contents are taken to have different digests. -/
structure DeltaDigest where
  items : List SyncItem
  state : SyncState
  stale : Bool
  deriving DecidableEq

structure AckPosition where
  id : String
  version : Nat
  limit : Nat
  digest : DeltaDigest
  deriving DecidableEq

/-- What a cursor carries: its kind, the query it belongs to and its position. -/
inductive Token where
  | events (query : EventsBinding) (position : EventsPosition)
  | sync (query : String) (position : ChangesPosition)
  | syncV2 (query : String) (position : SyncPosition)
  | checkpoint (query : String) (position : CheckpointPosition)
  | checkpointAck (query : String) (position : AckPosition)
  | other (kind : String)
  deriving DecidableEq

structure CheckpointRow where
  id : String
  subject : String
  credentialId : Option String
  version : Nat
  expiresAt : Nat
  body : SyncState
  deriving DecidableEq

/-- `core` holds the other tables; its memberships of topics are those of `topics`. -/
structure Database where
  core : Store
  topics : List TopicRow
  watches : List (String × String)
  authorizationEpoch : Nat
  syncFloor : Nat
  events : Feed.Log Event
  checkpoints : Table CheckpointRow.id

def TopicRow.membership (row : TopicRow) : TopicMembership where
  topic := row.topic
  subject := row.subject
  admin := row.role == "admin"
  active := row.status == "active"

def Database.store (db : Database) : Store :=
  { db.core with topicMemberships := db.topics.map TopicRow.membership }

/-- The installation: the digests, the texts of addresses and lengths that the feeds use. -/
structure Deployment extends App where
  resolveScope : Store → String → Except Failure String
  eventsDigest : Nat → List String → List (String × String) → String
  watchDigest : List String → String
  topicDigest : List (String × String × String) → String
  tokenLength : Token → Nat
  seenBytes : List String → Nat
  maxPathBytes : Nat

/-- Who reads, and the clock of the validator. -/
structure Reader where
  context : Context
  clock : Nat
  deriving DecidableEq

variable (app : Deployment) (db : Database) (reader : Reader)

/-- A cursor argument: there is none, or there is one that may carry no valid tag. -/
abbrev Presented := Option (Option Token)

/-- `CursorCodec.inspect`. -/
def inspect (text : Option Token) : Except Failure Token := do
  let token ← requireRow text "invalid_cursor"
  require (app.tokenLength token ≤ 8192) "invalid_cursor"
  return token

def subjectOf : Except Failure String :=
  requireRow reader.context.principal.subject "authentication_required"

def sorted (ids : List String) : List String := ids.mergeSort fun first second => first ≤ second

/-- `SELECT resource FROM watches WHERE subject=?`. -/
def watchesOf (subject : String) : List String :=
  (db.watches.filter fun row => row.1 == subject).map Prod.snd

/-- The rows of topic_memberships of one subject, in the order of their topics. -/
def topicsOf (subject : String) : List TopicRow :=
  (db.topics.filter fun row => row.subject == subject).mergeSort fun first second =>
    first.topic ≤ second.topic

/-- `discovery.visible` for one of the feeds. -/
def visible (operation id : String) : Except Failure Bool :=
  Authorization.visible app.toApp db.store reader.clock reader.context none operation id

def ancestorIds (id : String) : Except Failure (List String) := do
  let above ← ancestors app.toApp db.store id
  return above.map Resource.id

/-- `direct_ancestor`: the first conversation on the way down from the root. -/
def directAncestor (id : String) : Except Failure (Option Conversation) := do
  let above ← ancestors app.toApp db.store id
  let row ← resource app.toApp db.store id
  return (above ++ [row]).findSome? fun item => directOf db.store item.id

/-- `SELECT participant_a,participant_b`, and whether the subject is one of them. -/
def inConversation (direct : Option Conversation) (subject : String) : Bool :=
  match direct with
  | none => false
  | some direct => subject == direct.participantA || subject == direct.participantB

/-- The elements that pass a test which may fail. -/
def keep {α : Type} (test : α → Except Failure Bool) : List α → Except Failure (List α)
  | [] => .ok []
  | item :: rest => do
      let passes ← test item
      let kept ← keep test rest
      return if passes then item :: kept else kept

theorem keep_ok {α : Type} {test : α → Except Failure Bool} {items kept : List α}
    (answer : α → Bool) (done : keep test items = .ok kept)
    (known : ∀ item ∈ items, ∀ passes, test item = .ok passes → passes = answer item) :
    kept = items.filter answer := by
  induction items generalizing kept with
  | nil =>
      cases done
      rfl
  | cons item rest ih =>
      simp only [keep, Program.except_bind_ok, Program.except_pure, Except.ok.injEq] at done
      obtain ⟨passes, tested, others, followed, rfl⟩ := done
      have same := known item List.mem_cons_self passes tested
      have tail := ih followed fun other inside => known other (List.mem_cons_of_mem _ inside)
      rw [List.filter_cons, ← same, ← tail]

theorem keep_sublist {α : Type} {test : α → Except Failure Bool} {items kept : List α}
    (done : keep test items = .ok kept) : kept.Sublist items := by
  induction items generalizing kept with
  | nil =>
      cases done
      exact List.Sublist.refl _
  | cons item rest ih =>
      simp only [keep, Program.except_bind_ok, Program.except_pure, Except.ok.injEq] at done
      obtain ⟨passes, _, others, followed, rfl⟩ := done
      cases passes with
      | true => exact (ih followed).cons_cons item
      | false => exact (ih followed).cons item

/-- The failures that mean a reference leads nowhere. -/
def absentCodes : List String := ["not_found", "resource_purged", "ancestor_inactive"]

end MsgServer.EventLog
