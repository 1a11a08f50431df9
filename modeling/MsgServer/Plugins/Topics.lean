import MsgServer.Core.Models

/-!
Topic governance of plugins/content.py: the members, bans and policies of topics and the
operations that change them. What the other tables decide (does the resource exist, is it
an active topic, may the subject run the operation and read the topic) is an outcome that
comes with the request. Events, notices and the generation of the topic are left out.
-/

namespace MsgServer.Topics

open Library

inductive Role where
  | admin | member
  deriving DecidableEq

inductive Status where
  | active | pending | invited | left | removed
  deriving DecidableEq

inductive Policy where
  | «open» | approval | invite | closed
  deriving DecidableEq

inductive BanStatus where
  | active | lifted
  deriving DecidableEq

/-- The schema lets an empty text through, which is stored and then cannot be parsed. -/
inductive Expiry where
  | never | time (instant : Nat) | blank
  deriving DecidableEq

/-- A row of topic_memberships. -/
structure Member where
  topic : String
  subject : String
  role : Role
  status : Status
  joinedAt : Option Nat
  invitedBy : Option String
  deriving DecidableEq

def Member.key (row : Member) : String × String := (row.topic, row.subject)

/-- A row of topic_bans. -/
structure Ban where
  topic : String
  subject : String
  actor : Option String
  createdAt : Nat
  expiresAt : Expiry
  reason : Option String
  status : BanStatus
  deriving DecidableEq

def Ban.key (row : Ban) : String × String := (row.topic, row.subject)

structure Setting where
  topic : String
  membershipPolicy : Policy
  deriving DecidableEq

/-- A resource of the type topic; `wiki` is `in_wiki`. -/
structure Topic where
  id : String
  wiki : Bool
  deriving DecidableEq

structure State where
  topics : Table Topic.id
  settings : Table Setting.topic
  members : Table Member.key
  bans : Table Ban.key

def State.empty : State := ⟨Table.empty, Table.empty, Table.empty, Table.empty⟩

/-- `resource` and `access` are the checks of `governed_topic` on other tables, before and
after those made here; `known` is `tx.subject`. -/
structure Context where
  principal : Principal
  now : Nat
  resource : Except Failure Unit
  access : Except Failure Unit
  known : String → Except Failure Unit

/-! Membership helpers. -/

def topicMember (state : State) (topic subject : String) : Option Member :=
  state.members.find? (topic, subject)

def isAdmin (row : Member) : Bool := row.role == .admin && row.status == .active

/-- `is_admin`: root is a permanent local administrator. -/
def topicAdmin (state : State) (topic subject : String) : Bool :=
  subject == rootSubject || (topicMember state topic subject).any isAdmin

def adminCount (state : State) (topic : String) : Nat :=
  state.members.rows.countP fun row => row.topic == topic && isAdmin row

def unexpired (now : Nat) : Expiry → Except Failure Bool
  | .never => .ok true
  | .time instant => .ok (decide (now < instant))
  | .blank => .error { code := "invalid_datetime" }

def activeTopicBan (state : State) (topic subject : String) (now : Nat) : Except Failure Bool :=
  match (state.bans.find? (topic, subject)).filter fun row => row.status == .active with
  | some row => unexpired now row.expiresAt
  | none => .ok false

def requireUnbanned (state : State) (topic subject : String) (now : Nat) : Except Failure Unit := do
  let banned ← activeTopicBan state topic subject now
  require (banned = false) "topic_banned"

def requireOtherAdmin (state : State) (topic : String) : Except Failure Unit :=
  require (1 < adminCount state topic) "last_topic_admin"

/-- The governance operations among those that `protect_wiki` refuses. -/
def wikiProtected : List String :=
  ["content.topic_policy_set", "content.topic_remove", "content.topic_promote",
    "content.topic_demote", "content.topic_ban", "content.topic_unban", "content.topic_invite",
    "content.topic_approve"]

def protectWiki (state : State) (context : Context) (operation topic : String) :
    Except Failure Unit :=
  require (context.principal.subject = some rootSubject ∨ operation ∉ wikiProtected ∨
    (state.topics.find? topic).all fun row => !row.wiki) "wiki_shared_resource"

/-- `governed_topic`, with the subject that acts. -/
def governedTopic (state : State) (context : Context) (operation topic : String) :
    Except Failure String := do
  context.resource
  let _ ← requireRow (state.topics.find? topic) "not_found"
  protectWiki state context operation topic
  let subject ← requireRow context.principal.subject "topic_subject_required"
  require (context.principal.actor = some subject) "topic_subject_required"
  context.access
  return subject

def administeredTopic (state : State) (context : Context) (operation topic : String) :
    Except Failure String := do
  let subject ← governedTopic state context operation topic
  require (topicAdmin state topic subject = true) "topic_admin_required"
  return subject

def insertMember (state : State) (row : Member) : Except Failure State := do
  let members ← insertRow state.members row
  return { state with members := members }

def updateMember (state : State) (topic subject : String) (change : Member → Member) : State :=
  { state with members := state.members.modify (topic, subject) change }

/-! Creating a topic. -/

/-- The INSERT of a topic; the id is fresh. -/
def createTopic (state : State) (row : Topic) : Except Failure State := do
  let topics ← insertRow state.topics row
  return { state with topics := topics }

def founder (row : Topic) (subject : String) (now : Nat) : Member :=
  ⟨row.id, subject, if row.wiki then .member else .admin, .active, some now, none⟩

/-- content.topic_create past `create_resource`. -/
def topicCreate (state : State) (context : Context) (row : Topic) : Except Failure State := do
  context.access
  let subject ← requireRow context.principal.subject "constraint_conflict"
  let created ← createTopic state row
  let settings ← insertRow created.settings ⟨row.id, .open⟩
  insertMember { created with settings := settings } (founder row subject context.now)

/-- bootstrap.py gives root the topics of an installation; t_wiki is the wiki. -/
def installTopic (state : State) (id : String) : State :=
  match createTopic state ⟨id, id == "t_wiki"⟩ with
  | .error _ => state
  | .ok created =>
      { created with
        settings := created.settings.put ⟨id, .open⟩
        members := created.members.put (founder ⟨id, id == "t_wiki"⟩ rootSubject 0) }

def installed (ids : List String) : State := ids.foldl installTopic State.empty

/-- What plugins/communication.py and others do when they create a folder of the type topic. -/
def createFolder (state : State) (context : Context) (row : Topic) : Except Failure State := do
  context.access
  createTopic state row

/-! Joining and leaving. -/

def membershipPolicy (state : State) (topic : String) : Policy :=
  ((state.settings.find? topic).map Setting.membershipPolicy).getD .open

def invitedRow (previous : Option Member) : Bool := previous.any fun row => row.status == .invited

def joinStatus (policy : Policy) (previous : Option Member) : Status :=
  if policy = .approval ∧ invitedRow previous = false then .pending else .active

def joinedAt (status : Status) (now : Nat) : Option Nat :=
  if status = .active then some now else none

def enroll (state : State) (topic subject : String) (status : Status) (now : Nat) :
    Option Member → Except Failure State
  | none => insertMember state ⟨topic, subject, .member, status, joinedAt status now, none⟩
  | some _ => .ok (updateMember state topic subject fun row =>
      { row with role := .member, status := status, joinedAt := joinedAt status now })

def topicJoin (state : State) (context : Context) (topic : String) : Except Failure State := do
  let subject ← governedTopic state context "content.topic_join" topic
  requireUnbanned state topic subject context.now
  let previous := topicMember state topic subject
  require (∀ row ∈ previous, row.status ≠ .active ∧ row.status ≠ .pending) "already_topic_member"
  let policy := membershipPolicy state topic
  require (policy = .open ∨ policy = .approval ∨ policy = .invite ∧ invitedRow previous = true)
    "topic_join_closed"
  enroll state topic subject (joinStatus policy previous) context.now previous

def guardLast (state : State) (topic : String) (row : Member) : Except Failure Unit :=
  if isAdmin row = true then requireOtherAdmin state topic else .ok ()

def topicLeave (state : State) (context : Context) (topic : String) : Except Failure State := do
  let subject ← governedTopic state context "content.topic_leave" topic
  let previous ← requireRow ((topicMember state topic subject).filter fun row =>
    row.status == .active || row.status == .pending || row.status == .invited) "not_topic_member"
  guardLast state topic previous
  return updateMember state topic subject fun row => { row with role := .member, status := .left }

/-! Inviting and approving. -/

def inviteRow (state : State) (topic target : String) (inviter : String) :
    Option Member → Except Failure State
  | none => insertMember state ⟨topic, target, .member, .invited, none, some inviter⟩
  | some _ => .ok (updateMember state topic target fun row =>
      { row with role := .member, status := .invited, joinedAt := none, invitedBy := some inviter })

def topicInvite (state : State) (context : Context) (topic target : String) :
    Except Failure State := do
  let subject ← administeredTopic state context "content.topic_invite" topic
  context.known target
  requireUnbanned state topic target context.now
  let prior := topicMember state topic target
  require (∀ row ∈ prior, row.status ≠ .active ∧ row.status ≠ .pending ∧ row.status ≠ .invited)
    "already_topic_member"
  inviteRow state topic target subject prior

def topicApprove (state : State) (context : Context) (topic target : String) :
    Except Failure State := do
  let _ ← administeredTopic state context "content.topic_approve" topic
  let _ ← requireRow ((topicMember state topic target).filter fun row => row.status == .pending)
    "topic_request_not_pending"
  requireUnbanned state topic target context.now
  return updateMember state topic target fun row =>
    { row with status := .active, joinedAt := some context.now }

/-! Removing, promoting and demoting. -/

inductive MemberAction where
  | remove | promote | demote
  deriving DecidableEq

def MemberAction.operation : MemberAction → String
  | .remove => "content.topic_remove"
  | .promote => "content.topic_promote"
  | .demote => "content.topic_demote"

def changeRole (state : State) (topic target : String) (previous : Member) (role : Role) :
    Except Failure State := do
  require (previous.role ≠ role) "topic_role_unchanged"
  return updateMember state topic target fun row => { row with role := role }

def applyAction (state : State) (topic target : String) (previous : Member) :
    MemberAction → Except Failure State
  | .remove => .ok (updateMember state topic target fun row =>
      { row with role := .member, status := .removed })
  | .promote => changeRole state topic target previous .admin
  | .demote => changeRole state topic target previous .member

def guardAction (state : State) (topic : String) (previous : Member) (action : MemberAction) :
    Except Failure Unit :=
  if (action = .remove ∨ action = .demote) ∧ previous.role = .admin then
    requireOtherAdmin state topic
  else .ok ()

/-- `update_membership`. -/
def updateMembership (state : State) (context : Context) (topic target : String)
    (action : MemberAction) : Except Failure State := do
  let _ ← administeredTopic state context action.operation topic
  let previous ← requireRow ((topicMember state topic target).filter fun row =>
    row.status == .active) "not_topic_member"
  guardAction state topic previous action
  applyAction state topic target previous action

/-! Bans and the policy. -/

def checkExpiry (now : Nat) : Expiry → Except Failure Unit
  | .time instant => require (now < instant) "topic_ban_expired"
  | _ => .ok ()

def guardBanned (state : State) (topic : String) (previous : Option Member) :
    Except Failure Unit :=
  match previous with
  | some row => guardLast state topic row
  | none => .ok ()

def expelled (row : Member) : Member := { row with role := .member, status := .removed }

def topicBan (state : State) (context : Context) (topic target : String) (expires : Expiry)
    (reason : Option String) : Except Failure State := do
  let subject ← administeredTopic state context "content.topic_ban" topic
  context.known target
  guardBanned state topic (topicMember state topic target)
  checkExpiry context.now expires
  let bans := state.bans.put ⟨topic, target, some subject, context.now, expires, reason, .active⟩
  return updateMember { state with bans := bans } topic target expelled

def topicUnban (state : State) (context : Context) (topic target : String) :
    Except Failure State := do
  let _ ← administeredTopic state context "content.topic_unban" topic
  let _ ← requireRow ((state.bans.find? (topic, target)).filter fun row => row.status == .active)
    "topic_ban_not_found"
  return { state with
    bans := state.bans.modify (topic, target) fun row => { row with status := .lifted } }

def topicPolicySet (state : State) (context : Context) (topic : String) (policy : Policy) :
    Except Failure State := do
  let _ ← administeredTopic state context "content.topic_policy_set" topic
  return { state with settings := state.settings.put ⟨topic, policy⟩ }

/-! The requests. -/

inductive Act where
  | create (row : Topic)
  | folder (row : Topic)
  | join (topic : String)
  | leave (topic : String)
  | invite (topic target : String)
  | approve (topic target : String)
  | update (topic target : String) (action : MemberAction)
  | ban (topic target : String) (expires : Expiry) (reason : Option String)
  | unban (topic target : String)
  | policySet (topic : String) (policy : Policy)

def perform (context : Context) (state : State) : Act → Except Failure State
  | .create row => topicCreate state context row
  | .folder row => createFolder state context row
  | .join topic => topicJoin state context topic
  | .leave topic => topicLeave state context topic
  | .invite topic target => topicInvite state context topic target
  | .approve topic target => topicApprove state context topic target
  | .update topic target action => updateMembership state context topic target action
  | .ban topic target expires reason => topicBan state context topic target expires reason
  | .unban topic target => topicUnban state context topic target
  | .policySet topic policy => topicPolicySet state context topic policy

/-- One request in a transaction of its own. -/
def step (request : Context × Act) (state : State) : State :=
  match perform request.1 state request.2 with
  | .ok next => next
  | .error _ => state

end MsgServer.Topics
