import MsgServer.Core.Models

/-!
The authority tables of storage/session.py and its readers. A setting is the
typed value its only writer stores; a text that a reader parses as a time is
`none` where it does not parse. Tags, path aliases and revisions are left out, as
is everything about tasks and cursors.
-/

namespace MsgServer.Session

open Library

structure Membership where
  organizationId : String
  subjectId : String
  active : Bool
  deriving DecidableEq

structure MembershipRow where
  org : String
  subject : String
  body : Membership
  deriving DecidableEq

inductive ConversationState where
  | pending | active | rejected
  deriving DecidableEq

structure Conversation where
  pair : String
  resourceId : String
  participantA : String
  participantB : String
  initiator : String
  state : ConversationState
  deriving DecidableEq

structure TopicBan where
  topic : String
  subject : String
  active : Bool
  expiresAt : Option Nat
  deriving DecidableEq

structure TopicMembership where
  topic : String
  subject : String
  admin : Bool
  active : Bool
  deriving DecidableEq

structure ShareGrant where
  resourceId : String
  grantor : String
  grantee : String
  expiresAt : Option Nat
  createdAt : Option Nat
  revokedAt : Option Nat
  deriving DecidableEq

inductive GranteeKind where
  | user | group | other
  deriving DecidableEq

structure ShareGrantV2 where
  id : String
  resourceId : String
  grantor : String
  grantee : String
  granteeKind : GranteeKind
  parentId : Option String
  operations : List String
  constraints : List (String × Constraint)
  allowReshare : Bool
  expiresAt : Option Nat
  createdAt : Option Nat
  revokedAt : Option Nat
  deriving DecidableEq

structure DelegationFact where
  grantor : String
  grantee : String
  grants : List CapabilityGrant
  expiresAt : Nat
  grantorCredentialId : Option String
  parentCertificate : Option String
  deriving DecidableEq

structure ToolOutput where
  subject : String
  toolId : String
  deriving DecidableEq

structure Csr where
  resourceId : String
  requestedIssuer : String
  deriving DecidableEq

structure Store where
  resources : Table Resource.id
  subjects : Table Subject.resourceId
  organizations : List String
  credentials : Table Credential.id
  certificates : Table Certificate.resourceId
  revokedCertificates : List String
  memberships : List MembershipRow
  conversations : Table Conversation.pair
  dmBlocks : List (String × String)
  topicBans : List TopicBan
  topicMemberships : List TopicMembership
  shareGrants : List ShareGrant
  shareGrantsV2 : List ShareGrantV2
  csrs : List Csr
  delegations : List (String × DelegationFact)
  certificateRequests : List (String × String)
  identityArchived : List String
  hostingPreviews : List (String × String)
  hostingPreviewFiles : List (String × String)
  toolOutputs : List (String × ToolOutput)
  quarantined : Bool
  runtimeCurrent : Bool

def Store.empty : Store where
  resources := Table.empty
  subjects := Table.empty
  organizations := []
  credentials := Table.empty
  certificates := Table.empty
  revokedCertificates := []
  memberships := []
  conversations := Table.empty
  dmBlocks := []
  topicBans := []
  topicMemberships := []
  shareGrants := []
  shareGrantsV2 := []
  csrs := []
  delegations := []
  certificateRequests := []
  identityArchived := []
  hostingPreviews := []
  hostingPreviewFiles := []
  toolOutputs := []
  quarantined := false
  runtimeCurrent := true

def setting {α : Type} (entries : List (String × α)) (key : String) : Option α :=
  (entries.find? fun entry => entry.1 == key).map Prod.snd

variable (app : App) (store : Store)

/-- A bare hex id names the one resource whose public reference it is. -/
def resource (id : String) : Except Failure Resource :=
  if app.isHexId id then
    match store.resources.rows.filter fun row => app.hexReference row.id == id with
    | [] => .error { code := "not_found" }
    | [row] => .ok row
    | _ => .error { code := "ambiguous_resource_id" }
  else requireRow (store.resources.find? id) "not_found"

/-- The loop of `ancestors`. Every turn marks one more row, so the number of rows
bounds the turns and the last equation is never reached from `ancestors`. -/
def climb : Nat → List String → Resource → List Resource → Except Failure (List Resource)
  | turns, seen, current, result =>
      match current.parent with
      | none => .ok result
      | some parent =>
          if current.id ∈ seen then .error { code := "parent_cycle" }
          else match turns with
            | 0 => .error { code := "parent_cycle" }
            | turns + 1 => do
                let next ← resource app store parent
                climb turns (current.id :: seen) next (next :: result)

def ancestors (id : String) : Except Failure (List Resource) := do
  let row ← resource app store id
  climb app store (store.resources.rows.length + 1) [] row []

def subject (id : String) : Except Failure Subject :=
  requireRow (store.subjects.find? id) "subject_not_found"

def organization (id : String) : Except Failure Unit :=
  require (id ∈ store.organizations) "group_not_found"

def credential (id : Option String) : Except Failure Credential :=
  requireRow (id.bind store.credentials.find?) "credential_not_found"

def certificate (id : String) : Except Failure Certificate :=
  requireRow (store.certificates.find? id) "certificate_not_found"

def certificateRevoked (id : String) : Except Failure Bool := do
  let _ ← certificate store id
  return decide (id ∈ store.revokedCertificates)

def csr (id : String) : Except Failure Csr :=
  requireRow (store.csrs.find? fun row => row.resourceId == id) "csr_not_found"

def publicGroup : String := "g_public"

def activeOrganization (id : String) : Bool :=
  match store.resources.find? id with
  | some row => row.type == "organization" && row.state == .active
  | none => false

/-- Stored rows that still mean something: the organization is live and the row
agrees with the body it carries. -/
def storedMemberships (member : String) : List String :=
  (store.memberships.filter fun row =>
    row.subject == member && activeOrganization store row.org && row.body.active &&
      row.body.organizationId == row.org && row.body.subjectId == member &&
      row.org != publicGroup).map MembershipRow.org

def formal (row : Subject) : Bool :=
  (row.kind == .registered || row.kind == .custodial || row.kind == .system) && !row.localOnly

def memberships (member : Option String) : List String :=
  match member with
  | none => []
  | some member =>
      match store.subjects.find? member with
      | some row => if formal row then publicGroup :: storedMemberships store member
          else storedMemberships store member
      | none => storedMemberships store member

def quarantineActive : Bool := store.quarantined

/-- `RuntimeGeneration.require_current` and `require_live_authority`. -/
def requireCurrent : Except Failure Unit :=
  require (store.runtimeCurrent = true) "recovery_runtime_stale"

def requireLiveAuthority : Except Failure Unit :=
  require (quarantineActive store = false) "recovery_quarantined"

end MsgServer.Session
