import MsgServer.Security.Authorization
import MsgServer.Storage.Paths
import MsgServer.Storage.Tree

/-!
The group.* operations of plugins/identity.py. Their two tables stand beside the
authority tables, which the authorizer reads through `State.view`. An operation
gets its arguments as the request names them and answers with what the handler
puts in its output; a fresh id is an argument. The authorization epoch is left out.
-/

namespace MsgServer.Groups

open Library Session ResourceTree Authorization

inductive MembershipPolicy where
  | «open» | approval | invite | managed
  deriving DecidableEq

inductive Builtin where
  | «public» | admins
  deriving DecidableEq

/-- A body written before there were policies has none and reads as `invite`. -/
structure Organization where
  resourceId : String
  membershipVersion : Nat
  builtin : Option Builtin
  storedPolicy : Option MembershipPolicy
  deriving DecidableEq

def Organization.membershipPolicy (row : Organization) : MembershipPolicy :=
  row.storedPolicy.getD .invite

inductive Role where
  | owner | maintainer | member | admin
  deriving DecidableEq

inductive Status where
  | active | pending | invited | rejected
  deriving DecidableEq

structure Membership where
  organizationId : String
  subjectId : String
  role : Role
  version : Nat
  status : Status
  joinedAt : Option Nat
  invitedBy : Option String
  deriving DecidableEq

def Membership.key (row : Membership) : String × String := (row.organizationId, row.subjectId)

structure State where
  store : Store
  organizations : Table Organization.resourceId
  memberships : Table Membership.key

/-- What the authorizer reads of a stored membership. -/
def Membership.authority (row : Membership) : MembershipRow where
  org := row.organizationId
  subject := row.subjectId
  body := ⟨row.organizationId, row.subjectId, row.status == .active⟩

def State.view (state : State) : Store :=
  { state.store with
    organizations := state.organizations.rows.map Organization.resourceId
    memberships := state.memberships.rows.map Membership.authority }

def organization (state : State) (id : String) : Except Failure Organization :=
  requireRow (state.organizations.find? id) "group_not_found"

/-- Subjects and organizations share the table of identities. -/
def identityGeneration (state : State) (id : String) : Option Nat :=
  ((state.organizations.find? id).map Organization.membershipVersion).or
    ((state.store.subjects.find? id).map Subject.authVersion)

/-- `update_identity`; the expected generation is `none` for the source's -1. -/
def updateOrganization (state : State) (record : Organization) (expected : Option Nat) :
    Except Failure State := do
  require (identityGeneration state record.resourceId = expected) "generation_conflict"
  return { state with
    organizations :=
      state.organizations.put { record with storedPolicy := some record.membershipPolicy } }

def updateMembership (state : State) (record : Membership) (expected : Option Nat) :
    Except Failure State := do
  require ((state.memberships.find? record.key).map Membership.version = expected)
    "generation_conflict"
  return { state with memberships := state.memberships.put record }

def bumped (record : Organization) : Organization :=
  { record with membershipVersion := record.membershipVersion + 1 }

/-- `generation + 1`, where no row has generation -1. -/
def following : Option Nat → Nat
  | none => 0
  | some generation => generation + 1

structure Seat where
  role : Role
  status : Status := .active
  joinedAt : Option Nat := none
  invitedBy : Option String := none

def setMember (state : State) (org subject : String) (seat : Seat) : Except Failure State := do
  let record ← organization state org
  let generation := (state.memberships.find? (org, subject)).map Membership.version
  let seated ← updateMembership state
    ⟨org, subject, seat.role, following generation, seat.status, seat.joinedAt, seat.invitedBy⟩
    generation
  updateOrganization seated (bumped record) (some record.membershipVersion)

def groupMember (state : State) (org : String) (subject : Option String) : Option Membership :=
  subject.bind fun id => state.memberships.find? (org, id)

def removeGroupMember (state : State) (org subject : String) : Except Failure State := do
  let record ← organization state org
  require ((state.memberships.find? (org, subject)).isSome = true) "group_membership_not_found"
  updateOrganization { state with memberships := state.memberships.delete (org, subject) }
    (bumped record) (some record.membershipVersion)

inductive ChangeAction where
  | memberAdd | memberRemove | adminAdd | adminRemove
  deriving DecidableEq

def ChangeAction.name : ChangeAction → String
  | .memberAdd => "group.member.add"
  | .memberRemove => "group.member.remove"
  | .adminAdd => "group.admin.add"
  | .adminRemove => "group.admin.remove"

/-- The two roles that group.role_set takes. -/
inductive SettableRole where
  | member | maintainer
  deriving DecidableEq

def SettableRole.role : SettableRole → Role
  | .member => .member
  | .maintainer => .maintainer

inductive Arguments where
  | create (name drawn : String)
  | change (action : ChangeAction) (group subject : String)
  | policyGet (group : String)
  | members (group : String)
  | policySet (group : String) (policy : MembershipPolicy)
  | join (group : String)
  | invite (group subject : String)
  | approve (group subject : String)
  | reject (group subject : String)
  | leave (group : String)
  | remove (group subject : String)
  | roleSet (group subject : String) (role : SettableRole)
  | ownerTransfer (group subject : String)
  deriving DecidableEq

def Arguments.operation : Arguments → String
  | .create _ _ => "group.create"
  | .change action _ _ => action.name
  | .policyGet _ => "group.policy_get"
  | .members _ => "group.members"
  | .policySet _ _ => "group.policy_set"
  | .join _ => "group.join"
  | .invite _ _ => "group.invite"
  | .approve _ _ => "group.approve"
  | .reject _ _ => "group.reject"
  | .leave _ => "group.leave"
  | .remove _ _ => "group.remove"
  | .roleSet _ _ _ => "group.role_set"
  | .ownerTransfer _ _ => "group.owner_transfer"

structure Request where
  context : Context
  arguments : Arguments

/-- Every group operation is registered at its first contract version. -/
def Request.operationId (request : Request) : String := request.arguments.operation ++ "@1"

def Request.subject (request : Request) : Option String := request.context.principal.subject

inductive Data where
  | resource (generation : Nat) (owner : Option String)
  | changed (subjectId : String) (action : ChangeAction) (status : Option Status)
  | policy (policy : MembershipPolicy) (version : Option Nat)
  | members (rows : List Membership) (owner : String)
  | status (status : Option Status)
  | seated (subjectId : String) (status : Option Status)
  | role (subjectId : String) (role : Role)

/-- `HandlerOutput`; the status texts `removed` and `left` are `none`. -/
structure Output where
  group : String
  data : Data

variable (app : App)

/-- The membership of the caller and what the caller may do in the group by it. -/
structure GroupContext where
  org : String
  resource : Resource
  organization : Organization
  member : Option Membership
  role : Option Role

def managing (role : Role) : Bool := role == .admin || role == .maintainer

def callerRole (resource : Resource) (subject : Option String) (member : Option Membership) :
    Option Role :=
  if some resource.owner = subject then some .owner
  else match member with
    | some row =>
        if row.status = .active then
          if managing row.role then some .maintainer else some .member
        else none
    | none => none

def groupContext (state : State) (request : Request) (group : String) :
    Except Failure GroupContext := do
  let org ← resolve app state.store group
  let resource ← resource app state.store org
  require (resource.type = "organization") "group_not_found"
  let organization ← organization state org
  require (organization.builtin ≠ some .public) "protected_group"
  let member := groupMember state org request.subject
  return ⟨org, resource, organization, member, callerRole resource request.subject member⟩

def holdsOverride (state : State) (request : Request) (org : String) : Except Failure Bool :=
  has app state.view request.context.now request.context.principal "group.manage_override"
    request.operationId org

def mayManage (role : Option Role) (owner : Bool) : Bool :=
  if owner then role == some .owner else role == some .owner || role == some .maintainer

/-- Returns whether the manager may also act on maintainers. -/
def groupManager (state : State) (request : Request) (context : GroupContext) (owner : Bool) :
    Except Failure Bool := do
  ceiling app state.view request.context.now request.context.principal request.operationId
    context.org
  let ordinary ← ordinary app state.view request.context.principal request.operationId context.org
  let override ← holdsOverride app state request context.org
  require ((ordinary = true ∧ mayManage context.role owner = true) ∨
    (override = true ∧ owner = false)) "group_admin_required"
  return context.role == some .owner || override

def requireMembershipBase (state : State) (request : Request) (resourceId : String) :
    Except Failure Unit :=
  requireBase app state.view request.context.now request.context.principal request.operationId
    resourceId

/-- The subject that the executor's authenticator names for every write. -/
def caller (request : Request) : Except Failure String :=
  requireRow request.subject "authentication_required"

def nameLetter (letter : Char) : Bool := letter.isLower || letter.isDigit || letter == '-'

/-- `[a-z][a-z0-9-]{1,40}`, less the names of the built-in groups. -/
def validGroupName (name : String) : Bool :=
  (match name.toList with
    | first :: rest =>
        first.isLower && rest.all nameLetter && decide (1 ≤ rest.length ∧ rest.length ≤ 40)
    | [] => false) && name != "public" && name != "admins"

def groupResource (owner name drawn : String) : Resource where
  id := drawn
  type := "organization"
  typeVersion := 1
  name := "&" ++ name
  parent := some app.namespaceRoot
  owner := owner
  group := drawn
  mode := 0o2775
  generation := 0
  revision := none
  state := .active

def groupCreate (state : State) (request : Request) (name drawn : String) :
    Except Failure (State × Output) := do
  let subject ← caller request
  requireMembershipBase app state request subject
  require (validGroupName name = true) "invalid_group_name"
  let row := groupResource app subject name drawn
  let grown ← insertResource app state.store row
  require (∀ other ∈ state.store.resources.rows, ¬ (other.parent = row.parent ∧
    other.name = row.name)) constraintConflict.code
  let founded ← updateOrganization { state with store := grown } ⟨drawn, 0, none, some .invite⟩ none
  let next ← setMember founded drawn subject { role := .owner, joinedAt := some request.context.now }
  return (next, ⟨drawn, .resource row.generation none⟩)

/-- Whether an acceptance by the target itself is still needed. -/
def needsAcceptance (record : Organization) (previous : Option Membership) : Bool :=
  record.builtin == none && record.storedPolicy != none &&
    (record.membershipPolicy == .invite || record.membershipPolicy == .approval) &&
    !(previous.map Membership.status == some .active)

def leading (row : Membership) : Bool :=
  row.status == .active && (row.role == .owner || managing row.role)

/-- Rows that lead a group are touched only for its owner or an override. -/
def guardLeading (previous : Option Membership) (managerIsOwner : Bool) : Except Failure Unit :=
  require ((∃ row, previous = some row ∧ leading row = true) → managerIsOwner = true)
    "group_owner_required"

def changedSeat (request : Request) (action : ChangeAction) (record : Organization)
    (previous : Option Membership) : Seat :=
  let status := if action = .memberAdd ∧ needsAcceptance record previous = true then .invited
    else .active
  { role := if action = .adminAdd then .maintainer else .member
    status := status
    joinedAt := if status = .active then
      (previous.bind Membership.joinedAt).or (some request.context.now) else none
    invitedBy := match previous with
      | some row => row.invitedBy
      | none => request.subject }

def groupSeatChange (state : State) (request : Request) (context : GroupContext)
    (action : ChangeAction) (target : String) (previous : Option Membership)
    (managerIsOwner : Bool) : Except Failure (State × Output) := do
  require (action = .adminAdd → managerIsOwner = true) "group_owner_required"
  require (action = .adminRemove → ∃ row, previous = some row ∧ row.status = .active ∧
    managing row.role = true) "group_membership_not_active"
  require (action = .adminAdd → needsAcceptance context.organization previous = false)
    "group_membership_not_active"
  let seat := changedSeat request action context.organization previous
  let next ← setMember state context.org target seat
  return (next, ⟨context.org, .changed target action (some seat.status)⟩)

def groupChange (state : State) (request : Request) (action : ChangeAction)
    (group subject : String) : Except Failure (State × Output) := do
  let context ← groupContext app state request group
  let managerIsOwner ← groupManager app state request context false
  let target ← resolve app state.store subject
  let _ ← Session.subject state.store target
  let previous := groupMember state context.org (some target)
  require (target ≠ context.resource.owner) "cannot_remove_group_owner"
  guardLeading previous managerIsOwner
  if action = .memberRemove then do
    let next ← removeGroupMember state context.org target
    return (next, ⟨context.org, .changed target action none⟩)
  else groupSeatChange state request context action target previous managerIsOwner

def groupPolicyGet (state : State) (request : Request) (group : String) :
    Except Failure (State × Output) := do
  let context ← groupContext app state request group
  let _ ← requireAccess app state.view request.context.now request.context none
    [⟨context.org, request.operationId, .read⟩]
  return (state, ⟨context.org, .policy context.organization.membershipPolicy
    (some context.organization.membershipVersion)⟩)

def groupMembers (state : State) (request : Request) (group : String) :
    Except Failure (State × Output) := do
  let context ← groupContext app state request group
  requireMembershipBase app state request context.org
  require (context.role ≠ none) "group_membership_required"
  let rows := state.memberships.rows.filter fun row => row.organizationId == context.org
  return (state, ⟨context.org, .members
    (rows.mergeSort fun left right => decide (left.subjectId ≤ right.subjectId))
    context.resource.owner⟩)

def setPolicy (state : State) (record : Organization) (policy : MembershipPolicy) :
    Except Failure State :=
  if policy = record.membershipPolicy then .ok state
  else
    updateOrganization state { bumped record with storedPolicy := some policy }
      (some record.membershipVersion)

def groupPolicySet (state : State) (request : Request) (group : String)
    (policy : MembershipPolicy) : Except Failure (State × Output) := do
  let context ← groupContext app state request group
  let _ ← groupManager app state request context true
  let next ← setPolicy state context.organization policy
  return (next, ⟨context.org, .policy policy none⟩)

def joinStatus (record : Organization) (member : Option Membership) : Status :=
  if record.membershipPolicy = .approval ∧ member.map Membership.status ≠ some .invited then
    .pending else .active

def groupJoin (state : State) (request : Request) (group : String) :
    Except Failure (State × Output) := do
  let subject ← caller request
  let context ← groupContext app state request group
  requireMembershipBase app state request context.org
  require (context.organization.membershipPolicy ≠ .managed) "group_managed"
  require (context.member.map Membership.status ≠ some .active) "already_group_member"
  require (context.organization.membershipPolicy = .invite →
    context.member.map Membership.status = some .invited) "group_invitation_required"
  let status := joinStatus context.organization context.member
  let next ← setMember state context.org subject
    { role := .member
      status := status
      joinedAt := if status = .active then some request.context.now else none
      invitedBy := context.member.bind Membership.invitedBy }
  return (next, ⟨context.org, .status (some status)⟩)

def groupInvite (state : State) (request : Request) (group subject : String) :
    Except Failure (State × Output) := do
  let context ← groupContext app state request group
  let _ ← groupManager app state request context false
  let target ← resolve app state.store subject
  let row ← Session.subject state.store target
  require ((row.kind = .registered ∨ row.kind = .custodial) ∧ row.localOnly = false)
    "invalid_group_subject"
  require ((groupMember state context.org (some target)).map Membership.status ≠ some .active)
    "already_group_member"
  let next ← setMember state context.org target
    { role := .member, status := .invited, invitedBy := request.subject }
  return (next, ⟨context.org, .seated target (some .invited)⟩)

/-- What group.approve and group.reject have in common. -/
def groupAnswer (state : State) (request : Request) (group subject : String) (seat : Seat) :
    Except Failure (State × Output) := do
  let context ← groupContext app state request group
  let _ ← groupManager app state request context false
  let target ← resolve app state.store subject
  require ((groupMember state context.org (some target)).map Membership.status = some .pending)
    "group_request_not_pending"
  let next ← setMember state context.org target seat
  return (next, ⟨context.org, .seated target (some seat.status)⟩)

def groupApprove (state : State) (request : Request) (group subject : String) :
    Except Failure (State × Output) :=
  groupAnswer app state request group subject
    { role := .member, joinedAt := some request.context.now, invitedBy := request.subject }

def groupReject (state : State) (request : Request) (group subject : String) :
    Except Failure (State × Output) :=
  groupAnswer app state request group subject { role := .member, status := .rejected }

def groupLeave (state : State) (request : Request) (group : String) :
    Except Failure (State × Output) := do
  let subject ← caller request
  let context ← groupContext app state request group
  requireMembershipBase app state request context.org
  require (subject ≠ context.resource.owner) "cannot_remove_group_owner"
  require (context.member ≠ none) "group_membership_not_found"
  let next ← removeGroupMember state context.org subject
  return (next, ⟨context.org, .status none⟩)

def groupRemove (state : State) (request : Request) (group subject : String) :
    Except Failure (State × Output) := do
  let context ← groupContext app state request group
  let managerIsOwner ← groupManager app state request context false
  let target ← resolve app state.store subject
  require (target ≠ context.resource.owner) "cannot_remove_group_owner"
  let member ← requireRow (groupMember state context.org (some target))
    "group_membership_not_found"
  guardLeading (some member) managerIsOwner
  let next ← removeGroupMember state context.org target
  return (next, ⟨context.org, .seated target none⟩)

def activeMember (state : State) (org target : String) : Except Failure Membership :=
  requireRow ((groupMember state org (some target)).filter fun row => row.status == .active)
    "group_membership_not_active"

def groupRoleSet (state : State) (request : Request) (group subject : String)
    (role : SettableRole) : Except Failure (State × Output) := do
  let context ← groupContext app state request group
  let _ ← groupManager app state request context true
  let target ← resolve app state.store subject
  require (target ≠ context.resource.owner) "cannot_demote_group_owner"
  let member ← activeMember state context.org target
  let next ← setMember state context.org target
    { role := role.role, joinedAt := member.joinedAt, invitedBy := member.invitedBy }
  return (next, ⟨context.org, .role target role.role⟩)

def groupOwnerTransfer (state : State) (request : Request) (group subject : String) :
    Except Failure (State × Output) := do
  let context ← groupContext app state request group
  let _ ← groupManager app state request context true
  let target ← resolve app state.store subject
  require (target ≠ context.resource.owner) "already_group_owner"
  let member ← activeMember state context.org target
  let current ← requireRow (context.member.filter fun row => row.status == .active)
    "group_owner_missing"
  let demoted ← setMember state context.org context.resource.owner
    { role := .maintainer, joinedAt := current.joinedAt, invitedBy := current.invitedBy }
  let raised ← setMember demoted context.org target
    { role := .owner, joinedAt := member.joinedAt, invitedBy := member.invitedBy }
  let updated : Resource :=
    { context.resource with owner := target, generation := context.resource.generation + 1 }
  let store ← replaceResource app raised.store updated context.resource.generation
  return ({ raised with store := store },
    ⟨context.org, .resource updated.generation (some target)⟩)

def perform (state : State) (request : Request) : Except Failure (State × Output) :=
  match request.arguments with
  | .create name drawn => groupCreate app state request name drawn
  | .change action group subject => groupChange app state request action group subject
  | .policyGet group => groupPolicyGet app state request group
  | .members group => groupMembers app state request group
  | .policySet group policy => groupPolicySet app state request group policy
  | .join group => groupJoin app state request group
  | .invite group subject => groupInvite app state request group subject
  | .approve group subject => groupApprove app state request group subject
  | .reject group subject => groupReject app state request group subject
  | .leave group => groupLeave app state request group
  | .remove group subject => groupRemove app state request group subject
  | .roleSet group subject role => groupRoleSet app state request group subject role
  | .ownerTransfer group subject => groupOwnerTransfer app state request group subject

end MsgServer.Groups
