import MsgServer.Security.Authorization
import MsgServer.Storage.Tree
import MsgServer.Library.Run

/-!
sharing.grant@2 and sharing.revoke@2 of plugins/sharing.py. A grant hands the right to
read one resource to a user or a group; whoever is not the owner hands on what another
grant, the source, has handed to them. The views and the authorization epoch are left
out, as are links and the first contract, which write other tables.
-/

namespace MsgServer.Sharing

open Library Session Policy Authorization ResourceTree

variable (app : App)

def grantOperation : String := "sharing.grant@2"
def revokeOperation : String := "sharing.revoke@2"

/-- 30 days. -/
def maxGrantTtl : Nat := 2592000

/-- `share_source_active(..., reshare=True)`: what a further grant may be handed on from. -/
def reshareActive (store : Store) (now : Nat) (row : Resource) (subject : Option String)
    (grantId : String) : Except Failure Bool := do
  let above ← ancestors app store row.id
  let forbidden ← shareTargetError app store row (above ++ [row])
  if forbidden then return false
  else shareSourceLoop app store now 16 [] row grantId subject none true

def actsForItself (principal : Principal) : Prop :=
  principal.subject ≠ none ∧ principal.actor = principal.subject

instance (principal : Principal) : Decidable (actsForItself principal) :=
  inferInstanceAs (Decidable (_ ∧ _))

/-- `_owned_resource(..., owner=False)`. Whatever else `share_target_error` finds in a
resource that is active and no container is forbidden to share. -/
def sharable (store : Store) (now : Nat) (principal : Principal) (operation value : String) :
    Except Failure Resource := do
  let id ← resolve app store value
  let row ← resource app store id
  require (actsForItself principal) "share_subject_required"
  require (row.state = .active) "permission_denied"
  let container ← containerType app row
  require (container = false) "share_container_forbidden"
  requireBase app store now principal operation id
  let above ← ancestors app store id
  let forbidden ← shareTargetError app store row (above ++ [row])
  require (forbidden = false) "share_forbidden_resource"
  return row

structure GrantRequest where
  context : Context
  now : Nat
  resource : String
  grantee : String
  granteeKind : GranteeKind
  operations : List String
  expiresAt : Option Nat
  allowReshare : Bool
  constraints : List (String × Constraint)
  sourceGrantId : Option String
  /-- The id that `new_id` draws. -/
  id : String

def granteeKnown (store : Store) (kind : GranteeKind) (grantee : String) : Except Failure Unit :=
  if kind = .user then do
    let _ ← subject store grantee
    return ()
  else do
    let target ← resource app store grantee
    require (target.type = "organization" ∧ target.state = .active) "invalid_share_grantee"

def readGrantee (store : Store) (row : Resource) (request : GrantRequest) :
    Except Failure String := do
  let grantee ← resolve app store request.grantee
  granteeKnown app store request.granteeKind grantee
  require (grantee ≠ row.owner ∧ grantee ≠ rootSubject) "invalid_share_grantee"
  return grantee

def checkAccess (store : Store) (now : Nat) (context : Context) (operation id : String)
    (check : Check) : Except Failure Unit := do
  let _ ← requireAccess app store now context none [⟨id, operation, check⟩]
  return ()

/-- A grant never says more than its source. -/
def within (request : GrantRequest) (expires : Nat) (source : ShareGrantV2) : Prop :=
  (source.expiresAt.map fun bound => decide (expires ≤ bound)) = some true ∧
    (∀ operation ∈ request.operations, operation ∈ source.operations) ∧
    request.constraints = source.constraints

instance (request : GrantRequest) (expires : Nat) (source : ShareGrantV2) :
    Decidable (within request expires source) :=
  inferInstanceAs (Decidable (_ ∧ _))

def storedGrant (store : Store) (id : String) : Option ShareGrantV2 :=
  store.shareGrantsV2.find? fun grant => grant.id == id

def readSource (store : Store) (row : Resource) (request : GrantRequest) (expires : Nat)
    (parent : String) : Except Failure Unit := do
  let source ← requireRow ((storedGrant store parent).filter fun grant =>
    grant.resourceId == row.id) "share_source_unavailable"
  let active ← reshareActive app store request.context.now row request.context.principal.subject
    parent
  require (active = true) "share_source_unavailable"
  require (within request expires source) "share_scope_exceeded"

/-- The owner needs no source, anybody else needs one. -/
def readParent (store : Store) (row : Resource) (request : GrantRequest) (expires : Nat) :
    Except Failure (Option String) :=
  if request.context.principal.subject = some row.owner then do
    require (request.sourceGrantId = none) "share_source_not_needed"
    checkAccess app store request.now request.context grantOperation row.id .manage
    return none
  else do
    let parent ← requireRow request.sourceGrantId "share_source_required"
    readSource app store row request expires parent
    return some parent

def newGrant (row : Resource) (request : GrantRequest) (grantor grantee : String)
    (expires : Nat) (parent : Option String) : ShareGrantV2 where
  id := request.id
  resourceId := row.id
  grantor := grantor
  grantee := grantee
  granteeKind := request.granteeKind
  parentId := parent
  operations := request.operations
  constraints := request.constraints
  allowReshare := request.allowReshare
  expiresAt := some expires
  createdAt := some request.context.now
  revokedAt := none

def insertGrant (store : Store) (grant : ShareGrantV2) : Except Failure Store := do
  require (storedGrant store grant.id = none ∧ grant.granteeKind ≠ .other) "constraint_conflict"
  return { store with shareGrantsV2 := store.shareGrantsV2 ++ [grant] }

def grantV2 (store : Store) (request : GrantRequest) : Except Failure (Store × ShareGrantV2) := do
  let row ← sharable app store request.now request.context.principal grantOperation request.resource
  require (request.operations = ["read"] ∧ request.constraints = []) "invalid_share_operations"
  let grantee ← readGrantee app store row request
  let expires ← requireRow request.expiresAt "invalid_datetime"
  require (request.context.now < expires ∧ expires ≤ request.context.now + maxGrantTtl)
    "invalid_share_expiry"
  let parent ← readParent app store row request expires
  let grantor ← requireRow request.context.principal.subject "share_subject_required"
  let next ← insertGrant store (newGrant row request grantor grantee expires parent)
  return (next, newGrant row request grantor grantee expires parent)

structure RevokeRequest where
  context : Context
  now : Nat
  grantId : String

/-- An archived or moved target makes a grant dormant, not revoked, so it can still be
revoked. -/
def dormant (store : Store) (request : RevokeRequest) (id : String) : Except Failure Unit := do
  require (actsForItself request.context.principal) "share_subject_required"
  requireBase app store request.now request.context.principal revokeOperation id

/-- `_revocable_resource(..., owner=False)`. -/
def revocable (store : Store) (request : RevokeRequest) (value : String) :
    Except Failure (Resource × Bool) := do
  let id ← resolve app store value
  let row ← resource app store id
  let above ← ancestors app store id
  let forbidden ← shareTargetError app store row (above ++ [row])
  if forbidden then do
    dormant app store request id
    return (row, false)
  else do
    let live ← sharable app store request.now request.context.principal revokeOperation id
    return (live, true)

def manageCheck (store : Store) (request : RevokeRequest) (row : Resource) (live : Bool) :
    Except Failure Unit :=
  if live = true ∧ request.context.principal.subject = some row.owner then
    checkAccess app store request.now request.context revokeOperation row.id .manage
  else .ok ()

/-- A grant that was revoked before keeps its first time. -/
def revokeRow (now : Nat) (id : String) (grant : ShareGrantV2) : ShareGrantV2 :=
  if grant.id = id ∧ grant.revokedAt = none then { grant with revokedAt := some now } else grant

def revokeV2 (store : Store) (request : RevokeRequest) : Except Failure Store := do
  let grant ← requireRow (storedGrant store request.grantId) "share_not_found"
  let (row, live) ← revocable app store request grant.resourceId
  require (request.context.principal.subject = some row.owner ∨
    request.context.principal.subject = some grant.grantor) "permission_denied"
  manageCheck app store request row live
  return { store with
    shareGrantsV2 := store.shareGrantsV2.map (revokeRow request.context.now request.grantId) }

/-- Whatever the rest of the server does to owners, states, groups and credentials, it
leaves these grants alone. -/
inductive SharingStep where
  | grant (request : GrantRequest)
  | revoke (request : RevokeRequest)
  | rest (change : Store → Store)

def attempt (store : Store) : SharingStep → Except Failure Store
  | .grant request => do
      let (next, _) ← grantV2 app store request
      return next
  | .revoke request => revokeV2 app store request
  | .rest change => .ok { change store with shareGrantsV2 := store.shareGrantsV2 }

/-- A refused operation is rolled back. -/
def step (next : SharingStep) (store : Store) : Store :=
  match attempt app store next with
  | .ok changed => changed
  | .error _ => store

end MsgServer.Sharing
