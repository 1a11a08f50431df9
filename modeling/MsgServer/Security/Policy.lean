import MsgServer.Storage.Session

/-!
security/policy.py: permission bits, scopes and the order on constraints. The
list comprehensions of the source evaluate every element before `any` looks at
the results, so one element that fails makes the whole test fail.
-/

namespace MsgServer.Policy

open Session

def certgateBit : Nat := 0o4000
def setgidBit : Nat := 0o2000
def stickyBit : Nat := 0o1000

inductive Permission where
  | read | write | execute | list | traverse
  deriving DecidableEq

def Permission.mask : Permission → Nat
  | .read => 4
  | .list => 4
  | .write => 2
  | .execute => 1
  | .traverse => 1

inductive PermissionClass where
  | owner | group | other
  deriving DecidableEq

def PermissionClass.shift : PermissionClass → Nat
  | .owner => 6
  | .group => 3
  | .other => 0

def selectedClass (resource : Resource) (subject : Option String) (memberships : List String) :
    PermissionClass :=
  if subject = some resource.owner then .owner
  else if subject ≠ none ∧ resource.group ∈ memberships then .group
  else .other

def classBits (mode : Nat) (permissionClass : PermissionClass) : Except Failure Nat := do
  require (mode ≤ 0o7777) "invalid_mode"
  return (mode >>> permissionClass.shift) &&& 7

def allows (resource : Resource) (subject : Option String) (memberships : List String)
    (permission : Permission) : Except Failure Bool := do
  let bits ← classBits resource.mode (selectedClass resource subject memberships)
  return bits &&& permission.mask == permission.mask

def anyOf {α : Type} (items : List α) (test : α → Except Failure Bool) : Except Failure Bool := do
  let results ← items.mapM test
  return results.any id

variable (app : App) (store : Store)

def scopeContains (scope : Scope) (resourceId : String) : Except Failure Bool :=
  if scope.resourceId = resourceId then .ok true
  else if scope.descendants then do
    let chain ← ancestors app store resourceId
    return chain.any fun ancestor => ancestor.id == scope.resourceId
  else .ok false

def scopeSubset (child parent : Scope) : Except Failure Bool :=
  if child.resourceId = parent.resourceId then .ok (!child.descendants || parent.descendants)
  else if parent.descendants then scopeContains app store parent child.resourceId
  else .ok false

def grantCovers (grant : CapabilityGrant) (capability operation resourceId : String) :
    Except Failure Bool :=
  if grant.capability = capability ∧ grant.version = 1 ∧ operation ∈ grant.operations then
    scopeContains app store grant.scope resourceId
  else .ok false

def listConstraints : List String := ["hosts", "methods", "ports", "schemes"]
def boundConstraints : List String := ["max_response_bytes", "timeout_ms", "max_redirects"]

def constraintOf (constraints : List (String × Constraint)) (name : String) : Option Constraint :=
  setting constraints name

def atoms : Constraint → List Atom
  | .list values => values
  | .atom value => [value]

/-- One entry of the parent map against the child's entry of the same name. -/
def narrower (name : String) (proposed value : Constraint) : Bool :=
  if name ∈ listConstraints then (atoms proposed).all fun item => decide (item ∈ atoms value)
  else if name ∈ boundConstraints then
    match proposed, value with
    | .atom (.number low), .atom (.number high) => decide (low ≤ high)
    | _, _ => false
  else decide (proposed = value)

def constraintsSubset (child parent : List (String × Constraint)) : Bool :=
  parent.all fun entry =>
    match constraintOf child entry.1 with
    | none => false
    | some proposed => narrower entry.1 proposed entry.2

end MsgServer.Policy
