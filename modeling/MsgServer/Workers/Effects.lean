import MsgServer.Security.Authorization

/-!
`current_principal` of workers/effects.py: a principal captured with earlier work
is narrowed to what its credential still allows, and refused when the credential,
a subject or an attached certificate no longer stands. Jobs, leases and the tool
runner are left out.
-/

namespace MsgServer.Effects

open Session Policy Authorization

/-- One entry of the live ceiling against the captured constraint of the same name. -/
def combined (name : String) (live captured : Constraint) : Option Constraint :=
  if name ∈ listConstraints then
    match (atoms live).filter fun item => decide (item ∈ atoms captured) with
    | [] => none
    | items => some (.list items)
  else if name ∈ boundConstraints then
    match live, captured with
    | .atom (.number low), .atom (.number high) => some (.atom (.number (min low high)))
    | _, _ => none
  else if live = captured then some captured
  else none

def setConstraint (constraints : List (String × Constraint)) (name : String) (value : Constraint) :
    List (String × Constraint) :=
  (name, value) :: constraints.filter fun entry => entry.1 != name

/-- The loop over the live constraints; an empty combination makes the grant impossible. -/
def combineAll : List (String × Constraint) → List (String × Constraint) →
    Option (List (String × Constraint))
  | [], constraints => some constraints
  | (name, value) :: rest, constraints =>
      match constraintOf constraints name with
      | none => combineAll rest (setConstraint constraints name value)
      | some captured =>
          match combined name value captured with
          | none => none
          | some narrowed => combineAll rest (setConstraint constraints name narrowed)

variable (app : App) (store : Store) (now : Nat)

/-- The narrower of two scopes when one lies inside the other. -/
def commonScope (captured live : Scope) : Except Failure (Option Scope) := do
  let inner ← scopeSubset app store captured live
  if inner then return some captured
  else do
    let outer ← scopeSubset app store live captured
    return if outer then some live else none

def narrowedGrant (captured live : CapabilityGrant) : Except Failure (Option CapabilityGrant) := do
  let scope ← commonScope app store captured.scope live.scope
  return scope.bind fun scope =>
    (combineAll live.constraints captured.constraints).map fun constraints =>
      { captured with
        scope := scope
        operations := captured.operations.filter fun operation =>
          decide (operation ∈ live.operations)
        constraints := constraints }

/-- One pair of the two ceilings. -/
def ceilingPair (captured live : CapabilityGrant) : Except Failure (Option CapabilityGrant) :=
  if captured.capability = live.capability ∧ captured.version = live.version ∧
      ∃ operation ∈ captured.operations, operation ∈ live.operations then
    narrowedGrant app store captured live
  else .ok none

def currentCeiling (captured live : List CapabilityGrant) : Except Failure (List CapabilityGrant) := do
  let pairs ← (captured.flatMap fun grant => live.map fun other => (grant, other)).mapM
    fun pair => ceilingPair app store pair.1 pair.2
  return pairs.filterMap id

def credentialLive (original : Principal) (credential : Credential) : Except Failure Unit := do
  require (some credential.subjectId = original.actor) "credential_subject_mismatch"
  require (credential.revokedAt = none) "credential_revoked"
  require (credential.notBefore ≤ now ∧ ∀ expiry ∈ credential.expiresAt, now < expiry)
    "credential_expired"

def subjectLive (id : Option String) : Except Failure Unit := do
  let row ← requireRow (id.bind store.subjects.find?) "subject_not_found"
  require (row.localOnly = false) "local_only"

def currentPrincipal (original : Principal) : Except Failure Principal := do
  require (original.method ≠ .anonymous ∧ original.method ≠ .local) "worker_identity_required"
  require (original.actor ≠ some rootSubject ∧ original.subject ≠ some rootSubject) "local_only"
  let key ← credential store original.credentialId
  credentialLive now original key
  subjectLive store original.actor
  subjectLive store original.subject
  let ceilings ← currentCeiling app store original.ceiling key.ceiling
  require (ceilings ≠ []) "credential_ceiling"
  let _ ← grants app store now { original with ceiling := ceilings }
  return { original with ceiling := ceilings }

end MsgServer.Effects
