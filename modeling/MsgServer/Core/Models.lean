import Mathlib.Algebra.Group.Int.Defs
import Mathlib.Algebra.GroupWithZero.Nat
import Mathlib.Data.List.Basic
import MsgServer.Library.Program
import MsgServer.Library.Table

/-!
The records of core/models.py that several subsystems share, and the failures of
core/errors.py. Frozen sets are lists read only through membership; instants are
natural numbers on one clock; a JSON constraint is an atom or a list of atoms,
which is all the constraint schemas of the registry admit. Public error texts,
display fields and signature bytes are left out.
-/

namespace MsgServer

open Library

-- Texts and pairs of identifiers are compared everywhere, so both laws have a name.
instance textLawful : LawfulBEq (List Char) := inferInstance

instance pairLawful : LawfulBEq (String × String) := inferInstance

structure Failure where
  code : String
  field : Option String := none
  retryable : Bool := false
  details : List (String × String) := []
  deriving DecidableEq

def require (condition : Prop) [Decidable condition] (code : String) : Except Failure Unit :=
  Program.ensure condition { code := code }

@[simp] theorem require_ok (condition : Prop) [Decidable condition] (code : String)
    (done : Unit) : require condition code = .ok done ↔ condition := by
  simp [require]

@[simp] theorem require_error (condition : Prop) [Decidable condition] (code : String)
    (failure : Failure) :
    require condition code = .error failure ↔ ¬ condition ∧ failure = { code := code } := by
  simp [require]

theorem require_true {condition : Prop} [Decidable condition] (code : String)
    (holds : condition) : require condition code = .ok () :=
  Program.ensure_true _ holds

/-- A row that must be there. -/
def requireRow {ρ : Type} (row : Option ρ) (code : String) : Except Failure ρ :=
  match row with
  | some value => .ok value
  | none => .error { code := code }

@[simp] theorem requireRow_ok {ρ : Type} (row : Option ρ) (code : String) (value : ρ) :
    requireRow row code = .ok value ↔ row = some value := by
  cases row <;> simp [requireRow]

@[simp] theorem requireRow_error {ρ : Type} (row : Option ρ) (code : String)
    (failure : Failure) :
    requireRow row code = .error failure ↔ row = none ∧ failure = { code := code } := by
  cases row <;> simp [requireRow, eq_comm]

/-- storage/postgres.py turns every integrity error into this one code. -/
def constraintConflict : Failure := { code := "constraint_conflict" }

def insertRow {κ ρ : Type} {key : ρ → κ} [DecidableEq κ] (table : Table key) (row : ρ) :
    Except Failure (Table key) :=
  match table.insert row with
  | some next => .ok next
  | none => .error constraintConflict

@[simp] theorem insertRow_ok {κ ρ : Type} {key : ρ → κ} [DecidableEq κ] (table : Table key)
    (row : ρ) (next : Table key) :
    insertRow table row = .ok next ↔ table.insert row = some next := by
  unfold insertRow
  cases table.insert row <;> simp

theorem insertRow_error {κ ρ : Type} {key : ρ → κ} [DecidableEq κ] {table : Table key}
    {row : ρ} {failure : Failure} (refused : insertRow table row = .error failure) :
    failure = constraintConflict := by
  unfold insertRow at refused
  cases found : table.insert row <;> simp [found] at refused
  exact refused.symm

def rootSubject : String := "u_root"
def toolsSpace : String := "t_tools"

inductive SubjectKind where
  | temporary | registered | custodial | system
  deriving DecidableEq

structure Subject where
  resourceId : String
  kind : SubjectKind
  authVersion : Nat
  localOnly : Bool := false
  deriving DecidableEq

structure Scope where
  resourceId : String
  descendants : Bool := false
  deriving DecidableEq

inductive Atom where
  | null
  | flag (value : Bool)
  | number (value : Int)
  | text (value : String)
  deriving DecidableEq

inductive Constraint where
  | atom (value : Atom)
  | list (values : List Atom)
  deriving DecidableEq

structure CapabilityGrant where
  capability : String
  version : Nat
  scope : Scope
  operations : List String
  constraints : List (String × Constraint)
  deriving DecidableEq

structure IssuancePolicy where
  issueGrants : List CapabilityGrant
  maxCertTtlSeconds : Nat
  maxChildCaDepth : Nat
  maxDelegationDepth : Nat
  deriving DecidableEq

inductive CredentialKind where
  | signingKey | sshKey | token
  deriving DecidableEq

structure Credential where
  id : String
  subjectId : String
  kind : CredentialKind
  verifier : String
  ceiling : List CapabilityGrant
  notBefore : Nat
  expiresAt : Option Nat
  revokedAt : Option Nat
  deriving DecidableEq

structure ResourceRef where
  id : String
  revision : Option String := none
  deriving DecidableEq

structure Signature where
  keyId : String
  algorithm : String
  value : String
  deriving DecidableEq

inductive CertificateKind where
  | identity | delegation | capability | ca
  deriving DecidableEq

structure Certificate where
  resourceId : String
  serial : String
  subjectId : String
  keyId : String
  issuerId : String
  parentCertificateId : Option String
  authoritySources : List ResourceRef
  kind : CertificateKind
  grants : List CapabilityGrant
  notBefore : Nat
  expiresAt : Nat
  targetService : String
  delegationDepth : Nat
  issuance : Option IssuancePolicy
  signature : Signature
  deriving DecidableEq

inductive ResourceState where
  | active | archived | purged
  deriving DecidableEq

structure Resource where
  id : String
  type : String
  typeVersion : Nat
  name : String
  parent : Option String
  owner : String
  group : String
  mode : Nat
  generation : Nat
  revision : Option String
  state : ResourceState
  deriving DecidableEq

inductive Method where
  | anonymous | signature | token | ssh | «local» | recovery
  deriving DecidableEq

structure Principal where
  actor : Option String
  subject : Option String
  credentialId : Option String
  method : Method
  certificates : List String
  ceiling : List CapabilityGrant
  deriving DecidableEq

inductive Entry where
  | network | localAdmin | worker
  deriving DecidableEq

structure CapabilitySpec where
  scopeTypes : List String
  operations : List String
  caOnly : Bool
  constraintsSchema : Option String
  deriving DecidableEq

/-- The installation: its registry, its trust anchor and the functions of the
standard library and of the crypto package that this model does not look into.
`verify` is `crypto.verify` on public key, payload, signature and purpose;
`certificateBody` is the canonical text of a certificate less its signature and
`pairDigest` the digest of a sorted pair of subjects. -/
structure App where
  isHexId : String → Bool
  hexReference : String → String
  hexReferenceSelf : ∀ id, isHexId id = true → hexReference id = id
  service : String
  namespaceRoot : String
  namespaceRootPlain : isHexId namespaceRoot = false
  rootCertificate : Certificate
  rootPublicKey : String
  container : String → Nat → Option Bool
  capability : String → Nat → Option CapabilitySpec
  constraintsValid : String → List (String × Constraint) → Except Failure Unit
  baseFamilies : List String
  verify : String → String → Signature → String → Bool
  certificateBody : Certificate → String
  pairDigest : String × String → String

def verified (app : App) (publicKey payload : String) (signature : Signature)
    (purpose : String) : Except Failure Unit :=
  require (app.verify publicKey payload signature purpose = true) "invalid_signature"

/-- An installation small enough to run: no hex references, and a signature is good
when its value is the text it signs. -/
def sampleApp : App where
  isHexId := fun _ => false
  hexReference := id
  hexReferenceSelf := fun _ _ => rfl
  service := "https://msg.test"
  namespaceRoot := "r_root"
  namespaceRootPlain := rfl
  rootCertificate :=
    ⟨"c_root", "1", rootSubject, "k_root", rootSubject, none, [], .ca, [], 0, 1000,
      "https://msg.test", 0, none, ⟨"k_root", "ed25519", "c_root"⟩⟩
  rootPublicKey := "root"
  container := fun type _ => some (type != "post")
  capability := fun _ _ => none
  constraintsValid := fun _ _ => .ok ()
  baseFamilies := ["communication.basic", "orders.basic", "money.basic", "bounty.basic"]
  verify := fun _ payload signature _ => signature.value == payload
  certificateBody := Certificate.resourceId
  pairDigest := fun pair => pair.1 ++ " " ++ pair.2

end MsgServer
