import MsgServer.Storage.Accounts

/-!
The requests of core/requests.py that the account operations read. Arguments are in the
order of their schemas; an argument that only the resources, handles or certificates of
an operation depend on is left out. `payloadDigest` and `signingBytes` are texts computed
from the rest of the packet, checked against it before anything else runs.
-/

namespace MsgServer.Requests

open Accounts

inductive Proof where
  | none
  | signature (signature : Signature) (certificates : List String)
  | token (credentialId token : String)
  deriving DecidableEq

def accountOperations : List String :=
  ["identity.register", "identity.temporary", "identity.custodial_create", "identity.token_rotate",
    "identity.upgrade", "identity.key_add", "identity.key_revoke", "identity.token_create",
    "identity.token_recover", "cert.request", "cert.publish", "identity.recover",
    "identity.encryption_key_rotate", "identity.ssh_key_add", "identity.ssh_key_revoke",
    "identity.delegated_create", "identity.custodial_upgrade_finish"]

/-- Any other registered operation, as far as authentication asks: its effect, whether it
needs a signature, and what it allows to the token of a custodial subject. -/
structure OtherOperation where
  name : String
  reads : Bool
  requireSignature : Bool
  custodialToken : Bool
  confirmation : Bool
  other : name ∉ accountOperations
  deriving DecidableEq

/-- The keys and ids that an operation draws come with its request, and so does what the
stored challenge of a custodial exit makes of a call to finish it. -/
inductive Arguments where
  | register (publicKey recipient : String)
  | temporary (nonce recoverySecret publicKey recipient : String) (possession : Signature)
  | custodialCreate (nonce recoverySecret drawnKey drawnRecipient : String)
  | tokenRotate (nonce recoverySecret : String)
  | upgrade (handle publicKey : String) (possession : Signature) (recipient : String)
  | keyAdd (publicKey : String) (possession : Signature) (ceiling : List CapabilityGrant)
  | keyRevoke (keyId : String)
  | tokenCreate (nonce : String) (ceiling : Option (List CapabilityGrant)) (ttl : Nat)
      (recoverySecret : String) (previousCredential : Option String)
  | tokenRecover (credentialId originalRequestId recoverySecret nonce newRecoverySecret : String)
  | certRequest (publicKey drawn : String)
  | certPublish (csrId : String) (certificate : Certificate)
  | recover (subject publicKey : String) (possession : Signature)
  | encryptionKeyRotate (recipient : String)
  | sshKeyAdd (publicKey : String) (possession : Signature) (ceiling : List CapabilityGrant)
  | sshKeyRevoke (keyId : String)
  | delegatedCreate (publicKey recipient : String) (grants : List CapabilityGrant) (ends : Nat)
      (maxUses : Option Nat) (drawnCertificate : String)
  | custodialUpgradeFinish (challengeId : String) (custody : Custody)
  | other (operation : OtherOperation)
  deriving DecidableEq

def Arguments.operation : Arguments → String
  | .register _ _ => "identity.register"
  | .temporary _ _ _ _ _ => "identity.temporary"
  | .custodialCreate _ _ _ _ => "identity.custodial_create"
  | .tokenRotate _ _ => "identity.token_rotate"
  | .upgrade _ _ _ _ => "identity.upgrade"
  | .keyAdd _ _ _ => "identity.key_add"
  | .keyRevoke _ => "identity.key_revoke"
  | .tokenCreate _ _ _ _ _ => "identity.token_create"
  | .tokenRecover _ _ _ _ _ => "identity.token_recover"
  | .certRequest _ _ => "cert.request"
  | .certPublish _ _ => "cert.publish"
  | .recover _ _ _ => "identity.recover"
  | .encryptionKeyRotate _ => "identity.encryption_key_rotate"
  | .sshKeyAdd _ _ _ => "identity.ssh_key_add"
  | .sshKeyRevoke _ => "identity.ssh_key_revoke"
  | .delegatedCreate _ _ _ _ _ _ => "identity.delegated_create"
  | .custodialUpgradeFinish _ _ => "identity.custodial_upgrade_finish"
  | .other operation => operation.name

/-- Everything but what only a token may start asks for a signature. -/
def Arguments.requireSignature : Arguments → Bool
  | .temporary _ _ _ _ _ => false
  | .custodialCreate _ _ _ _ => false
  | .tokenRotate _ _ => false
  | .upgrade _ _ _ _ => false
  | .tokenRecover _ _ _ _ _ => false
  | .custodialUpgradeFinish _ _ => false
  | .other operation => operation.requireSignature
  | _ => true

def Arguments.reads : Arguments → Bool
  | .other operation => operation.reads
  | _ => false

/-- `custodial_confirmation`: what a custodial subject may confirm with its token. -/
def Arguments.confirmation : Arguments → Bool
  | .other operation => operation.confirmation
  | _ => false

/-- What the delivery of a token reads of the request that asks for it:
`SECRET_DELIVERY_MIN_VERSION` and the secrets. `spent` is the secret that a recovery
gives up. -/
structure Delivering where
  minVersion : Nat
  nonce : String
  recoverySecret : String
  spent : Option String := none
  deriving DecidableEq

def Arguments.delivering : Arguments → Option Delivering
  | .temporary nonce secret _ _ _ => some { minVersion := 3, nonce := nonce, recoverySecret := secret }
  | .custodialCreate nonce secret _ _ =>
      some { minVersion := 2, nonce := nonce, recoverySecret := secret }
  | .tokenRotate nonce secret => some { minVersion := 2, nonce := nonce, recoverySecret := secret }
  | .tokenCreate nonce _ _ secret _ =>
      some { minVersion := 2, nonce := nonce, recoverySecret := secret }
  | .tokenRecover _ _ spent nonce secret =>
      some { minVersion := 1, nonce := nonce, recoverySecret := secret, spent := some spent }
  | _ => none

structure Request where
  requestId : String
  subject : Option String
  contractVersion : Nat
  arguments : Arguments
  expiresAt : Option Nat
  payloadDigest : String
  signingBytes : String
  proof : Proof
  deriving DecidableEq

def Request.operation (request : Request) : String := request.arguments.operation

def Request.operationId (request : Request) : String :=
  request.operation ++ "@" ++ toString request.contractVersion

end MsgServer.Requests
