import MsgServer.Security.Authorization
import MsgServer.Security.Bindings
import MsgServer.Security.TokenDelivery
import MsgServer.Storage.Paths

/-!
The operations of plugins/identity.py, plugins/delegated_identity.py and extensions/ssh.py
that write credentials or keys, and the part of plugins/custodial_lifecycle.py that does.
What an operation does beside that to the authority tables (handles, resources,
certificates, the other checks of a request for a certificate) is an `Aside` of the step:
it may refuse, and it leaves subjects alone.
-/

namespace MsgServer.Identity

open Library Session Policy Accounts Bindings Requests Authorization TokenDelivery Certificates

structure Aside where
  act : Store → Except Failure Store
  keeps : ∀ store next, act store = .ok next → next.subjects = store.subjects

/-- Nothing else to do. -/
def Aside.idle : Aside where
  act := .ok
  keeps := by
    intro store next same
    cases same
    rfl

structure Step where
  context : Context
  request : Request
  aside : Aside

def Step.now (step : Step) : Nat := step.context.now

variable (app : Installation) (state : State)

/-- `controlled_owner`. An anonymous caller, who has no subject, stops at authentication. -/
def controlledOwner (step : Step) : Except Failure Subject := do
  let principal := step.context.principal
  let target ← requireRow principal.subject "identity_owner_required"
  require (principal.actor = some target) "identity_owner_required"
  require (target ≠ rootSubject) "local_only"
  requireBase app.toApp state.view step.now principal step.request.operationId target
  subject state.store target

def ceilingGrant (principal : Principal) (grant : CapabilityGrant) : Except Failure Unit := do
  let _ ← validateGrant app.toApp state.view grant
  let covered ← anyOf principal.ceiling fun allowed => attenuates app.toApp state.view grant allowed
  require (covered = true) "credential_ceiling_escalation"

def validateCeiling (step : Step) (grants : List CapabilityGrant) : Except Failure Unit :=
  grants.forM (ceilingGrant app state step.context.principal)

/-- `make_user` as the accounts see it. -/
def makeUser (id : String) (kind : SubjectKind) : Except Failure State :=
  updateSubject state ⟨id, kind, 0, false⟩ none

def bumpSubject (row : Subject) : Except Failure State :=
  updateSubject state { row with authVersion := row.authVersion + 1 } (some row.authVersion)

def signingKey (publicKey subject : String) (ceiling : List CapabilityGrant) (now : Nat) :
    StoredCredential where
  id := app.keyId publicKey
  subjectId := subject
  kind := .signingKey
  verifier := publicKey
  ceiling := ceiling
  notBefore := now
  expiresAt := none
  revokedAt := none
  sourceCredentialId := none

def sshKey (publicKey subject : String) (ceiling : List CapabilityGrant) (now : Nat) :
    StoredCredential :=
  { signingKey app publicKey subject ceiling now with kind := .sshKey }

def delegatedKey (publicKey subject : String) (grants : List CapabilityGrant) (now ends : Nat) :
    StoredCredential :=
  { signingKey app publicKey subject grants now with expiresAt := some ends }

def tokenRow (id subject token : String) (ceiling : List CapabilityGrant) (now expiresAt : Nat)
    (source : Option String) : StoredCredential where
  id := id
  subjectId := subject
  kind := .token
  verifier := app.sha256 token
  ceiling := ceiling
  notBefore := now
  expiresAt := some expiresAt
  revokedAt := none
  sourceCredentialId := source

def revoked (now : Nat) (row : StoredCredential) : StoredCredential :=
  { row with revokedAt := some now }

/-- Saves every row again, revoked. -/
def revokeEach (rows : List StoredCredential) (now version : Nat) : Except Failure State :=
  rows.foldlM (fun current row => saveCredential current (revoked now row) version) state

def independentKeys (publicKey recipient : String) : Except Failure String := do
  decodable app 32 publicKey
  let encryption ← app.recipientKey recipient
  require (publicKey ≠ encryption) "encryption_key_must_be_independent"
  return app.encryptionKeyId encryption

def insertKeys (state : State) (subject keyId publicKey encryptionId recipient : String)
    (now : Nat) : Except Failure State := do
  let keyed ← insertIdentityKey state ⟨keyId, subject, publicKey, now, none, true⟩
  insertEncryptionSubkey keyed ⟨encryptionId, subject, recipient, now, none, true⟩

def finish (aside : Aside) (data : Data) : Except Failure (State × Data) := do
  let store ← aside.act state.store
  return ({ state with store := store }, data)

def register (step : Step) (publicKey recipient : String) : Except Failure (State × Data) := do
  let user ← requireRow step.context.principal.subject "identity_owner_required"
  require (2 ≤ step.request.contractVersion) "encryption_subkey_required"
  let encryptionId ← independentKeys app publicKey recipient
  let made ← makeUser state user .registered
  let row := signingKey app publicKey user app.primaryCeiling step.now
  let saved ← saveCredential made row 0
  let keyed ← insertKeys saved user row.id publicKey encryptionId recipient step.now
  finish keyed step.aside
    { subjectId := user, keyId := some row.id, encryptionKeyId := some encryptionId }

/-- The first token of a new subject: its id is the principal's, its secret the
request's. -/
def firstToken (step : Step) (user nonce : String) : Except Failure StoredCredential := do
  let id ← requireRow step.context.principal.credentialId "credential_not_found"
  return tokenRow app id user (app.issuedToken user step.request.requestId nonce)
    app.temporaryCeiling step.now (step.now + app.temporaryTtl) none

def temporary (step : Step) (nonce publicKey recipient : String) (possession : Signature) :
    Except Failure (State × Data) := do
  require (3 ≤ step.request.contractVersion) "temporary_dual_keys_required"
  let user ← requireRow step.context.principal.subject "identity_owner_required"
  let encryptionId ← independentKeys app publicKey recipient
  verified app.toApp publicKey (app.canonical [("subject_id", user), ("nonce", nonce),
    ("public_key", publicKey), ("encryption_recipient", recipient),
    ("request_id", step.request.requestId)]) possession "temporary-key-possession-v1"
  let made ← makeUser state user .temporary
  let key := signingKey app publicKey user app.temporaryCeiling step.now
  let signed ← saveCredential made key 0
  let keyed ← insertKeys signed user key.id publicKey encryptionId recipient step.now
  let token ← firstToken app step user nonce
  let saved ← saveCredential keyed token 0
  let delivered ← recordTokenDelivery app saved step.request token step.now none
  finish delivered step.aside
    { subjectId := user, credentialId := some token.id, keyId := some key.id,
      encryptionKeyId := some encryptionId, expiresAt := token.expiresAt }

def custodialCreate (step : Step) (nonce drawnKey drawnRecipient : String) :
    Except Failure (State × Data) := do
  let user ← requireRow step.context.principal.subject "identity_owner_required"
  let encryptionId ← independentKeys app drawnKey drawnRecipient
  let made ← makeUser state user .custodial
  let key := signingKey app drawnKey user [] step.now
  let signed ← saveCredential made key 0
  let token ← firstToken app step user nonce
  let saved ← saveCredential signed token 0
  let delivered ← recordTokenDelivery app saved step.request token step.now none
  let keyed ← insertKeys delivered user key.id drawnKey encryptionId drawnRecipient step.now
  let vaults ← insertRow keyed.vaults ⟨user, key.id, encryptionId, true, true, .active⟩
  finish { keyed with vaults := vaults } step.aside
    { subjectId := user, credentialId := some token.id, keyId := some key.id,
      encryptionKeyId := some encryptionId, expiresAt := token.expiresAt }

/-- The successor is built without `source_credential_id`. -/
def tokenRotate (step : Step) (nonce : String) : Except Failure (State × Data) := do
  let owner ← controlledOwner app state step
  let oldId ← requireRow step.context.principal.credentialId "credential_not_found"
  let old ← storedCredential state oldId
  require (old.kind = .token) "token_required"
  require (24 ≤ app.byteLength nonce) "invalid_bootstrap_nonce"
  let row := tokenRow app (app.tokenId step.request.requestId owner.resourceId) owner.resourceId
    (app.issuedToken owner.resourceId step.request.requestId nonce) old.ceiling step.now
    (step.now + app.temporaryTtl) none
  let saved ← saveCredential state row owner.authVersion
  let delivered ← recordTokenDelivery app saved step.request row step.now none
  let ended ← saveCredential delivered (revoked step.now old) owner.authVersion
  finish ended step.aside
    { subjectId := owner.resourceId, credentialId := some row.id,
      previousCredential := some old.id, expiresAt := row.expiresAt }

/-- The primary key of a subject that may have none yet. -/
def primaryOr (state : State) (subject keyId publicKey : String) (now : Nat) :
    Except Failure State :=
  match primaryKey state subject with
  | none => insertIdentityKey state ⟨keyId, subject, publicKey, now, none, true⟩
  | some row => do
      require (row.keyId = keyId ∧ row.publicKey = publicKey) "temporary_identity_key_mismatch"
      return state

def primarySubkeyOr (state : State) (subject keyId recipient : String) (now : Nat) :
    Except Failure State :=
  match primarySubkey state subject with
  | none => insertEncryptionSubkey state ⟨keyId, subject, recipient, now, none, true⟩
  | some row => do
      require (row.keyId = keyId ∧ row.recipient = recipient) "temporary_encryption_key_mismatch"
      return state

def upgrade (step : Step) (handle publicKey : String) (possession : Signature)
    (recipient : String) : Except Failure (State × Data) := do
  require (2 ≤ step.request.contractVersion) "encryption_subkey_required"
  let owner ← controlledOwner app state step
  require (owner.kind = .temporary) "not_temporary"
  let encryptionId ← independentKeys app publicKey recipient
  verified app.toApp publicKey (app.canonical [("subject_id", owner.resourceId),
    ("public_key", publicKey), ("handle", handle), ("encryption_recipient", recipient)])
    possession "upgrade"
  let version := owner.authVersion + 1
  let raised ← updateSubject state { owner with kind := .registered, authVersion := version }
    (some owner.authVersion)
  let row := signingKey app publicKey owner.resourceId app.primaryCeiling step.now
  let saved ← saveCredential raised row version
  let keyed ← primaryOr saved owner.resourceId row.id publicKey step.now
  let sealed ← primarySubkeyOr keyed owner.resourceId encryptionId recipient step.now
  let ended ← revokeEach sealed
    ((credentialsOf sealed owner.resourceId).filter fun old =>
      old.kind == .token && old.revokedAt == none) step.now version
  finish ended step.aside
    { subjectId := owner.resourceId, keyId := some row.id, encryptionKeyId := some encryptionId }

def keyAdd (step : Step) (publicKey : String) (possession : Signature)
    (ceiling : List CapabilityGrant) : Except Failure (State × Data) := do
  let owner ← controlledOwner app state step
  decodable app 32 publicKey
  verified app.toApp publicKey (app.canonical [("subject_id", owner.resourceId),
    ("public_key", publicKey)]) possession "key-add"
  validateCeiling app state step ceiling
  require (state.credentials.find? (app.keyId publicKey) = none) "key_exists"
  let row := signingKey app publicKey owner.resourceId ceiling step.now
  let saved ← saveCredential state row owner.authVersion
  let keyed ← insertIdentityKey saved
    ⟨row.id, owner.resourceId, publicKey, step.now, none, false⟩
  let raised ← bumpSubject keyed owner
  finish raised step.aside { subjectId := owner.resourceId, keyId := some row.id }

def otherSigningKey (state : State) (row : StoredCredential) : Bool :=
  (credentialsOf state row.subjectId).any fun other =>
    other.kind == .signingKey && other.revokedAt == none && other.id != row.id

def retired (now : Nat) (row : IdentityKey) : IdentityKey :=
  { row with primary := false, retiredAt := some now }

def promoted (row : IdentityKey) : IdentityKey := { row with primary := true }

/-- The key goes out of use; if it was the primary one, the oldest key that is not
retired takes its place. -/
def dropKey (state : State) (subject keyId : String) (now : Nat) : State :=
  match state.identityKeys.find? keyId with
  | none => state
  | some current =>
      if current.subject = subject then
        let without := { state with
          identityKeys := state.identityKeys.modify keyId (retired now) }
        if current.primary then
          match oldest (liveKeys without subject) with
          | none => without
          | some replacement => { without with
              identityKeys := without.identityKeys.modify replacement.keyId promoted }
        else without
      else state

def keyRevoke (step : Step) (keyId : String) : Except Failure (State × Data) := do
  let owner ← controlledOwner app state step
  let row ← storedCredential state keyId
  require (row.subjectId = owner.resourceId) "credential_owner_required"
  require (row.kind ≠ .signingKey ∨ otherSigningKey state row = true) "last_signing_key"
  let saved ← saveCredential state (revoked step.now row) owner.authVersion
  let raised ← bumpSubject (dropKey saved owner.resourceId row.id step.now) owner
  finish raised step.aside { subjectId := owner.resourceId, keyId := some row.id }

/-- The read operations a token gets when its request names no ceiling. -/
def readable (spec : OperationSpec) : Bool :=
  spec.effect == .read && !spec.requireSignature && !restricted spec

def tokenCeiling (step : Step) (asked : Option (List CapabilityGrant)) :
    Except Failure (List CapabilityGrant) :=
  match asked with
  | some ceiling => .ok ceiling
  | none =>
      if step.request.contractVersion = 3 then
        .ok (limitedTo ((app.operations.filter readable).map OperationSpec.id)
          step.context.principal.ceiling)
      else .error { code := "internal_error" }

/-- A token of the third version is bound to the key that asked for it. -/
def tokenSource (step : Step) : Option String :=
  if 3 ≤ step.request.contractVersion then step.context.principal.credentialId else none

def apiSource (owner : Subject) (parent : String) : OwnSource where
  subject := owner.resourceId
  parent := parent
  authVersion := owner.authVersion
  custodial := false
  ceiling := []
  authTime := 0

def putApi (state : State) (row : StoredCredential) (own : OwnSource) : Except Failure State := do
  let expires ← requireRow row.expiresAt "internal_error"
  return { state with oauth := { state.oauth with
    apis := state.oauth.apis.put ⟨row.id, expires, own⟩ } }

def replacePrevious (state : State) (owner : Subject) (now : Nat) (previous : Option String) :
    Except Failure State :=
  match previous with
  | none => .ok state
  | some id => do
      let old ← storedCredential state id
      require (old.kind = .token ∧ old.subjectId = owner.resourceId ∧ old.revokedAt = none)
        "credential_owner_required"
      require ((state.oauth.apis.find? old.id).isSome = true) "api_key_required"
      saveCredential state (revoked now old) owner.authVersion

def bindApi (state : State) (step : Step) (owner : Subject) (row : StoredCredential)
    (previous : Option String) : Except Failure State :=
  if 3 ≤ step.request.contractVersion then do
    let parent ← requireRow step.context.principal.credentialId "credential_not_found"
    let bound ← putApi state row (apiSource owner parent)
    replacePrevious bound owner step.now previous
  else .ok state

def tokenCreate (step : Step) (nonce : String) (asked : Option (List CapabilityGrant)) (ttl : Nat)
    (previous : Option String) : Except Failure (State × Data) := do
  let owner ← controlledOwner app state step
  let ceiling ← tokenCeiling app step asked
  validateCeiling app state step ceiling
  require (24 ≤ app.byteLength nonce) "invalid_bootstrap_nonce"
  let row := tokenRow app (app.tokenId step.request.requestId owner.resourceId) owner.resourceId
    (app.issuedToken owner.resourceId step.request.requestId nonce) ceiling step.now
    (step.now + app.seconds ttl) (tokenSource step)
  let saved ← saveCredential state row owner.authVersion
  let delivered ← recordTokenDelivery app saved step.request row step.now none
  let bound ← bindApi delivered step owner row previous
  finish bound step.aside
    { subjectId := owner.resourceId, credentialId := some row.id, expiresAt := row.expiresAt }

/-- The binding of an API key goes over to its successor. -/
def copyApi (state : State) (oldId : String) (row : StoredCredential) : Except Failure State :=
  match state.oauth.apis.find? oldId with
  | none => .ok state
  | some api => putApi state row api.body

/-- `UPDATE token_deliveries SET consumed_at=? ... AND consumed_at IS NULL`, which must
hit its row. -/
def consumeDelivery (state : State) (credentialId : String) (now : Nat) : Except Failure State := do
  let row ← requireRow (state.deliveries.find? credentialId) "recovery_unavailable"
  require (row.consumedAt = none) "recovery_unavailable"
  return { state with deliveries := state.deliveries.modify credentialId (consume now) }

def tokenRecover (step : Step) (oldId originalRequestId nonce : String) :
    Except Failure (State × Data) := do
  let owner ← controlledOwner app state step
  let old ← storedCredential state oldId
  let expiresAt ← requireRow old.expiresAt "recovery_unavailable"
  require (old.subjectId = owner.resourceId ∧ old.kind = .token ∧ old.revokedAt = none ∧
    step.now < expiresAt) "recovery_unavailable"
  let delivery ← requireRow (state.deliveries.find? old.id) "recovery_unavailable"
  require (delivery.subject = owner.resourceId ∧ delivery.requestId = originalRequestId ∧
    delivery.consumedAt = none ∧ step.now < delivery.recoveryExpiresAt ∧
    step.request.requestId ≠ delivery.requestId) "recovery_unavailable"
  decodable app 64 nonce
  require (24 ≤ app.byteLength nonce) "invalid_bootstrap_nonce"
  let row := tokenRow app (app.tokenId step.request.requestId owner.resourceId) owner.resourceId
    (app.issuedToken owner.resourceId step.request.requestId nonce) old.ceiling step.now
    expiresAt old.sourceCredentialId
  require (row.id ≠ old.id) "recovery_unavailable"
  let delivered ← recordTokenDelivery app state step.request row step.now
    (some delivery.recoveryExpiresAt)
  let saved ← saveCredential delivered row owner.authVersion
  let ended ← saveCredential saved (revoked step.now old) owner.authVersion
  let bound ← copyApi ended old.id row
  let consumed ← consumeDelivery bound old.id step.now
  finish consumed step.aside
    { subjectId := owner.resourceId, credentialId := some row.id,
      previousCredential := some old.id, expiresAt := row.expiresAt }

/-- A key that only signs its request is a verifier without any rights. -/
def verifierKey (step : Step) (owner publicKey : String) : Except Failure State :=
  match state.credentials.find? (app.keyId publicKey) with
  | some existing => do
      require (existing.subjectId = owner) "key_owner_mismatch"
      return state
  | none => do
      let row ← subject state.store owner
      saveCredential state (signingKey app publicKey row.resourceId [] step.now) row.authVersion

def certRequest (step : Step) (publicKey drawn : String) : Except Failure (State × Data) := do
  let owner ← requireRow step.context.principal.subject "credential_owner_required"
  requireBase app.toApp state.view step.now step.context.principal step.request.operationId owner
  decodable app 32 publicKey
  let saved ← verifierKey app state step owner publicKey
  let requests ← insertRow saved.requests ⟨drawn, owner, publicKey, true⟩
  finish { saved with requests := requests } step.aside { subjectId := owner }

def answered (row : CertificateRequest) : CertificateRequest := { row with pending := false }

/-- A key without rights gets those of its first certificate. -/
def fillCeiling (state : State) (cert : Certificate) : Except Failure State := do
  let row ← storedCredential state cert.keyId
  let owner ← subject state.store row.subjectId
  if row.ceiling = [] then
    saveCredential state { row with ceiling := cert.grants } owner.authVersion
  else return state

def certPublish (step : Step) (csrId : String) (cert : Certificate) :
    Except Failure (State × Data) := do
  let csr ← requireRow (state.requests.find? csrId) "csr_not_found"
  require (csr.pending = true) "csr_not_pending"
  let principal := step.context.principal
  require (principal.actor = some cert.issuerId ∧ principal.subject = some cert.issuerId ∧
    cert.issuerId ≠ rootSubject) "issuer_mismatch"
  ceiling app.toApp state.view step.now principal step.request.operationId csr.resourceId
  let allowed ← has app.toApp state.view step.now principal "cert.issue" step.request.operationId
    csr.resourceId
  require (allowed = true) "certificate_issue_required"
  require (cert.subjectId = csr.subject ∧ cert.keyId = app.keyId csr.publicKey)
    "csr_certificate_mismatch"
  let filled ← fillCeiling { state with requests := state.requests.modify csrId answered } cert
  finish filled step.aside { subjectId := csr.subject }

/-- Account recovery: every credential of the subject is saved again as revoked, those
that already were among them. The two key tables are not touched. -/
def recover (step : Step) (target publicKey : String) (possession : Signature) :
    Except Failure (State × Data) := do
  let id ← resolve app.toApp state.view target
  let owner ← subject state.store id
  require (owner.localOnly = false ∧ id ≠ rootSubject) "local_only"
  let allowed ← has app.toApp state.view step.now step.context.principal "identity.recover"
    step.request.operationId id
  require (allowed = true) "identity_recovery_required"
  decodable app 32 publicKey
  verified app.toApp publicKey (app.canonical [("subject_id", id), ("public_key", publicKey)])
    possession "recover"
  let ended ← revokeEach state (credentialsOf state id) step.now owner.authVersion
  let row := signingKey app publicKey id app.primaryCeiling step.now
  let saved ← saveCredential ended row owner.authVersion
  let raised ← bumpSubject saved owner
  finish raised step.aside { subjectId := id, keyId := some row.id }

def encryptionKeyRotate (step : Step) (recipient : String) : Except Failure (State × Data) := do
  let owner ← controlledOwner app state step
  let encryption ← app.recipientKey recipient
  let keyId := app.encryptionKeyId encryption
  let current ← requireRow (primarySubkey state owner.resourceId) "encryption_key_not_found"
  require (current.keyId ≠ keyId) "encryption_key_unchanged"
  require (state.encryptionSubkeys.find? keyId = none) "encryption_key_exists"
  let rotated ← insertEncryptionSubkey (retireSubkeys state owner.resourceId step.now)
    ⟨keyId, owner.resourceId, recipient, step.now, none, true⟩
  finish rotated step.aside
    { subjectId := owner.resourceId, keyId := some keyId, previousKeyId := some current.keyId }

def sshKeyAdd (step : Step) (publicKey : String) (possession : Signature)
    (ceiling : List CapabilityGrant) : Except Failure (State × Data) := do
  let owner ← controlledOwner app state step
  require (owner.kind = .registered) "registered_identity_required"
  verified app.toApp publicKey (app.canonical [("subject_id", owner.resourceId),
    ("public_key", publicKey)]) possession "ssh-key-add"
  require (ceiling ≠ []) "credential_ceiling"
  validateCeiling app state step ceiling
  require (state.credentials.find? (app.keyId publicKey) = none) "credential_already_registered"
  let row := sshKey app publicKey owner.resourceId ceiling step.now
  let saved ← saveCredential state row owner.authVersion
  finish saved step.aside { subjectId := owner.resourceId, keyId := some row.id }

def sshKeyRevoke (step : Step) (keyId : String) : Except Failure (State × Data) := do
  let owner ← controlledOwner app state step
  let row ← storedCredential state keyId
  require (row.kind = .sshKey ∧ row.subjectId = owner.resourceId) "credential_subject_mismatch"
  let saved ← saveCredential state (revoked step.now row) owner.authVersion
  finish saved step.aside { subjectId := owner.resourceId, keyId := some row.id }

/-- `identity.delegated_create` as the accounts see it: a key of a new subject, until the
request's ttl or the issuer's certificate ends. -/
def delegatedCreate (step : Step) (publicKey recipient : String) (grants : List CapabilityGrant)
    (ends : Nat) (maxUses : Option Nat) (drawnCertificate : String) :
    Except Failure (State × Data) := do
  let grantor ← requireRow step.context.principal.subject "local_only"
  require (grantor ≠ rootSubject) "local_only"
  let encryptionId ← independentKeys app publicKey recipient
  require (state.credentials.find? (app.keyId publicKey) = none) "key_exists"
  let user := app.subjectId publicKey
  let made ← makeUser state user .temporary
  let row := delegatedKey app publicKey user grants step.now ends
  let saved ← saveCredential made row 0
  let keyed ← insertKeys saved user row.id publicKey encryptionId recipient step.now
  finish { keyed with
      delegatedIdentities := (user, ⟨grantor, drawnCertificate, maxUses, 0⟩) ::
        keyed.delegatedIdentities } step.aside
    { subjectId := user, keyId := some row.id, encryptionKeyId := some encryptionId }

/-- New writes must no longer target the vault's key. -/
def activateEncryptionTarget (state : State) (subject : String) (keys : KeySwitch) (now : Nat) :
    Except Failure State :=
  match primarySubkey state subject with
  | none => .error { code := "custodial_encryption_target_changed" }
  | some current =>
      if current.keyId = keys.newEncryptionKeyId then .ok state
      else do
        require (current.keyId = keys.oldEncryptionKeyId) "custodial_encryption_target_changed"
        insertEncryptionSubkey (retireSubkeys state subject now)
          ⟨keys.newEncryptionKeyId, subject, keys.recipient, now, none, true⟩

/-- The signing secret goes in any case, the decryption secret unless it is retained. -/
def retireVault (retainDecrypt : Bool) (row : Vault) : Vault :=
  if retainDecrypt then { row with signingSecret := false, status := .decryptOnly }
  else { row with signingSecret := false, decryptSecret := false, status := .destroyed }

def openSigner (state : State) (subject : String) : Except Failure Vault := do
  let row ← requireRow (state.vaults.find? subject) "custodial_vault_unavailable"
  require (row.status = .active ∧ row.signingSecret = true) "custodial_vault_unavailable"
  return row

/-- What the switch revokes: tokens and signing keys that are not revoked yet. -/
def switchRevokes (row : StoredCredential) : Bool :=
  row.revokedAt == none && (row.kind == .token || row.kind == .signingKey)

def switchIdentity (step : Step) (owner : Subject) (keys : KeySwitch) (retainDecrypt : Bool) :
    Except Failure State := do
  require (owner.kind = .custodial) "custodial_token_required"
  let _ ← openSigner state owner.resourceId
  require (keys.newIdentityKeyId = app.keyId keys.publicKey) "custodial_challenge_invalid"
  let ended ← revokeEach state ((credentialsOf state owner.resourceId).filter switchRevokes)
    step.now owner.authVersion
  let row := signingKey app keys.publicKey owner.resourceId app.primaryCeiling step.now
  let saved ← saveCredential ended row owner.authVersion
  let keyed ← insertIdentityKey (retireKeys saved owner.resourceId step.now)
    ⟨row.id, owner.resourceId, keys.publicKey, step.now, none, true⟩
  let targeted ← activateEncryptionTarget keyed owner.resourceId keys step.now
  let raised ← updateSubject targeted
    { owner with kind := .registered, authVersion := owner.authVersion + 1 } (some owner.authVersion)
  let vaults := raised.vaults.modify owner.resourceId (retireVault retainDecrypt)
  return { raised with vaults := vaults }

def custodialUpgradeFinish (step : Step) (custody : Custody) : Except Failure (State × Data) := do
  let owner ← controlledOwner app state step
  match custody with
  | .idle => finish state step.aside { subjectId := owner.resourceId }
  | .target keys => do
      let targeted ← activateEncryptionTarget state owner.resourceId keys step.now
      finish targeted step.aside { subjectId := owner.resourceId }
  | .switch keys retainDecrypt => do
      let switched ← switchIdentity app state step owner keys retainDecrypt
      finish switched step.aside
        { subjectId := owner.resourceId, credentialId := some keys.newIdentityKeyId,
          previousCredential := step.context.principal.credentialId,
          keyId := some keys.newIdentityKeyId, encryptionKeyId := some keys.newEncryptionKeyId }
  | .retire retainDecrypt => do
      require (owner.kind = .registered) "custodial_upgrade_new_key_required"
      finish { state with
          vaults := state.vaults.modify owner.resourceId (retireVault retainDecrypt) } step.aside
        { subjectId := owner.resourceId }

/-- An operation of another plugin. -/
def elsewhere (step : Step) : Except Failure (State × Data) :=
  finish state step.aside { subjectId := step.context.principal.subject.getD "" }

def perform (step : Step) : Except Failure (State × Data) :=
  match step.request.arguments with
  | .register publicKey recipient => register app state step publicKey recipient
  | .temporary nonce _ publicKey recipient possession =>
      temporary app state step nonce publicKey recipient possession
  | .custodialCreate nonce _ drawnKey drawnRecipient =>
      custodialCreate app state step nonce drawnKey drawnRecipient
  | .tokenRotate nonce _ => tokenRotate app state step nonce
  | .upgrade handle publicKey possession recipient =>
      upgrade app state step handle publicKey possession recipient
  | .keyAdd publicKey possession ceiling => keyAdd app state step publicKey possession ceiling
  | .keyRevoke keyId => keyRevoke app state step keyId
  | .tokenCreate nonce ceiling ttl _ previous => tokenCreate app state step nonce ceiling ttl previous
  | .tokenRecover oldId originalRequestId _ nonce _ =>
      tokenRecover app state step oldId originalRequestId nonce
  | .certRequest publicKey drawn => certRequest app state step publicKey drawn
  | .certPublish csrId cert => certPublish app state step csrId cert
  | .recover target publicKey possession => recover app state step target publicKey possession
  | .encryptionKeyRotate recipient => encryptionKeyRotate app state step recipient
  | .sshKeyAdd publicKey possession ceiling => sshKeyAdd app state step publicKey possession ceiling
  | .sshKeyRevoke keyId => sshKeyRevoke app state step keyId
  | .delegatedCreate publicKey recipient grants ends maxUses drawnCertificate =>
      delegatedCreate app state step publicKey recipient grants ends maxUses drawnCertificate
  | .custodialUpgradeFinish _ custody => custodialUpgradeFinish app state step custody
  | .other _ => elsewhere state step

end MsgServer.Identity
