import MsgServer.Library.Crash
import MsgServer.Security.Certificates
import MsgServer.Storage.Accounts
import MsgServer.Storage.Tree

/-!
The completion of a root rotation: admin/rotation.py with security/trust_files.py and
security/rotation_journal.py. The durable state is the database, the key envelope, the
history copies, the two trust aliases and the pending journal, and nobody else writes
them while the rotation lock is held. A JSON text is the record it decodes to, bytes are
their base64 text. Symlinks, modes and owners of files, on which no modelled step has an
effect, are left out, and so is the legacy place of the protected directory.
-/

namespace MsgServer.Rotation

open Library Session Crash Certificates

/-- The whole of a certificate request. -/
structure CertificateRequest where
  resourceId : String
  applicant : String
  subjectId : String
  requestedIssuer : String
  publicKey : String
  kind : CertificateKind
  grants : List CapabilityGrant
  issuance : Option IssuancePolicy
  requestedTtlSeconds : Nat
  targetService : String
  delegationDepth : Nat
  authoritySources : List ResourceRef
  requestDigest : String
  possessionProof : Signature
  deriving DecidableEq

structure Trust where
  version : Nat
  publicKey : String
  certificate : Certificate
  deriving DecidableEq

structure Statement where
  oldCertificate : String
  oldFingerprint : String
  newCertificate : String
  newFingerprint : String
  time : Nat
  operator : String
  previousKeyProved : Bool
  deriving DecidableEq

/-- The pending journal. `newEnvelope` is the canonical text of the sealed key. -/
structure Journal where
  version : Nat
  oldCertificate : Certificate
  newTrust : Trust
  newEnvelope : String
  previousEnvelopeDigest : Option String
  onlineCsr : CertificateRequest
  statement : Statement
  newSignature : Signature
  oldSignature : Option Signature
  deriving DecidableEq

/-- Public, signed commitments. -/
structure Authorization where
  version : Nat
  statement : Statement
  oldCertificateDigest : String
  newTrustDigest : String
  newEnvelopeDigest : String
  onlineCsrDigest : String
  previousEnvelopeDigest : Option String
  deriving DecidableEq

structure RotationEvent where
  id : String
  time : Nat
  requestId : String
  statement : Statement
  authorization : Authorization
  newSignature : Signature
  oldSignature : Option Signature
  beforeDigest : String
  afterDigest : String
  deriving DecidableEq

/-- A row of the audit chain; `none` for an event of another kind. -/
structure AuditRow where
  digest : String
  previous : Option String
  event : Option RotationEvent
  deriving DecidableEq

structure Settings where
  activeRootCertificate : Option String
  onlineCaRequest : Option String
  onlineCaCertificate : Option String
  authorizationEpoch : Nat
  rootRotations : List (String × Statement)
  deriving DecidableEq

structure Database where
  accounts : Accounts.State
  csrs : Table CertificateRequest.resourceId
  settings : Settings
  audit : List AuditRow

inductive TrustPath where
  | rootCrt | rootJson
  deriving DecidableEq

def trustPaths : List TrustPath := [.rootCrt, .rootJson]

/-- What stands in a trust alias: a trust value or some other JSON value. -/
inductive TrustFile where
  | value (trust : Trust)
  | foreign (text : String)
  deriving DecidableEq

structure State where
  db : Database
  keyFile : Option String
  history : String → Option String
  trust : TrustPath → Option TrustFile
  pending : Option Journal

def certSpace : String := "t_certificates"
def csrSpace : String := "t_csr"
def adminsGroup : String := "g_admins"

/-- The installation at its console. `openPrivateKey` is the public key of the private
key that an envelope gives up to a PIN: AES-GCM and scrypt are another package's. An
envelope that opens has ten fields of fixed size, so it is short. -/
structure Console where
  app : App
  onlinePublic : String
  openPrivateKey : String → String → Except Failure String
  keyId : String → String
  byteLength : String → Nat
  digestBytes : String → String
  digestCertificate : Certificate → String
  digestTrust : Trust → String
  digestCsr : CertificateRequest → String
  csrBody : CertificateRequest → String
  csrBodyDigest : CertificateRequest → String
  authorizationText : Authorization → String
  auditDigest : RotationEvent → Option String → String
  privateLimit : Nat
  openedShort : ∀ envelope pin publicKey, openPrivateKey envelope pin = .ok publicKey →
    0 < byteLength envelope ∧ byteLength envelope ≤ privateLimit
  certSpacePlain : app.isHexId certSpace = false
  csrSpacePlain : app.isHexId csrSpace = false

/-- What one run draws: the time its clock shows and the id of its audit event. -/
structure Draw where
  now : Nat
  auditId : String

variable (console : Console)

def authorization (journal : Journal) : Authorization where
  version := journal.version
  statement := journal.statement
  oldCertificateDigest := console.digestCertificate journal.oldCertificate
  newTrustDigest := console.digestTrust journal.newTrust
  newEnvelopeDigest := console.digestBytes journal.newEnvelope
  onlineCsrDigest := console.digestCsr journal.onlineCsr
  previousEnvelopeDigest := journal.previousEnvelopeDigest

def verifyCsr (request : CertificateRequest) : Except Failure Unit := do
  require (request.requestDigest = console.csrBodyDigest request) "csr_digest_mismatch"
  verified console.app request.publicKey (console.csrBody request) request.possessionProof "csr"

def onlineRequest (csr : CertificateRequest) : Prop :=
  csr.publicKey = console.onlinePublic ∧ csr.subjectId = onlineCa ∧ csr.applicant = onlineCa ∧
    csr.requestedIssuer = rootSubject ∧ csr.targetService = console.app.service ∧
    csr.kind = .ca ∧ csr.delegationDepth = 0 ∧ csr.authoritySources = [] ∧
    csr.issuance.map IssuancePolicy.maxChildCaDepth = some 0 ∧
    csr.grants.map CapabilityGrant.capability = ["cert.issue"]

instance (csr : CertificateRequest) : Decidable (onlineRequest console csr) :=
  inferInstanceAs (Decidable (_ ∧ _))

/-- `validate` of rotation_journal.py: the public key of the new root. -/
def validate (journal : Journal) (pin : String) : Except Failure String := do
  require (journal.version = 2) "rotation_journal_upgrade_required"
  let publicKey ← console.openPrivateKey journal.newEnvelope pin
  let trust := journal.newTrust
  require (trust.version = 1) "invalid_trust_anchor"
  require (publicKey = trust.publicKey) "root_key_mismatch"
  verified console.app publicKey (console.authorizationText (authorization console journal))
    journal.newSignature "root-rotation"
  let old := journal.oldCertificate
  let new := trust.certificate
  let statement := journal.statement
  require (statement.oldCertificate = old.resourceId ∧
    statement.newCertificate = new.resourceId ∧
    statement.newFingerprint = console.digestBytes publicKey ∧
    statement.previousKeyProved = journal.oldSignature.isSome) "rotation_statement_mismatch"
  require (old.resourceId ≠ new.resourceId ∧ old.keyId ≠ new.keyId) "rotation_keys_must_change"
  require (new.keyId = console.keyId publicKey ∧ new.subjectId = rootSubject ∧
    new.issuerId = rootSubject ∧ new.parentCertificateId = none ∧ new.kind = .ca ∧
    new.issuance.isSome = true ∧ new.authoritySources = [] ∧ old.subjectId = rootSubject ∧
    new.targetService = console.app.service ∧ old.targetService = console.app.service)
    "rotation_service_mismatch"
  verified console.app publicKey (console.app.certificateBody new) new.signature "certificate"
  verifyCsr console journal.onlineCsr
  require (onlineRequest console journal.onlineCsr) "rotation_online_csr_mismatch"
  return publicKey

def readPrivate (content : String) : Except Failure String := do
  require (0 < console.byteLength content ∧ console.byteLength content ≤ console.privateLimit)
    "unsafe_root_private_file"
  return content

def checkKeyFile (journal : Journal) (state : State) : Except Failure Unit :=
  match state.keyFile with
  | some content => do
      let text ← readPrivate console content
      require (journal.previousEnvelopeDigest = some (console.digestBytes text) ∨
        console.digestBytes text = console.digestBytes journal.newEnvelope)
        "root_envelope_changed"
  | none => require (journal.previousEnvelopeDigest = none) "root_envelope_missing"

/-- The check of the history copy, which is made twice: what remains to be archived. -/
def checkHistory (journal : Journal) (state : State) : Except Failure (Option String) :=
  match state.history journal.oldCertificate.resourceId, journal.previousEnvelopeDigest with
  | some content, previous => do
      let text ← readPrivate console content
      require (previous = some (console.digestBytes text)) "rotation_history_mismatch"
      return none
  | none, none => return none
  | none, some previous =>
      match state.keyFile with
      | none => throw { code := "rotation_history_missing" }
      | some content => do
          let text ← readPrivate console content
          require (console.digestBytes text = previous) "rotation_history_missing"
          return some text

def trustValues (state : State) : List TrustFile := trustPaths.filterMap state.trust

def currentTrust (state : State) : Except Failure (List TrustFile) := do
  require (trustValues state ≠ []) "rotation_trust_missing"
  return trustValues state

/-- `certificate_resource` of the new root. -/
def certificateRow (certificate : Certificate) : Resource where
  id := certificate.resourceId
  type := "certificate"
  typeVersion := 1
  name := certificate.resourceId
  parent := some certSpace
  owner := certificate.subjectId
  group := publicGroup
  mode := 292
  generation := 0
  revision := none
  state := .active

def csrRow (csr : CertificateRequest) : Resource where
  id := csr.resourceId
  type := "csr"
  typeVersion := 1
  name := csr.resourceId
  parent := some csrSpace
  owner := onlineCa
  group := adminsGroup
  mode := 384
  generation := 0
  revision := none
  state := .active

def sameSeed (previous row : Resource) : Prop :=
  previous.type = row.type ∧ previous.name = row.name ∧ previous.parent = row.parent ∧
    previous.owner = row.owner ∧ previous.group = row.group ∧ previous.mode = row.mode

instance (previous row : Resource) : Decidable (sameSeed previous row) :=
  inferInstanceAs (Decidable (_ ∧ _))

/-- `seed_resource` of a row without a body. -/
def seedResource (store : Store) (row : Resource) : Except Failure Store :=
  match store.resources.find? row.id with
  | some previous => do
      require (sameSeed previous row) "bootstrap_drift"
      return store
  | none => ResourceTree.insertResource console.app store row

def Database.store (db : Database) : Store := db.accounts.store

def Database.withStore (db : Database) (store : Store) : Database :=
  { db with accounts := { db.accounts with store := store } }

def Database.withAccounts (db : Database) (accounts : Accounts.State) : Database :=
  { db with accounts := accounts }

/-- `register_certificate` without a request. -/
def registerCertificate (db : Database) (certificate : Certificate) : Except Failure Database := do
  let grown ← insertRow db.store.certificates certificate
  return db.withStore { db.store with
    certificates := grown
    revokedCertificates := db.store.revokedCertificates.filter (· ≠ certificate.resourceId) }

def appendAudit (db : Database) (event : RotationEvent) : Database :=
  let previous := db.audit.getLast?.map AuditRow.digest
  { db with audit := db.audit ++ [⟨console.auditDigest event previous, previous, some event⟩] }

def revokeCertificate (db : Database) (id : String) (event : RotationEvent) :
    Except Failure Database := do
  let _ ← certificate db.store id
  let marked := db.withStore
    { db.store with revokedCertificates := id :: db.store.revokedCertificates }
  return appendAudit console { marked with settings :=
    { marked.settings with authorizationEpoch := marked.settings.authorizationEpoch + 1 } } event

def saveCsr (db : Database) (csr : CertificateRequest) : Except Failure Database := do
  let grown ← insertRow db.csrs csr
  return { db with csrs := grown }

def storedCsr (db : Database) (id : String) : Except Failure CertificateRequest :=
  requireRow (db.csrs.find? id) "csr_not_found"

def rootCredential (new : Certificate) (publicKey : String) : Accounts.StoredCredential where
  id := console.keyId publicKey
  subjectId := rootSubject
  kind := .signingKey
  verifier := publicKey
  ceiling := []
  notBefore := new.notBefore
  expiresAt := none
  revokedAt := none
  sourceCredentialId := none

def retired (draw : Draw) (oldKey : Accounts.StoredCredential) : Accounts.StoredCredential :=
  { oldKey with revokedAt := some draw.now }

def rotationEvent (draw : Draw) (journal : Journal) : RotationEvent where
  id := draw.auditId
  time := draw.now
  requestId := journal.newTrust.certificate.resourceId
  statement := journal.statement
  authorization := authorization console journal
  newSignature := journal.newSignature
  oldSignature := journal.oldSignature
  beforeDigest := console.digestCertificate journal.oldCertificate
  afterDigest := console.digestCertificate journal.newTrust.certificate

def rotatedSettings (journal : Journal) (settings : Settings) : Settings where
  activeRootCertificate := some journal.newTrust.certificate.resourceId
  onlineCaRequest := some journal.onlineCsr.resourceId
  onlineCaCertificate := none
  authorizationEpoch := settings.authorizationEpoch + 1
  rootRotations := (journal.newTrust.certificate.resourceId, journal.statement) ::
    settings.rootRotations.filter fun entry =>
      entry.1 ≠ journal.newTrust.certificate.resourceId

/-- The branch of the transaction that installs the new anchor. -/
def install (draw : Draw) (journal : Journal) (publicKey : String)
    (oldKey : Accounts.StoredCredential) (db : Database) : Except Failure Database := do
  let old := journal.oldCertificate
  let new := journal.newTrust.certificate
  let root ← subject db.store rootSubject
  require (root.localOnly = true) "root_policy_corrupt"
  -- Credential saves are upserts; a retired root key must never be revived.
  require (db.accounts.credentials.find? (console.keyId publicKey) = none) "root_key_reused"
  let added ← Accounts.saveCredential db.accounts (rootCredential console new publicKey)
    root.authVersion
  let accounts ← Accounts.saveCredential added (retired draw oldKey) root.authVersion
  let listed ← ResourceTree.insertResource console.app accounts.store (certificateRow new)
  let registered ← registerCertificate ((db.withAccounts accounts).withStore listed) new
  let revoked ← revokeCertificate console registered old.resourceId
    (rotationEvent console draw journal)
  let seeded ← seedResource console revoked.store (csrRow journal.onlineCsr)
  let saved ← saveCsr (revoked.withStore seeded) journal.onlineCsr
  return { saved with settings := rotatedSettings journal saved.settings }

/-- The branch that finds the new anchor active and only confirms it. -/
def confirmInstalled (journal : Journal) (publicKey : String)
    (oldKey : Accounts.StoredCredential) (db : Database) : Except Failure Unit := do
  let new := journal.newTrust.certificate
  let present ← certificate db.store new.resourceId
  require (present = new) "rotation_resume_mismatch"
  let csr ← storedCsr db journal.onlineCsr.resourceId
  require (csr = journal.onlineCsr) "rotation_resume_mismatch"
  require (oldKey.revokedAt ≠ none) "rotation_resume_mismatch"
  let revoked ← certificateRevoked db.store journal.oldCertificate.resourceId
  require (revoked = true) "rotation_resume_mismatch"
  let installed ← Accounts.storedCredential db.accounts new.keyId
  require (installed.verifier = publicKey ∧ installed.revokedAt = none) "rotation_resume_mismatch"

def trustOf (certificate : Certificate) (verifier : String) : Trust where
  version := 1
  publicKey := verifier
  certificate := certificate

def verifyOld (journal : Journal) (verifier : String) : Except Failure Unit :=
  match journal.oldSignature with
  | none => .ok ()
  | some signature => verified console.app verifier
      (console.authorizationText (authorization console journal)) signature "root-rotation"

def approved (old new : Trust) (file : TrustFile) : Prop := file = .value old ∨ file = .value new

instance (old new : Trust) (file : TrustFile) : Decidable (approved old new file) :=
  inferInstanceAs (Decidable (_ ∨ _))

def activeRoot (db : Database) : String := db.settings.activeRootCertificate.getD "cert_root"

/-- The database transaction: the old trust value and the database it commits. -/
def transaction (draw : Draw) (journal : Journal) (publicKey : String)
    (current : List TrustFile) (db : Database) : Except Failure (Trust × Database) := do
  let old := journal.oldCertificate
  let new := journal.newTrust.certificate
  require (activeRoot db = old.resourceId ∨ activeRoot db = new.resourceId)
    "trust_anchor_mismatch"
  let existing ← certificate db.store old.resourceId
  require (existing = old) "trust_anchor_mismatch"
  let oldKey ← Accounts.storedCredential db.accounts old.keyId
  require (oldKey.subjectId = rootSubject ∧
    console.digestBytes oldKey.verifier = journal.statement.oldFingerprint)
    "rotation_statement_mismatch"
  let oldTrust := trustOf old oldKey.verifier
  require (∀ file ∈ current, approved oldTrust journal.newTrust file) "rotation_trust_changed"
  verifyOld console journal oldKey.verifier
  if activeRoot db = new.resourceId then
    confirmInstalled journal publicKey oldKey db
    return (oldTrust, db)
  else
    let installed ← install console draw journal publicKey oldKey db
    return (oldTrust, installed)

def State.withDb (state : State) (db : Database) : State := { state with db := db }

def State.archive (state : State) (id text : String) : State :=
  { state with history := Function.update state.history id (some text) }

def State.installKey (state : State) (envelope : String) : State :=
  { state with keyFile := some envelope }

def State.writeAlias (state : State) (path : TrustPath) (value : Trust) : State :=
  { state with trust := Function.update state.trust path (some (.value value)) }

def State.unlinkJournal (state : State) : State := { state with pending := none }

/-- The paths that `write_trust` writes: those there are, or the first. -/
def writtenPaths (state : State) : List TrustPath :=
  match trustPaths.filter fun path => (state.trust path).isSome with
  | [] => [.rootCrt]
  | paths => paths

def approvedPaths (old new : Trust) (state : State) : Except Failure (List TrustPath) := do
  require (∀ file ∈ trustValues state, approved old new file) "rotation_trust_changed"
  return writtenPaths state

def writeTrust (old new : Trust) : Durable Failure State Unit := do
  let paths ← inspect (approvedPaths old new)
  forEach (fun path => store fun state => state.writeAlias path new) paths

structure Receipt where
  rootId : String
  certificateId : String
  fingerprint : String
  onlineCaRequest : String
  deriving DecidableEq

def receipt (journal : Journal) (publicKey : String) : Receipt where
  rootId := rootSubject
  certificateId := journal.newTrust.certificate.resourceId
  fingerprint := console.digestBytes publicKey
  onlineCaRequest := journal.onlineCsr.resourceId

def archiveKey (journal : Journal) : Durable Failure State Unit := do
  let remaining ← inspect (checkHistory console journal)
  match remaining with
  | none => pure ()
  | some text => store fun state => state.archive journal.oldCertificate.resourceId text

/-- `_complete`. -/
def complete (draw : Draw) (journal : Journal) (pin : String) :
    Durable Failure State Receipt := do
  let publicKey ← inspect fun _ => validate console journal pin
  inspect (checkKeyFile console journal)
  -- Reject unsafe or substituted history before changing the database anchor.
  let _ ← inspect (checkHistory console journal)
  let current ← inspect currentTrust
  let oldTrust ← commit fun state => do
    let (oldTrust, db) ← transaction console draw journal publicKey current state.db
    return (oldTrust, state.withDb db)
  archiveKey console journal
  store fun state => state.installKey journal.newEnvelope
  writeTrust oldTrust journal.newTrust
  -- The journal goes last, once every other durable step has been made.
  store State.unlinkJournal
  return receipt console journal publicKey

end MsgServer.Rotation
