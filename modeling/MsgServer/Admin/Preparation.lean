import MsgServer.Admin.RotationRuns

/-!
The preparation of a root rotation, `_prepare` of admin/rotation.py: it builds and signs the
new root certificate and the request of the online CA, seals the new key and writes the
journal. On an installation in order the journal it writes is one whose completion survives
crashes.
-/

namespace MsgServer.Rotation

open Library Session Crash Certificates

/-- The console with its signing keys. A private key is named, and used, by the functions of
the crypto package, for which the last fields are what the package documents; the body of a
certificate and that of a request leave out the fields that carry the signature. -/
structure Office extends Console where
  publicKey : String → String
  sign : String → String → String → Signature
  sealPrivateKey : String → String → Except Failure String
  onlineKey : String
  primaryCeiling : List CapabilityGrant
  baseGrants : List CapabilityGrant
  certIssue : CapabilityGrant
  baseCertificateTtl : Nat
  yearSeconds : Nat
  certIssueNamed : certIssue.capability = "cert.issue"
  onlineKeyPublic : publicKey onlineKey = onlinePublic
  signVerifies : ∀ key payload purpose,
    app.verify (publicKey key) payload (sign key payload purpose) purpose = true
  sealOpens : ∀ key pin envelope, sealPrivateKey key pin = .ok envelope →
    openPrivateKey envelope pin = .ok (publicKey key)
  keyIdInjective : Function.Injective keyId
  certificateBodyUnsigned : ∀ certificate signature,
    app.certificateBody { certificate with signature := signature } =
      app.certificateBody certificate
  csrBodyUnsigned : ∀ csr digest proof,
    csrBody { csr with requestDigest := digest, possessionProof := proof } = csrBody csr
  csrDigestUnsigned : ∀ csr digest proof,
    csrBodyDigest { csr with requestDigest := digest, possessionProof := proof } =
      csrBodyDigest csr

/-- What a preparation draws: the time and three fresh ids. -/
structure Fresh where
  now : Nat
  certificateId : String
  serial : String
  csrId : String

variable (office : Office)

def keyName (key : String) : String := office.keyId (office.publicKey key)

def unsigned (keyId : String) : Signature := ⟨keyId, "ed25519", ""⟩

def newRoot (fresh : Fresh) (newKey : String) : Certificate where
  resourceId := fresh.certificateId
  serial := fresh.serial
  subjectId := rootSubject
  keyId := keyName office newKey
  issuerId := rootSubject
  parentCertificateId := none
  authoritySources := []
  kind := .ca
  grants := office.primaryCeiling
  notBefore := fresh.now
  expiresAt := fresh.now + 10 * office.yearSeconds
  targetService := office.app.service
  delegationDepth := 8
  issuance := some ⟨office.primaryCeiling, 31536000, 3, 8⟩
  signature := unsigned (keyName office newKey)

/-- `sign_certificate`. -/
def signCertificate (certificate : Certificate) (key : String) : Certificate :=
  { certificate with
    signature := office.sign key (office.app.certificateBody certificate) "certificate" }

def bareCsr (fresh : Fresh) : CertificateRequest where
  resourceId := fresh.csrId
  applicant := onlineCa
  subjectId := onlineCa
  requestedIssuer := rootSubject
  publicKey := office.publicKey office.onlineKey
  kind := .ca
  grants := [office.certIssue]
  issuance := some ⟨office.baseGrants, office.baseCertificateTtl, 0, 8⟩
  requestedTtlSeconds := 31536000
  targetService := office.app.service
  delegationDepth := 0
  authoritySources := []
  requestDigest := ""
  possessionProof := unsigned (keyName office office.onlineKey)

def onlineCsr (fresh : Fresh) : CertificateRequest :=
  { bareCsr office fresh with
    requestDigest := office.csrBodyDigest (bareCsr office fresh)
    possessionProof :=
      office.sign office.onlineKey (office.csrBody (bareCsr office fresh)) "csr" }

/-- The journal before its authorization is signed. -/
def draft (fresh : Fresh) (newKey envelope operator : String) (previous : Option String)
    (proved : Bool) : Journal where
  version := 2
  oldCertificate := office.app.rootCertificate
  newTrust := trustOf (signCertificate office (newRoot office fresh newKey) newKey)
    (office.publicKey newKey)
  newEnvelope := envelope
  previousEnvelopeDigest := previous
  onlineCsr := onlineCsr office fresh
  statement :=
    { oldCertificate := office.app.rootCertificate.resourceId
      oldFingerprint := office.digestBytes office.app.rootPublicKey
      newCertificate := fresh.certificateId
      newFingerprint := office.digestBytes (office.publicKey newKey)
      time := fresh.now
      operator := operator
      previousKeyProved := proved }
  newSignature := unsigned (keyName office newKey)
  oldSignature := none

def signJournal (journal : Journal) (newKey : String) (oldSigner : Option String) : Journal :=
  let proof := office.authorizationText (authorization office.toConsole journal)
  { journal with
    newSignature := office.sign newKey proof "root-rotation"
    oldSignature := oldSigner.map fun key => office.sign key proof "root-rotation" }

def previousDigest (state : State) : Except Failure (Option String) :=
  match state.keyFile with
  | none => return none
  | some content => do
      let text ← readPrivate office.toConsole content
      return some (office.digestBytes text)

def checkOldSigner (oldSigner : Option String) : Except Failure Unit :=
  match oldSigner with
  | none => .ok ()
  | some key => require (keyName office key = office.app.rootCertificate.keyId)
      "root_key_mismatch"

/-- `_prepare`. -/
def prepare (fresh : Fresh) (newKey newPin : String) (oldSigner : Option String)
    (operator : String) : Durable Failure State Journal := do
  inspect fun state => require (state.pending = none) "root_rotation_pending"
  inspect fun _ => checkOldSigner office oldSigner
  let envelope ← inspect fun _ => office.sealPrivateKey newKey newPin
  let previous ← inspect (previousDigest office)
  let journal := signJournal office
    (draft office fresh newKey envelope operator previous oldSigner.isSome) newKey oldSigner
  store fun state => { state with pending := some journal }
  return journal

/-- An installation in order: its root certificate is active and stored with its key, the
trust aliases hold it, and what the preparation draws is not in use. -/
structure InOrder (fresh : Fresh) (newKey : String) (oldKey : Accounts.StoredCredential)
    (state : State) : Prop where
  active : activeRoot state.db = office.app.rootCertificate.resourceId
  root : state.db.store.certificates.find? office.app.rootCertificate.resourceId =
    some office.app.rootCertificate
  rootSubjectOf : office.app.rootCertificate.subjectId = rootSubject
  rootService : office.app.rootCertificate.targetService = office.app.service
  rootKeyId : office.app.rootCertificate.keyId = office.keyId office.app.rootPublicKey
  rootKey : state.db.accounts.credentials.find? office.app.rootCertificate.keyId = some oldKey
  rootKeySubject : oldKey.subjectId = rootSubject
  rootKeyVerifier : oldKey.verifier = office.app.rootPublicKey
  localRoot : ∃ root, state.db.store.subjects.find? rootSubject = some root ∧
    root.localOnly = true
  certSpace : ∃ space, state.db.store.resources.find? certSpace = some space
  csrSpace : ∃ space, state.db.store.resources.find? csrSpace = some space
  trustPresent : ∃ path, (state.trust path).isSome = true
  trustHeld : ∀ path file, state.trust path = some file →
    file = .value (trustOf office.app.rootCertificate office.app.rootPublicKey)
  noHistory : state.history office.app.rootCertificate.resourceId = none
  freshKey : state.db.accounts.credentials.find? (keyName office newKey) = none
  freshRow : state.db.store.resources.find? fresh.certificateId = none
  freshCertificate : state.db.store.certificates.find? fresh.certificateId = none
  freshCsrRow : state.db.store.resources.find? fresh.csrId = none
  freshCsr : state.db.csrs.find? fresh.csrId = none
  csrIdDiffers : fresh.csrId ≠ fresh.certificateId

variable {fresh : Fresh} {newKey newPin operator envelope : String} {oldSigner : Option String}
variable {oldKey : Accounts.StoredCredential} {state final : State} {journal : Journal}
variable {previous : Option String}

/-- Signing a journal changes none of its commitments. -/
theorem authorization_signJournal :
    authorization office.toConsole (signJournal office journal newKey oldSigner) =
      authorization office.toConsole journal := rfl

theorem verify_signed (key payload purpose : String) :
    verified office.app (office.publicKey key) payload (office.sign key payload purpose) purpose =
      .ok () :=
  require_true _ (office.signVerifies key payload purpose)

theorem onlineRequest_onlineCsr : onlineRequest office.toConsole (onlineCsr office fresh) := by
  refine ⟨office.onlineKeyPublic, rfl, rfl, rfl, rfl, rfl, rfl, rfl, rfl, ?_⟩
  show [office.certIssue.capability] = _
  rw [office.certIssueNamed]

theorem verifyCsr_onlineCsr : verifyCsr office.toConsole (onlineCsr office fresh) = .ok () := by
  have digested : (onlineCsr office fresh).requestDigest =
      office.csrBodyDigest (onlineCsr office fresh) :=
    (office.csrDigestUnsigned _ _ _).symm
  have body : office.csrBody (onlineCsr office fresh) = office.csrBody (bareCsr office fresh) :=
    office.csrBodyUnsigned _ _ _
  simp only [verifyCsr, require_true _ digested, Program.except_ok_bind, body]
  exact verify_signed office office.onlineKey _ _

/-- A journal that was drafted and signed here is valid under the PIN it was sealed with. -/
theorem validate_prepared (inOrder : InOrder office fresh newKey oldKey state)
    (sealed : office.sealPrivateKey newKey newPin = .ok envelope) :
    validate office.toConsole (signJournal office
      (draft office fresh newKey envelope operator previous oldSigner.isSome) newKey oldSigner)
      newPin = .ok (office.publicKey newKey) := by
  have opens := office.sealOpens newKey newPin envelope sealed
  have idsDiffer : office.app.rootCertificate.resourceId ≠ fresh.certificateId := by
    intro same
    have stored := inOrder.root
    rw [same, inOrder.freshCertificate] at stored
    cases stored
  have keysDiffer : office.app.rootCertificate.keyId ≠ keyName office newKey := by
    intro same
    have stored := inOrder.rootKey
    rw [same, inOrder.freshKey] at stored
    cases stored
  have proved : oldSigner.isSome = (oldSigner.map fun key => office.sign key
      (office.authorizationText (authorization office.toConsole
        (draft office fresh newKey envelope operator previous oldSigner.isSome)))
      "root-rotation").isSome := by
    cases oldSigner <;> rfl
  have bodySame := office.certificateBodyUnsigned (newRoot office fresh newKey)
    (office.sign newKey (office.app.certificateBody (newRoot office fresh newKey)) "certificate")
  unfold validate
  refine (Program.except_bind_ok _ _ _).mpr ⟨(), require_true _ rfl, ?_⟩
  refine (Program.except_bind_ok _ _ _).mpr ⟨office.publicKey newKey, opens, ?_⟩
  refine (Program.except_bind_ok _ _ _).mpr ⟨(), require_true _ rfl, ?_⟩
  refine (Program.except_bind_ok _ _ _).mpr ⟨(), require_true _ rfl, ?_⟩
  refine (Program.except_bind_ok _ _ _).mpr ⟨(), verify_signed office newKey _ _, ?_⟩
  refine (Program.except_bind_ok _ _ _).mpr
    ⟨(), require_true _ ⟨rfl, rfl, rfl, proved⟩, ?_⟩
  refine (Program.except_bind_ok _ _ _).mpr
    ⟨(), require_true _ ⟨idsDiffer, keysDiffer⟩, ?_⟩
  refine (Program.except_bind_ok _ _ _).mpr
    ⟨(), require_true _ ⟨rfl, rfl, rfl, rfl, rfl, rfl, rfl, inOrder.rootSubjectOf, rfl,
      inOrder.rootService⟩, ?_⟩
  refine (Program.except_bind_ok _ _ _).mpr ⟨(), ?_, ?_⟩
  · show verified office.app _ (office.app.certificateBody
      { newRoot office fresh newKey with signature := _ }) _ _ = _
    rw [bodySame]
    exact verify_signed office newKey _ _
  refine (Program.except_bind_ok _ _ _).mpr ⟨(), verifyCsr_onlineCsr office, ?_⟩
  exact (Program.except_bind_ok _ _ _).mpr
    ⟨(), require_true _ (onlineRequest_onlineCsr office), rfl⟩

theorem previousDigest_known (read : previousDigest office state = .ok previous) :
    (∀ content, state.keyFile = some content → Readable office.toConsole content ∧
        previous = some (office.digestBytes content)) ∧
      (state.keyFile = none → previous = none) ∧
      ∀ digest, previous = some digest →
        ∃ content, state.keyFile = some content ∧ office.digestBytes content = digest := by
  unfold previousDigest at read
  cases stored : state.keyFile with
  | none =>
      rw [stored] at read
      cases read
      exact ⟨fun _ found => (by cases found), fun _ => rfl, fun _ wanted => (by cases wanted)⟩
  | some content =>
      rw [stored] at read
      simp only [readPrivate, Program.except_bind_ok, require_ok, Program.except_pure,
        Except.ok.injEq] at read
      obtain ⟨_, ⟨_, readable, rfl⟩, rfl⟩ := read
      refine ⟨fun other same => ?_, fun absent => (by cases absent), fun digest wanted => ?_⟩
      · cases same
        exact ⟨readable, rfl⟩
      · exact ⟨content, rfl, Option.some.inj wanted⟩

theorem verifyOld_prepared (inOrder : InOrder office fresh newKey oldKey state)
    (allowed : checkOldSigner office oldSigner = .ok ()) :
    verifyOld office.toConsole (signJournal office journal newKey oldSigner) oldKey.verifier =
      .ok () := by
  cases oldSigner with
  | none => rfl
  | some key =>
      simp only [checkOldSigner, require_ok] at allowed
      have sameKey : office.publicKey key = oldKey.verifier := by
        rw [inOrder.rootKeyVerifier]
        exact office.keyIdInjective (allowed.trans inOrder.rootKeyId)
      rw [← sameKey]
      exact verify_signed office key _ _

/-- On an installation in order, a journal that `prepare` wrote is a prepared one. -/
theorem prepare_prepared (inOrder : InOrder office fresh newKey oldKey state)
    (done : (prepare office fresh newKey newPin oldSigner operator state).2 =
      .ok (journal, final)) :
    Prepared office.toConsole journal newPin (office.publicKey newKey) oldKey final := by
  simp only [prepare, ends_bind, ends_inspect, ends_store, ends_pure] at done
  obtain ⟨_, _, ⟨_, rfl⟩, _, _, ⟨allowed, rfl⟩, envelope, _, ⟨sealed, rfl⟩, previous, _,
    ⟨read, rfl⟩, _, _, rfl, rfl, rfl⟩ := done
  obtain ⟨held, absent, copied⟩ := previousDigest_known office read
  constructor
  · exact validate_prepared office inOrder sealed
  · rfl
  · exact
      { active := inOrder.active
        old := inOrder.root
        stored := inOrder.rootKey
        oldSubject := inOrder.rootKeySubject
        fingerprint := by rw [inOrder.rootKeyVerifier]; rfl
        signed := verifyOld_prepared office inOrder allowed
        root := inOrder.localRoot
        freshKey := inOrder.freshKey
        certSpace := inOrder.certSpace
        csrSpace := inOrder.csrSpace
        freshRow := inOrder.freshRow
        freshCertificate := inOrder.freshCertificate
        csrRow := by
          refine ⟨inOrder.csrIdDiffers, fun row found => ?_⟩
          have nowhere := inOrder.freshCsrRow
          exact absurd (found.symm.trans nowhere) (by simp)
        freshCsr := inOrder.freshCsr }
  · exact
      { held := fun content stored =>
          ⟨(held content stored).1, Or.inl (held content stored).2⟩
        absent := absent }
  · constructor
    · intro content stored
      exact absurd (stored.symm.trans inOrder.noHistory) (by simp)
    · intro _ digest wanted
      exact copied digest wanted
  · constructor
    · exact inOrder.trustPresent
    · intro path file stored
      left
      rw [inOrder.rootKeyVerifier]
      exact inOrder.trustHeld path file stored

end MsgServer.Rotation
