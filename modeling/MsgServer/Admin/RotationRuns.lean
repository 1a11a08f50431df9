import MsgServer.Admin.Rotation
import Mathlib.Data.List.GetD
import Mathlib.Logic.Function.Basic

/-!
Root rotation across crashes. The journal is prepared once; its completion may be cut
short any number of times, each time at any of its durable steps. The invariant keeps the
database either as it was or as one run installed it, and says which files may already
be new; a completion lands in it from wherever it starts.
-/

namespace MsgServer.Rotation

open Library Session Crash Certificates

variable (console : Console)

section Installing

variable {draw : Draw} {journal : Journal} {publicKey : String}
variable {oldKey : Accounts.StoredCredential} {db next : Database}

theorem saveCredential_eq {accounts : Accounts.State} {row : Accounts.StoredCredential}
    {root : Subject} (found : subject accounts.store row.subjectId = .ok root)
    (same : Accounts.identityUnchanged (accounts.credentials.find? row.id) row) :
    Accounts.saveCredential accounts row root.authVersion =
      .ok { accounts with credentials := accounts.credentials.put row } := by
  simp [Accounts.saveCredential, found, require_true, same, Program.except_ok_bind, pure,
    Except.pure]

theorem insertResource_eq {store : Store} {row above : Resource} {grown : Table Resource.id}
    {parent : String} (isParent : row.parent = some parent)
    (found : resource console.app store parent = .ok above)
    (inserted : store.resources.insert row = some grown) :
    ResourceTree.insertResource console.app store row =
      .ok { store with resources := grown } := by
  simp [ResourceTree.insertResource, ResourceTree.parentExists, isParent, found,
    (insertRow_ok _ _ _).mpr inserted, Program.except_ok_bind, pure, Except.pure]

/-- What the new anchor leaves in the tables that a later run reads again. -/
structure Anchored (journal : Journal) (publicKey : String) (oldKey : Accounts.StoredCredential)
    (console : Console) (db : Database) : Prop where
  active : activeRoot db = journal.newTrust.certificate.resourceId
  new : db.store.certificates.find? journal.newTrust.certificate.resourceId =
    some journal.newTrust.certificate
  old : db.store.certificates.find? journal.oldCertificate.resourceId =
    some journal.oldCertificate
  newGood : journal.newTrust.certificate.resourceId ∉ db.store.revokedCertificates
  oldRevoked : journal.oldCertificate.resourceId ∈ db.store.revokedCertificates
  csr : db.csrs.find? journal.onlineCsr.resourceId = some journal.onlineCsr
  newKey : db.accounts.credentials.find? (console.keyId publicKey) =
    some (rootCredential console journal.newTrust.certificate publicKey)
  oldKey : ∃ draw, db.accounts.credentials.find? oldKey.id = some (retired draw oldKey)

/-- What the tables must hold for the new anchor to be installed. -/
structure Installable (journal : Journal) (publicKey : String)
    (oldKey : Accounts.StoredCredential) (db : Database) : Prop where
  active : activeRoot db = journal.oldCertificate.resourceId
  old : db.store.certificates.find? journal.oldCertificate.resourceId =
    some journal.oldCertificate
  stored : db.accounts.credentials.find? journal.oldCertificate.keyId = some oldKey
  oldSubject : oldKey.subjectId = rootSubject
  fingerprint : console.digestBytes oldKey.verifier = journal.statement.oldFingerprint
  signed : verifyOld console journal oldKey.verifier = .ok ()
  root : ∃ root, db.store.subjects.find? rootSubject = some root ∧ root.localOnly = true
  freshKey : db.accounts.credentials.find? (console.keyId publicKey) = none
  certSpace : ∃ space, db.store.resources.find? certSpace = some space
  csrSpace : ∃ space, db.store.resources.find? csrSpace = some space
  freshRow : db.store.resources.find? journal.newTrust.certificate.resourceId = none
  freshCertificate : db.store.certificates.find? journal.newTrust.certificate.resourceId = none
  csrRow : journal.onlineCsr.resourceId ≠ journal.newTrust.certificate.resourceId ∧
    ∀ row, db.store.resources.find? journal.onlineCsr.resourceId = some row →
      sameSeed row (csrRow journal.onlineCsr)
  freshCsr : db.csrs.find? journal.onlineCsr.resourceId = none

/-- The database that one run installs: every step of the transaction once. -/
def installedDb (draw : Draw) (journal : Journal) (publicKey : String)
    (oldKey : Accounts.StoredCredential) (resources : Table Resource.id)
    (certificates : Table Certificate.resourceId) (csrs : Table CertificateRequest.resourceId)
    (db : Database) : Database :=
  appendAudit console
    { accounts :=
        { db.accounts with
          credentials :=
            (db.accounts.credentials.put
              (rootCredential console journal.newTrust.certificate publicKey)).put
                (retired draw oldKey)
          store :=
            { db.store with
              resources := resources
              certificates := certificates
              revokedCertificates := journal.oldCertificate.resourceId ::
                db.store.revokedCertificates.filter
                  (· ≠ journal.newTrust.certificate.resourceId) } }
      csrs := csrs
      settings := rotatedSettings journal
        { db.settings with authorizationEpoch := db.settings.authorizationEpoch + 1 }
      audit := db.audit }
    (rotationEvent console draw journal)

theorem seedResource_ok {store : Store} {row : Resource} {parent : String}
    (isParent : row.parent = some parent) (plain : console.app.isHexId parent = false)
    (space : ∃ above, store.resources.find? parent = some above)
    (seeds : ∀ previous, store.resources.find? row.id = some previous → sameSeed previous row) :
    ∃ resources, seedResource console store row = .ok { store with resources := resources } := by
  obtain ⟨above, found⟩ := space
  unfold seedResource
  cases present : store.resources.find? row.id with
  | some previous =>
      refine ⟨store.resources, ?_⟩
      simp [require_true, seeds previous present, Program.except_ok_bind, pure, Except.pure]
  | none =>
      obtain ⟨grown, inserted⟩ := Table.insert_of_fresh present
      have atParent : resource console.app store parent = .ok above := by
        simp [resource, plain, found, requireRow]
      exact ⟨grown, insertResource_eq console isParent atParent inserted⟩

theorem registerCertificate_ok {certificate : Certificate}
    {certificates : Table Certificate.resourceId}
    (inserted : db.store.certificates.insert certificate = some certificates) :
    registerCertificate db certificate = .ok (db.withStore { db.store with
      certificates := certificates
      revokedCertificates :=
        db.store.revokedCertificates.filter (· ≠ certificate.resourceId) }) := by
  simp [registerCertificate, (insertRow_ok _ _ _).mpr inserted, Program.except_ok_bind, pure,
    Except.pure]

theorem revokeCertificate_ok {id : String} {row : Certificate} (event : RotationEvent)
    (found : db.store.certificates.find? id = some row) :
    revokeCertificate console db id event = .ok (appendAudit console
      { db.withStore { db.store with
          revokedCertificates := id :: db.store.revokedCertificates } with
        settings :=
          { db.settings with authorizationEpoch := db.settings.authorizationEpoch + 1 } }
      event) := by
  simp [revokeCertificate, certificate, found, requireRow, Program.except_ok_bind, pure,
    Except.pure, Database.withStore]

theorem identityUnchanged_put {accounts : Accounts.State}
    {added oldKey : Accounts.StoredCredential} (draw : Draw) (different : added.id ≠ oldKey.id)
    (stored : accounts.credentials.find? oldKey.id = some oldKey) :
    Accounts.identityUnchanged ((accounts.credentials.put added).find? (retired draw oldKey).id)
      (retired draw oldKey) := by
  intro previous found
  have elsewhere : ¬ Accounts.StoredCredential.key added = (retired draw oldKey).id := different
  have same : (retired draw oldKey).id = oldKey.id := rfl
  rw [Table.find?_put, if_neg elsewhere, same, stored] at found
  cases found
  exact ⟨rfl, rfl, rfl, rfl⟩

/-- An installable anchor is installed, with one audit row and two turns of the epoch. -/
theorem install_succeeds (draw : Draw)
    (ready : Installable console journal publicKey oldKey db)
    (idsDiffer : journal.oldCertificate.resourceId ≠ journal.newTrust.certificate.resourceId)
    (keysDiffer : console.keyId publicKey ≠ journal.oldCertificate.keyId) :
    ∃ resources certificates csrs,
      db.store.certificates.insert journal.newTrust.certificate = some certificates ∧
      db.csrs.insert journal.onlineCsr = some csrs ∧
      install console draw journal publicKey oldKey db =
        .ok (installedDb console draw journal publicKey oldKey resources certificates csrs db) := by
  obtain ⟨root, rootRow, localOnly⟩ := ready.root
  obtain ⟨space, spaceFound⟩ := ready.certSpace
  have freshRow : db.store.resources.find? (certificateRow journal.newTrust.certificate).id =
    none := ready.freshRow
  obtain ⟨listed, listedRow⟩ := Table.insert_of_fresh freshRow
  obtain ⟨certificates, registered⟩ := Table.insert_of_fresh ready.freshCertificate
  obtain ⟨csrs, saved⟩ := Table.insert_of_fresh ready.freshCsr
  have oldId : Accounts.StoredCredential.key oldKey = journal.oldCertificate.keyId :=
    Table.find?_key ready.stored
  have sameId : oldKey.id = journal.oldCertificate.keyId := oldId
  have different : (rootCredential console journal.newTrust.certificate publicKey).id ≠
      oldKey.id := by
    rw [sameId]
    exact keysDiffer
  have storedAt : db.accounts.credentials.find? oldKey.id = some oldKey := by
    rw [sameId]
    exact ready.stored
  have atRoot : subject db.store rootSubject = .ok root := by simp [subject, rootRow, requireRow]
  -- The two credential saves.
  let added : Accounts.State :=
    { db.accounts with
      credentials := db.accounts.credentials.put
        (rootCredential console journal.newTrust.certificate publicKey) }
  have adding : Accounts.saveCredential db.accounts
      (rootCredential console journal.newTrust.certificate publicKey) root.authVersion =
      .ok added := by
    refine saveCredential_eq atRoot fun previous found => ?_
    have absent := ready.freshKey
    rw [show (rootCredential console journal.newTrust.certificate publicKey).id =
      console.keyId publicKey from rfl, absent] at found
    cases found
  have retiring : Accounts.saveCredential added (retired draw oldKey) root.authVersion =
      .ok { added with credentials := added.credentials.put (retired draw oldKey) } := by
    refine saveCredential_eq ?_ (identityUnchanged_put draw different storedAt)
    show subject db.store oldKey.subjectId = _
    rw [ready.oldSubject]
    exact atRoot
  -- The rows of the new certificate and the mark on the old one.
  have isParent : (certificateRow journal.newTrust.certificate).parent = some certSpace := rfl
  have atSpace : resource console.app db.store certSpace = .ok space := by
    simp [resource, console.certSpacePlain, spaceFound, requireRow]
  have listing := insertResource_eq console isParent atSpace listedRow
  let keyed := db.withAccounts { added with
    credentials := added.credentials.put (retired draw oldKey) }
  let placed := keyed.withStore { db.store with resources := listed }
  have placedStore : placed.store.certificates.insert journal.newTrust.certificate =
    some certificates := registered
  have registering := registerCertificate_ok placedStore
  let known := placed.withStore { placed.store with
    certificates := certificates
    revokedCertificates := placed.store.revokedCertificates.filter
      (· ≠ journal.newTrust.certificate.resourceId) }
  have oldThere : known.store.certificates.find? journal.oldCertificate.resourceId =
      some journal.oldCertificate := by
    show certificates.find? _ = _
    rw [Table.find?_insert registered, if_neg (Ne.symm idsDiffer)]
    exact ready.old
  have revoking := revokeCertificate_ok console (rotationEvent console draw journal) oldThere
  -- The request for the online CA.
  have csrParent : (csrRow journal.onlineCsr).parent = some csrSpace := rfl
  have spaceListed : ∃ above, listed.find? csrSpace = some above := by
    obtain ⟨above, found⟩ := ready.csrSpace
    by_cases same : (certificateRow journal.newTrust.certificate).id = csrSpace
    · exact ⟨_, by rw [Table.find?_insert listedRow, if_pos same]⟩
    · exact ⟨above, by rw [Table.find?_insert listedRow, if_neg same]; exact found⟩
  have seeds : ∀ previous, listed.find? (csrRow journal.onlineCsr).id = some previous →
      sameSeed previous (csrRow journal.onlineCsr) := by
    intro previous found
    have elsewhere : ¬ (certificateRow journal.newTrust.certificate).id =
      (csrRow journal.onlineCsr).id := fun same => ready.csrRow.1 same.symm
    rw [Table.find?_insert listedRow, if_neg elsewhere] at found
    exact ready.csrRow.2 previous found
  let marked := { known.store with
    revokedCertificates := journal.oldCertificate.resourceId ::
      known.store.revokedCertificates }
  obtain ⟨resources, seeding⟩ : ∃ resources, seedResource console marked
      (csrRow journal.onlineCsr) = .ok { marked with resources := resources } :=
    seedResource_ok console csrParent console.csrSpacePlain spaceListed seeds
  have savedHere (store : Store) (anchored : Database) (same : anchored.csrs = db.csrs) :
      saveCsr (anchored.withStore store) journal.onlineCsr =
        .ok { anchored.withStore store with csrs := csrs } := by
    have inserted : (anchored.withStore store).csrs.insert journal.onlineCsr = some csrs := by
      rw [← saved, ← same]
      rfl
    simp [saveCsr, (insertRow_ok _ _ _).mpr inserted, Program.except_ok_bind, pure, Except.pure]
  refine ⟨resources, certificates, csrs, registered, saved, ?_⟩
  unfold install
  refine (Program.except_bind_ok _ _ _).mpr ⟨root, atRoot, ?_⟩
  refine (Program.except_bind_ok _ _ _).mpr ⟨(), require_true _ localOnly, ?_⟩
  refine (Program.except_bind_ok _ _ _).mpr ⟨(), require_true _ ready.freshKey, ?_⟩
  refine (Program.except_bind_ok _ _ _).mpr ⟨added, adding, ?_⟩
  refine (Program.except_bind_ok _ _ _).mpr ⟨_, retiring, ?_⟩
  refine (Program.except_bind_ok _ _ _).mpr ⟨_, listing, ?_⟩
  refine (Program.except_bind_ok _ _ _).mpr ⟨_, registering, ?_⟩
  refine (Program.except_bind_ok _ _ _).mpr ⟨_, revoking, ?_⟩
  refine (Program.except_bind_ok _ _ _).mpr ⟨_, seeding, ?_⟩
  exact (Program.except_bind_ok _ _ _).mpr ⟨_, savedHere _ _ rfl, rfl⟩

theorem installedDb_anchored {draw : Draw} {resources : Table Resource.id}
    {certificates : Table Certificate.resourceId} {csrs : Table CertificateRequest.resourceId}
    (ready : Installable console journal publicKey oldKey db)
    (idsDiffer : journal.oldCertificate.resourceId ≠ journal.newTrust.certificate.resourceId)
    (keysDiffer : console.keyId publicKey ≠ journal.oldCertificate.keyId)
    (registered : db.store.certificates.insert journal.newTrust.certificate = some certificates)
    (saved : db.csrs.insert journal.onlineCsr = some csrs) :
    Anchored journal publicKey oldKey console
      (installedDb console draw journal publicKey oldKey resources certificates csrs db) := by
  have oldId : Accounts.StoredCredential.key oldKey = journal.oldCertificate.keyId :=
    Table.find?_key ready.stored
  have apart : ¬ Accounts.StoredCredential.key (retired draw oldKey) = console.keyId publicKey :=
    fun same => keysDiffer (same.symm.trans oldId)
  constructor
  · rfl
  · show certificates.find? _ = _
    rw [Table.find?_insert registered, if_pos rfl]
  · show certificates.find? _ = _
    rw [Table.find?_insert registered, if_neg (Ne.symm idsDiffer)]
    exact ready.old
  · show _ ∉ journal.oldCertificate.resourceId :: _
    simp [Ne.symm idsDiffer]
  · exact List.mem_cons_self
  · show csrs.find? _ = _
    rw [Table.find?_insert saved, if_pos rfl]
  · show ((db.accounts.credentials.put _).put _).find? _ = _
    rw [Table.find?_put, if_neg apart, Table.find?_put]
    exact if_pos rfl
  · refine ⟨draw, ?_⟩
    show ((db.accounts.credentials.put _).put _).find? _ = _
    rw [Table.find?_put]
    exact if_pos rfl

/-- The anchor was installed once, by a run that drew `draw`, in the database `db`. -/
def InstalledFrom (journal : Journal) (publicKey : String) (oldKey : Accounts.StoredCredential)
    (db next : Database) : Prop :=
  ∃ draw, install console draw journal publicKey oldKey db = .ok next ∧
    Anchored journal publicKey oldKey console next ∧
    next.audit.length = db.audit.length + 1 ∧
    next.settings.authorizationEpoch = db.settings.authorizationEpoch + 2

theorem install_installs (draw : Draw)
    (ready : Installable console journal publicKey oldKey db)
    (idsDiffer : journal.oldCertificate.resourceId ≠ journal.newTrust.certificate.resourceId)
    (keysDiffer : console.keyId publicKey ≠ journal.oldCertificate.keyId) :
    ∃ next, install console draw journal publicKey oldKey db = .ok next ∧
      InstalledFrom console journal publicKey oldKey db next := by
  obtain ⟨resources, certificates, csrs, registered, saved, done⟩ :=
    install_succeeds console draw ready idsDiffer keysDiffer
  have anchored : Anchored journal publicKey oldKey console (installedDb console draw journal
      publicKey oldKey resources certificates csrs db) :=
    installedDb_anchored console ready idsDiffer keysDiffer registered saved
  exact ⟨_, done, draw, done, anchored, by simp [installedDb, appendAudit], rfl⟩

/-- The first transaction installs. -/
theorem transaction_installs (draw : Draw) {current : List TrustFile}
    (ready : Installable console journal publicKey oldKey db)
    (idsDiffer : journal.oldCertificate.resourceId ≠ journal.newTrust.certificate.resourceId)
    (keysDiffer : console.keyId publicKey ≠ journal.oldCertificate.keyId)
    (trusted : ∀ file ∈ current,
      approved (trustOf journal.oldCertificate oldKey.verifier) journal.newTrust file) :
    ∃ next, transaction console draw journal publicKey current db =
        .ok (trustOf journal.oldCertificate oldKey.verifier, next) ∧
      InstalledFrom console journal publicKey oldKey db next := by
  obtain ⟨next, done, installed⟩ := install_installs console draw ready idsDiffer keysDiffer
  refine ⟨next, ?_, installed⟩
  have inactive : ¬ activeRoot db = journal.newTrust.certificate.resourceId := by
    rw [ready.active]
    exact idsDiffer
  simp only [transaction, certificate, Accounts.storedCredential, ready.old, ready.stored,
    requireRow, Program.except_ok_bind, require_true _ (Or.inl ready.active), require_true _ rfl,
    require_true _ (And.intro ready.oldSubject ready.fingerprint), require_true _ trusted,
    ready.signed, if_neg inactive, done]
  rfl

/-- Every later transaction confirms, and changes nothing. -/
theorem transaction_confirms (draw : Draw) {current : List TrustFile} {before : Database}
    (ready : Installable console journal publicKey oldKey before)
    (newKeyId : journal.newTrust.certificate.keyId = console.keyId publicKey)
    (anchored : Anchored journal publicKey oldKey console db)
    (trusted : ∀ file ∈ current,
      approved (trustOf journal.oldCertificate oldKey.verifier) journal.newTrust file) :
    transaction console draw journal publicKey current db =
      .ok (trustOf journal.oldCertificate oldKey.verifier, db) := by
  obtain ⟨time, stored⟩ := anchored.oldKey
  have oldId : Accounts.StoredCredential.key oldKey = journal.oldCertificate.keyId :=
    Table.find?_key ready.stored
  have storedOld : db.accounts.credentials.find? journal.oldCertificate.keyId =
      some (retired time oldKey) := by
    rw [← oldId]
    exact stored
  have sameSubject : (retired time oldKey).subjectId = rootSubject := ready.oldSubject
  have sameVerifier : (retired time oldKey).verifier = oldKey.verifier := rfl
  have isRetired : (retired time oldKey).revokedAt ≠ none := by simp [retired]
  have revoked : certificateRevoked db.store journal.oldCertificate.resourceId = .ok true := by
    simp [certificateRevoked, certificate, anchored.old, requireRow, Program.except_ok_bind,
      anchored.oldRevoked, pure, Except.pure]
  have confirmed : confirmInstalled journal publicKey (retired time oldKey) db = .ok () := by
    simp only [confirmInstalled, certificate, anchored.new, storedCsr, anchored.csr, requireRow,
      Program.except_ok_bind, require_true _ rfl, require_true _ isRetired, revoked,
      Accounts.storedCredential, newKeyId, anchored.newKey]
    exact require_true _ ⟨rfl, rfl⟩
  simp only [transaction, certificate, Accounts.storedCredential, anchored.old, storedOld,
    requireRow, Program.except_ok_bind, require_true _ (Or.inr anchored.active),
    require_true _ rfl, sameVerifier, require_true _ (And.intro sameSubject ready.fingerprint),
    require_true _ trusted, ready.signed, if_pos anchored.active, confirmed]
  rfl

end Installing

section Files

variable (journal : Journal)

def Readable (content : String) : Prop :=
  0 < console.byteLength content ∧ console.byteLength content ≤ console.privateLimit

theorem readPrivate_readable {content : String} (readable : Readable console content) :
    readPrivate console content = .ok content := by
  have both : 0 < console.byteLength content ∧
    console.byteLength content ≤ console.privateLimit := readable
  simp only [readPrivate, require_true _ both, Program.except_ok_bind]
  rfl

/-- The key file is the previous envelope or the new one. -/
structure KnownKey (state : State) : Prop where
  held : ∀ content, state.keyFile = some content → Readable console content ∧
    (journal.previousEnvelopeDigest = some (console.digestBytes content) ∨
      console.digestBytes content = console.digestBytes journal.newEnvelope)
  absent : state.keyFile = none → journal.previousEnvelopeDigest = none

/-- The previous envelope has its copy in history, or it is still the key file and history
has nothing. -/
structure KnownHistory (state : State) : Prop where
  held : ∀ content, state.history journal.oldCertificate.resourceId = some content →
    Readable console content ∧
      journal.previousEnvelopeDigest = some (console.digestBytes content)
  absent : state.history journal.oldCertificate.resourceId = none →
    ∀ previous, journal.previousEnvelopeDigest = some previous →
      ∃ content, state.keyFile = some content ∧ console.digestBytes content = previous

/-- Some alias is there, and each that is holds an approved trust value. -/
structure KnownTrust (oldKey : Accounts.StoredCredential) (state : State) : Prop where
  present : ∃ path, (state.trust path).isSome = true
  held : ∀ path file, state.trust path = some file →
    approved (trustOf journal.oldCertificate oldKey.verifier) journal.newTrust file

variable {journal}

theorem checkKeyFile_passes {state : State} (known : KnownKey console journal state) :
    checkKeyFile console journal state = .ok () := by
  unfold checkKeyFile
  cases stored : state.keyFile with
  | none => exact require_true _ (known.absent stored)
  | some content =>
      obtain ⟨readable, isKnown⟩ := known.held content stored
      simp only [readPrivate_readable console readable, Program.except_ok_bind]
      exact require_true _ isKnown

/-- What the check leaves to archive is the key file, and only while there is no copy. -/
theorem checkHistory_passes {state : State} (key : KnownKey console journal state)
    (known : KnownHistory console journal state) :
    (checkHistory console journal state = .ok none ∧
      ((state.history journal.oldCertificate.resourceId).isSome = true ∨
        journal.previousEnvelopeDigest = none)) ∨
      ∃ content, checkHistory console journal state = .ok (some content) ∧
        state.history journal.oldCertificate.resourceId = none ∧
        state.keyFile = some content ∧
        journal.previousEnvelopeDigest = some (console.digestBytes content) := by
  unfold checkHistory
  cases stored : state.history journal.oldCertificate.resourceId with
  | some content =>
      obtain ⟨readable, isPrevious⟩ := known.held content stored
      refine Or.inl ⟨?_, Or.inl rfl⟩
      simp only [readPrivate_readable console readable, Program.except_ok_bind,
        require_true _ isPrevious]
      rfl
  | none =>
      cases wanted : journal.previousEnvelopeDigest with
      | none => exact Or.inl ⟨rfl, Or.inr rfl⟩
      | some previous =>
          obtain ⟨content, isKey, isPrevious⟩ := known.absent stored previous wanted
          have readable := (key.held content isKey).1
          refine Or.inr ⟨content, ?_, rfl, isKey, by rw [isPrevious]⟩
          simp only [isKey, readPrivate_readable console readable, Program.except_ok_bind,
            require_true _ isPrevious]
          rfl

theorem mem_trustValues {state : State} {file : TrustFile} :
    file ∈ trustValues state ↔ ∃ path, state.trust path = some file := by
  simp only [trustValues, List.mem_filterMap]
  constructor
  · rintro ⟨path, _, stored⟩
    exact ⟨path, stored⟩
  · rintro ⟨path, stored⟩
    exact ⟨path, by cases path <;> simp [trustPaths], stored⟩

theorem trusted_of_known {oldKey : Accounts.StoredCredential} {state : State}
    (known : KnownTrust journal oldKey state) : ∀ file ∈ trustValues state,
      approved (trustOf journal.oldCertificate oldKey.verifier) journal.newTrust file := by
  intro file listed
  obtain ⟨path, stored⟩ := mem_trustValues.mp listed
  exact known.held path file stored

theorem currentTrust_passes {oldKey : Accounts.StoredCredential} {state : State}
    (known : KnownTrust journal oldKey state) :
    currentTrust state = .ok (trustValues state) := by
  obtain ⟨path, present⟩ := known.present
  obtain ⟨file, stored⟩ := Option.isSome_iff_exists.mp present
  have some' : trustValues state ≠ [] := by
    intro empty
    have listed := mem_trustValues.mpr ⟨path, stored⟩
    rw [empty] at listed
    cases listed
  simp [currentTrust, require_true _ some', Program.except_ok_bind, pure, Except.pure]

/-- `write_trust` writes the aliases there are. -/
theorem mem_writtenPaths {oldKey : Accounts.StoredCredential} {state : State}
    (known : KnownTrust journal oldKey state) (path : TrustPath) :
    path ∈ writtenPaths state ↔ (state.trust path).isSome = true := by
  obtain ⟨one, present⟩ := known.present
  have listed (path : TrustPath) : path ∈ trustPaths.filter
      (fun path => (state.trust path).isSome) ↔ (state.trust path).isSome = true := by
    cases path <;> simp [trustPaths]
  unfold writtenPaths
  split
  · rename_i empty
    have inside := (listed one).mpr present
    rw [empty] at inside
    cases inside
  · exact listed path

end Files

section Resuming

variable (journal : Journal)

/-- The history once the previous envelope has its copy there. -/
def archivedHistory (start : State) : String → Option String :=
  match start.history journal.oldCertificate.resourceId, journal.previousEnvelopeDigest with
  | none, some _ =>
      Function.update start.history journal.oldCertificate.resourceId start.keyFile
  | _, _ => start.history

/-- The state a rotation ends in, up to the draw of the run that installed its database. -/
def completed (start : State) (db : Database) : State where
  db := db
  keyFile := some journal.newEnvelope
  history := archivedHistory journal start
  trust := fun path => (start.trust path).map fun _ => .value journal.newTrust
  pending := none

variable {journal}

theorem archivedHistory_same {start : State}
    (nothing : (start.history journal.oldCertificate.resourceId).isSome = true ∨
      journal.previousEnvelopeDigest = none) :
    archivedHistory journal start = start.history := by
  unfold archivedHistory
  split
  · rename_i absent wanted
    rcases nothing with present | unwanted
    · simp [absent] at present
    · simp [wanted] at unwanted
  · rfl

theorem archivedHistory_copy {start : State} {previous : String}
    (absent : start.history journal.oldCertificate.resourceId = none)
    (wanted : journal.previousEnvelopeDigest = some previous) :
    archivedHistory journal start =
      Function.update start.history journal.oldCertificate.resourceId start.keyFile := by
  simp [archivedHistory, absent, wanted]

/-- Once archived, nothing of the previous envelope remains to be copied. -/
theorem archivedHistory_done {start : State} (known : KnownHistory console journal start) :
    ((archivedHistory journal start) journal.oldCertificate.resourceId).isSome = true ∨
      journal.previousEnvelopeDigest = none := by
  cases absent : start.history journal.oldCertificate.resourceId with
  | some content =>
      rw [archivedHistory_same (Or.inl (by simp [absent])), absent]
      exact Or.inl rfl
  | none =>
      cases wanted : journal.previousEnvelopeDigest with
      | none => exact Or.inr rfl
      | some previous =>
          obtain ⟨content, isKey, _⟩ := known.absent absent previous wanted
          rw [archivedHistory_copy absent wanted, isKey]
          simp

variable (journal)

/-- What holds of the durable state at every point of every run. A file that is already
new stands behind every file that is written before it. -/
structure Resumable (publicKey : String) (oldKey : Accounts.StoredCredential) (start : State)
    (fixed : Database → Prop) (state : State) : Prop where
  fixed : fixed state.db
  database : state = start ∨ InstalledFrom console journal publicKey oldKey start.db state.db
  history : state.history = start.history ∨ state.history = archivedHistory journal start
  key : state.keyFile = start.keyFile ∨
    (state.keyFile = some journal.newEnvelope ∧ state.history = archivedHistory journal start)
  trust : ∀ path, state.trust path = start.trust path ∨
    state.trust path = (start.trust path).map fun _ => .value journal.newTrust
  keyFirst : state.trust = start.trust ∨ state.keyFile = some journal.newEnvelope
  pending : state.pending = start.pending ∨ state = completed journal start state.db

/-- The state from which the journal was prepared: the journal is a valid one for this
installation, its old root is the active one, and the files are the old ones. -/
structure Prepared (pin publicKey : String) (oldKey : Accounts.StoredCredential)
    (start : State) : Prop where
  valid : validate console journal pin = .ok publicKey
  pending : start.pending = some journal
  database : Installable console journal publicKey oldKey start.db
  key : KnownKey console journal start
  history : KnownHistory console journal start
  trust : KnownTrust journal oldKey start

variable {journal} {pin publicKey : String} {oldKey : Accounts.StoredCredential}
variable {start state : State} {fixed : Database → Prop}

/-- What the checks of the journal promise the later steps. -/
theorem validate_facts (valid : validate console journal pin = .ok publicKey) :
    Readable console journal.newEnvelope ∧
      journal.oldCertificate.resourceId ≠ journal.newTrust.certificate.resourceId ∧
      journal.newTrust.certificate.keyId = console.keyId publicKey ∧
      console.keyId publicKey ≠ journal.oldCertificate.keyId := by
  simp only [validate, Program.except_bind_ok, require_ok, Program.except_pure,
    Except.ok.injEq] at valid
  obtain ⟨_, _, opened, opens, _, _, _, _, _, _, _, _, _, ⟨idsDiffer, keysDiffer⟩, _,
    ⟨newKeyId, _⟩, _, _, _, _, _, _, rfl⟩ := valid
  refine ⟨console.openedShort _ _ _ opens, idsDiffer, newKeyId, ?_⟩
  intro same
  exact keysDiffer (same ▸ newKeyId).symm

theorem Resumable.knownKey (prepared : Prepared console journal pin publicKey oldKey start)
    (resumable : Resumable console journal publicKey oldKey start fixed state) :
    KnownKey console journal state := by
  rcases resumable.key with same | ⟨isNew, _⟩
  · constructor
    · rw [same]
      exact prepared.key.held
    · rw [same]
      exact prepared.key.absent
  · constructor
    · intro content stored
      rw [isNew] at stored
      cases stored
      exact ⟨(validate_facts console prepared.valid).1, Or.inr rfl⟩
    · intro absent
      rw [isNew] at absent
      cases absent

theorem Resumable.knownHistory (prepared : Prepared console journal pin publicKey oldKey start)
    (resumable : Resumable console journal publicKey oldKey start fixed state) :
    KnownHistory console journal state := by
  have done := archivedHistory_done console prepared.history
  constructor
  · intro content stored
    rcases resumable.history with same | same
    · rw [same] at stored
      exact prepared.history.held content stored
    · rw [same] at stored
      cases absent : start.history journal.oldCertificate.resourceId with
      | some earlier =>
          rw [archivedHistory_same (Or.inl (by simp [absent]))] at stored
          exact prepared.history.held content stored
      | none =>
          cases wanted : journal.previousEnvelopeDigest with
          | none =>
              rw [archivedHistory_same (Or.inr wanted), absent] at stored
              cases stored
          | some previous =>
              rw [archivedHistory_copy absent wanted, Function.update_self] at stored
              obtain ⟨copied, isKey, isPrevious⟩ := prepared.history.absent absent previous wanted
              have same : copied = content := Option.some.inj (isKey.symm.trans stored)
              exact ⟨same ▸ (prepared.key.held copied isKey).1, by rw [← isPrevious, same]⟩
  · intro absent previous wanted
    rcases resumable.key with same | ⟨_, archived⟩
    · rcases resumable.history with unchanged | archived
      · rw [unchanged] at absent
        rw [same]
        exact prepared.history.absent absent previous wanted
      · rw [← archived, absent, wanted] at done
        simp at done
    · rw [← archived, absent, wanted] at done
      simp at done

theorem Resumable.knownTrust (prepared : Prepared console journal pin publicKey oldKey start)
    (resumable : Resumable console journal publicKey oldKey start fixed state) :
    KnownTrust journal oldKey state := by
  constructor
  · obtain ⟨path, present⟩ := prepared.trust.present
    refine ⟨path, ?_⟩
    rcases resumable.trust path with same | same <;> rw [same]
    · exact present
    · simpa using present
  · intro path file stored
    rcases resumable.trust path with same | same <;> rw [same] at stored
    · exact prepared.trust.held path file stored
    · obtain ⟨_, _, isNew⟩ := Option.map_eq_some_iff.mp stored
      exact Or.inr isNew.symm

theorem Prepared.resumable (prepared : Prepared console journal pin publicKey oldKey start)
    (holds : fixed start.db) :
    Resumable console journal publicKey oldKey start fixed start where
  fixed := holds
  database := Or.inl rfl
  history := Or.inl rfl
  key := Or.inl rfl
  trust := fun _ => Or.inl rfl
  keyFirst := Or.inl rfl
  pending := Or.inl rfl

/-- The database is installed once: where `fixed` allows the database that the runs
began with, it allows what an installation makes of it. -/
def Closed (publicKey : String) (oldKey : Accounts.StoredCredential) (journal : Journal)
    (start : State) (fixed : Database → Prop) : Prop :=
  fixed start.db → ∀ next, InstalledFrom console journal publicKey oldKey start.db next →
    fixed next

/-- The invariant with the new anchor installed, which the later steps keep. -/
structure Anchoring (publicKey : String) (oldKey : Accounts.StoredCredential)
    (journal : Journal) (start : State) (fixed : Database → Prop) (state : State) : Prop
    extends Resumable console journal publicKey oldKey start fixed state where
  installed : InstalledFrom console journal publicKey oldKey start.db state.db

structure Archiving (publicKey : String) (oldKey : Accounts.StoredCredential)
    (journal : Journal) (start : State) (fixed : Database → Prop) (state : State) : Prop
    extends Anchoring console publicKey oldKey journal start fixed state where
  archived : state.history = archivedHistory journal start

/-- Every alias outside `remaining` is new. -/
structure Renewing (publicKey : String) (oldKey : Accounts.StoredCredential)
    (journal : Journal) (start : State) (fixed : Database → Prop) (remaining : List TrustPath)
    (state : State) : Prop
    extends Archiving console publicKey oldKey journal start fixed state where
  keyed : state.keyFile = some journal.newEnvelope
  renewed : ∀ path, path ∉ remaining →
    state.trust path = (start.trust path).map fun _ => .value journal.newTrust
  listed : ∀ path ∈ remaining, (start.trust path).isSome = true

/-- The transaction, whether it installs or confirms. -/
theorem transaction_lands (draw : Draw) (current : List TrustFile)
    (prepared : Prepared console journal pin publicKey oldKey start)
    (closed : Closed console publicKey oldKey journal start fixed) :
    Lands (fun state => Resumable console journal publicKey oldKey start fixed state ∧
        trustValues state = current)
      (commit fun state => do
        let (oldTrust, db) ← transaction console draw journal publicKey current state.db
        return (oldTrust, state.withDb db))
      (Resumable console journal publicKey oldKey start fixed)
      fun oldTrust state =>
        oldTrust = trustOf journal.oldCertificate oldKey.verifier ∧
          Anchoring console publicKey oldKey journal start fixed state := by
  obtain ⟨_, idsDiffer, newKeyId, keysDiffer⟩ := validate_facts console prepared.valid
  apply Lands.commit
  rintro state ⟨resumable, rfl⟩
  have trusted := trusted_of_known (resumable.knownTrust console prepared)
  rcases resumable.database with rfl | installed
  · obtain ⟨next, done, installed⟩ := transaction_installs console draw prepared.database
      idsDiffer keysDiffer trusted
    have anchoring : Anchoring console publicKey oldKey journal state fixed
        (state.withDb next) :=
      { fixed := closed resumable.fixed next installed
        database := Or.inr installed
        history := Or.inl rfl
        key := Or.inl rfl
        trust := fun _ => Or.inl rfl
        keyFirst := Or.inl rfl
        pending := Or.inl rfl
        installed := installed }
    refine ⟨_, state.withDb next, ?_, anchoring.toResumable, rfl, anchoring⟩
    simp only [done, Program.except_ok_bind]
    rfl
  · have ⟨_, _, anchored, _⟩ := installed
    have done := transaction_confirms console draw prepared.database newKeyId anchored trusted
    refine ⟨_, state, ?_, resumable, rfl, resumable, installed⟩
    simp only [done, Program.except_ok_bind]
    rfl

theorem archiveKey_lands (prepared : Prepared console journal pin publicKey oldKey start) :
    Lands (Anchoring console publicKey oldKey journal start fixed) (archiveKey console journal)
      (Resumable console journal publicKey oldKey start fixed)
      fun _ => Archiving console publicKey oldKey journal start fixed := by
  -- What remains to be copied is known from the read; the copy is one write.
  have reads : Lands (Anchoring console publicKey oldKey journal start fixed)
      (inspect (checkHistory console journal))
      (Resumable console journal publicKey oldKey start fixed) fun remaining state =>
        Anchoring console publicKey oldKey journal start fixed state ∧
          ((remaining = none ∧ state.history = archivedHistory journal start) ∨
            ∃ text, remaining = some text ∧
              Function.update state.history journal.oldCertificate.resourceId (some text) =
                archivedHistory journal start) := by
    apply Lands.inspect
    intro state anchoring
    have known := anchoring.knownHistory console prepared
    rcases checkHistory_passes console (anchoring.knownKey console prepared) known with
      ⟨passes, nothing⟩ | ⟨text, passes, absent, isKey, isPrevious⟩
    · refine ⟨none, passes, anchoring, Or.inl ⟨rfl, ?_⟩⟩
      rcases anchoring.history with same | archived
      · rw [same] at nothing ⊢
        exact (archivedHistory_same nothing).symm
      · exact archived
    · refine ⟨some text, passes, anchoring, Or.inr ⟨text, rfl, ?_⟩⟩
      have undone (archived : state.history = archivedHistory journal start) : False := by
        have done := archivedHistory_done console prepared.history
        rw [← archived, absent, isPrevious] at done
        simp at done
      have unchanged : state.history = start.history :=
        anchoring.history.resolve_right undone
      have sameKey : state.keyFile = start.keyFile :=
        anchoring.key.resolve_right fun isNew => undone isNew.2
      rw [unchanged] at absent ⊢
      rw [archivedHistory_copy absent isPrevious, ← sameKey, isKey]
  refine Lands.bind reads fun remaining => ?_
  cases remaining with
  | none =>
      apply Lands.pure
      rintro state ⟨anchoring, ⟨_, archived⟩ | ⟨_, isSome, _⟩⟩
      · exact ⟨anchoring, archived⟩
      · cases isSome
  | some text =>
      have archives (state : State)
          (before : Anchoring console publicKey oldKey journal start fixed state ∧
            ((some text = none ∧ state.history = archivedHistory journal start) ∨
              ∃ copied, some text = some copied ∧
                Function.update state.history journal.oldCertificate.resourceId (some copied) =
                  archivedHistory journal start)) :
          Archiving console publicKey oldKey journal start fixed
            (state.archive journal.oldCertificate.resourceId text) := by
        obtain ⟨anchoring, ⟨isNone, _⟩ | ⟨copied, isSome, copies⟩⟩ := before
        · cases isNone
        · cases isSome
          exact
            { fixed := anchoring.fixed
              database := Or.inr anchoring.installed
              history := Or.inr copies
              key := anchoring.key.imp_right fun isNew => ⟨isNew.1, copies⟩
              trust := anchoring.trust
              keyFirst := anchoring.keyFirst
              pending := by
                refine anchoring.pending.imp_right fun isDone => ?_
                rw [isDone] at copies ⊢
                simp only [State.archive, completed] at copies ⊢
                rw [copies]
              installed := anchoring.installed
              archived := copies }
      exact Lands.store (fun state before => (archives state before).toResumable)
        fun state before => archives state before

theorem installKey_lands :
    Lands (Archiving console publicKey oldKey journal start fixed)
      (store fun state => state.installKey journal.newEnvelope : Durable Failure State Unit)
      (Resumable console journal publicKey oldKey start fixed)
      fun _ state => Archiving console publicKey oldKey journal start fixed state ∧
        state.keyFile = some journal.newEnvelope := by
  have installs (state : State)
      (archiving : Archiving console publicKey oldKey journal start fixed state) :
      Archiving console publicKey oldKey journal start fixed
        (state.installKey journal.newEnvelope) :=
    { fixed := archiving.fixed
      database := Or.inr archiving.installed
      history := archiving.history
      key := Or.inr ⟨rfl, archiving.archived⟩
      trust := archiving.trust
      keyFirst := Or.inr rfl
      pending := by
        refine archiving.pending.imp_right fun isDone => ?_
        rw [isDone]
        rfl
      installed := archiving.installed
      archived := archiving.archived }
  exact Lands.store (fun state archiving => (installs state archiving).toResumable)
    fun state archiving => ⟨installs state archiving, rfl⟩

theorem writeAlias_lands (path : TrustPath) (rest : List TrustPath) :
    Lands (Renewing console publicKey oldKey journal start fixed (path :: rest))
      (store fun state => state.writeAlias path journal.newTrust : Durable Failure State Unit)
      (Resumable console journal publicKey oldKey start fixed)
      fun _ => Renewing console publicKey oldKey journal start fixed rest := by
  have writes (state : State)
      (renewing : Renewing console publicKey oldKey journal start fixed (path :: rest) state) :
      Renewing console publicKey oldKey journal start fixed rest
        (state.writeAlias path journal.newTrust) := by
    obtain ⟨file, isFile⟩ :=
      Option.isSome_iff_exists.mp (renewing.listed path List.mem_cons_self)
    have written : (state.writeAlias path journal.newTrust).trust path =
        (start.trust path).map fun _ => .value journal.newTrust := by
      simp [State.writeAlias, isFile]
    have others (other : TrustPath) (different : other ≠ path) :
        (state.writeAlias path journal.newTrust).trust other = state.trust other :=
      Function.update_of_ne different _ _
    exact
      { fixed := renewing.fixed
        database := Or.inr renewing.installed
        history := renewing.history
        key := renewing.key
        trust := fun other => by
          by_cases same : other = path
          · rw [same]
            exact Or.inr written
          · rw [others other same]
            exact renewing.trust other
        keyFirst := Or.inr renewing.keyed
        pending := by
          refine renewing.pending.imp_right fun isDone => ?_
          have unchanged : (state.writeAlias path journal.newTrust).trust = state.trust := by
            funext other
            by_cases same : other = path
            · rw [same, written, isDone]
              rfl
            · exact others other same
          calc state.writeAlias path journal.newTrust
              = { state with
                  trust := (state.writeAlias path journal.newTrust).trust } := rfl
            _ = state := by rw [unchanged]
            _ = _ := isDone
        installed := renewing.installed
        archived := renewing.archived
        keyed := renewing.keyed
        renewed := fun other outside => by
          by_cases same : other = path
          · rw [same]
            exact written
          · rw [others other same]
            exact renewing.renewed other (by simp [same, outside])
        listed := fun other inside => renewing.listed other (List.mem_cons_of_mem _ inside) }
  exact Lands.store (fun state renewing => (writes state renewing).toResumable)
    fun state renewing => writes state renewing

theorem writeTrust_lands (prepared : Prepared console journal pin publicKey oldKey start) :
    Lands (fun state => Archiving console publicKey oldKey journal start fixed state ∧
        state.keyFile = some journal.newEnvelope)
      (writeTrust (trustOf journal.oldCertificate oldKey.verifier) journal.newTrust)
      (Resumable console journal publicKey oldKey start fixed)
      fun _ => Renewing console publicKey oldKey journal start fixed [] := by
  have reads : Lands (fun state =>
        Archiving console publicKey oldKey journal start fixed state ∧
          state.keyFile = some journal.newEnvelope)
      (inspect (approvedPaths (trustOf journal.oldCertificate oldKey.verifier) journal.newTrust))
      (Resumable console journal publicKey oldKey start fixed)
      fun paths => Renewing console publicKey oldKey journal start fixed paths := by
    apply Lands.inspect
    rintro state ⟨archiving, keyed⟩
    have known := archiving.knownTrust console prepared
    have some_iff (path : TrustPath) :
        (state.trust path).isSome = true ↔ (start.trust path).isSome = true := by
      rcases archiving.trust path with same | same <;> rw [same]
      simp
    refine ⟨writtenPaths state, ?_, ?_⟩
    · simp only [approvedPaths, require_true _ (trusted_of_known known),
        Program.except_ok_bind]
      rfl
    · exact
        { toArchiving := archiving
          keyed := keyed
          renewed := fun path outside => by
            have absent : ¬ (state.trust path).isSome = true :=
              fun present => outside ((mem_writtenPaths known path).mpr present)
            have nowhere : start.trust path = none := by
              simpa [some_iff] using absent
            rcases archiving.trust path with same | same
            · rw [same, nowhere]
              rfl
            · exact same
          listed := fun path inside =>
            (some_iff path).mp ((mem_writtenPaths known path).mp inside) }
  refine Lands.bind reads fun paths => ?_
  exact Lands.forEach (writeAlias_lands console) paths

/-- A rotation of `start` is done in `state`: the new anchor was installed by one run and
every file is in its last place. -/
def Finished (journal : Journal) (publicKey : String) (oldKey : Accounts.StoredCredential)
    (start state : State) : Prop :=
  InstalledFrom console journal publicKey oldKey start.db state.db ∧
    state = completed journal start state.db

theorem unlinkJournal_lands :
    Lands (Renewing console publicKey oldKey journal start fixed [])
      (store State.unlinkJournal : Durable Failure State Unit)
      (Resumable console journal publicKey oldKey start fixed)
      fun _ => Finished console journal publicKey oldKey start := by
  have ends (state : State)
      (renewing : Renewing console publicKey oldKey journal start fixed [] state) :
      state.unlinkJournal = completed journal start state.db := by
    have renewed : state.trust = fun path =>
        (start.trust path).map fun _ => .value journal.newTrust :=
      funext fun path => renewing.renewed path List.not_mem_nil
    simp only [State.unlinkJournal, completed]
    rw [renewed, renewing.archived, renewing.keyed]
  have removes (state : State)
      (renewing : Renewing console publicKey oldKey journal start fixed [] state) :
      Resumable console journal publicKey oldKey start fixed state.unlinkJournal :=
    { fixed := renewing.fixed
      database := Or.inr renewing.installed
      history := renewing.history
      key := renewing.key
      trust := renewing.trust
      keyFirst := renewing.keyFirst
      pending := Or.inr (ends state renewing) }
  exact Lands.store removes fun state renewing => ⟨renewing.installed, ends state renewing⟩

/-- One completion, from wherever an earlier one stopped. -/
theorem complete_lands (draw : Draw)
    (prepared : Prepared console journal pin publicKey oldKey start)
    (closed : Closed console publicKey oldKey journal start fixed) :
    Lands (Resumable console journal publicKey oldKey start fixed)
      (complete console draw journal pin)
      (Resumable console journal publicKey oldKey start fixed)
      fun result state => result = receipt console journal publicKey ∧
        Finished console journal publicKey oldKey start state := by
  have validates : Lands (Resumable console journal publicKey oldKey start fixed)
      (inspect fun _ => validate console journal pin)
      (Resumable console journal publicKey oldKey start fixed) fun opened state =>
        opened = publicKey ∧ Resumable console journal publicKey oldKey start fixed state :=
    Lands.inspect fun state resumable => ⟨publicKey, prepared.valid, rfl, resumable⟩
  have checksKey : Lands (Resumable console journal publicKey oldKey start fixed)
      (inspect (checkKeyFile console journal))
      (Resumable console journal publicKey oldKey start fixed)
      fun _ => Resumable console journal publicKey oldKey start fixed :=
    Lands.inspect fun state resumable =>
      ⟨(), checkKeyFile_passes console (resumable.knownKey console prepared), resumable⟩
  have checksHistory : Lands (Resumable console journal publicKey oldKey start fixed)
      (inspect (checkHistory console journal))
      (Resumable console journal publicKey oldKey start fixed)
      fun _ => Resumable console journal publicKey oldKey start fixed := by
    apply Lands.inspect
    intro state resumable
    rcases checkHistory_passes console (resumable.knownKey console prepared)
      (resumable.knownHistory console prepared) with ⟨passes, _⟩ | ⟨text, passes, _⟩
    · exact ⟨none, passes, resumable⟩
    · exact ⟨some text, passes, resumable⟩
  have readsTrust : Lands (Resumable console journal publicKey oldKey start fixed)
      (inspect currentTrust) (Resumable console journal publicKey oldKey start fixed)
      fun current state => Resumable console journal publicKey oldKey start fixed state ∧
        trustValues state = current :=
    Lands.inspect fun state resumable => ⟨trustValues state,
      currentTrust_passes (resumable.knownTrust console prepared), resumable, rfl⟩
  unfold complete
  refine Lands.bind validates fun opened => ?_
  by_cases same : opened = publicKey
  · subst same
    refine Lands.bind (checksKey.weaken (fun _ before => before.2) (fun _ => id)
      fun _ _ => id) fun _ => ?_
    refine Lands.bind checksHistory fun _ => ?_
    refine Lands.bind readsTrust fun current => ?_
    refine Lands.bind (transaction_lands console draw current prepared closed) fun oldTrust => ?_
    by_cases isOld : oldTrust = trustOf journal.oldCertificate oldKey.verifier
    · subst isOld
      refine Lands.bind ((archiveKey_lands console prepared).weaken (fun _ before => before.2)
        (fun _ => id) fun _ _ => id) fun _ => ?_
      refine Lands.bind (installKey_lands console) fun _ => ?_
      refine Lands.bind (writeTrust_lands console prepared) fun _ => ?_
      refine Lands.bind (unlinkJournal_lands console) fun _ => ?_
      exact Lands.pure _ fun _ done => ⟨rfl, done⟩
    · rintro state ⟨oldTrustIs, _⟩
      exact absurd oldTrustIs isOld
  · rintro state ⟨opens, _⟩
    exact absurd opens same

/-- The previous envelope has its copy in history. -/
def Archived (journal : Journal) (state : State) : Prop :=
  ∀ previous, journal.previousEnvelopeDigest = some previous →
    ∃ content, state.history journal.oldCertificate.resourceId = some content ∧
      console.digestBytes content = previous

abbrev Resumed (journal : Journal) (pin : String) : State → State → Prop :=
  Interrupted fun draw => complete console draw journal pin

/-- What a rotation that began in `start` owes in every state that crashes can leave. -/
structure Survives (journal : Journal) (pin publicKey : String)
    (oldKey : Accounts.StoredCredential) (start state : State) : Prop where
  resumes : ∀ draw, ∃ final,
    (complete console draw journal pin state).2 =
        .ok (receipt console journal publicKey, final) ∧
      Finished console journal publicKey oldKey start final
  keepsKey : state.keyFile = start.keyFile ∨ Archived console journal state
  journalLast : state.pending = none → Finished console journal publicKey oldKey start state
  databaseFirst : state = start ∨ InstalledFrom console journal publicKey oldKey start.db state.db
  databaseOnce : ∀ later, Resumed console journal pin state later → state.db ≠ start.db →
    later.db = state.db

theorem Resumable.archived (prepared : Prepared console journal pin publicKey oldKey start)
    (resumable : Resumable console journal publicKey oldKey start fixed state)
    (copied : state.history = archivedHistory journal start) :
    Archived console journal state := by
  intro previous wanted
  rcases archivedHistory_done console prepared.history with present | unwanted
  · obtain ⟨content, stored⟩ := Option.isSome_iff_exists.mp present
    rw [← copied] at stored
    obtain ⟨_, isPrevious⟩ := (resumable.knownHistory console prepared).held content stored
    rw [wanted] at isPrevious
    exact ⟨content, stored, (Option.some.inj isPrevious).symm⟩
  · rw [wanted] at unwanted
    cases unwanted

theorem rotation_survives_crashes (journal : Journal) (pin publicKey : String)
    (oldKey : Accounts.StoredCredential) (start state : State)
    (prepared : Prepared console journal pin publicKey oldKey start)
    (reached : Resumed console journal pin start state) :
    Survives console journal pin publicKey oldKey start state := by
  have anywhere : Closed console publicKey oldKey journal start fun _ => True :=
    fun _ _ _ => trivial
  have lands (draw : Draw) := complete_lands console draw prepared anywhere
  have resumable := reached.kept lands (prepared.resumable console trivial)
  constructor
  · intro draw
    obtain ⟨result, final, ends, rfl, done⟩ :=
      reached.completes lands (prepared.resumable console trivial) draw
    exact ⟨final, ends, done⟩
  · refine resumable.key.imp_right fun isNew => ?_
    exact resumable.archived console prepared isNew.2
  · intro removed
    rcases resumable.pending with same | isDone
    · rw [prepared.pending, removed] at same
      cases same
    · refine ⟨?_, isDone⟩
      rcases resumable.database with rfl | installed
      · rw [prepared.pending] at removed
        cases removed
      · exact installed
  · exact resumable.database
  · intro later further changed
    -- From here on the only database allowed is the one that stands.
    have settled : Closed console publicKey oldKey journal start (· = state.db) :=
      fun same => absurd same.symm changed
    have stays (draw : Draw) := complete_lands console draw prepared settled
    have here : Resumable console journal publicKey oldKey start (· = state.db) state :=
      { resumable with fixed := rfl }
    exact (further.kept stays here).fixed

/-! A rotation that stops once the new key envelope stands, both aliases still old. -/

def sampleOld : Certificate :=
  ⟨"cert_root", "1", rootSubject, "k_old", rootSubject, none, [], .ca, [], 0, 1000,
    "https://msg.test", 8, none, ⟨"k_old", "ed25519", "cert_root"⟩⟩

def sampleNew : Certificate :=
  ⟨"cert_next", "2", rootSubject, "k_new", rootSubject, none, [], .ca, [], 5, 2000,
    "https://msg.test", 8, some ⟨[], 100, 3, 8⟩, ⟨"k_new", "ed25519", "cert_next"⟩⟩

def sampleCsr : CertificateRequest :=
  ⟨"csr_online", onlineCa, onlineCa, rootSubject, "online", .ca,
    [⟨"cert.issue", 1, ⟨"r_root", true⟩, [], []⟩], some ⟨[], 100, 0, 8⟩, 1000,
    "https://msg.test", 0, [], "csr_online", ⟨"k_online", "ed25519", "csr_online"⟩⟩

def sampleConsole : Console where
  app := sampleApp
  onlinePublic := "online"
  openPrivateKey := fun envelope pin =>
    if envelope = "sealed" ∧ pin = "pin" then .ok "new" else .error { code := "invalid_pin" }
  keyId := fun publicKey => "k_" ++ publicKey
  byteLength := String.length
  digestBytes := id
  digestCertificate := Certificate.resourceId
  digestTrust := Trust.publicKey
  digestCsr := CertificateRequest.resourceId
  csrBody := CertificateRequest.resourceId
  csrBodyDigest := CertificateRequest.resourceId
  authorizationText := fun proof => proof.newEnvelopeDigest
  auditDigest := fun event _ => event.id
  privateLimit := 4194304
  openedShort := by
    intro envelope pin publicKey opened
    by_cases opens : envelope = "sealed" ∧ pin = "pin"
    · rw [opens.1]
      decide
    · simp [opens] at opened
  certSpacePlain := rfl
  csrSpacePlain := rfl

def sampleJournal : Journal where
  version := 2
  oldCertificate := sampleOld
  newTrust := trustOf sampleNew "new"
  newEnvelope := "sealed"
  previousEnvelopeDigest := some "old"
  onlineCsr := sampleCsr
  statement := ⟨"cert_root", "old", "cert_next", "new", 5, "operator", true⟩
  newSignature := ⟨"k_new", "ed25519", "sealed"⟩
  oldSignature := some ⟨"k_old", "ed25519", "sealed"⟩

def sampleOldKey : Accounts.StoredCredential where
  id := "k_old"
  subjectId := rootSubject
  kind := .signingKey
  verifier := "old"
  ceiling := []
  notBefore := 0
  expiresAt := none
  revokedAt := none
  sourceCredentialId := none

def sampleSpace (id : String) : Resource :=
  ⟨id, "topic", 1, id, none, rootSubject, publicGroup, 365, 0, none, .active⟩

def sampleStart : State where
  db :=
    { accounts :=
        { store := { Store.empty with
            resources := ⟨[sampleSpace certSpace, sampleSpace csrSpace], by decide⟩
            subjects := ⟨[⟨rootSubject, .system, 0, true⟩], by decide⟩
            certificates := ⟨[sampleOld], by decide⟩ }
          credentials := ⟨[sampleOldKey], by decide⟩
          identityKeys := Table.empty
          encryptionSubkeys := Table.empty
          deliveries := Table.empty
          results := Table.empty
          requests := Table.empty
          vaults := Table.empty
          delegatedIdentities := []
          oauth := .empty }
      csrs := Table.empty
      settings := ⟨none, none, some "cert_online", 7, []⟩
      audit := [] }
  keyFile := some "old"
  history := fun _ => none
  trust := fun _ => some (.value (trustOf sampleOld "old"))
  pending := some sampleJournal

/-- The run stops after its database commit, the history copy and the key envelope. -/
def sampleCrash : State :=
  cut (complete sampleConsole ⟨6, "audit_1"⟩ sampleJournal "pin") sampleStart 2

theorem samplePrepared :
    Prepared sampleConsole sampleJournal "pin" "new" sampleOldKey sampleStart where
  valid := by decide +kernel
  pending := rfl
  database :=
    { active := rfl
      old := by decide +kernel
      stored := by decide +kernel
      oldSubject := rfl
      fingerprint := rfl
      signed := by decide +kernel
      root := ⟨⟨rootSubject, .system, 0, true⟩, by decide +kernel, rfl⟩
      freshKey := by decide +kernel
      certSpace := ⟨sampleSpace certSpace, by decide +kernel⟩
      csrSpace := ⟨sampleSpace csrSpace, by decide +kernel⟩
      freshRow := by decide +kernel
      freshCertificate := by decide +kernel
      csrRow := ⟨by decide, by
        intro row found
        have absent : sampleStart.db.store.resources.find? "csr_online" = none := by
          decide +kernel
        exact absurd (found.symm.trans absent) (by simp)⟩
      freshCsr := by decide +kernel }
  key :=
    { held := by
        intro content stored
        cases stored
        exact ⟨⟨by decide, by decide⟩, Or.inl rfl⟩
      absent := by
        intro absent
        cases absent }
  history :=
    { held := by
        intro content stored
        cases stored
      absent := by
        intro _ previous wanted
        exact ⟨"old", rfl, Option.some.inj wanted⟩ }
  trust :=
    { present := ⟨.rootCrt, rfl⟩
      held := by
        intro path file stored
        exact Or.inl (Option.some.inj stored).symm }

theorem rotation_survives_crashes_sample :
    sampleCrash.keyFile = some "sealed" ∧ sampleCrash.history "cert_root" = some "old" ∧
      sampleCrash.trust .rootCrt = some (.value (trustOf sampleOld "old")) ∧
      Survives sampleConsole sampleJournal "pin" "new" sampleOldKey sampleStart sampleCrash :=
  ⟨by decide +kernel, by decide +kernel, by decide +kernel,
    rotation_survives_crashes sampleConsole sampleJournal "pin" "new" sampleOldKey sampleStart
      sampleCrash samplePrepared (Relation.ReflTransGen.single ⟨⟨6, "audit_1"⟩, stops_cut _ _ _⟩)⟩

end Resuming

end MsgServer.Rotation
