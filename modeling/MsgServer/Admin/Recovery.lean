import MsgServer.Library.Replay
import MsgServer.Storage.Accounts
import Mathlib.Logic.Function.Basic

/-!
The replay of a recovery checkpoint of version 1, admin/recovery_replay.py. The authority
tables are functions of their primary keys, with the columns that a fact reads or writes.
`body` of a row is what `decode` gives of the stored text, a failure where it refuses; a
column that holds a time is its text. Facts of version 2 and the checks that only they meet
are left out.
-/

namespace MsgServer.Recovery

open Library

inductive FactKind where
  | credentialRevoke | certificateRevoke
  | shareGrantRevoke | shareGrantV2Revoke | shareLinkRevoke
  | membershipRemove | topicMembershipRemove
  | topicBanApply | topicBanLift
  | identityKeyRetire | encryptionKeyRetire
  | vaultDestroy
  deriving DecidableEq

structure Fact where
  sequence : Nat
  kind : FactKind
  subject : String
  target : String
  at' : String
  deriving DecidableEq

structure CredentialRow where
  subject : String
  body : Except Failure Accounts.StoredCredential

structure DeliveryRow where
  subject : String
  consumedAt : Option String
  deriving DecidableEq

structure CertificateRow where
  subject : String
  revoked : Int
  body : Except Failure Certificate

structure ShareRow where
  grantor : String
  revokedAt : Option String
  deriving DecidableEq

inductive Status where
  | active | pending | invited | rejected
  deriving DecidableEq

structure Membership where
  organizationId : String
  subjectId : String
  role : String
  version : Nat
  status : Status
  deriving DecidableEq

structure MembershipRow where
  generation : Int
  body : Except Failure Membership

inductive TopicRole where
  | admin | member
  deriving DecidableEq

inductive TopicStatus where
  | active | pending | invited | left | removed
  deriving DecidableEq

structure TopicMembership where
  role : TopicRole
  status : TopicStatus
  deriving DecidableEq

inductive BanStatus where
  | active | lifted
  deriving DecidableEq

structure TopicBan where
  actor : String
  createdAt : String
  expiresAt : Option String
  reason : Option String
  status : BanStatus
  deriving DecidableEq

/-- A row of identity_keys or of encryption_subkeys. -/
structure KeyRow where
  subject : String
  retiredAt : Option String
  isPrimary : Int
  deriving DecidableEq

structure Vault where
  signingKeyId : String
  encryptionKeyId : String
  signingNonce : Option String
  signingCiphertext : Option String
  ageNonce : Option String
  ageCiphertext : Option String
  status : Accounts.VaultStatus
  destroyedAt : Option String
  deriving DecidableEq

/-- The rows that facts read and write; of resources, which ids there are. -/
structure Tables where
  credentials : String → Option CredentialRow
  deliveries : String → Option DeliveryRow
  certificates : String → Option CertificateRow
  shareGrants : String → Option ShareRow
  shareGrantsV2 : String → Option ShareRow
  shareLinks : String → Option ShareRow
  memberships : String × String → Option MembershipRow
  topicMemberships : String × String → Option TopicMembership
  topicBans : String × String → Option TopicBan
  identityKeys : String → Option KeyRow
  encryptionSubkeys : String → Option KeyRow
  vaults : String → Option Vault
  resources : String → Bool

/-- The body of a checkpoint and its signature. -/
structure Checkpoint where
  format : String
  service : String
  sourceBackupSha256 : String
  sequence : Nat
  entries : List Fact
  deriving DecidableEq

structure Packet where
  checkpoint : Checkpoint
  signature : Signature
  deriving DecidableEq

/-- Independently approved exact head, not a value extracted from the packet. -/
structure Pin where
  service : String
  publicKey : String
  digest : String
  sequence : Nat
  deriving DecidableEq

/-- The installation: `parse_time`, the hash, the check of signatures and the texts they
work on. -/
structure World where
  parseTime : String → Except Failure Nat
  byteLength : String → Nat
  sha256Hex : String → Bool
  checkpointDigest : Checkpoint → String
  entriesDigest : List Fact → String
  canonical : Checkpoint → String
  verify : String → String → Signature → String → Bool
  keyId : String → String

variable (world : World)

def missing : String := "recovery_fact_missing"
def mismatch : String := "recovery_fact_subject_mismatch"

/-- `_earlier`. -/
def earlier (previous : Option String) (at' : String) : Except Failure String :=
  match previous with
  | none => .ok at'
  | some previous => do
      let time ← world.parseTime at'
      let known ← world.parseTime previous
      return if time < known then at' else previous

def revokedCredential (row : CredentialRow) (credential : Accounts.StoredCredential)
    (time : Nat) : CredentialRow :=
  { row with body := .ok { credential with revokedAt := some time } }

/-- The row of credentials that `_revoke_credential` leaves, whether it is a token's, and
whether it changed. -/
def revokeCredentialRow (subject target at' : String) (row : Option CredentialRow) :
    Except Failure (CredentialRow × Bool × Bool) := do
  let row ← requireRow row missing
  require (row.subject = subject) mismatch
  let credential ← row.body
  require (credential.id = target ∧ credential.subjectId = subject) mismatch
  let time ← world.parseTime at'
  let token := decide (credential.kind = .token)
  match credential.revokedAt with
  | none => return (revokedCredential row credential time, token, true)
  | some known =>
      if known > time then return (revokedCredential row credential time, token, true)
      else return (row, token, false)

def consumeDelivery (subject at' : String) (row : Option DeliveryRow) :
    Except Failure (Option DeliveryRow × Bool) :=
  match row with
  | none => return (none, false)
  | some row => do
      require (row.subject = subject) mismatch
      let earliest ← earlier world row.consumedAt at'
      return (some { row with consumedAt := some earliest },
        decide (row.consumedAt ≠ some earliest))

/-- The rows of one credential and of its delivery. -/
def revokeAccount (subject target at' : String)
    (rows : Option CredentialRow × Option DeliveryRow) :
    Except Failure ((Option CredentialRow × Option DeliveryRow) × Bool) := do
  let (row, token, revoked) ← revokeCredentialRow world subject target at' rows.1
  if token then
    let (delivery, consumed) ← consumeDelivery world subject at' rows.2
    return ((some row, delivery), revoked || consumed)
  else return ((some row, rows.2), revoked)

def revokeCertificate (subject target : String) (row : Option CertificateRow) :
    Except Failure (Option CertificateRow × Bool) := do
  let row ← requireRow row missing
  require (row.subject = subject) mismatch
  let certificate ← row.body
  require (certificate.resourceId = target ∧ certificate.subjectId = subject) mismatch
  return (some { row with revoked := 1 }, decide (row.revoked ≠ 1))

/-- One body for the three tables of shares. -/
def revokeShare (subject at' : String) (row : Option ShareRow) :
    Except Failure (Option ShareRow × Bool) := do
  let row ← requireRow row missing
  require (row.grantor = subject) mismatch
  let earliest ← earlier world row.revokedAt at'
  return (some { row with revokedAt := some earliest }, decide (row.revokedAt ≠ some earliest))

def removeMembership (subject target : String) (row : Option MembershipRow) :
    Except Failure (Option MembershipRow × Bool) := do
  require (target ≠ "g_public") "recovery_virtual_membership_requires_identity_policy"
  let row ← requireRow row missing
  let member ← row.body
  require (member.subjectId = subject ∧ member.organizationId = target ∧
    (member.version : Int) = row.generation) mismatch
  if member.status = .rejected then return (some row, false)
  else
    return (some { generation := member.version + 1
                   body := .ok { member with version := member.version + 1,
                                             status := .rejected } }, true)

def removeTopicMembership (row : Option TopicMembership) :
    Except Failure (Option TopicMembership × Bool) := do
  let row ← requireRow row missing
  return (some { row with status := .removed }, decide (row.status ≠ .removed))

/-- A live ban removes membership as well as denying topic participation. -/
def banMember (row : Option TopicMembership) : Option TopicMembership × Bool :=
  match row with
  | none => (none, false)
  | some row => (some ⟨.member, .removed⟩, decide (row ≠ ⟨.member, .removed⟩))

def newBan (at' : String) : TopicBan where
  actor := rootSubject
  createdAt := at'
  expiresAt := none
  reason := some "recovery-replay"
  status := .active

/-- V1 has no expiry and does not inherit the expiry of a stale snapshot. -/
def applyBan (at' : String) (row : Option TopicBan) : Option TopicBan × Bool :=
  match row with
  | none => (some (newBan at'), true)
  | some row => (some { row with status := .active, expiresAt := none },
      decide (row.status ≠ .active ∨ row.expiresAt ≠ none))

def liftBan (row : Option TopicBan) : Except Failure (Option TopicBan × Bool) := do
  let row ← requireRow row missing
  return (some { row with status := .lifted }, decide (row.status ≠ .lifted))

def retireKey (subject at' : String) (row : Option KeyRow) :
    Except Failure (Option KeyRow × Bool) := do
  let row ← requireRow row missing
  require (row.subject = subject) mismatch
  let earliest ← earlier world row.retiredAt at'
  return (some { row with retiredAt := some earliest, isPrimary := 0 },
    decide (row.retiredAt ≠ some earliest ∨ row.isPrimary ≠ 0))

/-- The check constraint of custodial_vault. -/
def vaultAllowed (row : Vault) : Prop :=
  row.status = .decryptOnly → row.signingNonce = none ∧ row.signingCiphertext = none ∧
    row.ageNonce ≠ none ∧ row.ageCiphertext ≠ none

instance (row : Vault) : Decidable (vaultAllowed row) := inferInstanceAs (Decidable (_ → _))

def withoutSigning (row : Vault) : Vault :=
  { row with
    signingNonce := none
    signingCiphertext := none
    status := if row.ageCiphertext.isSome then .decryptOnly else .destroyed }

/-- What retiring an identity key does to the vault of its subject. -/
def retireVault (target : String) (row : Option Vault) : Except Failure (Option Vault × Bool) :=
  match row with
  | none => return (none, false)
  | some row =>
      if row.signingKeyId = target ∧
          (row.signingNonce.isSome = true ∨ row.signingCiphertext.isSome = true) then do
        require (vaultAllowed (withoutSigning row)) constraintConflict.code
        return (some (withoutSigning row), true)
      else return (some row, false)

def emptied (row : Vault) (at' : String) : Vault :=
  { row with
    signingNonce := none
    signingCiphertext := none
    ageNonce := none
    ageCiphertext := none
    status := .destroyed
    destroyedAt := some at' }

/-- Whether a vault has still something to destroy. -/
def vaultHolds (row : Vault) : Prop :=
  row.signingNonce ≠ none ∨ row.signingCiphertext ≠ none ∨ row.ageNonce ≠ none ∨
    row.ageCiphertext ≠ none ∨ row.status ≠ .destroyed

instance (row : Vault) : Decidable (vaultHolds row) := inferInstanceAs (Decidable (_ ∨ _))

def destroyVault (target at' : String) (row : Option Vault) :
    Except Failure (Option Vault × Bool) := do
  let row ← requireRow row missing
  require (row.encryptionKeyId = target) mismatch
  if vaultHolds row then return (some (emptied row at'), true)
  else return (some row, false)

/-- A statement on the one row of a table that its key selects. -/
def onRow {κ ρ : Type} [DecidableEq κ] (table : κ → ρ) (key : κ)
    (change : ρ → Except Failure (ρ × Bool)) : Except Failure ((κ → ρ) × Bool) := do
  let (row, changed) ← change (table key)
  return (Function.update table key row, changed)

/-- `_revoke_credential`. -/
def revokeCredential (subject target at' : String) (tables : Tables) :
    Except Failure (Tables × Bool) := do
  let (rows, changed) ← revokeAccount world subject target at'
    (tables.credentials target, tables.deliveries target)
  return ({ tables with
    credentials := Function.update tables.credentials target rows.1
    deliveries := Function.update tables.deliveries target rows.2 }, changed)

/-- `_apply`. -/
def apply (fact : Fact) (tables : Tables) : Except Failure (Tables × Bool) :=
  match fact.kind with
  | .credentialRevoke => revokeCredential world fact.subject fact.target fact.at' tables
  | .certificateRevoke => do
      let (rows, changed) ← onRow tables.certificates fact.target
        (revokeCertificate fact.subject fact.target)
      return ({ tables with certificates := rows }, changed)
  | .shareGrantRevoke => do
      let (rows, changed) ← onRow tables.shareGrants fact.target
        (revokeShare world fact.subject fact.at')
      return ({ tables with shareGrants := rows }, changed)
  | .shareGrantV2Revoke => do
      let (rows, changed) ← onRow tables.shareGrantsV2 fact.target
        (revokeShare world fact.subject fact.at')
      return ({ tables with shareGrantsV2 := rows }, changed)
  | .shareLinkRevoke => do
      let (rows, changed) ← onRow tables.shareLinks fact.target
        (revokeShare world fact.subject fact.at')
      return ({ tables with shareLinks := rows }, changed)
  | .membershipRemove => do
      let (rows, changed) ← onRow tables.memberships (fact.target, fact.subject)
        (removeMembership fact.subject fact.target)
      return ({ tables with memberships := rows }, changed)
  | .topicMembershipRemove => do
      let (rows, changed) ← onRow tables.topicMemberships (fact.target, fact.subject)
        removeTopicMembership
      return ({ tables with topicMemberships := rows }, changed)
  | .topicBanApply => do
      require (tables.resources fact.target = true) missing
      let (members, memberChanged) ← onRow tables.topicMemberships (fact.target, fact.subject)
        fun row => .ok (banMember row)
      let (bans, banChanged) ← onRow tables.topicBans (fact.target, fact.subject)
        fun row => .ok (applyBan fact.at' row)
      return ({ tables with topicMemberships := members, topicBans := bans },
        banChanged || memberChanged)
  | .topicBanLift => do
      let (rows, changed) ← onRow tables.topicBans (fact.target, fact.subject) liftBan
      return ({ tables with topicBans := rows }, changed)
  | .identityKeyRetire => do
      let (rows, keyChanged) ← onRow tables.identityKeys fact.target
        (retireKey world fact.subject fact.at')
      let (revoked, credentialChanged) ← revokeCredential world fact.subject fact.target fact.at'
        { tables with identityKeys := rows }
      let (vaults, vaultChanged) ← onRow revoked.vaults fact.subject (retireVault fact.target)
      return ({ revoked with vaults := vaults },
        credentialChanged || keyChanged || vaultChanged)
  | .encryptionKeyRetire => do
      let (rows, changed) ← onRow tables.encryptionSubkeys fact.target
        (retireKey world fact.subject fact.at')
      return ({ tables with encryptionSubkeys := rows }, changed)
  | .vaultDestroy => do
      let (rows, changed) ← onRow tables.vaults fact.subject
        (destroyVault fact.target fact.at')
      return ({ tables with vaults := rows }, changed)

def checkpointFormat : String := "msg-revocation-checkpoint-v1"
def maxEntries : Nat := 10000

def nameAccepted (text : String) : Prop := 0 < text.length ∧ text.length ≤ 256

instance (text : String) : Decidable (nameAccepted text) := inferInstanceAs (Decidable (_ ∧ _))

def timeAccepted (now : Nat) (text : String) : Prop :=
  match world.parseTime text with
  | .ok time => time ≤ now
  | .error _ => False

instance (now : Nat) (text : String) : Decidable (timeAccepted world now text) := by
  unfold timeAccepted
  split <;> infer_instance

/-- The entries are numbered from `sequence` on, and none is of the future. -/
def entriesAccepted (now : Nat) : Nat → List Fact → Prop
  | _, [] => True
  | sequence, fact :: rest =>
      (fact.sequence = sequence ∧ nameAccepted fact.subject ∧ nameAccepted fact.target ∧
        timeAccepted world now fact.at') ∧ entriesAccepted now (sequence + 1) rest

instance entriesAcceptedDecidable (now : Nat) :
    (sequence : Nat) → (entries : List Fact) → Decidable (entriesAccepted world now sequence entries)
  | _, [] => .isTrue trivial
  | sequence, _ :: rest =>
      have := entriesAcceptedDecidable now (sequence + 1) rest
      inferInstanceAs (Decidable (_ ∧ _))

def checkpointAccepted (now : Nat) (packet : Packet) (pin : Pin) : Prop :=
  let body := packet.checkpoint
  (world.byteLength pin.publicKey = 32 ∧ pin.sequence ≤ maxEntries ∧
    body.sequence = pin.sequence ∧ body.format = checkpointFormat ∧
    body.service = pin.service ∧ pin.service ≠ "" ∧
    world.sha256Hex body.sourceBackupSha256 = true ∧
    world.checkpointDigest body = pin.digest ∧ body.entries.length = pin.sequence) ∧
  entriesAccepted world now 1 body.entries ∧
  world.verify pin.publicKey (world.canonical body) packet.signature
    "recovery-checkpoint-v1" = true

instance (now : Nat) (packet : Packet) (pin : Pin) :
    Decidable (checkpointAccepted world now packet pin) :=
  inferInstanceAs (Decidable (_ ∧ _))

/-- `verify_checkpoint`: every failure of its checks is the same one. -/
def verifyCheckpoint (now : Nat) (packet : Packet) (pin : Option Pin) :
    Except Failure (Checkpoint × Pin) := do
  let pin ← requireRow pin "recovery_checkpoint_pin_required"
  require (checkpointAccepted world now packet pin) "recovery_checkpoint_invalid"
  return (packet.checkpoint, pin)

/-- The gate of a quarantined database. -/
structure Gate where
  format : String
  outboundEnabled : Bool
  authority : String
  sourceBackupSha256 : Option String
  deriving DecidableEq

/-- The receipt of a replay, less the fields that are the same in every one of version 1. -/
structure Receipt where
  format : String
  checkpointDigest : String
  sequence : Nat
  prefixDigest : String
  deriving DecidableEq

structure AuditRow where
  id : String
  time : Nat
  requestId : String
  receipt : Receipt
  operator : String
  checkpointKeyId : String
  deriving DecidableEq

/-- A setting is `none` where it is not there and `some none` where it holds a value of
another shape. -/
structure Database where
  tables : Tables
  quarantine : Option (Option Gate)
  recoveryReplay : Option (Option Receipt)
  authorizationEpoch : Nat
  audit : List AuditRow

/-- One call of `_replay`. -/
structure Call where
  operator : String
  now : Nat
  auditId : String

structure Report where
  receipt : Receipt
  changed : Nat
  deriving DecidableEq

def checkGate (body : Checkpoint) (db : Database) : Except Failure Unit := do
  let setting ← requireRow db.quarantine "recovery_quarantine_required"
  let gate ← requireRow setting "recovery_quarantine_invalid"
  require (gate.format = "msg-recovery-quarantine-v1" ∧ gate.outboundEnabled = false ∧
    gate.authority = "health_only") "recovery_quarantine_invalid"
  require (gate.sourceBackupSha256 = some body.sourceBackupSha256)
    "recovery_checkpoint_backup_mismatch"

def receiptContinues (body : Checkpoint) (pin : Pin) (receipt : Receipt) : Prop :=
  (receipt.format = checkpointFormat ∨ receipt.format = body.format) ∧
    receipt.sequence ≤ pin.sequence ∧
    receipt.prefixDigest = world.entriesDigest (body.entries.take receipt.sequence)

instance (body : Checkpoint) (pin : Pin) (receipt : Receipt) :
    Decidable (receiptContinues world body pin receipt) :=
  inferInstanceAs (Decidable (_ ∧ _))

def checkPrevious (body : Checkpoint) (pin : Pin) (db : Database) : Except Failure Unit :=
  match db.recoveryReplay with
  | none => .ok ()
  | some setting => do
      let receipt ← requireRow setting "recovery_checkpoint_regression"
      require (receiptContinues world body pin receipt) "recovery_checkpoint_regression"

/-- One turn of the loop. `update_identity` of a membership turns the epoch too. -/
def applyFact (fact : Fact) (db : Database) : Except Failure (Database × Bool) := do
  let (tables, changed) ← apply world fact db.tables
  let turned := if fact.kind = .membershipRemove ∧ changed = true then 1 else 0
  return ({ db with
    tables := tables
    authorizationEpoch := db.authorizationEpoch + turned }, changed)

/-- The loop over the entries: how many facts changed something. -/
def applyFacts : List Fact → EStateM Failure Database Nat
  | [] => pure 0
  | fact :: rest => do
      let changed ← Program.update (applyFact world fact)
      let more ← applyFacts rest
      return changed.toNat + more

def receiptOf (body : Checkpoint) (pin : Pin) : Receipt where
  format := body.format
  checkpointDigest := pin.digest
  sequence := pin.sequence
  prefixDigest := world.entriesDigest body.entries

def turnEpoch (changed : Nat) (db : Database) : Database :=
  if changed = 0 then db else { db with authorizationEpoch := db.authorizationEpoch + 1 }

def recordReceipt (call : Call) (pin : Pin) (receipt : Receipt) (changed : Nat) (db : Database) :
    Database :=
  if changed = 0 ∧ db.recoveryReplay = some (some receipt) then db
  else { db with
    recoveryReplay := some (some receipt)
    audit := db.audit ++ [⟨call.auditId, call.now, pin.digest, receipt, call.operator,
      world.keyId pin.publicKey⟩] }

def replayBody (call : Call) (packet : Packet) (pin : Option Pin) :
    EStateM Failure Database Report := do
  Program.query fun _ => require (call.operator ≠ "") "recovery_operator_required"
  let (body, pin) ← Program.query fun _ => verifyCheckpoint world call.now packet pin
  Program.query (checkGate body)
  Program.query (checkPrevious world body pin)
  let changed ← applyFacts world body.entries
  Program.write fun db => .ok (turnEpoch changed db)
  Program.write fun db =>
    .ok (recordReceipt world call pin (receiptOf world body pin) changed db)
  return ⟨receiptOf world body pin, changed⟩

/-- `_replay`: one transaction, undone as a whole when it fails. -/
def replayCheckpoint (call : Call) (packet : Packet) (pin : Option Pin) :
    EStateM Failure Database Report :=
  Program.atomically (replayBody world call packet pin)

/-- The database after a replay, whichever way it ended. -/
def replayed (call : Call) (packet : Packet) (pin : Option Pin) (db : Database) : Database :=
  match replayCheckpoint world call packet pin db with
  | .ok _ next => next
  | .error _ next => next

end MsgServer.Recovery
