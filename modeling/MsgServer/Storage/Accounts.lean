import MsgServer.Storage.Session

/-!
The tables behind accounts: credentials, keys, token deliveries, stored results, the
custodial vault and the rows of oauth_states. They stand beside the authority tables,
which the authorizer and the certificate validator read through `State.view`. The ids
of oauth_states begin with the kind of the row, so each kind is a table of its own.
Receipts, audit rows and the authorization epoch are left out.
-/

namespace MsgServer.Accounts

open Library Session

/-- The whole of a stored credential: `source_credential_id` is what binds a token
to the key it was made with. -/
structure StoredCredential extends Credential where
  sourceCredentialId : Option String
  deriving DecidableEq

def StoredCredential.key (row : StoredCredential) : String := row.id

structure IdentityKey where
  keyId : String
  subject : String
  publicKey : String
  createdAt : Nat
  retiredAt : Option Nat
  primary : Bool
  deriving DecidableEq

structure EncryptionSubkey where
  keyId : String
  subject : String
  recipient : String
  createdAt : Nat
  retiredAt : Option Nat
  primary : Bool
  deriving DecidableEq

structure Delivery where
  credentialId : String
  subject : String
  requestId : String
  requestDigest : String
  recoveryVerifier : String
  recoveryExpiresAt : Nat
  claimedAt : Option Nat
  consumedAt : Option Nat
  deriving DecidableEq

/-- What the account operations answer. `token` is the secret itself, which only the
release of a delivery puts in. -/
structure Data where
  subjectId : String
  credentialId : Option String := none
  previousCredential : Option String := none
  keyId : Option String := none
  encryptionKeyId : Option String := none
  previousKeyId : Option String := none
  expiresAt : Option Nat := none
  token : Option String := none
  deriving DecidableEq

/-- A stored result: the fields that something reads again. -/
structure Result where
  subject : String
  requestId : String
  digest : String
  actor : Option String
  operation : String
  data : Data
  deriving DecidableEq

def Result.key (row : Result) : String × String := (row.subject, row.requestId)

/-- A certificate request, as far as its publication reads it here. -/
structure CertificateRequest where
  resourceId : String
  subject : String
  publicKey : String
  pending : Bool
  deriving DecidableEq

/-- A delegated identity is bound to its grantor and to one certificate, for a number of
uses or without limit. -/
structure DelegatedIdentity where
  grantor : String
  certificateId : String
  maxUses : Option Nat
  uses : Nat
  deriving DecidableEq

inductive VaultStatus where
  | active | decryptOnly | destroyed
  deriving DecidableEq

/-- A row of custodial_vault; of each sealed secret, whether it is there. -/
structure Vault where
  subject : String
  signingKeyId : String
  encryptionKeyId : String
  signingSecret : Bool
  decryptSecret : Bool
  status : VaultStatus
  deriving DecidableEq

/-- The keys a custodial exit goes from and to: its challenge and the fields of its
details that name keys. -/
structure KeySwitch where
  challengeId : String
  publicKey : String
  recipient : String
  newIdentityKeyId : String
  oldEncryptionKeyId : String
  newEncryptionKeyId : String
  deriving DecidableEq

/-- What a call to finish a custodial exit does to the accounts: nothing, the new
encryption target, the switch, or only the vault once the identity has been switched. -/
inductive Custody where
  | idle
  | target (keys : KeySwitch)
  | switch (keys : KeySwitch) (retainDecrypt : Bool)
  | retire (retainDecrypt : Bool)
  deriving DecidableEq

/-- What an OAuth grant or an API key records of the authority it comes from. -/
structure OwnSource where
  subject : String
  parent : String
  authVersion : Nat
  custodial : Bool
  ceiling : List CapabilityGrant
  authTime : Nat
  deriving DecidableEq

structure Source where
  own : OwnSource
  session : Option String
  deriving DecidableEq

inductive PendingKind where
  | device | login
  deriving DecidableEq

inductive PendingStatus where
  | pending | approved | denied | consumed
  deriving DecidableEq

structure Pending where
  kind : PendingKind
  clientId : String
  scopes : List String
  status : PendingStatus
  poll : String
  interval : Nat
  nextPoll : Nat
  source : Option Source
  deriving DecidableEq

/-- A browser session. The login it comes from is approved by `approve` alone, whose
source names no session. -/
structure SessionBody where
  own : OwnSource
  scopes : List String
  browserCredential : Option String
  revoked : Bool
  deriving DecidableEq

structure Code where
  source : Source
  clientId : String
  scopes : List String
  redirectUri : String
  challenge : String
  nonce : Option String
  consumed : Bool
  family : Option String
  deriving DecidableEq

structure Family where
  source : Source
  clientId : String
  scopes : List String
  revoked : Bool
  deriving DecidableEq

structure Refresh where
  family : String
  used : Bool
  deriving DecidableEq

/-- A row of oauth_states. -/
structure Expiring (β : Type) where
  id : String
  expires : Nat
  body : β
  deriving DecidableEq

abbrev Expirings (β : Type) := Table (@Expiring.id β)

structure OAuthStates where
  pendings : Expirings Pending
  polls : Expirings String
  sessions : Expirings SessionBody
  browsers : Expirings Source
  codes : Expirings Code
  families : Expirings Family
  refreshes : Expirings Refresh
  accesses : Expirings String
  apis : Expirings OwnSource
  rates : Expirings Nat

def OAuthStates.empty : OAuthStates where
  pendings := Table.empty
  polls := Table.empty
  sessions := Table.empty
  browsers := Table.empty
  codes := Table.empty
  families := Table.empty
  refreshes := Table.empty
  accesses := Table.empty
  apis := Table.empty
  rates := Table.empty

structure State where
  store : Store
  credentials : Table StoredCredential.key
  identityKeys : Table IdentityKey.keyId
  encryptionSubkeys : Table EncryptionSubkey.keyId
  deliveries : Table Delivery.credentialId
  results : Table Result.key
  requests : Table CertificateRequest.resourceId
  vaults : Table Vault.subject
  delegatedIdentities : List (String × DelegatedIdentity)
  oauth : OAuthStates

def State.view (state : State) : Store :=
  { state.store with
    credentials :=
      ⟨state.credentials.rows.map StoredCredential.toCredential, by
        have same : Credential.id ∘ StoredCredential.toCredential = StoredCredential.key := rfl
        rw [List.map_map, same]
        exact state.credentials.unique⟩ }

def storedCredential (state : State) (id : String) : Except Failure StoredCredential :=
  requireRow (state.credentials.find? id) "credential_not_found"

/-- What an upsert may not change of a credential. -/
structure SameIdentity (previous row : StoredCredential) : Prop where
  subject : previous.subjectId = row.subjectId
  kind : previous.kind = row.kind
  verifier : previous.verifier = row.verifier
  source : previous.sourceCredentialId = row.sourceCredentialId

instance (previous row : StoredCredential) : Decidable (SameIdentity previous row) :=
  decidable_of_iff (previous.subjectId = row.subjectId ∧ previous.kind = row.kind ∧
      previous.verifier = row.verifier ∧ previous.sourceCredentialId = row.sourceCredentialId)
    ⟨fun ⟨one, two, three, four⟩ => ⟨one, two, three, four⟩,
      fun same => ⟨same.subject, same.kind, same.verifier, same.source⟩⟩

def identityUnchanged (previous : Option StoredCredential) (row : StoredCredential) : Prop :=
  ∀ old, previous = some old → SameIdentity old row

instance (previous : Option StoredCredential) (row : StoredCredential) :
    Decidable (identityUnchanged previous row) :=
  match previous with
  | none => .isTrue fun _ absent => by cases absent
  | some old => decidable_of_iff (SameIdentity old row)
      ⟨fun same other is => Option.some.inj is ▸ same, fun all => all old rfl⟩

def saveCredential (state : State) (row : StoredCredential) (expectedAuthVersion : Nat) :
    Except Failure State := do
  let subject ← subject state.store row.subjectId
  require (subject.authVersion = expectedAuthVersion) "auth_version_conflict"
  require (identityUnchanged (state.credentials.find? row.id) row) "credential_identity_immutable"
  return { state with credentials := state.credentials.put row }

def subjectGeneration (state : State) (id : String) : Option Nat :=
  (state.store.subjects.find? id).map Subject.authVersion

/-- `update_identity` of a subject; the expected generation is `none` for -1. -/
def updateSubject (state : State) (record : Subject) (expected : Option Nat) :
    Except Failure State := do
  require (subjectGeneration state record.resourceId = expected) "generation_conflict"
  return { state with store := { state.store with subjects := state.store.subjects.put record } }

/-- The partial unique index on primary keys. -/
def insertIdentityKey (state : State) (row : IdentityKey) : Except Failure State := do
  require (row.primary = true → ∀ other ∈ state.identityKeys.rows, other.subject = row.subject →
    other.primary = false) constraintConflict.code
  let grown ← insertRow state.identityKeys row
  return { state with identityKeys := grown }

/-- Recipients are unique too. -/
def insertEncryptionSubkey (state : State) (row : EncryptionSubkey) : Except Failure State := do
  require (∀ other ∈ state.encryptionSubkeys.rows, other.recipient ≠ row.recipient)
    constraintConflict.code
  require (row.primary = true → ∀ other ∈ state.encryptionSubkeys.rows,
    other.subject = row.subject → other.primary = false) constraintConflict.code
  let grown ← insertRow state.encryptionSubkeys row
  return { state with encryptionSubkeys := grown }

def primaryKey (state : State) (subject : String) : Option IdentityKey :=
  state.identityKeys.rows.find? fun row => row.subject == subject && row.primary

def primarySubkey (state : State) (subject : String) : Option EncryptionSubkey :=
  state.encryptionSubkeys.rows.find? fun row => row.subject == subject && row.primary

/-- `UPDATE ... SET is_primary=0,retired_at=? WHERE subject=? AND is_primary=1`. -/
def retireSubkey (subject : String) (now : Nat) (row : EncryptionSubkey) : EncryptionSubkey :=
  if row.subject = subject ∧ row.primary = true then
    { row with primary := false, retiredAt := some now }
  else row

def retireKey (subject : String) (now : Nat) (row : IdentityKey) : IdentityKey :=
  if row.subject = subject ∧ row.primary = true then
    { row with primary := false, retiredAt := some now }
  else row

def retireSubkeys (state : State) (subject : String) (now : Nat) : State :=
  { state with encryptionSubkeys := state.encryptionSubkeys.rewrite (retireSubkey subject now) }

def retireKeys (state : State) (subject : String) (now : Nat) : State :=
  { state with identityKeys := state.identityKeys.rewrite (retireKey subject now) }

/-- `ORDER BY created_at,key_id`. -/
def older (left right : IdentityKey) : Bool :=
  decide (left.createdAt < right.createdAt) ||
    (left.createdAt == right.createdAt && decide (left.keyId ≤ right.keyId))

def oldest : List IdentityKey → Option IdentityKey
  | [] => none
  | row :: rest =>
      match oldest rest with
      | none => some row
      | some other => if older row other then some row else some other

def liveKeys (state : State) (subject : String) : List IdentityKey :=
  state.identityKeys.rows.filter fun row => row.subject == subject && row.retiredAt == none

def credentialsOf (state : State) (subject : String) : List StoredCredential :=
  state.credentials.rows.filter fun row => row.subjectId == subject

structure OAuthClient where
  clientId : String
  scopes : List String
  redirectUris : List String
  deriving DecidableEq

structure OAuthConfig where
  enabled : Bool
  clients : List OAuthClient
  sessionTtl : Nat
  accessTtl : Nat

inductive Effect where
  | read | transaction | external
  deriving DecidableEq

/-- The fields of a registered operation that a derived ceiling is filtered by. -/
structure OperationSpec where
  name : String
  version : Nat
  effect : Effect
  requireSignature : Bool
  anonymousOnly : Bool
  deriving DecidableEq

def OperationSpec.id (spec : OperationSpec) : String := spec.name ++ "@" ++ toString spec.version

def hexText (text : String) : Bool :=
  text.toList.all fun letter => letter.isDigit || (decide ('a' ≤ letter) && decide (letter ≤ 'f'))

/-- The installation as the account operations see it. Bytes are their base64 text, of
which `byteLength` gives the length. Hashes and service secrets are functions:
`issuedToken` of subject, request and nonce, `requestTag` the digits that name a token
by its request and subject, `publicTag` and `nonceTag` those that name a subject by its
key or by its claim. `recipientKey` decodes an age recipient and `canonical` is the text
that a key signs to prove possession. Instants are counted in ticks of `second`. -/
structure Installation extends App where
  operations : List OperationSpec
  second : Nat
  byteLength : String → Nat
  sha256 : String → String
  issuedToken : String → String → String → String
  browserSecret : String → String
  requestTag : String → String → String
  requestTagHex : ∀ requestId subject, hexText (requestTag requestId subject) = true
  publicTag : String → String
  nonceTag : String → String
  encryptionTag : String → String
  recipientKey : String → Except Failure String
  recoveryHash : String → String
  canonical : List (String × String) → String
  primaryCeiling : List CapabilityGrant
  temporaryCeiling : List CapabilityGrant
  temporaryTtl : Nat
  recoveryWindow : Nat
  oauth : Option OAuthConfig

def Installation.seconds (app : Installation) (count : Nat) : Nat := count * app.second

def Installation.keyId (app : Installation) (publicKey : String) : String :=
  "k_" ++ app.sha256 publicKey

def Installation.subjectId (app : Installation) (publicKey : String) : String :=
  "u_" ++ app.publicTag publicKey

def Installation.tokenId (app : Installation) (requestId subject : String) : String :=
  "t_" ++ app.requestTag requestId subject

def Installation.encryptionKeyId (app : Installation) (publicKey : String) : String :=
  "ek_" ++ app.encryptionTag publicKey

end MsgServer.Accounts
