import MsgServer.Plugins.Identity

/-!
security/authentication.py for the account operations on the network entry, and the
transaction of core/executor.py that calls it: authenticate, look for a stored result,
run the handler, store the result. The re-check of the resources of a replayed result
is left out: it can only refuse.
-/

namespace MsgServer.Authentication

open Library Session Certificates Accounts Bindings Requests TokenDelivery Identity

variable (app : Installation) (state : State) (request : Request) (now : Nat)

def Archived (state : State) (subject : Option String) : Prop :=
  subject.any (fun id => decide (id ∈ state.store.identityArchived)) = true

instance (state : State) (subject : Option String) : Decidable (Archived state subject) :=
  inferInstanceAs (Decidable (_ = true))

def unlessArchived (subject : Option String) : Except Failure Unit :=
  require (¬ Archived state subject) "account_archived"

/-- A request without a proof, which only other operations take, is left out. -/
def freshPacket : Except Failure Unit := do
  requireCurrent state.store
  require (quarantineActive state.store = false)
    (if request.arguments.reads then "recovery_quarantined" else "writes_paused")
  let expires ← requireRow request.expiresAt "request_expired"
  require (now < expires) "request_expired"
  require (expires - now ≤ app.seconds 300) "request_expiry_too_long"

def upgradable (publicKey : String) : Except Failure Unit :=
  require (setting state.delegatedIdentities (app.subjectId publicKey) = none)
    "delegated_identity_not_upgradable"

def registering (publicKey : String) : Except Failure Principal :=
  match request.proof with
  | .signature signature _ => do
      upgradable app state publicKey
      require (app.byteLength publicKey = 32 ∧ request.subject = some (app.subjectId publicKey))
        "subject_mismatch"
      verified app.toApp publicKey request.signingBytes signature "request"
      return ⟨request.subject, request.subject, some (app.keyId publicKey), .signature, [],
        app.primaryCeiling⟩
  | _ => .error { code := "proof_required" }

/-- A high-entropy claim names the first subject. -/
def bootstrap (kind nonce : String) (publicKey : Option String) : Except Failure Principal := do
  require (request.proof = .none ∧ request.subject = none) "invalid_bootstrap"
  publicKey.toList.forM (upgradable app state)
  decodable app 64 nonce
  require (24 ≤ app.byteLength nonce) "invalid_bootstrap_nonce"
  let subject := "u_" ++ (kind ++ app.nonceTag nonce)
  return ⟨some subject, some subject, some ("t_" ++ (kind ++ app.nonceTag nonce)), .token, [],
    app.temporaryCeiling⟩

def requestResult (subject requestId digest : String) : Except Failure (Option Result) :=
  match state.results.find? (subject, requestId) with
  | none => .ok none
  | some result => do
      require (result.digest = digest) "idempotency_conflict"
      return some result

def recoveryOperation : String := "identity.token_recover@1"

/-- The one operation a recovery secret may call. -/
def recoveryCeiling : List CapabilityGrant :=
  (app.primaryCeiling.filter fun grant =>
    grant.capability == "identity.basic" && decide (recoveryOperation ∈ grant.operations)).map
      fun grant => { grant with operations := [recoveryOperation] }

/-- A secret that was used up only fetches the result of its own recovery. -/
def unspent (old : StoredCredential) (delivery : Delivery) : Except Failure Unit :=
  match delivery.consumedAt with
  | some _ => do
      let previous ← requestResult state old.subjectId request.requestId request.payloadDigest
      require (previous.bind (fun result => result.data.previousCredential) = some old.id)
        "recovery_unavailable"
  | none => do
      let expiresAt ← requireRow old.expiresAt "internal_error"
      require (old.revokedAt = none ∧ now < expiresAt) "recovery_unavailable"

def recovering (credentialId originalRequestId secret : String) : Except Failure Principal := do
  require (request.proof = .none) "invalid_recovery_proof"
  let wanted ← requireRow request.subject "invalid_recovery_proof"
  let old ← storedCredential state credentialId
  requireBinding app state old now
  require (old.kind = .token ∧ old.subjectId = wanted) "recovery_unavailable"
  let actor ← subject state.store old.subjectId
  require (actor.localOnly = false ∧ actor.resourceId ≠ rootSubject) "local_only"
  let verifier ← recoveryVerifier app secret
  let delivery ← requireRow (state.deliveries.find? old.id) "recovery_unavailable"
  require (delivery.subject = actor.resourceId ∧ delivery.recoveryVerifier = verifier ∧
    now < delivery.recoveryExpiresAt ∧ delivery.requestId = originalRequestId)
    "recovery_unavailable"
  unspent state request now old delivery
  require (recoveryCeiling app ≠ []) "recovery_unavailable"
  return ⟨some actor.resourceId, some actor.resourceId, some old.id, .recovery, [],
    recoveryCeiling app⟩

structure Proven where
  row : StoredCredential
  method : Method
  certificates : List String

def inTime (row : StoredCredential) : Prop :=
  row.notBefore ≤ now ∧ ∀ ends, row.expiresAt = some ends → now < ends

instance (row : StoredCredential) : Decidable (inTime now row) :=
  decidable_of_iff (row.notBefore ≤ now ∧ row.expiresAt.all (fun ends => decide (now < ends)) = true)
    (by cases expiry : row.expiresAt <;> simp [inTime, expiry])

/-- The credential that the proof names, and whether the proof is good. -/
def proven : Except Failure Proven :=
  match request.proof with
  | .none => .error { code := "authentication_required" }
  | .signature signature certificates => do
      let row ← storedCredential state signature.keyId
      require (inTime now row) "credential_expired"
      require (row.kind = .signingKey) "wrong_credential_kind"
      verified app.toApp row.verifier request.signingBytes signature "request"
      return ⟨row, .signature, certificates⟩
  | .token credentialId token => do
      let row ← storedCredential state credentialId
      require (inTime now row) "credential_expired"
      require (row.kind = .token) "wrong_credential_kind"
      require (row.verifier = app.sha256 token) "invalid_token"
      requireBinding app state row now
      return ⟨row, .token, []⟩

def replayable : List String := ["identity.token_rotate", "identity.custodial_upgrade_finish"]

/-- A token that its own rotation revoked may only fetch the result of that rotation. -/
def ownRotation (held : Proven) : Except Failure Unit := do
  require (held.method = .token ∧ request.operation ∈ replayable) "credential_revoked"
  let previous ← requestResult state held.row.subjectId request.requestId request.payloadDigest
  let result ← requireRow previous "credential_revoked"
  require (result.data.previousCredential = some held.row.id) "credential_revoked"
  let next ← requireRow result.data.credentialId "internal_error"
  let successor ← storedCredential state next
  require (successor.subjectId = held.row.subjectId ∧ successor.revokedAt = none ∧
    ∀ ends, successor.expiresAt = some ends → now < ends) "credential_revoked"

def unrevoked (held : Proven) : Except Failure Unit :=
  if held.row.revokedAt = none then .ok () else ownRotation state request now held

/-- A delegated identity acts for its grantor, with its certificate, and only so often. -/
def delegatedUse (actor subject : String) (certificates : List String) : Except Failure Unit :=
  match setting state.delegatedIdentities actor with
  | none => .ok ()
  | some binding => do
      require (subject = binding.grantor) "delegated_subject_required"
      require (binding.certificateId ∈ certificates) "delegation_required"
      if binding.maxUses.any (fun limit => decide (limit ≤ binding.uses)) then do
        let previous ← requestResult state subject request.requestId request.payloadDigest
        require (previous.bind Result.actor = some actor) "delegation_exhausted"
      else return ()

def custodialWrites : List String :=
  ["identity.token_rotate", "identity.custodial_upgrade_finish"]

/-- What the token of a custodial subject may ask for. -/
def servesCustodialToken (arguments : Arguments) : Bool :=
  match arguments with
  | .other operation => operation.reads || operation.custodialToken
  | _ => decide (arguments.operation ∈ custodialWrites)

def requestChecks (held : Proven) (actor subject : Subject) : Except Failure Unit := do
  require (actor.localOnly = false ∧ subject.localOnly = false ∧
    actor.resourceId ≠ rootSubject ∧ subject.resourceId ≠ rootSubject) "local_only"
  require (∃ grant ∈ held.row.ceiling, request.operationId ∈ grant.operations) "credential_ceiling"
  require (actor.kind = .custodial ∧ held.method = .token →
    servesCustodialToken request.arguments = true) "custodial_operation_not_supported"
  require (request.arguments.requireSignature = true → held.method = .signature ∨
    (actor.kind = .custodial ∧ held.method = .token ∧ request.arguments.confirmation = true))
    "signature_required"

def ownCertificate (held : Proven) (actor : Subject) (id : String) : Except Failure Certificate := do
  let cert ← validate app.toApp state.view now id
  require (cert.subjectId = actor.resourceId ∧ cert.keyId = held.row.id)
    "certificate_subject_mismatch"
  return cert

def lendsFor (subject : String) (cert : Certificate) : Bool :=
  cert.kind == .delegation && cert.authoritySources.any fun source =>
    (setting state.store.delegations source.id).any fun fact => fact.grantor == subject

def delegatedFor (valid : List Certificate) (actor subject : Subject) : Except Failure Unit :=
  require (actor.resourceId = subject.resourceId ∨
    valid.any (lendsFor state subject.resourceId) = true) "delegation_required"

def proving : Except Failure Principal := do
  let held ← proven app state request now
  let actor ← subject state.store held.row.subjectId
  unrevoked state request now held
  let subject ← subject state.store (request.subject.getD actor.resourceId)
  delegatedUse state request actor.resourceId subject.resourceId held.certificates
  requestChecks request held actor subject
  let valid ← held.certificates.mapM (ownCertificate app state now held actor)
  delegatedFor state valid actor subject
  return ⟨some actor.resourceId, some subject.resourceId, some held.row.id, held.method,
    valid.map Certificate.resourceId, held.row.ceiling⟩

def identified : Except Failure Principal := do
  freshPacket app state request now
  match request.arguments with
  | .register publicKey _ => registering app state request publicKey
  | .temporary nonce _ publicKey _ _ => bootstrap app state request "tmp_" nonce (some publicKey)
  | .custodialCreate nonce _ _ _ => bootstrap app state request "cust_" nonce none
  | .tokenRecover credentialId originalRequestId secret _ _ =>
      recovering app state request now credentialId originalRequestId secret
  | _ => proving app state request now

def authenticate : Except Failure Principal := do
  unlessArchived state request.subject
  let principal ← identified app state request now
  unlessArchived state principal.actor
  unlessArchived state principal.subject
  return principal

def deliverable : Except Failure Unit :=
  match request.arguments.delivering with
  | none => .ok ()
  | some secrets =>
      require (secrets.minVersion ≤ request.contractVersion) "credential_delivery_upgrade_required"

def usedOnce (actor : String) (entry : String × DelegatedIdentity) : String × DelegatedIdentity :=
  if entry.1 = actor ∧ entry.2.maxUses.isSome = true then
    (entry.1, { entry.2 with uses := entry.2.uses + 1 })
  else entry

def countUse (principal : Principal) : Except Failure State :=
  match principal.actor.bind (setting state.delegatedIdentities) with
  | none => .ok state
  | some binding => do
      require (binding.maxUses.all (fun limit => decide (binding.uses < limit)) = true)
        "delegation_exhausted"
      return { state with delegatedIdentities :=
        state.delegatedIdentities.map (usedOnce (principal.actor.getD "")) }

def saveResult (principal : Principal) (data : Data) : Except Failure (State × Result) := do
  let result : Result :=
    { subject := principal.subject.getD "", requestId := request.requestId
      digest := request.payloadDigest, actor := principal.actor
      operation := request.operation, data := data }
  let results ← insertRow state.results result
  return ({ state with results := results }, result)

def handle (aside : Aside) (principal : Principal) : Except Failure (State × Result) := do
  let done ← Identity.perform app state ⟨⟨principal, .network, now⟩, request, aside⟩
  let counted ← countUse done.1 principal
  saveResult counted request principal done.2

structure Answer where
  result : Result
  replayed : Bool
  deriving DecidableEq

/-- One packet that writes: a stored result is the answer, and nothing else happens. -/
def execute (aside : Aside) : Except Failure (State × Answer) := do
  deliverable request
  let principal ← authenticate app state request now
  let previous ← requestResult state (principal.subject.getD "") request.requestId
    request.payloadDigest
  match previous with
  | some result => return (state, ⟨result, true⟩)
  | none => do
      let done ← handle app state request now aside principal
      return (done.1, ⟨done.2, false⟩)

/-- The response hook, after the transaction of `execute`. -/
def respond (result : Result) : Except Failure (State × Data) :=
  release app state request result now

end MsgServer.Authentication
