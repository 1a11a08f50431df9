import MsgServer.Core.Requests

/-!
security/token_delivery.py. The handler that issues a token records its delivery in the
same transaction; `release` claims the delivery in a transaction of its own, after the
first has been committed, and only then does a response carry the token.
-/

namespace MsgServer.TokenDelivery

open Library Session Accounts Requests

variable (app : Installation)

def decodable (limit : Nat) (text : String) : Except Failure Unit :=
  require (app.byteLength text ≤ limit) "invalid_base64"

def recoveryVerifier (secret : String) : Except Failure String := do
  decodable app 64 secret
  require (32 ≤ app.byteLength secret) "invalid_recovery_secret"
  return app.recoveryHash secret

/-- The recovery deadline of a new token: its own end, or what its predecessor or the
configured window still leaves. -/
def deadline (expiresAt now : Nat) (inherited : Option Nat) : Nat :=
  min expiresAt (inherited.getD (now + app.recoveryWindow))

def delivering (request : Request) : Except Failure Delivering := do
  let delivering ← requireRow request.arguments.delivering "credential_delivery_upgrade_required"
  require (delivering.minVersion ≤ request.contractVersion) "credential_delivery_upgrade_required"
  return delivering

/-- A token always has an end; without one the comparison would raise. -/
def recordTokenDelivery (state : State) (request : Request) (row : StoredCredential) (now : Nat)
    (inherited : Option Nat) : Except Failure State := do
  let secrets ← delivering request
  decodable app 64 secrets.recoverySecret
  decodable app 64 secrets.nonce
  require (secrets.recoverySecret ≠ secrets.nonce) "recovery_secret_not_independent"
  require (secrets.spent ≠ some secrets.recoverySecret) "recovery_secret_not_independent"
  let expiresAt ← requireRow row.expiresAt "internal_error"
  require (now < deadline app expiresAt now inherited) "recovery_unavailable"
  let verifier ← recoveryVerifier app secrets.recoverySecret
  let deliveries ← insertRow state.deliveries
    { credentialId := row.id
      subject := row.subjectId
      requestId := request.requestId
      requestDigest := request.payloadDigest
      recoveryVerifier := verifier
      recoveryExpiresAt := deadline app expiresAt now inherited
      claimedAt := none
      consumedAt := none }
  return { state with deliveries := deliveries }

def claim (now : Nat) (row : Delivery) : Delivery := { row with claimedAt := some now }

def consume (now : Nat) (row : Delivery) : Delivery := { row with consumedAt := some now }

/-- `release` of a committed result to a resend of its request. -/
def release (state : State) (request : Request) (result : Result) (now : Nat) :
    Except Failure (State × Data) :=
  match request.arguments.delivering with
  | none => .ok (state, result.data)
  | some secrets => do
      require (secrets.minVersion ≤ request.contractVersion) "credential_delivery_upgrade_required"
      requireCurrent state.store
      let credentialId ← requireRow result.data.credentialId "internal_error"
      let row ← storedCredential state credentialId
      let expiresAt ← requireRow row.expiresAt "internal_error"
      require (row.revokedAt = none ∧ now < expiresAt) "credential_expired"
      let token := app.issuedToken result.subject request.requestId secrets.nonce
      require (row.verifier = app.sha256 token) "invalid_token_result"
      let delivery ← requireRow (state.deliveries.find? row.id) "token_delivery_unavailable"
      require (delivery.subject = result.subject ∧ delivery.requestId = request.requestId ∧
        delivery.requestDigest = request.payloadDigest ∧ delivery.consumedAt = none ∧
        delivery.claimedAt = none) "token_delivery_unavailable"
      return ({ state with deliveries := state.deliveries.modify row.id (claim now) },
        { result.data with token := some token })

end MsgServer.TokenDelivery
