import MsgServer.Market.Orders

/-!
market/email.py and orders.email_bind of market/orders.py: the address that the
delivery of an order is announced to. What the tables of settings, challenges and
endpoints answer comes with the request; of the order only the target is written.
-/

namespace MsgServer.Market

open Library Ledger

variable (terms : Terms) (world : World)

/-- The states in which the address of an order may still change. -/
def addressable (state : OrderState) : Prop :=
  state = .created ∨ state = .funded ∨ state = .delivered ∨ state = .settled

instance (state : OrderState) : Decidable (addressable state) :=
  inferInstanceAs (Decidable (_ ∨ _))

/-- The delivery was to be announced to this address, which was not verified yet. -/
def unverifiedAt (order : Order) (email : String) : Prop :=
  order.deliveryTarget.email.bind EmailTarget.endpointId = none ∧
    order.deliveryTarget.email.bind EmailTarget.address = some email

instance (order : Order) (email : String) : Decidable (unverifiedAt order email) :=
  inferInstanceAs (Decidable (_ ∧ _))

/-- `validated` is what the last check of the new target answers. -/
structure EmailBinding where
  request : Request
  orderId : String
  email : String
  validated : Except Failure Unit

/-- `address` is the one that the open challenge of the request names. -/
structure EmailProof where
  request : Request
  orderId : String
  address : Option String
  endpoint : String
  validated : Except Failure Unit

def notifyDelivered (order : Order) : Tx Unit :=
  if order.deliveredAt.isSome = true then do
    let _ ← enqueueNotification world order
    return ()
  else pure ()

/-- orders.email_bind@1. -/
def bindEmail (binding : EmailBinding) : Tx Unit := do
  let buyer ← read fun _ => signedSubject binding.request
  let order ← read fun market => readBuyerOrder market binding.orderId buyer
  let _ ← read fun market => contract terms market order.id
  read fun _ => require (addressable order.state) "order_closed"
  read fun _ => require (order.deliveredAt = none ∨ unverifiedAt order binding.email)
    "delivery_target_locked"
  let (_, email) ← read fun _ => world.target buyer (some binding.email)
  read fun _ => require (email.endpointId ≠ none) "email_not_verified"
  let saved ← saveTarget order ⟨buyer, "site", order.deliveryTarget.handleSnapshot, some email⟩
  read fun _ => binding.validated
  notifyDelivered world saved

def verifiedEmail (proof : EmailProof) (chosen : EmailTarget) : EmailTarget :=
  { chosen with endpointId := some ("dep_" ++ proof.endpoint), state := "pending" }

/-- orders.email_verify@1. -/
def verifyEmail (proof : EmailProof) : Tx Unit := do
  let buyer ← read fun _ => signedSubject proof.request
  let order ← read fun market => readBuyerOrder market proof.orderId buyer
  let chosen ← read fun _ => requireRow order.deliveryTarget.email "email_challenge_invalid"
  read fun _ => require (proof.address ≠ none ∧ chosen.address = proof.address ∧
    chosen.endpointId = none ∧ addressable order.state) "email_challenge_invalid"
  let saved ← saveTarget order
    { order.deliveryTarget with email := some (verifiedEmail proof chosen) }
  read fun _ => proof.validated
  notifyDelivered world saved

def disabledEmail (chosen : Option EmailTarget) : EmailTarget where
  state := "disabled"
  endpointId := chosen.bind EmailTarget.endpointId
  address := chosen.bind EmailTarget.address
  disabled := true

/-- orders.email_disable@1. -/
def disableEmail (request : Request) (orderId : String) : Tx Unit := do
  let buyer ← read fun _ => signedSubject request
  let order ← read fun market => readBuyerOrder market orderId buyer
  let _ ← saveTarget order
    { order.deliveryTarget with email := some (disabledEmail order.deliveryTarget.email) }
  return ()

end MsgServer.Market
