import MsgServer.Market.Orders

/-!
The published checkouts that carry no contract: `EscrowEngine` of market/escrow.py
with orders.buy@1 and @2, orders.cancel@1 and delivery.accept@1 of plugins/orders.py
and plugins/delivery.py. Notifications are left out.
-/

namespace MsgServer.Market

open Library Ledger

variable (terms : Terms) (world : World)

inductive LegacyPolicy where
  | escrow | instant
  deriving DecidableEq

def LegacyPolicy.reasons : LegacyPolicy → List LegacyReason
  | .escrow => [.buyerCancel, .buyerAccept]
  | .instant => [.buyerCancel, .buyerAccept, .checkoutAccept]

/-- `validate_policy`. -/
def legacyPolicy (escrowPolicy disputePolicy : String) : Except Failure LegacyPolicy :=
  if escrowPolicy = "escrow-v1" ∧ disputePolicy = "dispute-v1" then .ok .escrow
  else if escrowPolicy = "escrow-instant-v1" ∧ disputePolicy = "dispute-v1" then .ok .instant
  else .error { code := "escrow_policy_unsupported" }

/-- The signed request of a release; `deliveryDigest` is read by an acceptance and the
other two arguments by a checkout. -/
structure LegacyRequest where
  request : Request
  orderId : String
  deliveryDigest : String
  packageDigest : String
  autoAccept : Bool

structure Branch where
  recipient : String
  outcome : LegacyOutcome
  state : OrderState
  delivery : Option Delivery

def isOperation (request : Request) (operation : String) (version : Nat) : Prop :=
  request.operation = operation ∧ request.contractVersion = version

instance (request : Request) (operation : String) (version : Nat) :
    Decidable (isOperation request operation version) :=
  inferInstanceAs (Decidable (_ ∧ _))

def cancelBranch (market : State) (order : Order) (legacy : LegacyRequest) (buyer : String) :
    Except Failure Branch := do
  require (isOperation legacy.request "orders.cancel" 1) "escrow_decision_mismatch"
  require (order.state = .funded ∧ order.deliveredAt = none ∧
    market.deliveries.find? order.id = none) "order_not_cancellable"
  return ⟨buyer, .refund, .refunded, none⟩

def acceptRequest (order : Order) (legacy : LegacyRequest) (checkout : Bool) :
    Except Failure Unit :=
  if checkout = true then
    require (isOperation legacy.request "orders.buy" 2 ∧ legacy.autoAccept = true ∧
      some legacy.packageDigest = order.packageDigest ∧
      order.paymentIntentDigest = legacy.request.payloadDigest) "escrow_decision_mismatch"
  else require (isOperation legacy.request "delivery.accept" 1) "escrow_decision_mismatch"

def acceptBranch (market : State) (order : Order) (legacy : LegacyRequest) (checkout : Bool) :
    Except Failure Branch := do
  acceptRequest order legacy checkout
  let delivery ← verifyManaged terms world order (market.deliveries.find? order.id)
  require (checkout = false → delivery.deliveryDigest = legacy.deliveryDigest) "delivery_mismatch"
  require (order.state = .delivered ∧ order.deliveredAt ≠ none ∧ delivery.state = .prepared)
    "delivery_not_acceptable"
  require (legacyTarget order) "delivery_recipient_mismatch"
  return ⟨order.seller, .release, .settled, some delivery⟩

def branch (market : State) (order : Order) (legacy : LegacyRequest) (reason : LegacyReason)
    (buyer : String) : Except Failure Branch :=
  match reason with
  | .buyerCancel => cancelBranch market order legacy buyer
  | .buyerAccept => acceptBranch terms world market order legacy false
  | .checkoutAccept => acceptBranch terms world market order legacy true

def operationId (request : Request) : String :=
  request.operation ++ "@" ++ toString request.contractVersion

/-- The order an unversioned release may touch, and its policy. -/
def legacyOrder (market : State) (legacy : LegacyRequest) (reason : LegacyReason)
    (buyer : String) : Except Failure Order := do
  let order ← readOrder market legacy.orderId buyer
  require (market.contracts.find? order.id = none) "order_contract_requires_v3"
  require (market.settlements.find? order.id = none) "order_already_resolved"
  require (order.buyer = buyer) "order_not_found"
  let policy ← legacyPolicy order.escrowPolicy order.disputePolicy
  require (reason ∈ policy.reasons) "escrow_reason_unsupported"
  Authorization.requireBase terms.toApp market.authority world.clock legacy.request.principal
    (operationId legacy.request) buyer
  return order

def escrowCheck (market : State) (order : Order) : Except Failure Unit := do
  require (order.currencyId = currencyId ∧
    balance market.books order.escrowSubject = order.totalPriceMinor) "escrow_balance_mismatch"
  require (market.books.accounts.find? order.escrowSubject =
    some ⟨order.escrowSubject, .orderEscrow, none, some order.id⟩) "escrow_account_mismatch"
  require (market.escrowDecisions.find? order.id = none) "order_already_resolved"

/-- A checkout has two legs, so its release has an id of its own. -/
def ledgerRequestId (order : Order) (legacy : LegacyRequest) (reason : LegacyReason)
    (buyer : String) : String :=
  if reason = .checkoutAccept then
    "sha256:" ++ terms.checkoutDigest buyer legacy.request.requestId order.id
  else legacy.request.requestId

def legacyEntry (order : Order) (legacy : LegacyRequest) (reason : LegacyReason)
    (buyer : String) (outcome : LegacyOutcome) : EntryRequest where
  sender := none
  recipient := none
  amount := order.totalPriceMinor
  actor := buyer
  requestId := ledgerRequestId terms order legacy reason buyer
  now := world.now
  reference := some (if outcome = .refund then refundReference order.id
    else releaseReference order.id)
  kind := if outcome = .refund then .refund else .transfer

def escrowDecision (order : Order) (legacy : LegacyRequest) (reason : LegacyReason)
    (buyer : String) (chosen : Branch) (transactionId : String) : EscrowDecision where
  orderId := order.id
  id := terms.escrowDecisionId order.id legacy.request.payloadDigest reason
  outcome := chosen.outcome
  reason := reason
  recipient := chosen.recipient
  currencyId := currencyId
  amountMinor := order.totalPriceMinor
  escrowPolicy := order.escrowPolicy
  order := order
  evidence := chosen.delivery
  requestId := legacy.request.requestId
  requestDigest := legacy.request.payloadDigest
  actor := buyer
  issuedAt := world.now
  expiresAt := legacy.request.expiresAt
  ledgerRequestId :=
    if reason = .checkoutAccept then some (ledgerRequestId terms order legacy reason buyer)
    else none
  transactionId := transactionId

def receivable (buyer : String) (row : Delivery) : Bool :=
  row.recipientSubject == buyer && row.state == .prepared

/-- A checkout release is no evidence of receipt, an acceptance is. -/
def stampDelivery (order : Order) (reason : LegacyReason) (buyer : String) (receipt : Posting) :
    Tx Unit :=
  match reason with
  | .buyerCancel => pure ()
  | .checkoutAccept =>
      updateDeliveryWhere order.id (receivable buyer) "delivery_not_acceptable"
        fun row => { row with receipt := some (.payment receipt) }
  | .buyerAccept =>
      updateDeliveryWhere order.id (receivable buyer) "delivery_not_acceptable"
        fun row => { row with
          state := .claimed
          claimedAt := some world.now
          receipt := some (.payment receipt) }

def resolved (order : Order) (chosen : Branch) (receipt : Posting) (row : Order) : Order :=
  { row with
    state := chosen.state
    settledAt := if chosen.outcome = .release then some world.now else order.settledAt
    receiptRefs := order.receiptRefs ++ [receipt.transactionId] }

def sameState (order : Order) (buyer : String) (row : Order) : Bool :=
  row.buyer == buyer && row.state == order.state

/-- `EscrowEngine.settle`. -/
def settleLegacy (legacy : LegacyRequest) (reason : LegacyReason) : Tx Posting := do
  let buyer ← read fun _ => signedSubject legacy.request
  let order ← read fun market => legacyOrder terms world market legacy reason buyer
  let chosen ← read fun market => branch terms world market order legacy reason buyer
  read fun market => escrowCheck market order
  read fun _ => require (world.clock < legacy.request.expiresAt) "escrow_decision_expired"
  let receipt ← postRelease world (release order chosen.recipient)
    (legacyEntry terms world order legacy reason buyer chosen.outcome)
  stampDelivery world order reason buyer receipt
  updateOrderWhere order.id (sameState order buyer) "escrow_state_conflict"
    (resolved world order chosen receipt)
  insertEscrowDecision
    (escrowDecision terms world order legacy reason buyer chosen receipt.transactionId)
  return receipt

/-! orders.buy@1 and @2. -/

structure LegacyCheckout where
  request : Request
  listingRevision : String
  quantity : Nat
  currencyId : String
  totalPriceMinor : Int
  packageDigest : String
  autoAccept : Bool

def LegacyCheckout.instant (checkout : LegacyCheckout) : Bool :=
  checkout.request.contractVersion == 2

def LegacyCheckout.asCheckout (checkout : LegacyCheckout) : Checkout where
  request := checkout.request
  listingRevision := checkout.listingRevision
  quantity := checkout.quantity
  currencyId := checkout.currencyId
  totalPriceMinor := checkout.totalPriceMinor
  email := none

def legacyListing (checkout : LegacyCheckout) (listing : Listing) : Except Failure Unit := do
  require (onSale world listing.body) "listing_not_available"
  require (listing.body.deliveryMode = .managedInstant ∧
    (listing.body.itemKind = .file ∨ listing.body.itemKind = .bundle))
    "order_delivery_mode_unsupported"
  let policy ← legacyPolicy listing.body.escrowPolicy listing.body.disputePolicy
  require (checkout.instant = false → listing.body.escrowPolicy = "escrow-v1")
    "escrow_policy_requires_v2"
  require (checkout.autoAccept = true → .checkoutAccept ∈ policy.reasons)
    "escrow_reason_unsupported"
  require (checkout.listingRevision = listing.revision) "listing_revision_conflict"

def legacyStock (market : State) (checkout : LegacyCheckout) (listing : Listing) :
    Except Failure Unit :=
  require (checkout.quantity ≤ listing.body.quantity ∧
    sold market listing.id + checkout.quantity ≤ listing.body.quantity) "quantity_unavailable"

structure LegacyOffer where
  buyer : String
  listing : Listing
  total : Int
  package : Package

def legacyPackage (checkout : LegacyCheckout) (listing : Listing) : Except Failure Package := do
  let row ← requireRow ((listing.body.packageRef.bind world.package).filter
    fun row => decide (packageFor listing row)) "package_not_available"
  require (row.totalSize ≤ maxInlineBytes) "delivery_package_too_large"
  require (checkout.instant = true → checkout.packageDigest = row.digest)
    "delivery_package_mismatch"
  return row

def readLegacyOffer (market : State) (checkout : LegacyCheckout) : Except Failure LegacyOffer := do
  let buyer ← signedSubject checkout.request
  require (checkout.instant = true → terms.deliveryEnabled = true) "delivery_disabled"
  let listing ← world.listing
  legacyListing world checkout listing
  require (listing.body.currencyId = checkout.currencyId ∧ checkout.currencyId = currencyId)
    "unsupported_currency"
  legacyStock market checkout listing
  let total ← quote checkout.asCheckout listing
  require (total ≤ balance market.books buyer) "insufficient_funds"
  let package ← legacyPackage world checkout listing
  require (listing.owner ≠ buyer) "self_purchase_forbidden"
  return ⟨buyer, listing, total, package⟩

def legacyOrderRow (checkout : LegacyCheckout) (offer : LegacyOffer) (receipt : Posting) :
    Order where
  id := newOrderId world
  buyer := offer.buyer
  seller := offer.listing.owner
  listingId := offer.listing.id
  listingRevision := offer.listing.revision
  packageId := offer.listing.body.packageRef
  packageRevision := some offer.package.revision
  packageDigest := some offer.package.digest
  quantity := checkout.quantity
  unitPriceMinor := offer.listing.body.priceMinor
  totalPriceMinor := offer.total
  currencyId := currencyId
  escrowSubject := newEscrow world
  escrowPolicy := offer.listing.body.escrowPolicy
  disputePolicy := offer.listing.body.disputePolicy
  termsDigest := terms.termsDigest offer.listing.body.terms
  deliveryTarget := ⟨offer.buyer, "site", none, none⟩
  paymentIntentDigest := checkout.request.payloadDigest
  paymentTransactionId := some receipt.transactionId
  state := .funded
  createdAt := world.now
  fundedAt := some world.now
  deliveredAt := none
  settledAt := none
  receiptRefs := [receipt.transactionId]

def legacyFunding (checkout : LegacyCheckout) (offer : LegacyOffer) : EntryRequest :=
  entry checkout.request world offer.buyer (newEscrow world) offer.total offer.buyer
    (fundReference (newOrderId world))

def checkoutRequest (checkout : LegacyCheckout) : LegacyRequest where
  request := checkout.request
  orderId := newOrderId world
  deliveryDigest := ""
  packageDigest := checkout.packageDigest
  autoAccept := checkout.autoAccept

def acceptCheckout (checkout : LegacyCheckout) : Tx Unit :=
  if checkout.autoAccept = true then do
    let _ ← settleLegacy terms world (checkoutRequest world checkout) .checkoutAccept
    return ()
  else pure ()

def completeCheckout (checkout : LegacyCheckout) (buyer : String) : Tx Unit :=
  if checkout.instant = true then do
    let order ← read fun market => readOrder market (newOrderId world) buyer
    prepareManaged terms world order
    acceptCheckout terms world checkout
  else pure ()

/-- Pays and reserves in one transaction. -/
def openLegacy (checkout : LegacyCheckout) : Tx LegacyOffer := do
  let offer ← read fun market => readLegacyOffer terms world market checkout
  openAccount ⟨newEscrow world, .orderEscrow, none, some (newOrderId world)⟩
  let receipt ← post world false (legacyFunding world checkout offer)
  insertOrder (legacyOrderRow terms world checkout offer receipt)
  return offer

def buyLegacy (checkout : LegacyCheckout) : Tx Unit := do
  let offer ← openLegacy terms world checkout
  completeCheckout terms world checkout offer.buyer

/-- orders.cancel@1. -/
def cancelLegacy (request : Request) (orderId : String) : Tx Unit := do
  let _ ← settleLegacy terms world ⟨request, orderId, "", "", false⟩ .buyerCancel
  return ()

def acceptUnversioned (acceptance : Acceptance) : Tx Unit := do
  let _ ← settleLegacy terms world
    ⟨acceptance.request, acceptance.orderId, acceptance.deliveryDigest, "", false⟩ .buyerAccept
  return ()

/-- delivery.accept@1: an order with a contract is accepted under it. -/
def acceptLegacy (acceptance : Acceptance) : Tx Unit := do
  let locked ← read fun market => .ok (market.contracts.find? acceptance.orderId)
  if locked.isSome = true then acceptDelivery terms world acceptance
  else acceptUnversioned terms world acceptance

end MsgServer.Market
