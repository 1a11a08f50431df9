import MsgServer.Market.Delivery

/-!
market/orders.py and market/entitlement_orders.py: versioned checkout, funding and
cancellation, and the redemption that creates, funds and settles an order in one
transaction. Views are left out. The listing, the offer and the handle are what
reading the catalog answers in this step.
-/

namespace MsgServer.Market

open Library Ledger

variable (terms : Terms) (world : World)

/-- 160 random bits in the source; `esc_` takes the place of `ord_` in the escrow. -/
def newOrderId : String := "ord_" ++ world.entropy
def newEscrow : String := "esc_" ++ world.entropy

structure Checkout where
  request : Request
  listingRevision : String
  quantity : Nat
  currencyId : String
  totalPriceMinor : Int
  email : Option String

/-- Orders of a listing that still hold stock. -/
def holdsStock (row : Order) : Bool := row.state != .cancelled && row.state != .refunded

def sold (market : State) (listingId : String) : Nat :=
  ((market.orders.rows.filter fun row => row.listingId == listingId && holdsStock row).map
    Order.quantity).sum

/-- Inventory is a projection too: every order of the listing with a resource is
checked before its quantity counts. -/
def verifyInventory (market : State) (listingId : String) : Except Failure Unit :=
  (market.contracts.rows.filter fun locked =>
    locked.listingId == listingId && locked.resourceModel).forM
      fun locked => verifySource market world locked.orderId

def onSale (body : ListingBody) : Prop :=
  body.mode = .sale ∧ body.state = .active ∧ ∀ expiry ∈ body.expiresAt, world.now < expiry

instance (body : ListingBody) : Decidable (onSale world body) :=
  inferInstanceAs (Decidable (_ ∧ _))

def quote (checkout : Checkout) (listing : Listing) : Except Failure Int := do
  require (listing.body.currencyId = checkout.currencyId ∧ checkout.currencyId = currencyId)
    "unsupported_currency"
  require (0 < listing.body.priceMinor * checkout.quantity ∧
    listing.body.priceMinor * checkout.quantity ≤ maxMinor) "money_overflow"
  require (listing.body.priceMinor * checkout.quantity = checkout.totalPriceMinor) "price_changed"
  return checkout.totalPriceMinor

def packageFor (listing : Listing) (row : Package) : Prop :=
  row.listingId = listing.id ∧ row.seller = listing.owner ∧
    row.kind = listing.body.itemKind ∧ row.deliveryMode = .managedInstant

instance (listing : Listing) (row : Package) : Decidable (packageFor listing row) :=
  inferInstanceAs (Decidable (_ ∧ _))

def managedPackage (listing : Listing) : Except Failure (Option Package) := do
  require (listing.body.itemKind ∈ packageKinds) "order_delivery_mode_unsupported"
  let row ← requireRow ((listing.body.packageRef.bind world.package).filter
    fun row => decide (packageFor listing row)) "package_not_available"
  return some row

def checkoutPackage (listing : Listing) : Except Failure (Option Package) :=
  if listing.body.deliveryMode = .managedInstant then managedPackage world listing else .ok none

def checkoutKey (listing : Listing) (buyer : String) : Except Failure (Option RecipientKey) :=
  if listing.body.deliveryMode = .sealedManual then do
    let key ← requireRow (world.primaryKey buyer) "delivery_recipient_key_required"
    return some key
  else .ok none

/-- Everything `create` reads before it writes. -/
structure Offered where
  buyer : String
  listing : Listing
  policy : OrderPolicy
  total : Int
  package : Option Package
  recipientKey : Option RecipientKey
  handle : String
  email : EmailTarget

def readOffer (market : State) (checkout : Checkout) : Except Failure Offered := do
  let buyer ← signedSubject checkout.request
  let listing ← world.listing
  require (onSale world listing.body) "listing_not_available"
  require (checkout.listingRevision = listing.revision) "listing_revision_conflict"
  require (listing.body.escrowPolicy = "escrow-v1") "escrow_policy_unknown"
  let policy ← policySnapshot market listing.body.disputePolicy
  let total ← quote checkout listing
  verifyInventory world market listing.id
  require (sold market listing.id + checkout.quantity ≤ listing.body.quantity)
    "quantity_unavailable"
  require (listing.owner ≠ buyer) "self_purchase_forbidden"
  require (listing.body.itemKind = .secret → listing.body.deliveryMode = .sealedManual)
    "secret_requires_buyer_encryption"
  let package ← checkoutPackage world listing
  let recipientKey ← checkoutKey world listing buyer
  let (handle, email) ← world.target buyer checkout.email
  return ⟨buyer, listing, policy, total, package, recipientKey, handle, email⟩

def newOrder (checkout : Checkout) (offered : Offered) : Order where
  id := newOrderId world
  buyer := offered.buyer
  seller := offered.listing.owner
  listingId := offered.listing.id
  listingRevision := offered.listing.revision
  packageId := offered.package.map Package.id
  packageRevision := offered.package.map Package.revision
  packageDigest := offered.package.map Package.digest
  quantity := checkout.quantity
  unitPriceMinor := offered.listing.body.priceMinor
  totalPriceMinor := offered.total
  currencyId := currencyId
  escrowSubject := newEscrow world
  escrowPolicy := offered.listing.body.escrowPolicy
  disputePolicy := offered.listing.body.disputePolicy
  termsDigest := terms.termsDigest offered.listing.body.terms
  deliveryTarget := ⟨offered.buyer, "site", some offered.handle, some offered.email⟩
  paymentIntentDigest := checkout.request.payloadDigest
  paymentTransactionId := none
  state := .created
  createdAt := world.now
  fundedAt := none
  deliveredAt := none
  settledAt := none
  receiptRefs := []

/-- Version 3 is orders.create@1 and orders.buy@3, version 4 the later pair. -/
def newContract (checkout : Checkout) (offered : Offered) (version : Nat) : Contract where
  orderId := newOrderId world
  version := version
  buyer := offered.buyer
  seller := offered.listing.owner
  listing := offered.listing.body
  listingId := offered.listing.id
  escrowSubject := newEscrow world
  listingRevision := offered.listing.revision
  packageId := offered.package.map Package.id
  packageRevision := offered.package.map Package.revision
  packageDigest := offered.package.map Package.digest
  quantity := checkout.quantity
  totalPriceMinor := offered.total
  termsDigest := terms.termsDigest offered.listing.body.terms
  policy := offered.policy
  recipientKey := offered.recipientKey
  handleSnapshot := some offered.handle
  buyerPrincipal := some checkout.request.principal
  createdAt := world.now
  resourceModel := version == 4
  settlementPolicy := if version = 4 then some .explicitBuyerAcceptance else none
  entitlement := none

/-- `begin_new`. -/
def beginNew (orderId : String) : Tx Unit :=
  Program.write fun market => .ok { market with active := orderId :: market.active }

def beginVersion (version : Nat) : Tx Unit :=
  if version = 4 then beginNew (newOrderId world) else pure ()

/-- The escrow is an account of the ledger, never an identity. -/
def openOrder (order : Order) : Tx Unit := do
  openAccount ⟨order.escrowSubject, .orderEscrow, none, some order.id⟩
  insertOrder order

/-- `verification_message`: it too changes only the email part of the target. -/
def verificationMessage (order : Order) : Tx Order := enqueueNotification world order

def create (checkout : Checkout) (version : Nat) : Tx Order := do
  let offered ← read fun market => readOffer world market checkout
  beginVersion world version
  openOrder (newOrder terms world checkout offered)
  insertContract (newContract terms world checkout offered version)
  insertDeadline ⟨newOrderId world, world.now + offered.policy.fundingTimeout⟩
  let order ← read fun market => readOrder market (newOrderId world) offered.buyer
  verificationMessage world order

/-- The contract a request may fund, in time. -/
def fundingTerms (market : State) (request : Request) (order : Order) : Except Failure Contract := do
  require (order.state = .created) "order_not_fundable"
  let locked ← contract terms market order.id
  require (locked.version = 5 → request.operation = "money.redeem" ∧ request.contractVersion = 3)
    "entitlement_funding_contract_required"
  require (world.now < order.createdAt + locked.policy.fundingTimeout) "payment_intent_expired"
  validateTarget terms world market order false
  return locked

def payment (request : Request) (order : Order) : EntryRequest :=
  entry request world order.buyer order.escrowSubject order.totalPriceMinor order.buyer
    (fundReference order.id)

def paid (request : Request) (receipt : Posting) (row : Order) : Order :=
  { row with
    paymentTransactionId := some receipt.transactionId
    paymentIntentDigest := request.payloadDigest
    fundedAt := some world.now
    receiptRefs := [receipt.transactionId] }

/-- `payment_transaction_id` is UNIQUE and references money_ledger. -/
def recordPayment (request : Request) (receipt : Posting) (order : Order) : Tx Unit :=
  Program.write fun market => do
    require (∀ other ∈ market.orders.rows, other.id ≠ order.id →
      other.paymentTransactionId ≠ some receipt.transactionId) "constraint_conflict"
    return { market with orders := market.orders.modify order.id (paid world request receipt) }

def deliverInstant (request : Request) (locked : Contract) (order : Order) : Tx Unit :=
  if locked.version ≠ 5 ∧ locked.listing.deliveryMode = .managedInstant then do
    let _ ← automatic terms world order (origin world request order.buyer)
    return ()
  else pure ()

/-- Payment into escrow, without what follows it for managed goods. -/
def fundEscrow (request : Request) (order : Order) : Tx (Contract × Order) := do
  let locked ← read fun market => fundingTerms terms world market request order
  let receipt ← post world false (payment world request order)
  recordPayment world request receipt order
  let funded ← transition terms (paid world request receipt order) .funded
    (origin world request order.buyer) .signedPaymentIntent
  updateDeadline order.id (world.now + locked.policy.deliveryTimeout)
  return (locked, funded)

def fund (request : Request) (order : Order) : Tx Unit := do
  let (locked, funded) ← fundEscrow terms world request order
  deliverInstant terms world request locked funded

/-- orders.create@1 and @2. -/
def reserve (checkout : Checkout) (version : Nat) : Tx Unit := do
  let _ ← create terms world checkout version
  return ()

/-- orders.buy@3 and @4. -/
def buy (checkout : Checkout) (version : Nat) : Tx Unit := do
  let order ← create terms world checkout version
  fund terms world checkout.request order

structure Payment where
  request : Request
  orderId : String
  orderDigest : String
  totalPriceMinor : Int

/-- orders.fund@1. -/
def pay (order : Payment) : Tx Unit := do
  let buyer ← read fun _ => signedSubject order.request
  let row ← read fun market => readBuyerOrder market order.orderId buyer
  let locked ← read fun market => contract terms market row.id
  read fun _ => require (terms.contractDigest locked = order.orderDigest ∧
    row.totalPriceMinor = order.totalPriceMinor) "payment_intent_mismatch"
  fund terms world order.request row

def cancelFunded (order : Order) (origin : Origin) : Tx Unit := do
  read fun _ => require (order.state = .funded ∧ order.deliveredAt = none) "order_not_cancellable"
  let _ ← settle terms world order (plainSettlement origin .buyerCancelled order.totalPriceMinor)
  return ()

def cancelOrder (order : Order) (origin : Origin) : Tx Unit :=
  if order.state = .created then do
    let _ ← transition terms order .cancelled origin .buyerCancelled
    return ()
  else if order.state = .cancelled ∨ order.state = .refunded then pure ()
  else cancelFunded terms world order origin

/-- orders.cancel@2. -/
def cancel (request : Request) (orderId : String) : Tx Unit := do
  let buyer ← read fun _ => signedSubject request
  let order ← read fun market => readBuyerOrder market orderId buyer
  cancelOrder terms world order (origin world request buyer)

/-! money.redeem@3. -/

/-- What reading the offer, its listing resource and its signed source answers; the
listing is the resource under the id of the offer. -/
structure Redemption where
  request : Request
  arguments : RedeemArguments
  signature : Option Signature
  offer : Except Failure Offer
  listingOwner : String
  listingRevision : String
  enabled : Bool

def Redemption.signed (redemption : Redemption) : RedeemRequest where
  operation := redemption.request.operation
  contractVersion := redemption.request.contractVersion
  subject := redemption.request.principal.subject
  requestId := redemption.request.requestId
  payloadDigest := redemption.request.payloadDigest
  arguments := redemption.arguments
  signature := redemption.signature

/-- `listing_body` of market/offer_resources.py. -/
def offerBody (offer : Offer) (enabled : Bool) : ListingBody where
  mode := .sale
  state := if enabled then .active else .paused
  itemKind := .entitlement
  deliveryMode := .managedInstant
  escrowPolicy := "legacy-entitlement-v1"
  disputePolicy := "local-root-refund-v1"
  currencyId := currencyId
  terms := "Server-issued entitlement; settled Root payments require local refund authority."
  priceMinor := offer.priceMinor
  quantity := offer.maxQuantity
  packageRef := none
  expiresAt := none

structure Redeemed where
  buyer : String
  offer : Offer
  handle : String
  email : EmailTarget

/-- `_owner`: unlike `_subject` it does not ask for a signature. -/
def moneySubject (request : Request) : Except Failure String := do
  let subject ← requireRow request.principal.subject "money_subject_required"
  require (request.principal.actor = some subject) "money_subject_required"
  return subject

def quantityCheck (redemption : Redemption) (offer : Offer) : Except Failure Unit :=
  require (offer.minQuantity ≤ redemption.arguments.quantity ∧
    redemption.arguments.quantity ≤ offer.maxQuantity ∧
    offer.priceMinor * redemption.arguments.quantity ≤ maxMinor) "invalid_offer_quantity"

def readRedemption (market : State) (redemption : Redemption) : Except Failure Redeemed := do
  let buyer ← moneySubject redemption.request
  let offer ← redemption.offer
  require (redemption.arguments.priceRevision = offer.priceRevision) "offer_price_changed"
  quantityCheck redemption offer
  require (extraCapacity market buyer world.now + redemption.arguments.quantity +
    terms.baseCapacity ≤ maxCapacityBytes) "entitlement_capacity_exceeded"
  require (redemption.listingOwner = rootSubject ∧
    redemption.listingRevision = redemption.arguments.listingRevision) "offer_listing_changed"
  require (redemption.arguments.offerSnapshotDigest = terms.offerDigest offer)
    "offer_snapshot_changed"
  require (offer.priceMinor * redemption.arguments.quantity = redemption.arguments.totalPriceMinor)
    "price_changed"
  let (handle, email) ← world.target buyer none
  return ⟨buyer, offer, handle, email⟩

def redeemOrder (redemption : Redemption) (redeemed : Redeemed) : Order where
  id := newOrderId world
  buyer := redeemed.buyer
  seller := rootSubject
  listingId := redeemed.offer.offerId
  listingRevision := redemption.listingRevision
  packageId := none
  packageRevision := none
  packageDigest := none
  quantity := redemption.arguments.quantity
  unitPriceMinor := redeemed.offer.priceMinor
  totalPriceMinor := redemption.arguments.totalPriceMinor
  currencyId := currencyId
  escrowSubject := newEscrow world
  escrowPolicy := (offerBody redeemed.offer redemption.enabled).escrowPolicy
  disputePolicy := (offerBody redeemed.offer redemption.enabled).disputePolicy
  termsDigest := terms.termsDigest (offerBody redeemed.offer redemption.enabled).terms
  deliveryTarget := ⟨redeemed.buyer, "site", some redeemed.handle, some redeemed.email⟩
  paymentIntentDigest := redemption.request.payloadDigest
  paymentTransactionId := none
  state := .created
  createdAt := world.now
  fundedAt := none
  deliveredAt := none
  settledAt := none
  receiptRefs := []

def redeemContract (redemption : Redemption) (redeemed : Redeemed) (key : Credential) :
    Contract where
  orderId := newOrderId world
  version := 5
  buyer := redeemed.buyer
  seller := rootSubject
  listing := offerBody redeemed.offer redemption.enabled
  listingId := redeemed.offer.offerId
  escrowSubject := newEscrow world
  listingRevision := redemption.listingRevision
  packageId := none
  packageRevision := none
  packageDigest := none
  quantity := redemption.arguments.quantity
  totalPriceMinor := redemption.arguments.totalPriceMinor
  termsDigest := terms.termsDigest (offerBody redeemed.offer redemption.enabled).terms
  policy := entitlementPolicy
  recipientKey := none
  handleSnapshot := none
  buyerPrincipal := none
  createdAt := world.now
  resourceModel := true
  settlementPolicy := some .deterministicEntitlement
  entitlement := some
    { offer := redeemed.offer
      requestId := redemption.request.requestId
      request := redemption.signed
      signer := key.verifier }

def redeemSettlement (redemption : Redemption) (redeemed : Redeemed) : SettleRequest where
  origin := origin world redemption.request redeemed.buyer
  reason := .deterministicEntitlement
  refundMinor := 0
  decision := none
  fulfill := some
    { subjectId := redeemed.buyer
      requestId := redemption.request.requestId
      quantity := redemption.arguments.quantity
      offer := redeemed.offer }

/-- The funded copy that `settle` gets is the one that `fund` updated in place. -/
def redeem (redemption : Redemption) : Tx Unit := do
  let redeemed ← read fun market => readRedemption terms world market redemption
  beginNew (newOrderId world)
  openOrder (redeemOrder terms world redemption redeemed)
  let key ← read fun market =>
    Session.credential market.authority redemption.request.principal.credentialId
  insertContract (redeemContract terms world redemption redeemed key)
  let order ← read fun market => readOrder market (newOrderId world) redeemed.buyer
  let (_, funded) ← fundEscrow terms world redemption.request order
  let _ ← settle terms world funded (redeemSettlement world redemption redeemed)
  return ()

end MsgServer.Market
