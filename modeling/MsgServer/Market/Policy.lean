import MsgServer.Market.State

/-!
market/policy.py, market/order_resources.py and the readers of
market/order_records.py. An order is read through its contract: the row of
store_orders must project the facts fixed at checkout, its payment and its
settlement must be the ledger rows they claim to be, and for orders with a
resource the published revision must contain the rows as they stand. Signatures
of revisions are left out; what the content store answers is in the world.
-/

namespace MsgServer.Market

open Library Ledger

def defaultPolicy : DisputePolicy where
  id := "dispute-v1"
  version := 1
  fundingTimeoutSeconds := 900
  deliveryTimeoutSeconds := 86400
  caseTimeoutSeconds := 604800
  decisionLifetimeSeconds := 86400
  panelSize := 3
  quorum := 2
  candidates := []
  allowAppeal := false
  appealSeconds := 3600
  selection := "sha256-order-policy-round-subject-v1"
  memberInvalidation := "hold-no-replacement-v1"
  rules := "objective-faults-v1"

def isSubjectId (id : String) : Bool := id.toList.take 2 == ['u', '_']

def secondsBetween (value maximum : Nat) : Prop := 60 ≤ value ∧ value ≤ maximum

instance (value maximum : Nat) : Decidable (secondsBetween value maximum) :=
  inferInstanceAs (Decidable (_ ∧ _))

/-- `validate`. The failures differ only in the field they name. -/
def validatePolicy (policy : DisputePolicy) : Except Failure DisputePolicy := do
  require (1 ≤ policy.id.length ∧ policy.id.length ≤ 80 ∧ policy.version = 1 ∧
    policy.rules = defaultPolicy.rules ∧ policy.selection = defaultPolicy.selection ∧
    policy.memberInvalidation = defaultPolicy.memberInvalidation) "arbitration_policy_invalid"
  require (secondsBetween policy.fundingTimeoutSeconds 86400 ∧
    secondsBetween policy.deliveryTimeoutSeconds 2592000 ∧
    secondsBetween policy.caseTimeoutSeconds 2592000 ∧
    secondsBetween policy.decisionLifetimeSeconds 604800 ∧
    secondsBetween policy.appealSeconds 86400) "arbitration_policy_invalid"
  require (1 ≤ policy.panelSize ∧ policy.panelSize ≤ 9 ∧
    policy.panelSize / 2 < policy.quorum ∧ policy.quorum ≤ policy.panelSize ∧
    policy.candidates.length ≤ 100 ∧
    (∀ candidate ∈ policy.candidates, isSubjectId candidate = true ∧ candidate ≠ rootSubject) ∧
    policy.candidates.Nodup) "arbitration_policy_invalid"
  require (policy.allowAppeal = true → policy.appealSeconds < policy.decisionLifetimeSeconds)
    "arbitration_policy_invalid"
  return policy

def storedPolicy (market : State) (policyId : String) : Except Failure DisputePolicy :=
  match market.policies.find? policyId with
  | some policy => .ok policy
  | none => do
      require (policyId = defaultPolicy.id) "arbitration_policy_unknown"
      return defaultPolicy

def loadPolicy (market : State) (policyId : String) : Except Failure DisputePolicy := do
  let policy ← storedPolicy market policyId
  validatePolicy policy

/-- The epoch of an active role; a revoked role and an unknown one have none. -/
def activeEpoch (market : State) (candidate : String) : Option String :=
  ((market.roles.find? candidate).filter Role.active).map Role.epoch

/-- `snapshot` of market/policy.py. -/
def policySnapshot (market : State) (policyId : String) : Except Failure OrderPolicy := do
  let policy ← loadPolicy market policyId
  return .dispute policy (policy.candidates.filterMap fun candidate =>
    (activeEpoch market candidate).map fun epoch => (candidate, epoch))

def deliverySnapshot (market : State) (orderId : String) : Option Delivery :=
  (market.deliveries.find? orderId).map Delivery.committed

/-- `snapshot` of market/order_resources.py: everything but the delivery target. -/
def Order.projected (order : Order) : Order :=
  { order with deliveryTarget := ⟨"", "", none, none⟩ }

def orderTransitions (market : State) (orderId : String) : List Transition :=
  market.transitions.filter fun fact => fact.orderId == orderId

def snapshot (market : State) (orderId : String) : Except Failure OrderSnapshot := do
  let order ← requireRow (market.orders.find? orderId) "order_resource_missing"
  let locked ← requireRow (market.contracts.find? orderId) "order_contract_corrupt"
  return ⟨order.projected, locked, market.settlements.find? orderId,
    orderTransitions market orderId⟩

/-- The order has a resource whose revisions are its authority. -/
def modelled (market : State) (orderId : String) : Bool :=
  ((market.contracts.find? orderId).map Contract.resourceModel).getD false

def sourceCheck (market : State) (orderId : String) : Except Failure Unit := do
  let source ← requireRow (market.sources.find? orderId) "order_resource_missing"
  let locked ← requireRow (market.contracts.find? orderId) "order_resource_missing"
  require (source.owner = locked.buyer) "order_resource_invalid"
  let body ← snapshot market orderId
  require (source.snapshot = body) "order_resource_projection_mismatch"

/-- `source_metadata`; an order the running operation may write was checked before. -/
def sourceMetadata (market : State) (orderId : String) (force : Bool) : Except Failure Unit :=
  if modelled market orderId = false then
    require (market.sources.find? orderId = none) "order_resource_contract_missing"
  else if force = false ∧ orderId ∈ market.active then .ok ()
  else sourceCheck market orderId

/-- The columns a contract fixes. -/
structure Fixed where
  buyer : String
  seller : String
  listingId : String
  listingRevision : String
  packageId : Option String
  packageRevision : Option String
  packageDigest : Option String
  quantity : Nat
  totalPriceMinor : Int
  escrowSubject : String
  termsDigest : String
  createdAt : Nat
  unitPriceMinor : Int
  currencyId : String
  escrowPolicy : String
  disputePolicy : String
  deriving DecidableEq

def Contract.fixed (locked : Contract) : Fixed :=
  ⟨locked.buyer, locked.seller, locked.listingId, locked.listingRevision, locked.packageId,
    locked.packageRevision, locked.packageDigest, locked.quantity, locked.totalPriceMinor,
    locked.escrowSubject, locked.termsDigest, locked.createdAt, locked.listing.priceMinor,
    locked.listing.currencyId, locked.listing.escrowPolicy, locked.listing.disputePolicy⟩

def Order.fixed (order : Order) : Fixed :=
  ⟨order.buyer, order.seller, order.listingId, order.listingRevision, order.packageId,
    order.packageRevision, order.packageDigest, order.quantity, order.totalPriceMinor,
    order.escrowSubject, order.termsDigest, order.createdAt, order.unitPriceMinor,
    order.currencyId, order.escrowPolicy, order.disputePolicy⟩

/-- One ledger row as a settlement describes it. -/
structure Leg where
  kind : Kind
  fromSubject : Option String
  toSubject : Option String
  amountMinor : Int
  currencyId : String
  reference : Option String
  deriving DecidableEq

def legOf (posting : Posting) : Leg :=
  ⟨posting.kind, posting.fromSubject, posting.toSubject, posting.amountMinor, posting.currencyId,
    posting.reference⟩

def refundReference (orderId : String) : String := "order_refund:" ++ orderId
def releaseReference (orderId : String) : String := "order_release:" ++ orderId
def fundReference (orderId : String) : String := "order_fund:" ++ orderId

/-- The two possible legs, less the empty one. -/
def expectedLegs (locked : Contract) (refundMinor releaseMinor : Int) : List Leg :=
  [⟨.refund, some locked.escrowSubject, some locked.buyer, refundMinor, locked.listing.currencyId,
      some (refundReference locked.orderId)⟩,
    ⟨.transfer, some locked.escrowSubject, some locked.seller, releaseMinor,
      locked.listing.currencyId, some (releaseReference locked.orderId)⟩].filter
    fun leg => leg.amountMinor != 0

variable (terms : Terms) (market : State)

def versionCheck (locked : Contract) : Except Failure Unit := do
  require (locked.version = 3 ∨ locked.version = 4 ∨ locked.version = 5) "order_contract_version"
  require (locked.version = 4 → locked.settlementPolicy = some .explicitBuyerAcceptance)
    "order_contract_version"

def expectedArguments (locked : Contract) (extra : EntitlementTerms) : RedeemArguments where
  offerId := locked.listingId
  quantity := locked.quantity
  currencyId := currencyId
  priceRevision := extra.offer.priceRevision
  listingRevision := locked.listingRevision
  offerSnapshotDigest := terms.offerDigest extra.offer
  totalPriceMinor := locked.totalPriceMinor
  settlementPolicy := "deterministic-entitlement-v1"

/-- The signed intent of an entitlement order, by the key it was signed with. -/
def intentCheck (locked : Contract) : Except Failure Unit := do
  let extra ← requireRow locked.entitlement "order_contract_version"
  require (locked.policy = entitlementPolicy) "order_contract_version"
  require (locked.settlementPolicy = some .deterministicEntitlement ∧
    locked.seller = rootSubject ∧ locked.listing.itemKind = .entitlement) "order_contract_version"
  let signature ← requireRow extra.request.signature "order_entitlement_intent_mismatch"
  require (extra.request.operation = "money.redeem" ∧ extra.request.contractVersion = 3 ∧
    extra.request.subject = some locked.buyer ∧ extra.request.requestId = extra.requestId ∧
    terms.requestDigest extra.request = extra.request.payloadDigest)
    "order_entitlement_intent_mismatch"
  require (extra.request.arguments = expectedArguments terms locked extra)
    "order_entitlement_intent_mismatch"
  let credential ← requireRow (market.authority.credentials.find? signature.keyId)
    "order_entitlement_signer_mismatch"
  require (credential.subjectId = locked.buyer ∧ credential.kind = .signingKey ∧
    credential.verifier = extra.signer) "order_entitlement_signer_mismatch"
  verified terms.toApp credential.verifier (terms.requestText extra.request) signature "request"

def entitlementIntent (locked : Contract) : Except Failure Unit :=
  if locked.version = 5 then intentCheck terms market locked else .ok ()

/-- For version 5 the payment intent is the signed redemption request itself. -/
def intentDigest (locked : Contract) (order : Order) : Except Failure Unit :=
  require (locked.version = 5 →
    locked.entitlement.map (fun extra => extra.request.payloadDigest) =
      some order.paymentIntentDigest) "order_entitlement_intent_mismatch"

def paymentRow (posting : Posting) : Leg × Option Nat :=
  (⟨.transfer, posting.fromSubject, posting.toSubject, posting.amountMinor, posting.currencyId,
    posting.reference⟩, some posting.committedAt)

def paymentCheck (locked : Contract) (order : Order) : Except Failure Unit :=
  match order.paymentTransactionId with
  | none => .ok ()
  | some id =>
      require ((market.books.postings.find? id).map paymentRow =
        some (⟨.transfer, some locked.buyer, some locked.escrowSubject, locked.totalPriceMinor,
          locked.listing.currencyId, some (fundReference locked.orderId)⟩, order.fundedAt))
        "order_payment_mismatch"

/-- The entitlement row a version 5 settlement claims to have granted. -/
def expectedGrant (locked : Contract) (extra : EntitlementTerms) (fact : Settlement)
    (id transactionId : String) : Entitlement where
  id := id
  subjectId := locked.buyer
  offerId := locked.listingId
  purchaseRequestId := extra.requestId
  quantity := locked.quantity
  entitlementKind := extra.offer.entitlementKind
  grantedAt := fact.recordedAt
  expiresAt := extra.offer.durationSeconds.map fun seconds => fact.recordedAt + seconds
  redeemTransactionId := transactionId

def grantCheck (locked : Contract) (order : Order) (fact : Settlement) : Except Failure Unit := do
  require (order.state = .settled ∧ fact.reason = .deterministicEntitlement ∧
    fact.refundMinor = 0 ∧ order.deliveredAt = none ∧
    deliverySnapshot market locked.orderId = none) "order_entitlement_mismatch"
  let extra ← requireRow locked.entitlement "order_contract_version"
  let receipt ← requireRow fact.receipts.head? "order_entitlement_mismatch"
  let id ← requireRow fact.entitlementId "order_entitlement_mismatch"
  require (market.entitlements.find? id =
    some (expectedGrant locked extra fact id receipt.transactionId)) "order_entitlement_mismatch"

def entitlementGrant (locked : Contract) (order : Order) (fact : Settlement) :
    Except Failure Unit :=
  if locked.version = 5 then grantCheck market locked order fact else .ok ()

def finalState (releaseMinor : Int) : OrderState :=
  if releaseMinor = 0 then .refunded else .settled

def settlementRow (locked : Contract) (order : Order) (fact : Settlement) :
    Except Failure Unit := do
  require (fact.orderId = locked.orderId ∧ 0 ≤ fact.refundMinor ∧ 0 ≤ fact.releaseMinor)
    "order_settlement_mismatch"
  require (fact.receipts.map legOf = expectedLegs locked fact.refundMinor fact.releaseMinor)
    "order_settlement_mismatch"
  require (fact.refundMinor + fact.releaseMinor = locked.totalPriceMinor ∧
    order.state = finalState fact.releaseMinor ∧ order.settledAt = some fact.recordedAt ∧
    order.receiptRefs.map some = order.paymentTransactionId ::
      fact.receipts.map (fun receipt => some receipt.transactionId) ∧
    order.facts = fact.orderFacts ∧
    deliverySnapshot market locked.orderId = fact.deliverySnapshot) "order_settlement_mismatch"
  require (locked.version = 4 ∧ fact.decisionId = none ∧ fact.releaseMinor ≠ 0 →
    fact.reason = .buyerAcceptance ∧ fact.refundMinor = 0) "order_acceptance_policy_mismatch"
  entitlementGrant market locked order fact
  require (∀ receipt ∈ fact.receipts,
    market.books.postings.find? receipt.transactionId = some receipt) "order_settlement_mismatch"

def settlementCheck (locked : Contract) (order : Order) : Except Failure Unit :=
  match market.settlements.find? locked.orderId with
  | none => require (order.state ≠ .settled ∧ order.state ≠ .refunded) "order_settlement_missing"
  | some fact => settlementRow market locked order fact

/-- A restored mutable projection cannot replace the immutable checkout facts. -/
def validateProjection (locked : Contract) : Except Failure Unit := do
  versionCheck locked
  entitlementIntent terms market locked
  let order ← requireRow (market.orders.find? locked.orderId) "order_contract_mismatch"
  require (order.fixed = locked.fixed) "order_contract_mismatch"
  intentDigest locked order
  paymentCheck market locked order
  settlementCheck market locked order

/-- Contracts are append-only, so the stored digest of a body is the digest of the
body and the key of the row is the order it names. -/
def contract (orderId : String) : Except Failure Contract := do
  let locked ← requireRow (market.contracts.find? orderId) "order_contract_required"
  sourceMetadata market orderId false
  validateProjection terms market locked
  return locked

/-- A valid id is not an access grant: nonexistent and unauthorized are alike. -/
def readOrder (orderId viewer : String) : Except Failure Order := do
  let order ← requireRow
    ((market.orders.find? orderId).filter fun row => viewer == row.buyer || viewer == row.seller)
    "order_not_found"
  sourceMetadata market orderId false
  return order

def readBuyerOrder (orderId buyer : String) : Except Failure Order := do
  let order ← readOrder market orderId buyer
  require (order.buyer = buyer) "order_not_found"
  return order

variable (world : World)

def verifySource (orderId : String) : Except Failure Unit := do
  sourceMetadata market orderId true
  if modelled market orderId = true then world.stored orderId else .ok ()

/-- The new revision, unless the published one already says so. -/
def revise (orderId : String) (locked : Contract) (body : OrderSnapshot) :
    Except Failure State :=
  match market.sources.find? orderId with
  | none => do
      published world orderId
      let sources ← insertRow market.sources ⟨orderId, locked.buyer, body⟩
      return { market with sources := sources }
  | some source =>
      if source.snapshot = body then .ok market
      else do
        published world orderId
        return { market with
          sources := market.sources.modify orderId fun row => { row with snapshot := body } }

/-- `publish`. The contract read first is the whole projection check. -/
def publishOne (orderId : String) : Except Failure State := do
  require (orderId ∈ market.active) "order_resource_write_forbidden"
  let locked ← contract terms market orderId
  let body ← snapshot market orderId
  revise market world orderId locked body

def publish (orderId : String) : Tx Unit :=
  Program.write fun market =>
    if modelled market orderId = true then publishOne terms market world orderId else .ok market

def publishAll : List String → Tx Unit
  | [] => pure ()
  | orderId :: rest => do
      publish terms world orderId
      publishAll rest

def activate (orderIds : List String) : Tx Unit :=
  Program.write fun market => .ok
    { market with active := orderIds.filter (fun id => decide (id ∉ market.active)) ++ market.active }

/-- The order an operation names, when its row exists and the caller is a party or
came through the case. -/
def boundaryOrder (orderId : Option String) (viewer : Option String) (throughCase : Bool) :
    Option String :=
  orderId.filter fun id =>
    match market.orders.find? id with
    | none => false
    | some row => throughCase || viewer == some row.buyer || viewer == some row.seller

def boundaryIds (orderId : Option String) (viewer : Option String) (throughCase : Bool) :
    Except Failure (List String) :=
  match boundaryOrder market orderId viewer throughCase with
  | none => .ok []
  | some id => do
      verifySource market world id
      return [id]

/-- `operation_boundary` around a writing handler: check the source, let the handler
write the order, publish what it wrote. Orders the handler began are published too. -/
def operationBoundary {α : Type} (orderId : Option String) (viewer : Option String)
    (throughCase : Bool) (handler : Tx α) : Tx α :=
  restoring do
    let before ← read fun market => .ok market.active
    let ids ← read fun market => boundaryIds market world orderId viewer throughCase
    activate ids
    let result ← handler
    let active ← read fun market => .ok market.active
    publishAll terms world (active.filter fun id => decide (id ∈ ids ∨ id ∉ before))
    return result

/-- `internal_mutation` of timers and of case execution. -/
def internalMutation {α : Type} (orderId : String) (body : Tx α) : Tx α := do
  let active ← read fun market => .ok market.active
  if orderId ∈ active then body
  else restoring do
    read fun market => verifySource market world orderId
    activate [orderId]
    let result ← body
    publish terms world orderId
    return result

end MsgServer.Market
