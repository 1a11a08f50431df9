import MsgServer.Market.Panels
import MsgServer.Plugins.Offers

/-!
The versioned half of market/escrow.py: `transition`, `settle` and the timer
`resolve_due`. The local copy of an order that the source updates in place is
returned by the functions that update it.
-/

namespace MsgServer.Market

open Library Ledger

/-- TRANSITIONS. -/
def transitions : OrderState → List OrderState
  | .created => [.funded, .cancelled]
  | .funded => [.delivered, .refunded, .disputed]
  | .delivered => [.accepted, .refunded, .disputed]
  | .accepted => [.settled]
  | .disputed => [.refunded, .settled]
  | .cancelled => []
  | .refunded => []
  | .settled => []

def objectiveRefunds : List Reason :=
  [.packageMissing, .packageDigestMismatch, .deliveryMissing, .deliveryDigestMismatch,
    .deliveryTimeout, .buyerCancelled]

/-- Who posts for an order, in whose request, and when. -/
structure Origin where
  now : Nat
  actor : String
  requestId : String
  deriving DecidableEq

variable (terms : Terms) (world : World)

def writable (market : State) (orderId : String) : Except Failure Unit :=
  require (modelled market orderId = true → orderId ∈ market.active)
    "order_resource_write_forbidden"

/-- Only a deterministic entitlement settles straight from `funded`. -/
def transitionCheck (market : State) (order : Order) (state : OrderState) (reason : Reason) :
    Except Failure Unit :=
  if order.state = .funded ∧ state = .settled then do
    let locked ← contract terms market order.id
    require (locked.version = 5 ∧ reason = .deterministicEntitlement) "order_transition_invalid"
  else require (state ∈ transitions order.state) "order_transition_invalid"

def transition (order : Order) (state : OrderState) (origin : Origin)
    (reason : Reason) : Tx Order := do
  read fun market => writable market order.id
  read fun market => transitionCheck terms market order state reason
  updateOrderWhere order.id (fun row => row.state == order.state) "order_transition_conflict"
    fun row => { row with state := state }
  insertTransition
    { orderId := order.id
      fromState := order.state
      toState := state
      recordedAt := origin.now
      reason := reason
      policy := order.disputePolicy
      actor := origin.actor
      requestId := origin.requestId }
  return { order with state := state }

structure SettleRequest where
  origin : Origin
  reason : Reason
  refundMinor : Int
  decision : Option Decision
  fulfill : Option PurchaseInput

def SettleRequest.decisionId (request : SettleRequest) : Option String :=
  request.decision.map Decision.id

/-- A settlement that is there answers only the same request. -/
def repeated (fact : Settlement) (request : SettleRequest) : Except Failure Unit :=
  require (fact.refundMinor = request.refundMinor ∧ fact.reason = request.reason ∧
    fact.decisionId = request.decisionId) "order_already_settled"

def decisionAuthority (market : State) (order : Order) (decision : Decision)
    (request : SettleRequest) : Except Failure Unit := do
  validateDecision terms world market order decision request.origin.now
  require (request.refundMinor = decision.refundMinor) "decision_amount_mismatch"

/-- Who may ask for this split, case by case of the source. -/
def settleAuthority (market : State) (locked : Contract) (order : Order)
    (request : SettleRequest) : Except Failure Unit :=
  if locked.version = 5 then
    require (request.decision = none ∧ request.refundMinor = 0 ∧ order.state = .funded ∧
      request.origin.actor = order.buyer ∧ request.reason = .deterministicEntitlement ∧
      request.fulfill.isSome = true) "escrow_release_forbidden"
  else match request.decision with
    | some decision => decisionAuthority terms world market order decision request
    | none =>
        if request.refundMinor = order.totalPriceMinor then
          require (request.reason ∈ objectiveRefunds ∧
            (order.state = .funded ∨ order.state = .delivered)) "escrow_release_forbidden"
        else do
          require (locked.version = 4 →
            request.reason = .buyerAcceptance ∧ request.origin.actor = order.buyer)
            "escrow_release_forbidden"
          require (request.refundMinor = 0 ∧ order.state = .accepted ∧
            (request.reason = .buyerAcceptance ∨ request.reason = .managedInstantVerified))
            "escrow_release_forbidden"

def release (order : Order) (recipient : String) : Release where
  escrowAccount := order.escrowSubject
  sourceId := order.id
  accountKind := .orderEscrow
  buyer := order.buyer
  seller := order.seller
  recipient := recipient

def refundRequestId (orderId : String) : String := orderId ++ ":refund"
def releaseRequestId (orderId : String) : String := orderId ++ ":release"

def refundEntry (order : Order) (origin : Origin) (amount : Int) : EntryRequest where
  sender := none
  recipient := none
  amount := amount
  actor := origin.actor
  requestId := refundRequestId order.id
  now := origin.now
  reference := some (refundReference order.id)
  kind := .refund

def releaseEntry (order : Order) (origin : Origin) (amount : Int) : EntryRequest where
  sender := none
  recipient := none
  amount := amount
  actor := origin.actor
  requestId := releaseRequestId order.id
  now := origin.now
  reference := some (releaseReference order.id)
  kind := .transfer

/-- One leg, unless it is empty. -/
def postLeg (order : Order) (recipient : String) (amount : Int) (request : EntryRequest) :
    Tx (List Posting) :=
  if amount = 0 then pure []
  else do
    let receipt ← postRelease world (release order recipient) request
    return [receipt]

/-- A version 5 release grants what its first leg paid for. -/
def fulfilled (locked : Contract) (request : SettleRequest) (receipts : List Posting) :
    Tx (Option String) :=
  if locked.version = 5 then do
    let purchase ← read fun _ => requireRow request.fulfill "escrow_release_forbidden"
    let receipt ← read fun _ => requireRow receipts.head? "internal_error"
    let id ← grantHosting terms purchase request.origin.now receipt.transactionId
    return some id
  else pure none

def settledState (order : Order) (refundMinor : Int) : OrderState :=
  if refundMinor = order.totalPriceMinor then .refunded else .settled

def settledRefs (order : Order) (receipts : List Posting) : List String :=
  order.receiptRefs ++ receipts.map Posting.transactionId

def closeOrder (order : Order) (now : Nat) (receipts : List Posting) (row : Order) : Order :=
  { row with settledAt := some now, receiptRefs := settledRefs order receipts }

def statement (order : Order) (request : SettleRequest) (receipts : List Posting)
    (delivery : Option Delivery) (entitlementId : Option String) : Settlement where
  orderId := order.id
  refundMinor := request.refundMinor
  releaseMinor := order.totalPriceMinor - request.refundMinor
  reason := request.reason
  decisionId := request.decisionId
  policy := order.disputePolicy
  receipts := receipts
  recordedAt := request.origin.now
  orderFacts := order.facts
  deliverySnapshot := delivery
  entitlementId := entitlementId

def markExecuted (row : Case) : Case :=
  if row.state = .decided then { row with state := .executed } else row

/-- The case of a consumed decision. -/
def executeCase (decision : Option Decision) : Tx Unit :=
  Program.write fun market =>
    match decision with
    | none => .ok market
    | some decision =>
        .ok { market with cases := market.cases.modify decision.caseId markExecuted }

/-- Everything `settle` does once it knows that nothing is settled yet. -/
def settleFresh (locked : Contract) (order : Order) (request : SettleRequest) :
    Tx (Order × List Posting) := do
  read fun market => settleAuthority terms world market locked order request
  read fun market => require (balance market.books order.escrowSubject = order.totalPriceMinor)
    "escrow_balance_mismatch"
  let refund ← postLeg world order order.buyer request.refundMinor
    (refundEntry order request.origin request.refundMinor)
  let release ← postLeg world order order.seller (order.totalPriceMinor - request.refundMinor)
    (releaseEntry order request.origin (order.totalPriceMinor - request.refundMinor))
  let entitlementId ← fulfilled terms locked request (refund ++ release)
  let final ← transition terms order (settledState order request.refundMinor) request.origin
    request.reason
  updateOrder order.id (closeOrder order request.origin.now (refund ++ release))
  let delivery ← read fun market => .ok (deliverySnapshot market order.id)
  insertSettlement (statement order request (refund ++ release) delivery entitlementId)
  executeCase request.decision
  return (closeOrder order request.origin.now (refund ++ release) final, refund ++ release)

def settleOr (locked : Contract) (order : Order) (request : SettleRequest) :
    Option Settlement → Tx (Order × List Posting)
  | some fact => do
      read fun _ => repeated fact request
      return (order, fact.receipts)
  | none => settleFresh terms world locked order request

/-- Validates authority before either leg of a balanced settlement. -/
def settle (order : Order) (request : SettleRequest) : Tx (Order × List Posting) := do
  let locked ← read fun market => contract terms market order.id
  read fun _ => require (¬ (locked.version = 4 ∧ request.reason = .managedInstantVerified))
    "escrow_release_forbidden"
  read fun market => require (market.escrowDecisions.find? order.id = none) "order_already_settled"
  read fun _ => require (0 ≤ request.refundMinor ∧ request.refundMinor ≤ order.totalPriceMinor)
    "settlement_amount_invalid"
  let existing ← read fun market => .ok (market.settlements.find? order.id)
  settleOr terms world locked order request existing

/-! The timer. -/

def timeoutOrigin (orderId buyer : String) : Origin :=
  ⟨world.clock, buyer, "timeout:" ++ orderId⟩

/-- Time starts at persisted creation or funding. -/
def dueAt (order : Order) (policy : OrderPolicy) : Except Failure Nat :=
  if order.state = .created then .ok (order.createdAt + policy.fundingTimeout)
  else do
    let fundedAt ← requireRow order.fundedAt "internal_error"
    return fundedAt + policy.deliveryTimeout

def timeoutSettlement (order : Order) (buyer : String) : SettleRequest where
  origin := timeoutOrigin world order.id buyer
  reason := .deliveryTimeout
  refundMinor := order.totalPriceMinor
  decision := none
  fulfill := none

def expire (order : Order) (buyer : String) : Tx Unit :=
  if order.state = .created then do
    let _ ← transition terms order .cancelled (timeoutOrigin world order.id buyer) .fundingTimeout
    return ()
  else do
    let _ ← settle terms world order (timeoutSettlement world order buyer)
    return ()

/-- The body of the loop; an order that is not overdue after all is skipped. -/
def expireIfDue (orderId buyer : String) : Tx (List String) := do
  let order ← read fun market => readOrder market orderId buyer
  let locked ← read fun market => contract terms market orderId
  let due ← read fun _ => dueAt order locked.policy
  if world.clock < due then pure []
  else do
    expire terms world order buyer
    return [orderId]

def dueBefore (left right : Deadline) : Prop :=
  left.expiresAt < right.expiresAt ∨
    (left.expiresAt = right.expiresAt ∧ left.orderId ≤ right.orderId)

instance (left right : Deadline) : Decidable (dueBefore left right) :=
  inferInstanceAs (Decidable (_ ∨ _))

def overdue (market : State) (now : Nat) (deadline : Deadline) : Option (String × String) :=
  ((market.orders.find? deadline.orderId).filter fun row =>
    (row.state == .created || row.state == .funded) && decide (deadline.expiresAt ≤ now)).map
      fun row => (row.id, row.buyer)

def dueOrders (market : State) (now limit : Nat) : List (String × String) :=
  ((market.deadlines.rows.insertionSort dueBefore).filterMap (overdue market now)).take limit

def expireAll : List (String × String) → Tx (List String)
  | [] => pure []
  | (orderId, buyer) :: rest => do
      let first ← internalMutation terms world orderId (expireIfDue terms world orderId buyer)
      let later ← expireAll rest
      return first ++ later

def resolveDue (limit : Nat) : Tx (List String) := do
  read fun market => Session.requireCurrent market.authority
  let rows ← read fun market => .ok (dueOrders market world.clock limit)
  expireAll terms world rows

end MsgServer.Market
