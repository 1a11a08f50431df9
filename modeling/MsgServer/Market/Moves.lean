import Mathlib.Logic.Relation
import MsgServer.Market.System

/-!
What one act of the market does to its tables. Every program of the market is a
sequence of the moves below: each says under which circumstances it is made, in
terms of the functions of the model, and what the tables are afterwards. An
invariant is shown once for each move and then holds of every program. A `Client`
says what requests from outside bring.
-/

namespace MsgServer.Market

open Library Ledger

/-- The row a program works on is the stored one. -/
def Current (market : State) (order : Order) : Prop := market.orders.find? order.id = some order

/-- The published revision of an order contains its rows as they stand. -/
def UpToDate (market : State) (orderId : String) : Prop :=
  ∃ source, market.sources.find? orderId = some source ∧
    snapshot market orderId = .ok source.snapshot

/-- The four states in which the escrow holds the price. -/
def OrderState.funding : OrderState → Bool
  | .funded => true
  | .delivered => true
  | .accepted => true
  | .disputed => true
  | .created => false
  | .settled => false
  | .cancelled => false
  | .refunded => false

/-- States that no order leaves. -/
def OrderState.terminal : OrderState → Bool
  | .settled => true
  | .cancelled => true
  | .refunded => true
  | .created => false
  | .funded => false
  | .delivered => false
  | .accepted => false
  | .disputed => false

/-- A posting from an account that is no escrow of an order. -/
structure Ordinary (market : State) (request : EntryRequest) (books : Books) (receipt : Posting) :
    Prop where
  appended : Appended (identity market) request market.books books receipt
  unguarded : ∀ sender row, request.sender = some sender →
    market.books.accounts.find? sender = some row → row.kind ≠ .orderEscrow

/-- The posting of `postEscrowRelease`. -/
def released (order : Order) (recipient : String) (request : EntryRequest) : EntryRequest :=
  { request with
    sender := some order.escrowSubject
    recipient := some recipient
    localIssuer := false }

/-- One leg of a settlement; an empty one is not posted. -/
inductive Paid (subject? : String → Option Subject) (order : Order) (recipient : String)
    (request : EntryRequest) (before : Books) : Books → List Posting → Prop
  | empty (zero : request.amount = 0) : Paid subject? order recipient request before before []
  | posted {after : Books} {receipt : Posting} (nonzero : request.amount ≠ 0)
      (appended : Appended subject? (released order recipient request) before after receipt) :
      Paid subject? order recipient request before after [receipt]

def transitionFact (order : Order) (state : OrderState) (origin : Origin) (reason : Reason) :
    Transition where
  orderId := order.id
  fromState := order.state
  toState := state
  recordedAt := origin.now
  reason := reason
  policy := order.disputePolicy
  actor := origin.actor
  requestId := origin.requestId

def setState (state : OrderState) (row : Order) : Order := { row with state := state }

/-- The tables after `transition`. -/
def State.turn (market : State) (order : Order) (state : OrderState) (origin : Origin)
    (reason : Reason) : State :=
  { market with
    orders := market.orders.modify order.id (setState state)
    transitions := market.transitions ++ [transitionFact order state origin reason] }

/-- An order that has not been paid. -/
structure Blank (order : Order) : Prop where
  state : order.state = .created
  payment : order.paymentTransactionId = none
  funded : order.fundedAt = none
  delivered : order.deliveredAt = none
  settled : order.settledAt = none
  refs : order.receiptRefs = []

/-- Ids are drawn so that no account of a subject can be the escrow of an order. -/
structure Drawn (order : Order) : Prop where
  id : ∃ entropy, order.id = "ord_" ++ entropy
  escrow : ∃ entropy, order.escrowSubject = "esc_" ++ entropy

variable (terms : Terms)

/-- A new versioned order with its escrow account and its contract. -/
structure Opened (market : State) (order : Order) (locked : Contract) (books : Books)
    (orders : Table Order.id) (contracts : Table Contract.orderId) : Prop where
  account : insertAccount market.books ⟨order.escrowSubject, .orderEscrow, none, some order.id⟩ =
    .ok books
  amounts : 0 < order.quantity ∧ 0 < order.unitPriceMinor ∧ 0 < order.totalPriceMinor ∧
    order.currencyId = currencyId
  parties : (identity market order.buyer).isSome = true ∧ (identity market order.seller).isSome = true
  inserted : market.orders.insert order = some orders
  contracted : market.contracts.insert locked = some contracts
  blank : Blank order
  drawn : Drawn order
  target : order.deliveryTarget.handleSnapshot ≠ none
  named : locked.orderId = order.id
  fixed : order.fixed = locked.fixed
  version : versionCheck locked = .ok ()
  intent : entitlementIntent terms market locked = .ok ()
  digest : intentDigest locked order = .ok ()
  writable : locked.resourceModel = true → order.id ∈ market.active

def State.opened (market : State) (books : Books) (orders : Table Order.id)
    (contracts : Table Contract.orderId) : State :=
  { market with books := books, orders := orders, contracts := contracts }

/-- Payment of a created order into its escrow. -/
structure Funded (market : State) (world : World) (request : Request) (order : Order)
    (locked : Contract) (books : Books) (receipt : Posting) : Prop where
  current : Current market order
  created : order.state = .created
  agreed : contract terms market order.id = .ok locked
  posted : Ordinary market (payment world request order) books receipt
  unique : ∀ other ∈ market.orders.rows, other.id ≠ order.id →
    other.paymentTransactionId ≠ some receipt.transactionId
  digest : intentDigest locked (paid world request receipt order) = .ok ()
  writable : writable market order.id = .ok ()

def State.funded (market : State) (world : World) (request : Request) (order : Order)
    (locked : Contract) (books : Books) (receipt : Posting) : State :=
  State.turn
    { market with
      books := books
      orders := market.orders.modify order.id (paid world request receipt)
      deadlines := market.deadlines.modify order.id fun row =>
        { row with expiresAt := world.now + locked.policy.deliveryTimeout } }
    (paid world request receipt order) .funded (origin world request order.buyer)
    .signedPaymentIntent

/-- A change of state in which no money moves. -/
inductive Turning : OrderState → OrderState → Prop
  | cancelled : Turning .created .cancelled
  | accepted : Turning .delivered .accepted

structure Turned (market : State) (order : Order) (state : OrderState) : Prop where
  current : Current market order
  turning : Turning order.state state
  writable : writable market order.id = .ok ()

structure Disputed (market : State) (order : Order) (row : Case) (cases : Table Case.id) :
    Prop where
  current : Current market order
  disputable : order.state = .funded ∨ order.state = .delivered
  named : row.orderId = order.id
  single : ∀ other ∈ market.cases.rows, other.orderId ≠ row.orderId
  inserted : market.cases.insert row = some cases
  writable : writable market order.id = .ok ()

structure Dispatched (market : State) (order : Order) (delivery : Delivery)
    (deliveries : Table Delivery.orderId) : Prop where
  current : Current market order
  deliverable : order.state = .funded ∧ order.deliveredAt = none
  named : delivery.orderId = order.id
  inserted : market.deliveries.insert delivery = some deliveries
  writable : writable market order.id = .ok ()

def setDelivered (now : Nat) (row : Order) : Order := { row with deliveredAt := some now }

def State.dispatched (market : State) (order : Order) (origin : Origin)
    (deliveries : Table Delivery.orderId) (envelopes : Table Envelope.orderId) : State :=
  let turned := State.turn { market with deliveries := deliveries, envelopes := envelopes } order
    .delivered origin .verifiedDelivery
  { turned with orders := turned.orders.modify order.id (setDelivered origin.now) }

/-- What a settlement pays and grants, and where it is recorded. -/
structure Payout where
  books : Books
  refund : List Posting
  release : List Posting
  entitlements : Table Entitlement.id
  entitlementId : Option String
  settlements : Table Settlement.orderId

def Payout.receipts (payout : Payout) : List Posting := payout.refund ++ payout.release

/-- The grant of a version 5 settlement, made for the first receipt. -/
inductive Granted (market : State) (locked : Contract) (request : SettleRequest)
    (payout : Payout) : Prop
  | none (version : locked.version ≠ 5) (same : payout.entitlements = market.entitlements)
      (unnamed : payout.entitlementId = none)
  | granted (purchase : PurchaseInput) (receipt : Posting) (version : locked.version = 5)
      (asked : request.fulfill = some purchase) (first : payout.receipts.head? = some receipt)
      (capacity : extraCapacity market purchase.subjectId request.origin.now + purchase.quantity +
        terms.baseCapacity ≤ maxCapacityBytes)
      (inserted : market.entitlements.insert
        (granted terms purchase request.origin.now receipt.transactionId) = some payout.entitlements)
      (named : payout.entitlementId =
        some (terms.entitlementId purchase.subjectId purchase.requestId))

structure Settled (world : World) (market : State) (order : Order) (locked : Contract)
    (request : SettleRequest) (payout : Payout) : Prop where
  current : Current market order
  agreed : contract terms market order.id = .ok locked
  explicit : ¬ (locked.version = 4 ∧ request.reason = .managedInstantVerified)
  undecided : market.escrowDecisions.find? order.id = none
  bounds : 0 ≤ request.refundMinor ∧ request.refundMinor ≤ order.totalPriceMinor
  unsettled : market.settlements.find? order.id = none
  authority : settleAuthority terms world market locked order request = .ok ()
  balanced : balance market.books order.escrowSubject = order.totalPriceMinor
  paid : ∃ middle,
    Paid (identity market) order order.buyer (refundEntry order request.origin request.refundMinor)
      market.books middle payout.refund ∧
    Paid (identity market) order order.seller
      (releaseEntry order request.origin (order.totalPriceMinor - request.refundMinor))
      middle payout.books payout.release
  grant : Granted terms market locked request payout
  writable : writable market order.id = .ok ()
  legal : order.state = .funded ∧ settledState order request.refundMinor = .settled ∨
    settledState order request.refundMinor ∈ transitions order.state
  purchase : ∀ purchase, request.fulfill = some purchase → ∃ extra,
    locked.entitlement = some extra ∧ extra.offer.offerId = locked.listingId ∧
      purchase = ⟨locked.buyer, extra.requestId, locked.quantity, extra.offer⟩
  decision : request.decisionId ≠ none →
    ∀ other ∈ market.settlements.rows, other.decisionId ≠ request.decisionId
  recorded : market.settlements.insert (statement order request payout.receipts
    (deliverySnapshot market order.id) payout.entitlementId) = some payout.settlements

def executed (market : State) : Option Decision → Table Case.id
  | none => market.cases
  | some decision => market.cases.modify decision.caseId markExecuted

def State.settled (market : State) (order : Order) (request : SettleRequest) (payout : Payout) :
    State :=
  let turned := State.turn { market with books := payout.books, entitlements := payout.entitlements }
    order (settledState order request.refundMinor) request.origin request.reason
  { turned with
    orders := turned.orders.modify order.id (closeOrder order request.origin.now payout.receipts)
    settlements := payout.settlements
    cases := executed market request.decision }

/-! The published checkouts. -/

structure LegacyOpened (market : State) (world : World) (checkout : LegacyCheckout)
    (offer : LegacyOffer) (opened books : Books) (receipt : Posting) (orders : Table Order.id) :
    Prop where
  account : insertAccount market.books
    ⟨newEscrow world, .orderEscrow, none, some (newOrderId world)⟩ = .ok opened
  posted : Ordinary { market with books := opened } (legacyFunding world checkout offer) books
    receipt
  positive : 0 < offer.total
  parties : (identity market offer.buyer).isSome = true ∧
    (identity market offer.listing.owner).isSome = true
  inserted : market.orders.insert (legacyOrderRow terms world checkout offer receipt) = some orders

structure LegacyPrepared (market : State) (order : Order) (delivery : Delivery)
    (deliveries : Table Delivery.orderId) : Prop where
  current : Current market order
  deliverable : order.state = .funded ∧ order.deliveredAt = none
  target : legacyTarget order
  named : delivery.orderId = order.id
  inserted : market.deliveries.insert delivery = some deliveries

structure LegacySettled (market : State) (world : World) (order : Order) (legacy : LegacyRequest)
    (reason : LegacyReason) (buyer : String) (chosen : Branch) (books : Books) (receipt : Posting)
    (stamp : Delivery → Delivery) (decisions : Table EscrowDecision.orderId) : Prop where
  current : Current market order
  uncontracted : market.contracts.find? order.id = none
  unsettled : market.settlements.find? order.id = none
  owned : order.buyer = buyer
  branched : branch terms world market order legacy reason buyer = .ok chosen
  escrow : escrowCheck market order = .ok ()
  posted : Appended (identity market)
    (released order chosen.recipient (legacyEntry terms world order legacy reason buyer chosen.outcome))
    market.books books receipt
  stamped : ∀ row, (stamp row).committed = row.committed
  recorded : market.escrowDecisions.insert
    (escrowDecision terms world order legacy reason buyer chosen receipt.transactionId) =
      some decisions

def State.legacySettled (market : State) (world : World) (order : Order) (chosen : Branch)
    (books : Books) (receipt : Posting) (stamp : Delivery → Delivery)
    (decisions : Table EscrowDecision.orderId) : State :=
  { market with
    books := books
    deliveries := market.deliveries.modify order.id stamp
    orders := market.orders.modify order.id (resolved world order chosen receipt)
    escrowDecisions := decisions }

/-- The request ids that requests from outside carry, and the orders they open in a state. -/
structure Client where
  asks : String → Prop
  opens : State → Order → Prop

instance : CoeFun Client fun _ => String → Prop := ⟨Client.asks⟩

def Client.any : Client where
  asks := fun _ => True
  opens := fun _ _ => True

variable (client : Client)

inductive OrderMove : State → State → Prop
  | opened {market : State} {order : Order} {locked : Contract} {books : Books}
      {orders : Table Order.id} {contracts : Table Contract.orderId}
      (opens : client.opens market order)
      (made : Opened terms market order locked books orders contracts) :
      OrderMove market (market.opened books orders contracts)
  | scheduled (market : State) (deadlines : Table Deadline.orderId) :
      OrderMove market { market with deadlines := deadlines }
  | retargeted {market : State} {order : Order} (current : Current market order) (target : Target)
      (handle : target.handleSnapshot = order.deliveryTarget.handleSnapshot) :
      OrderMove market
        { market with
          orders := market.orders.modify order.id fun row => { row with deliveryTarget := target } }
  | funded {market : State} {world : World} {request : Request} {order : Order} {locked : Contract}
      {books : Books} {receipt : Posting} (asked : client request.requestId)
      (made : Funded terms market world request order locked books receipt) :
      OrderMove market (market.funded world request order locked books receipt)
  | turned {market : State} {order : Order} {state : OrderState}
      (made : Turned market order state) (origin : Origin) (reason : Reason) :
      OrderMove market (market.turn order state origin reason)
  | disputed {market : State} {order : Order} {row : Case} {cases : Table Case.id}
      (made : Disputed market order row cases) (origin : Origin) (reason : Reason)
      (locked : Contract) (world : World) (agreed : contract terms market order.id = .ok locked)
      (drawn : newCase terms world market locked order origin.actor reason = .ok row) :
      OrderMove market (State.turn { market with cases := cases } order .disputed origin reason)
  | dispatched {market : State} {order : Order} {delivery : Delivery}
      {deliveries : Table Delivery.orderId} (made : Dispatched market order delivery deliveries)
      (origin : Origin) (envelopes : Table Envelope.orderId) :
      OrderMove market (market.dispatched order origin deliveries envelopes)
  | acknowledged (market : State) (orderId : String) (stamp : Delivery → Delivery)
      (stamped : ∀ row, (stamp row).committed = row.committed) :
      OrderMove market { market with deliveries := market.deliveries.modify orderId stamp }
  | settled {market : State} {world : World} {order : Order} {locked : Contract}
      {request : SettleRequest} {payout : Payout}
      (made : Settled terms world market order locked request payout) :
      OrderMove market (market.settled order request payout)
  | legacyOpened {market : State} {world : World} {checkout : LegacyCheckout} {offer : LegacyOffer}
      {opened books : Books} {receipt : Posting} {orders : Table Order.id}
      (asked : client checkout.request.requestId)
      (opens : client.opens market (legacyOrderRow terms world checkout offer receipt))
      (made : LegacyOpened terms market world checkout offer opened books receipt orders) :
      OrderMove market { market with books := books, orders := orders }
  | legacyPrepared {market : State} {order : Order} {delivery : Delivery}
      {deliveries : Table Delivery.orderId}
      (made : LegacyPrepared market order delivery deliveries) (now : Nat) :
      OrderMove market
        { market with
          deliveries := deliveries
          orders := market.orders.modify order.id (markDelivered now) }
  | legacySettled {market : State} {world : World} {order : Order} {legacy : LegacyRequest}
      {reason : LegacyReason} {buyer : String} {chosen : Branch} {books : Books} {receipt : Posting}
      {stamp : Delivery → Delivery} {decisions : Table EscrowDecision.orderId}
      (asked : client legacy.request.requestId)
      (made : LegacySettled terms market world order legacy reason buyer chosen books receipt stamp
        decisions) :
      OrderMove market (market.legacySettled world order chosen books receipt stamp decisions)

/-! Cases. -/

/-- The case a program works on is the stored one. -/
def CurrentCase (market : State) (row : Case) : Prop := market.cases.find? row.id = some row

structure Decided (world : World) (market : State) (row : Case) (proposal : Proposal)
    (matching : List Vote) (decisions : Table DecisionRow.key) : Prop where
  current : CurrentCase market row
  isOpen : row.state = .open
  valid : ∃ order, market.orders.find? row.orderId = some order ∧
    proposalValid row proposal order.totalPriceMinor = .ok ()
  counted : matchingVotes terms world market row proposal = .ok matching
  quorum : row.policy.quorum ≤ matching.length
  unnamed : decisionById market (terms.decisionId proposal) = none
  inserted : market.decisions.insert ⟨newDecision terms row proposal matching, false⟩ =
    some decisions

def setDecided (notBefore : Nat) (row : Case) : Case :=
  { row with state := .decided, deadline := notBefore }

def setHeld (row : Case) : Case := { row with state := .held }

def setRevoked (row : DecisionRow) : DecisionRow := { row with revoked := true }

inductive CaseMove : State → State → Prop
  | voted {market : State} {world : World} {ballot : Ballot} {row : Case} {cast : Vote}
      {votes : Table Vote.key} (read : readBallot terms world market ballot = .ok (row, cast))
      (inserted : market.votes.insert cast = some votes) :
      CaseMove market { market with votes := votes }
  | decided {market : State} {world : World} {row : Case} {proposal : Proposal}
      {matching : List Vote} {decisions : Table DecisionRow.key}
      (made : Decided terms world market row proposal matching decisions) :
      CaseMove market
        { market with
          decisions := decisions
          cases := market.cases.modify row.id
            (setDecided (newDecision terms row proposal matching).notBefore) }
  | appealed {market : State} {world : World} {request : Request} {caseId : String} {row : Case}
      (read : readAppeal terms world market request caseId = .ok row) :
      CaseMove market { market with cases := market.cases.modify row.id fun _ => row }
  | revoked {market : State} {request : Request} {caseId decisionId : String} {row : Case}
      (read : readRevocation terms market request caseId decisionId = .ok row) :
      CaseMove market
        { market with
          decisions := market.decisions.modify (row.id, row.round) setRevoked
          cases := market.cases.modify row.id setHeld }
  | held {market : State} {row : Case} (current : CurrentCase market row)
      (pending : row.state = .open ∨ row.state = .decided) (holds : List Hold) :
      CaseMove market
        { market with cases := market.cases.modify row.id setHeld, holds := holds }
  | deposited (market : State) (evidence : Table Evidence.id) :
      CaseMove market { market with evidence := evidence }
  | conflicted (market : State) (conflicts : List (String × String)) :
      CaseMove market { market with conflicts := conflicts }
  | enacted (market : State) (policies : Table DisputePolicy.id) :
      CaseMove market { market with policies := policies }
  | appointed (market : State) (roles : Table Role.subject) :
      CaseMove market { market with roles := roles }

/-! Bounties and ordinary money. -/

structure BountyOpened (world : World) (market : State) (offer : BountyOffer) (publisher : String)
    (opened books : Books) (receipt : Posting) (bounties : Table Bounty.listingId) : Prop where
  read : readBountyOffer terms world market offer = .ok publisher
  account : insertAccount market.books (bountyAccount world) = .ok opened
  positive : 0 < offer.rewardMinor ∧ 0 < offer.budgetMinor ∧ 0 < offer.maxClaims ∧
    0 < offer.claimLimitPerSubject
  known : (identity market publisher).isSome = true
  inserted : market.bounties.insert (newBounty world offer publisher) = some bounties
  posted : Ordinary { market with books := opened, bounties := bounties }
    (entry offer.request world publisher (newBountyEscrow world) offer.budgetMinor publisher
      ("bounty_fund:" ++ newListingId world)) books receipt

def topUpEntry (world : World) (request : Request) (row : Bounty) (amount : Int) : EntryRequest :=
  entry request world row.publisher row.escrowSubject amount row.publisher
    ("bounty_top_up:" ++ row.listingId)

def closeEntry (world : World) (request : Request) (row : Bounty) (remaining : Int) :
    EntryRequest :=
  { entry request world row.escrowSubject row.publisher remaining row.publisher
      ("bounty_close_return:" ++ row.listingId) with kind := .refund }

/-- The rest of the escrow goes back, unless there is none. -/
inductive Returned (market : State) (request : EntryRequest) : Books → Prop
  | empty (zero : request.amount = 0) : Returned market request market.books
  | posted {books : Books} {receipt : Posting} (done : Ordinary market request books receipt) :
      Returned market request books

def setBounty (state : BountyState) (reason : Option PauseReason) (row : Bounty) : Bounty :=
  { row with state := state, pauseReason := reason }

def claimEntry (world : World) (request : Request) (listing : Bounty) (claimant : String) :
    EntryRequest :=
  entry request world listing.escrowSubject claimant listing.rewardMinor claimant
    ("bounty_claim:" ++ listing.listingId)

structure Claimed (world : World) (market : State) (request : ClaimRequest) (row : Challenge)
    (listing : Bounty) (books : Books) (receipt : Posting) (claims : Table Claim.id) : Prop where
  read : readClaim terms world market request = .ok (row, listing)
  posted : Ordinary market (claimEntry world request.request listing row.claimant) books receipt
  claimant : (identity market row.claimant).isSome = true
  once : ∀ other ∈ market.claims.rows,
    other.challengeId ≠ row.id ∧ other.transactionId ≠ receipt.transactionId
  inserted : market.claims.insert (claimRow world listing request row receipt) = some claims

def setConsumed (now : Nat) (row : Challenge) : Challenge := { row with consumedAt := some now }

/-- The bounties after a claim. -/
def pausedBy (bounties : Table Bounty.listingId) (listing : Bounty) :
    Option PauseReason → Table Bounty.listingId
  | none => bounties
  | some reason => bounties.modify listing.listingId (setBounty .paused (some reason))

def State.claimed (market : State) (world : World) (row : Challenge) (listing : Bounty)
    (books : Books) (claims : Table Claim.id) : State :=
  let paid :=
    { market with
      books := books
      claims := claims
      challenges := market.challenges.modify row.id (setConsumed world.now) }
  { paid with bounties := pausedBy market.bounties listing (exhausted paid listing) }

inductive MoneyMove : State → State → Prop
  | opened {market : State} {world : World} {offer : BountyOffer} {publisher : String}
      {opened books : Books} {receipt : Posting} {bounties : Table Bounty.listingId}
      (asked : client offer.request.requestId)
      (made : BountyOpened terms world market offer publisher opened books receipt bounties) :
      MoneyMove market { market with books := books, bounties := bounties }
  | toppedUp {market : State} {world : World} {request : BountyRequest} {amount : Int}
      {row : Bounty} {books : Books} {receipt : Posting} (asked : client request.request.requestId)
      (read : publisherRow market request = .ok row)
      (posted : Ordinary market (topUpEntry world request.request row amount) books receipt) :
      MoneyMove market
        { market with
          books := books
          bounties := market.bounties.modify row.listingId
            (topped row amount (toppedState { market with books := books } row)) }
  | changed {market : State} {request : BountyRequest} {row : Bounty}
      (read : publisherRow market request = .ok row) (state : BountyState)
      (isOpen : state ≠ .closed) (reason : Option PauseReason) :
      MoneyMove market
        { market with bounties := market.bounties.modify row.listingId (setBounty state reason) }
  | closed {market : State} {world : World} {request : BountyRequest} {row : Bounty}
      {books : Books} (asked : client request.request.requestId)
      (read : publisherRow market request = .ok row)
      (returned : Returned market
        (closeEntry world request.request row (balance market.books row.escrowSubject)) books) :
      MoneyMove market
        { market with
          books := books
          bounties := market.bounties.modify row.listingId (setBounty .closed none) }
  | challenged {market : State} {row : Challenge} {challenges : Table Challenge.id}
      (claimant : (identity market row.claimant).isSome = true) (unspent : row.consumedAt = none)
      (inserted : market.challenges.insert row = some challenges) :
      MoneyMove market { market with challenges := challenges }
  | claimed {market : State} {world : World} {request : ClaimRequest} {row : Challenge}
      {listing : Bounty} {books : Books} {receipt : Posting} {claims : Table Claim.id}
      (asked : client request.request.requestId)
      (made : Claimed terms world market request row listing books receipt claims) :
      MoneyMove market (market.claimed world row listing books claims)
  | transferred {market : State} {request : EntryRequest} {sender recipient : String}
      {books : Books} {receipt : Posting} (asked : client request.requestId)
      (isSender : request.sender = some sender) (isRecipient : request.recipient = some recipient)
      (known : (identity market sender).isSome = true ∧ (identity market recipient).isSome = true)
      (posted : Ordinary market request books receipt) :
      MoneyMove market { market with books := books }
  | issued {market : State} {world : World} {action : IssueAction} {amount : Int} {books : Books}
      {receipt : Posting} (read : issueRecipient market action = .ok ())
      (appended : Appended (identity market) (issueEntry world action amount) market.books books
        receipt) :
      MoneyMove market { market with books := books }

inductive Move : State → State → Prop
  | order {market next : State} (move : OrderMove terms client market next) : Move market next
  | dispute {market next : State} (move : CaseMove terms market next) : Move market next
  | money {market next : State} (move : MoneyMove terms client market next) : Move market next
  | authority {market : State} {authority : Session.Store}
      (extended : authorityExtends market.authority authority) :
      Move market { market with authority := authority }
  | activated {market : State} {ids : List String} (grown : ∀ id ∈ market.active, id ∈ ids) :
      Move market { market with active := ids }
  | restored {market : State} {ids : List String}
      (published : ∀ id ∈ market.active, id ∉ ids → modelled market id = true → UpToDate market id) :
      Move market { market with active := ids }
  | revised {market : State} {orderId : String} {locked : Contract} {source : Source}
      {sources : Table Source.orderId} (agreed : market.contracts.find? orderId = some locked)
      (resource : locked.resourceModel = true)
      (content : snapshot market orderId = .ok source.snapshot)
      (owner : source.owner = locked.buyer ∨
        ∃ old, market.sources.find? orderId = some old ∧ old.owner = source.owner)
      (stored : sources.find? orderId = some source)
      (others : ∀ id, id ≠ orderId → sources.find? id = market.sources.find? id) :
      Move market { market with sources := sources }

/-- A run of moves. -/
def Moves : State → State → Prop := Relation.ReflTransGen (Move terms client)

end MsgServer.Market
