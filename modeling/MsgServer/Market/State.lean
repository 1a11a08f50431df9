import MsgServer.Market.Records
import MsgServer.Library.Program

/-!
The state of the market: the ledger, the market tables and the authority tables
they are read with. `active` is the set of orders the running operation may write,
`_active` of market/order_resources.py; it is empty between operations. `sources`
holds what the published revision of each Order Resource contains. `Terms` adds
the digests of market records to the installation and `World` is what one step
meets outside these tables: the clocks, entropy, stored blobs and packages, mail.
-/

namespace MsgServer.Market

open Library Ledger

structure State where
  books : Books
  authority : Session.Store
  orders : Table Order.id
  contracts : Table Contract.orderId
  deadlines : Table Deadline.orderId
  transitions : List Transition
  settlements : Table Settlement.orderId
  escrowDecisions : Table EscrowDecision.orderId
  deliveries : Table Delivery.orderId
  envelopes : Table Envelope.orderId
  policies : Table DisputePolicy.id
  roles : Table Role.subject
  conflicts : List (String × String)
  cases : Table Case.id
  votes : Table Vote.key
  decisions : Table DecisionRow.key
  evidence : Table Evidence.id
  holds : List Hold
  entitlements : Table Entitlement.id
  bounties : Table Bounty.listingId
  challenges : Table Challenge.id
  claims : Table Claim.id
  sources : Table Source.orderId
  active : List String

def State.empty : State where
  books := Books.empty
  authority := Session.Store.empty
  orders := Table.empty
  contracts := Table.empty
  deadlines := Table.empty
  transitions := []
  settlements := Table.empty
  escrowDecisions := Table.empty
  deliveries := Table.empty
  envelopes := Table.empty
  policies := Table.empty
  roles := Table.empty
  conflicts := []
  cases := Table.empty
  votes := Table.empty
  decisions := Table.empty
  evidence := Table.empty
  holds := []
  entitlements := Table.empty
  bounties := Table.empty
  challenges := Table.empty
  claims := Table.empty
  sources := Table.empty
  active := []

structure Terms extends App where
  contractDigest : Contract → String
  policyDigest : DisputePolicy → String
  offerDigest : Offer → String
  deliveryDigest : DeliveryBody → String
  packageDigest : Package → String
  termsDigest : String → String
  /-- `contract_digest` of market/delivery.py. -/
  termsCommitment : String → String → String
  requestText : RedeemRequest → String
  requestDigest : RedeemRequest → String
  proposalText : Proposal → String
  challengeText : ChallengePayload → String
  decisionId : Proposal → String
  escrowDecisionId : String → String → LegacyReason → String
  /-- The hexadecimal part of the digest that names the release leg of a checkout. -/
  checkoutDigest : String → String → String → String
  panelScore : String → String → Nat → String → String
  rationaleId : String → Nat → String × String → String
  entitlementId : String → String → String
  deliveryEnabled : Bool
  baseCapacity : Nat

structure Listing where
  id : String
  owner : String
  revision : String
  body : ListingBody
  deriving DecidableEq

structure Subkey where
  subject : String
  recipient : String
  retired : Bool
  deriving DecidableEq

/-- What the content store answers for one blob. -/
inductive Stored where
  | intact | missing | truncated | sizeMismatch | altered | unavailable
  deriving DecidableEq

/-- How storing a new revision can fail. -/
inductive StoreFault where
  | truncated | sizeMismatch | conflict | unavailable
  deriving DecidableEq

def StoreFault.failure : StoreFault → Failure
  | .truncated => { code := "content_truncated" }
  | .sizeMismatch => { code := "content_size_mismatch" }
  | .conflict => { code := "constraint_conflict" }
  | .unavailable => { code := "internal_error" }

/-- A request past the executor's authentication. -/
structure Request where
  principal : Principal
  operation : String
  contractVersion : Nat
  requestId : String
  payloadDigest : String
  expiresAt : Nat
  deriving DecidableEq

/-- `listing`, `target` and the other outcomes are what reading the tables and the
content store outside the model answers in this step; `identityKey` is the id and
the public key of a subject's primary identity key. -/
structure World where
  now : Nat
  clock : Nat
  uuid : Nat → String
  entropy : String
  listing : Except Failure Listing
  target : String → Option String → Except Failure (String × EmailTarget)
  primaryKey : String → Option RecipientKey
  subkey : String → Option Subkey
  identityKey : String → Option (String × String)
  package : String → Option Package
  blob : Blob → Stored
  mail : Order → Except Failure (Option EmailTarget)
  stored : String → Except Failure Unit
  published : String → Option StoreFault

abbrev Tx := EStateM Failure State

def read {α : Type} (body : State → Except Failure α) : Tx α := Program.query body

/-- `finally`: the set of active orders is put back whatever happened. -/
def restoring {α : Type} (body : Tx α) : Tx α := fun market =>
  match body market with
  | .ok value next => .ok value { next with active := market.active }
  | .error failure next => .error failure { next with active := market.active }

@[simp] theorem restoring_ok {α : Type} (body : Tx α) (value : α) (market final : State) :
    restoring body market = .ok value final ↔
      ∃ next, body market = .ok value next ∧ final = { next with active := market.active } := by
  unfold restoring
  cases body market <;> simp [eq_comm]

@[simp] theorem restoring_error {α : Type} (body : Tx α) (failure : Failure)
    (market final : State) :
    restoring body market = .error failure final ↔
      ∃ next, body market = .error failure next ∧ final = { next with active := market.active } := by
  unfold restoring
  cases body market <;> simp [eq_comm]

@[simp] theorem read_ok {α : Type} (body : State → Except Failure α) (value : α)
    (market final : State) :
    read body market = .ok value final ↔ body market = .ok value ∧ final = market :=
  Program.query_ok body value market final

@[simp] theorem read_error {α : Type} (body : State → Except Failure α) (failure : Failure)
    (market final : State) :
    read body market = .error failure final ↔ body market = .error failure ∧ final = market :=
  Program.query_error body failure market final

/-- `verify_blob` of market/delivery.py. -/
def verifyBlob (world : World) (blob : Blob) : Except Failure Unit :=
  match world.blob blob with
  | .intact => .ok ()
  | .missing => .error { code := "package_missing" }
  | .truncated => .error { code := "package_digest_mismatch" }
  | .sizeMismatch => .error { code := "package_digest_mismatch" }
  | .altered => .error { code := "package_digest_mismatch" }
  | .unavailable => .error { code := "internal_error" }

def published (world : World) (orderId : String) : Except Failure Unit :=
  match world.published orderId with
  | none => .ok ()
  | some fault => .error fault.failure

/-- `_subject`: the subject signs for itself. -/
def signedSubject (request : Request) : Except Failure String := do
  let subject ← requireRow request.principal.subject "signature_required"
  require (request.principal.actor = some subject ∧ request.principal.method = .signature)
    "signature_required"
  return subject

/-- Who may hold an account, as the ledger trigger reads the identities table. -/
def identity (market : State) (id : String) : Option Subject :=
  market.authority.subjects.find? id

def post (world : World) (escrowAuthority : Bool) (request : EntryRequest) : Tx Posting :=
  Program.update fun market => do
    let (books, posting) ←
      postTransfer (identity market) world.uuid escrowAuthority request market.books
    return ({ market with books := books }, posting)

def postRelease (world : World) (release : Release) (request : EntryRequest) : Tx Posting :=
  Program.update fun market => do
    let (books, posting) ←
      postEscrowRelease (identity market) world.uuid release request market.books
    return ({ market with books := books }, posting)

def openAccount (account : LedgerAccount) : Tx Unit :=
  Program.write fun market => do
    let books ← insertAccount market.books account
    return { market with books := books }

/-- INSERT INTO store_orders with its CHECK, UNIQUE and REFERENCES constraints. -/
def insertOrder (order : Order) : Tx Unit :=
  Program.write fun market => do
    require (0 < order.quantity ∧ 0 < order.unitPriceMinor ∧ 0 < order.totalPriceMinor ∧
      order.currencyId = currencyId) "constraint_conflict"
    require ((identity market order.buyer).isSome ∧ (identity market order.seller).isSome ∧
      market.books.accounts.contains order.escrowSubject = true) "constraint_conflict"
    require (∀ other ∈ market.orders.rows, other.escrowSubject ≠ order.escrowSubject ∧
      (order.paymentTransactionId ≠ none →
        other.paymentTransactionId ≠ order.paymentTransactionId)) "constraint_conflict"
    let orders ← insertRow market.orders order
    return { market with orders := orders }

def updateOrder (id : String) (change : Order → Order) : Tx Unit :=
  Program.write fun market => .ok { market with orders := market.orders.modify id change }

/-- `UPDATE store_orders ... WHERE` with the check that it met the one row. -/
def updateOrderWhere (id : String) (meets : Order → Bool) (code : String)
    (change : Order → Order) : Tx Unit :=
  Program.write fun market => do
    let _ ← requireRow ((market.orders.find? id).filter meets) code
    return { market with orders := market.orders.modify id change }

def referenced (market : State) (orderId : String) : Except Failure Unit :=
  require (market.orders.contains orderId = true) "constraint_conflict"

def insertContract (contract : Contract) : Tx Unit :=
  Program.write fun market => do
    referenced market contract.orderId
    let contracts ← insertRow market.contracts contract
    return { market with contracts := contracts }

def insertDeadline (deadline : Deadline) : Tx Unit :=
  Program.write fun market => do
    referenced market deadline.orderId
    let deadlines ← insertRow market.deadlines deadline
    return { market with deadlines := deadlines }

def updateDeadline (orderId : String) (expiresAt : Nat) : Tx Unit :=
  Program.write fun market => .ok
    { market with
      deadlines := market.deadlines.modify orderId fun row => { row with expiresAt := expiresAt } }

def insertTransition (fact : Transition) : Tx Unit :=
  Program.write fun market => .ok { market with transitions := market.transitions ++ [fact] }

/-- `decision_id TEXT UNIQUE` on top of the primary key. -/
def insertSettlement (fact : Settlement) : Tx Unit :=
  Program.write fun market => do
    referenced market fact.orderId
    require (fact.decisionId ≠ none →
      ∀ other ∈ market.settlements.rows, other.decisionId ≠ fact.decisionId) "constraint_conflict"
    let settlements ← insertRow market.settlements fact
    return { market with settlements := settlements }

def insertEscrowDecision (fact : EscrowDecision) : Tx Unit :=
  Program.write fun market => do
    referenced market fact.orderId
    require (∀ other ∈ market.escrowDecisions.rows,
      other.id ≠ fact.id ∧ other.transactionId ≠ fact.transactionId) "constraint_conflict"
    let escrowDecisions ← insertRow market.escrowDecisions fact
    return { market with escrowDecisions := escrowDecisions }

def insertDelivery (delivery : Delivery) : Tx Unit :=
  Program.write fun market => do
    referenced market delivery.orderId
    require (∀ other ∈ market.deliveries.rows, other.id ≠ delivery.id) "constraint_conflict"
    let deliveries ← insertRow market.deliveries delivery
    return { market with deliveries := deliveries }

def updateDelivery (orderId : String) (change : Delivery → Delivery) : Tx Unit :=
  Program.write fun market => .ok
    { market with deliveries := market.deliveries.modify orderId change }

def updateDeliveryWhere (orderId : String) (meets : Delivery → Bool) (code : String)
    (change : Delivery → Delivery) : Tx Unit :=
  Program.write fun market => do
    let _ ← requireRow ((market.deliveries.find? orderId).filter meets) code
    return { market with deliveries := market.deliveries.modify orderId change }

def insertEnvelope (envelope : Envelope) : Tx Unit :=
  Program.write fun market => do
    referenced market envelope.orderId
    let envelopes ← insertRow market.envelopes envelope
    return { market with envelopes := envelopes }

/-- The parts of one request that the operations share. -/
def entry (request : Request) (world : World) (sender recipient : String) (amount : Int)
    (actor : String) (reference : String) : EntryRequest where
  sender := some sender
  recipient := some recipient
  amount := amount
  actor := actor
  requestId := request.requestId
  now := world.now
  reference := some reference

end MsgServer.Market
