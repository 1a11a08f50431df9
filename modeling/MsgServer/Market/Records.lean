import MsgServer.Market.Ledger
import MsgServer.Storage.Session

/-!
The market tables of storage/postgres.py and the records their rows carry. A JSON
body is the record it decodes to; a digest that is only compared with the digest
of another record of the same kind is that record. Messages, events, effect jobs
and the text of an email binding are left out. Instants are seconds, so the text
order of stored times is their order.
-/

namespace MsgServer.Market

open Library Ledger

inductive OrderState where
  | created | funded | delivered | accepted | disputed | settled | cancelled | refunded
  deriving DecidableEq

inductive ItemKind where
  | file | text | secret | bundle | entitlement | service
  deriving DecidableEq

inductive DeliveryMode where
  | managedInstant | sealedManual | service
  deriving DecidableEq

inductive ListingMode where
  | sale | bounty
  deriving DecidableEq

inductive ListingState where
  | draft | active | paused | closed
  deriving DecidableEq

/-- Why an order changed state or its escrow was released. -/
inductive Reason where
  | packageMissing | packageDigestMismatch | deliveryMissing | deliveryDigestMismatch
  | deliveryTimeout | buyerCancelled | buyerAcceptance | managedInstantVerified
  | deterministicEntitlement | arbitrationDecision | fundingTimeout | signedPaymentIntent
  | verifiedDelivery | quality | notAsDescribed | wrongCiphertext | other
  deriving DecidableEq

structure EmailTarget where
  state : String
  endpointId : Option String := none
  address : Option String := none
  disabled : Bool := false
  deriving DecidableEq

/-- The published checkouts store neither a handle nor an email. -/
structure Target where
  subjectId : String
  channel : String
  handleSnapshot : Option String := none
  email : Option EmailTarget := none
  deriving DecidableEq

structure Order where
  id : String
  buyer : String
  seller : String
  listingId : String
  listingRevision : String
  packageId : Option String
  packageRevision : Option String
  packageDigest : Option String
  quantity : Nat
  unitPriceMinor : Int
  totalPriceMinor : Int
  currencyId : String
  escrowSubject : String
  escrowPolicy : String
  disputePolicy : String
  termsDigest : String
  deliveryTarget : Target
  paymentIntentDigest : String
  paymentTransactionId : Option String
  state : OrderState
  createdAt : Nat
  fundedAt : Option Nat
  deliveredAt : Option Nat
  settledAt : Option Nat
  receiptRefs : List String
  deriving DecidableEq

structure ListingBody where
  mode : ListingMode
  state : ListingState
  itemKind : ItemKind
  deliveryMode : DeliveryMode
  escrowPolicy : String
  disputePolicy : String
  currencyId : String
  terms : String
  priceMinor : Int
  quantity : Nat
  packageRef : Option String
  expiresAt : Option Nat
  deriving DecidableEq

/-- An arbitration policy as `policy.validate` admits it. -/
structure DisputePolicy where
  id : String
  version : Nat
  fundingTimeoutSeconds : Nat
  deliveryTimeoutSeconds : Nat
  caseTimeoutSeconds : Nat
  decisionLifetimeSeconds : Nat
  panelSize : Nat
  quorum : Nat
  candidates : List String
  allowAppeal : Bool
  appealSeconds : Nat
  selection : String
  memberInvalidation : String
  rules : String
  deriving DecidableEq

/-- What a contract keeps of its policy: an arbitration policy with the grant epoch
of every active candidate, or the policy of an entitlement. -/
inductive OrderPolicy where
  | dispute (policy : DisputePolicy) (epochs : List (String × String))
  | entitlement (fundingTimeoutSeconds deliveryTimeoutSeconds : Nat)
  deriving DecidableEq

def OrderPolicy.fundingTimeout : OrderPolicy → Nat
  | .dispute policy _ => policy.fundingTimeoutSeconds
  | .entitlement funding _ => funding

def OrderPolicy.deliveryTimeout : OrderPolicy → Nat
  | .dispute policy _ => policy.deliveryTimeoutSeconds
  | .entitlement _ delivery => delivery

/-- ENTITLEMENT_POLICY. -/
def entitlementPolicy : OrderPolicy := .entitlement 900 900

structure Offer where
  offerId : String
  resourceKind : String
  unit : String
  priceMinor : Int
  minQuantity : Nat
  maxQuantity : Nat
  entitlementKind : String
  durationSeconds : Option Nat
  priceRevision : String
  deriving DecidableEq

structure RedeemArguments where
  offerId : String
  quantity : Nat
  currencyId : String
  priceRevision : String
  listingRevision : String
  offerSnapshotDigest : String
  totalPriceMinor : Int
  settlementPolicy : String
  deriving DecidableEq

/-- A signed money.redeem@3 request as its contract keeps it; without a signature
proof there is none. -/
structure RedeemRequest where
  operation : String
  contractVersion : Nat
  subject : Option String
  requestId : String
  payloadDigest : String
  arguments : RedeemArguments
  signature : Option Signature
  deriving DecidableEq

structure RecipientKey where
  keyId : String
  recipient : String
  fingerprint : String
  deriving DecidableEq

inductive SettlementPolicy where
  | explicitBuyerAcceptance | deterministicEntitlement
  deriving DecidableEq

/-- What a contract of version 5 keeps besides. -/
structure EntitlementTerms where
  offer : Offer
  requestId : String
  request : RedeemRequest
  signer : String
  deriving DecidableEq

structure Contract where
  orderId : String
  version : Nat
  buyer : String
  seller : String
  listing : ListingBody
  listingId : String
  escrowSubject : String
  listingRevision : String
  packageId : Option String
  packageRevision : Option String
  packageDigest : Option String
  quantity : Nat
  totalPriceMinor : Int
  termsDigest : String
  policy : OrderPolicy
  recipientKey : Option RecipientKey
  handleSnapshot : Option String
  buyerPrincipal : Option Principal
  createdAt : Nat
  resourceModel : Bool
  settlementPolicy : Option SettlementPolicy
  entitlement : Option EntitlementTerms
  deriving DecidableEq

structure Deadline where
  orderId : String
  expiresAt : Nat
  deriving DecidableEq

structure Transition where
  orderId : String
  fromState : OrderState
  toState : OrderState
  recordedAt : Nat
  reason : Reason
  policy : String
  actor : String
  requestId : String
  deriving DecidableEq

structure Blob where
  digest : String
  size : Nat
  mediaType : String
  deriving DecidableEq

structure PayloadRef where
  id : String
  revision : String
  blob : Blob
  deriving DecidableEq

structure Package where
  id : String
  listingId : String
  listingRevision : String
  seller : String
  revision : String
  kind : ItemKind
  manifest : String
  payloadRefs : List PayloadRef
  digest : String
  totalSize : Nat
  deliveryMode : DeliveryMode
  deriving DecidableEq

/-- The signed body of a delivery, whose digest is `delivery_digest`. -/
structure DeliveryBody where
  deliveryId : String
  orderId : String
  recipientSubject : String
  kind : ItemKind
  manifest : String
  payloadRefs : List PayloadRef
  packageDigest : String
  channel : String
  deriving DecidableEq

structure Acknowledgement where
  orderId : String
  deliveryId : String
  subject : String
  deliveryDigest : String
  requestDigest : String
  claimedAt : Nat
  deriving DecidableEq

inductive DeliveryReceipt where
  | payment (receipt : Posting)
  | acknowledged (receipt : Acknowledgement)
  deriving DecidableEq

inductive DeliveryState where
  | prepared | claimed
  deriving DecidableEq

structure Delivery where
  id : String
  orderId : String
  recipientSubject : String
  kind : ItemKind
  payloadRefs : List PayloadRef
  manifest : String
  packageDigest : String
  deliveryDigest : String
  channel : String
  state : DeliveryState
  preparedAt : Nat
  claimedAt : Option Nat
  receipt : Option DeliveryReceipt
  deriving DecidableEq

structure Envelope where
  orderId : String
  recipientSubject : String
  recipientKey : Option RecipientKey
  ciphertextRef : PayloadRef
  sellerRequestDigest : String
  deriving DecidableEq

/-- The four order columns a settlement commits to. -/
structure OrderFacts where
  paymentTransactionId : Option String
  paymentIntentDigest : String
  fundedAt : Option Nat
  deliveredAt : Option Nat
  deriving DecidableEq

def Order.facts (order : Order) : OrderFacts :=
  ⟨order.paymentTransactionId, order.paymentIntentDigest, order.fundedAt, order.deliveredAt⟩

/-- `delivery_snapshot`: the prepared delivery without what an acknowledgement changes. -/
def Delivery.committed (delivery : Delivery) : Delivery :=
  { delivery with state := .prepared, claimedAt := none, receipt := none }

structure Settlement where
  orderId : String
  refundMinor : Int
  releaseMinor : Int
  reason : Reason
  decisionId : Option String
  policy : String
  receipts : List Posting
  recordedAt : Nat
  orderFacts : OrderFacts
  deliverySnapshot : Option Delivery
  entitlementId : Option String
  deriving DecidableEq

inductive LegacyReason where
  | buyerCancel | buyerAccept | checkoutAccept
  deriving DecidableEq

inductive LegacyOutcome where
  | refund | release
  deriving DecidableEq

/-- The signed body of an escrow-v1 decision; its order and evidence digests are the
records themselves. -/
structure EscrowDecision where
  orderId : String
  id : String
  outcome : LegacyOutcome
  reason : LegacyReason
  recipient : String
  currencyId : String
  amountMinor : Int
  escrowPolicy : String
  order : Order
  evidence : Option Delivery
  requestId : String
  requestDigest : String
  actor : String
  issuedAt : Nat
  expiresAt : Nat
  ledgerRequestId : Option String
  transactionId : String
  deriving DecidableEq

structure Role where
  subject : String
  epoch : String
  active : Bool
  deriving DecidableEq

inductive CaseState where
  | «open» | held | decided | executed
  deriving DecidableEq

/-- `panels` and `round_deadlines` are keyed by round; the second round has neither
before an appeal. -/
structure Case where
  id : String
  orderId : String
  round : Nat
  state : CaseState
  deadline : Nat
  buyer : String
  seller : String
  openedBy : String
  openedAt : Nat
  reason : Reason
  policy : DisputePolicy
  policyDigest : String
  epochs : List (String × String)
  panels : List (Nat × List String)
  roundDeadlines : List (Nat × Nat)
  deriving DecidableEq

inductive Outcome where
  | release | refund | split
  deriving DecidableEq

structure Proposal where
  caseId : String
  orderId : String
  round : Nat
  policyDigest : String
  outcome : Outcome
  refundMinor : Int
  expiresAt : Nat
  rationaleRef : String × String
  rationaleDigest : String
  deriving DecidableEq

structure Vote where
  caseId : String
  round : Nat
  arbitrator : String
  proposal : Proposal
  signature : Signature
  principal : Principal
  castAt : Nat
  deriving DecidableEq

def Vote.key (vote : Vote) : String × Nat × String := (vote.caseId, vote.round, vote.arbitrator)

structure Decision where
  id : String
  caseId : String
  orderId : String
  round : Nat
  proposal : Proposal
  refundMinor : Int
  policyDigest : String
  rationaleRef : String × String
  rationaleDigest : String
  voters : List String
  expiresAt : Nat
  notBefore : Nat
  deriving DecidableEq

structure DecisionRow where
  body : Decision
  revoked : Bool
  deriving DecidableEq

/-- UNIQUE(case_id,round). -/
def DecisionRow.key (row : DecisionRow) : String × Nat := (row.body.caseId, row.body.round)

inductive EvidenceKind where
  | statement | resource | rationale
  deriving DecidableEq

structure Evidence where
  id : String
  caseId : String
  author : String
  parties : Bool
  kind : EvidenceKind
  blob : Blob
  source : Option (String × String)
  round : Nat
  recordedAt : Nat
  deriving DecidableEq

structure Hold where
  caseId : String
  reason : String
  recordedAt : Nat
  deriving DecidableEq

structure Entitlement where
  id : String
  subjectId : String
  offerId : String
  purchaseRequestId : String
  quantity : Nat
  entitlementKind : String
  grantedAt : Nat
  expiresAt : Option Nat
  redeemTransactionId : String
  deriving DecidableEq

inductive Eligibility where
  | any
  | allowlist (subjects : List String)
  deriving DecidableEq

inductive BountyState where
  | active | paused | closed
  deriving DecidableEq

inductive PauseReason where
  | outOfBudget | claimsExhausted | publisherPaused
  deriving DecidableEq

structure Bounty where
  listingId : String
  publisher : String
  escrowSubject : String
  rewardMinor : Int
  budgetMinor : Int
  maxClaims : Nat
  claimLimitPerSubject : Nat
  verifierId : String
  verifierVersion : Nat
  eligibility : Eligibility
  state : BountyState
  pauseReason : Option PauseReason
  expiresAt : Option Nat
  createdAt : Nat
  deriving DecidableEq

structure ChallengePayload where
  challengeId : String
  listingId : String
  claimantSubjectId : String
  nonce : String
  issuedAt : Nat
  expiresAt : Nat
  verifierVersion : Nat
  deriving DecidableEq

structure Challenge where
  id : String
  listingId : String
  claimant : String
  keyId : String
  nonce : String
  issuedAt : Nat
  expiresAt : Nat
  verifierVersion : Nat
  payload : ChallengePayload
  consumedAt : Option Nat
  deriving DecidableEq

structure Claim where
  id : String
  listingId : String
  claimant : String
  challengeId : String
  proof : ChallengePayload × Signature
  rewardMinor : Int
  transactionId : String
  claimedAt : Nat
  deriving DecidableEq

/-- What the published revision of an Order Resource contains. -/
structure OrderSnapshot where
  order : Order
  contract : Contract
  settlement : Option Settlement
  transitions : List Transition
  deriving DecidableEq

structure Source where
  orderId : String
  owner : String
  snapshot : OrderSnapshot
  deriving DecidableEq

end MsgServer.Market
