import MsgServer.Market.Policy
import MsgServer.Security.Authorization

/-!
plugins/bounty.py and the transfers of plugins/money.py, with the local issue of
admin/money.py that puts money into circulation. The listing resource behind a
bounty and the access checks on it are what the request carries; reads and notices
are left out.
-/

namespace MsgServer.Market

open Library Ledger

variable (terms : Terms) (world : World)

def verifierId : String := "signature_pop_v1"
def verifierVersion : Nat := 1
def challengeTtl : Nat := 300

/-- `access` is the check on the listing, `listing` what its revision says of the terms. -/
structure BountyRequest where
  request : Request
  listingId : String
  access : Except Failure Unit
  listing : Except Failure Unit

structure BountyOffer where
  request : Request
  rewardMinor : Int
  budgetMinor : Int
  maxClaims : Nat
  claimLimitPerSubject : Nat
  eligibility : Eligibility
  expiresAt : Option Nat
  /-- The right to add to the store, and making the listing there. -/
  access : Except Failure Unit
  created : Except Failure Unit

def eligibilityCheck : Eligibility → Except Failure Unit
  | .any => .ok ()
  | .allowlist subjects => require (subjects.length ≤ 1000) "invalid_bounty_eligibility"

def eligibleFor (subject : String) : Eligibility → Bool
  | .any => true
  | .allowlist subjects => decide (subject ∈ subjects)

def bountyRow (market : State) (listingId : String) : Except Failure Bounty :=
  requireRow (market.bounties.find? listingId) "bounty_not_found"

/-- Every row of bounty_claims is paid, by its CHECK constraint. -/
def claimCount (market : State) (listingId : String) : Nat :=
  (market.claims.rows.filter fun row => row.listingId == listingId).length

def claimantCount (market : State) (listingId claimant : String) : Nat :=
  (market.claims.rows.filter fun row =>
    row.listingId == listingId && row.claimant == claimant).length

/-- `validate_contract`. -/
def validateBounty (market : State) (row : Bounty) (listing : Except Failure Unit) :
    Except Failure Unit := do
  require (market.books.accounts.find? row.escrowSubject =
    some ⟨row.escrowSubject, .bountyEscrow, none, some row.listingId⟩) "bounty_escrow_mismatch"
  listing

def unexpiredAt (now : Nat) (expiresAt : Option Nat) : Prop := ∀ expiry ∈ expiresAt, now < expiry

instance (now : Nat) (expiresAt : Option Nat) : Decidable (unexpiredAt now expiresAt) :=
  inferInstanceAs (Decidable (∀ expiry ∈ expiresAt, now < expiry))

/-- `_ready`. -/
def ready (market : State) (row : Bounty) (claimant : String) : Except Failure Unit := do
  require (row.state = .active) "bounty_not_active"
  require (unexpiredAt world.now row.expiresAt) "bounty_expired"
  require (row.verifierId = verifierId ∧ row.verifierVersion = verifierVersion)
    "bounty_verifier_unsupported"
  eligibilityCheck row.eligibility
  require (eligibleFor claimant row.eligibility = true) "bounty_ineligible"
  require (claimCount market row.listingId < row.maxClaims) "bounty_claims_exhausted"
  require (claimantCount market row.listingId claimant < row.claimLimitPerSubject)
    "bounty_subject_limit"
  require (row.rewardMinor ≤ balance market.books row.escrowSubject) "bounty_out_of_budget"

/-- INSERT INTO bounty_listings with its constraints. -/
def insertBounty (row : Bounty) : Tx Unit :=
  Program.write fun market => do
    require (0 < row.rewardMinor ∧ 0 < row.budgetMinor ∧ 0 < row.maxClaims ∧
      0 < row.claimLimitPerSubject) "constraint_conflict"
    require ((identity market row.publisher).isSome ∧
      market.books.accounts.contains row.escrowSubject = true ∧
      ∀ other ∈ market.bounties.rows, other.escrowSubject ≠ row.escrowSubject)
      "constraint_conflict"
    let bounties ← insertRow market.bounties row
    return { market with bounties := bounties }

def updateBounty (listingId : String) (change : Bounty → Bounty) : Tx Unit :=
  Program.write fun market => .ok { market with bounties := market.bounties.modify listingId change }

def newListingId : String := "bty_" ++ world.entropy
def newBountyEscrow : String := "esc_" ++ world.entropy

def newBounty (offer : BountyOffer) (publisher : String) : Bounty where
  listingId := newListingId world
  publisher := publisher
  escrowSubject := newBountyEscrow world
  rewardMinor := offer.rewardMinor
  budgetMinor := offer.budgetMinor
  maxClaims := offer.maxClaims
  claimLimitPerSubject := offer.claimLimitPerSubject
  verifierId := verifierId
  verifierVersion := verifierVersion
  eligibility := offer.eligibility
  state := if offer.rewardMinor ≤ offer.budgetMinor then .active else .paused
  pauseReason := if offer.rewardMinor ≤ offer.budgetMinor then none else some .outOfBudget
  expiresAt := offer.expiresAt
  createdAt := world.now

def fundable (row : Subject) : Bool :=
  (row.kind == .registered || row.kind == .custodial) && !row.localOnly

def readBountyOffer (market : State) (offer : BountyOffer) : Except Failure String := do
  let publisher ← signedSubject offer.request
  Authorization.requireBase terms.toApp market.authority world.clock offer.request.principal
    (offer.request.operation ++ "@" ++ toString offer.request.contractVersion) publisher
  offer.access
  eligibilityCheck offer.eligibility
  require (unexpiredAt world.now offer.expiresAt) "bounty_expired"
  require (offer.budgetMinor ≤ maxMinor ∧ offer.rewardMinor ≤ maxMinor) "invalid_money_amount"
  require (offer.budgetMinor ≤ balance market.books publisher) "insufficient_funds"
  let owner ← Session.subject market.authority publisher
  require (fundable owner = true) "money_subject_required"
  return publisher

def bountyAccount : LedgerAccount :=
  ⟨newBountyEscrow world, .bountyEscrow, none, some (newListingId world)⟩

/-- bounty.create@1. -/
def createBounty (offer : BountyOffer) : Tx Unit := do
  let publisher ← read fun market => readBountyOffer terms world market offer
  openAccount (bountyAccount world)
  read fun _ => offer.created
  insertBounty (newBounty world offer publisher)
  let _ ← post world false (entry offer.request world publisher (newBountyEscrow world)
    offer.budgetMinor publisher ("bounty_fund:" ++ newListingId world))
  return ()

/-- What the publisher's operations on an open bounty check. -/
def publisherRow (market : State) (request : BountyRequest) : Except Failure Bounty := do
  let publisher ← signedSubject request.request
  let row ← bountyRow market request.listingId
  require (row.publisher = publisher) "bounty_not_found"
  request.access
  validateBounty market row request.listing
  require (row.state ≠ .closed) "bounty_closed"
  return row

/-- A top-up revives only a bounty that ran out of budget. -/
def toppedState (market : State) (row : Bounty) : BountyState :=
  if row.state = .paused ∧ row.pauseReason = some .outOfBudget ∧
      row.rewardMinor ≤ balance market.books row.escrowSubject ∧
      claimCount market row.listingId < row.maxClaims then .active
  else row.state

def topped (row : Bounty) (amount : Int) (state : BountyState) (stored : Bounty) : Bounty :=
  { stored with
    budgetMinor := row.budgetMinor + amount
    state := state
    pauseReason := if state = .active then none else row.pauseReason }

/-- bounty.top_up@1. -/
def topUp (request : BountyRequest) (amount : Int) : Tx Unit := do
  let row ← read fun market => publisherRow market request
  read fun _ => require (unexpiredAt world.now row.expiresAt) "bounty_expired"
  read fun _ => require (row.budgetMinor + amount ≤ maxMinor) "money_overflow"
  let _ ← post world false (entry request.request world row.publisher row.escrowSubject amount
    row.publisher ("bounty_top_up:" ++ row.listingId))
  let state ← read fun market => .ok (toppedState market row)
  updateBounty row.listingId (topped row amount state)

/-- bounty.pause@1. -/
def pauseBounty (request : BountyRequest) : Tx Unit := do
  let row ← read fun market => publisherRow market request
  updateBounty row.listingId fun stored =>
    { stored with state := .paused, pauseReason := some .publisherPaused }

/-- bounty.resume@1. -/
def resumeBounty (request : BountyRequest) : Tx Unit := do
  let row ← read fun market => publisherRow market request
  read fun _ => require (unexpiredAt world.now row.expiresAt) "bounty_expired"
  read fun market => require (claimCount market row.listingId < row.maxClaims)
    "bounty_claims_exhausted"
  read fun market => require (row.rewardMinor ≤ balance market.books row.escrowSubject)
    "bounty_out_of_budget"
  updateBounty row.listingId fun stored => { stored with state := .active, pauseReason := none }

/-- The whole rest of the escrow goes back, unless there is none. -/
def refundBounty (request : BountyRequest) (row : Bounty) (remaining : Int) : Tx Unit :=
  if remaining = 0 then pure ()
  else do
    let _ ← post world false
      { entry request.request world row.escrowSubject row.publisher remaining row.publisher
          ("bounty_close_return:" ++ row.listingId) with kind := .refund }
    return ()

/-- bounty.close@1. -/
def closeBounty (request : BountyRequest) : Tx Unit := do
  let row ← read fun market => publisherRow market request
  let remaining ← read fun market => .ok (balance market.books row.escrowSubject)
  refundBounty world request row remaining
  updateBounty row.listingId fun stored => { stored with state := .closed, pauseReason := none }

def insertChallenge (row : Challenge) : Tx Unit :=
  Program.write fun market => do
    require ((identity market row.claimant).isSome ∧
      market.bounties.contains row.listingId = true) "constraint_conflict"
    let challenges ← insertRow market.challenges row
    return { market with challenges := challenges }

def challengePayload (row : Bounty) (claimant nonce : String) : ChallengePayload where
  challengeId := "bc_" ++ world.entropy
  listingId := row.listingId
  claimantSubjectId := claimant
  nonce := nonce
  issuedAt := world.now
  expiresAt := world.now + challengeTtl
  verifierVersion := verifierVersion

def newChallenge (payload : ChallengePayload) (keyId : String) : Challenge where
  id := payload.challengeId
  listingId := payload.listingId
  claimant := payload.claimantSubjectId
  keyId := keyId
  nonce := payload.nonce
  issuedAt := payload.issuedAt
  expiresAt := payload.expiresAt
  verifierVersion := payload.verifierVersion
  payload := payload
  consumedAt := none

/-- bounty.challenge@1. -/
def challenge (request : BountyRequest) (nonce : String) : Tx Unit := do
  let claimant ← read fun _ => signedSubject request.request
  let row ← read fun market => bountyRow market request.listingId
  read fun _ => request.access
  read fun market => ready world market row claimant
  read fun market => validateBounty market row request.listing
  let key ← read fun _ => requireRow ((world.identityKey claimant).filter fun key =>
    decide (some key.1 = request.request.principal.credentialId)) "current_identity_key_required"
  insertChallenge (newChallenge (challengePayload world row claimant nonce) key.1)

structure ClaimRequest where
  request : Request
  challengeId : String
  proof : Signature
  access : Except Failure Unit
  listing : Except Failure Unit

def Challenge.expected (row : Challenge) : ChallengePayload :=
  ⟨row.id, row.listingId, row.claimant, row.nonce, row.issuedAt, row.expiresAt, row.verifierVersion⟩

/-- One-use proof of possession of the claimant's current identity key. -/
def proofCheck (row : Challenge) (request : ClaimRequest) (claimant : String) :
    Except Failure Unit := do
  require (row.consumedAt = none) "bounty_challenge_consumed"
  require (world.now < row.expiresAt) "bounty_challenge_expired"
  require (row.verifierVersion = verifierVersion) "bounty_verifier_unsupported"
  let current ← requireRow ((world.identityKey claimant).filter fun key =>
    decide (key.1 = row.keyId ∧ some key.1 = request.request.principal.credentialId))
    "current_identity_key_required"
  require (request.proof.keyId = current.1) "bounty_proof_key_mismatch"
  require (row.payload = row.expected) "bounty_challenge_mismatch"
  verified terms.toApp current.2 (terms.challengeText row.payload) request.proof "bounty-pop-v1"

def claimRow (listing : Bounty) (request : ClaimRequest) (row : Challenge) (receipt : Posting) :
    Claim where
  id := "bclaim_" ++ world.entropy
  listingId := listing.listingId
  claimant := row.claimant
  challengeId := row.id
  proof := (row.payload, request.proof)
  rewardMinor := listing.rewardMinor
  transactionId := receipt.transactionId
  claimedAt := world.now

/-- INSERT INTO bounty_claims with its CHECK, UNIQUE and REFERENCES constraints. -/
def insertClaim (row : Claim) : Tx Unit :=
  Program.write fun market => do
    require ((identity market row.claimant).isSome ∧
      market.bounties.contains row.listingId = true ∧
      market.challenges.contains row.challengeId = true ∧
      market.books.postings.contains row.transactionId = true) "constraint_conflict"
    require (0 < row.rewardMinor ∧ ∀ other ∈ market.claims.rows,
      other.challengeId ≠ row.challengeId ∧ other.transactionId ≠ row.transactionId)
      "constraint_conflict"
    let claims ← insertRow market.claims row
    return { market with claims := claims }

def consumeChallenge (id : String) : Tx Unit :=
  Program.write fun market => do
    let _ ← requireRow ((market.challenges.find? id).filter fun row => row.consumedAt == none)
      "bounty_challenge_consumed"
    return { market with
      challenges := market.challenges.modify id fun row =>
        { row with consumedAt := some world.now } }

def exhausted (market : State) (listing : Bounty) : Option PauseReason :=
  if balance market.books listing.escrowSubject < listing.rewardMinor then some .outOfBudget
  else if listing.maxClaims ≤ claimCount market listing.listingId then some .claimsExhausted
  else none

def pauseExhausted (listing : Bounty) : Option PauseReason → Tx Unit
  | none => pure ()
  | some reason => updateBounty listing.listingId fun stored =>
      { stored with state := .paused, pauseReason := some reason }

/-- What `claim` reads before it pays. -/
def readClaim (market : State) (request : ClaimRequest) : Except Failure (Challenge × Bounty) := do
  let claimant ← signedSubject request.request
  let row ← requireRow ((market.challenges.find? request.challengeId).filter fun row =>
    row.claimant == claimant) "bounty_challenge_not_found"
  let listing ← bountyRow market row.listingId
  request.access
  ready world market listing claimant
  validateBounty market listing request.listing
  proofCheck terms world row request claimant
  return (row, listing)

/-- bounty.claim@1. -/
def claim (request : ClaimRequest) : Tx Unit := do
  let (row, listing) ← read fun market => readClaim terms world market request
  let receipt ← post world false (entry request.request world listing.escrowSubject row.claimant
    listing.rewardMinor row.claimant ("bounty_claim:" ++ listing.listingId))
  insertClaim (claimRow world listing request row receipt)
  consumeChallenge world row.id
  let reason ← read fun market => .ok (exhausted market listing)
  pauseExhausted listing reason

/-! Ordinary money. -/

structure Transfer where
  request : Request
  fromSubject : Option String
  toSubject : String
  amountMinor : Int
  reference : Option String

def readTransfer (market : State) (transfer : Transfer) : Except Failure (String × String) := do
  require (transfer.fromSubject ≠ some rootSubject ∧ transfer.fromSubject ≠ some "@root")
    "root_local_only"
  let sender ← requireRow transfer.request.principal.subject "money_subject_required"
  require (transfer.request.principal.actor = some sender) "money_subject_required"
  require (transfer.fromSubject.getD sender = sender) "money_sender_mismatch"
  let source ← Session.subject market.authority sender
  let destination ← Session.subject market.authority transfer.toSubject
  require (fundable source = true) "money_subject_required"
  require (fundable destination = true) "invalid_money_recipient"
  return (sender, destination.resourceId)

/-- money.transfer@1. -/
def transferMoney (transfer : Transfer) : Tx Unit := do
  let (sender, recipient) ← read fun market => readTransfer market transfer
  let _ ← post world false
    { sender := some sender
      recipient := some recipient
      amount := transfer.amountMinor
      actor := sender
      requestId := transfer.request.requestId
      now := world.now
      reference := transfer.reference }
  return ()

inductive IssueAction where
  | mint | burn | transfer (subject : String)
  deriving DecidableEq

def IssueAction.sender : IssueAction → Option String
  | .mint => none
  | .burn => some rootSubject
  | .transfer _ => some rootSubject

def IssueAction.recipient : IssueAction → Option String
  | .mint => some rootSubject
  | .burn => none
  | .transfer subject => some subject

def IssueAction.kind : IssueAction → Kind
  | .mint => .mint
  | .burn => .burn
  | .transfer _ => .transfer

/-- The local console's entry, under a request id of its own. -/
def issueEntry (action : IssueAction) (amount : Int) : EntryRequest where
  sender := action.sender
  recipient := action.recipient
  amount := amount
  actor := rootSubject
  requestId := "local_money_" ++ world.entropy
  now := world.clock
  kind := action.kind
  localIssuer := true

def issueRecipient (market : State) : IssueAction → Except Failure Unit
  | .transfer subject => do
      let row ← Session.subject market.authority subject
      require (fundable row = true) "invalid_money_recipient"
  | _ => .ok ()

/-- `apply_money`, less the bank roles. -/
def issueMoney (action : IssueAction) (amount : Int) : Tx Unit := do
  read fun market => issueRecipient market action
  Program.write fun market => do
    let (books, _) ← appendEntry (identity market) world.uuid (issueEntry world action amount)
      market.books
    return { market with books := books }

end MsgServer.Market
