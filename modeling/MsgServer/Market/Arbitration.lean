import MsgServer.Market.Orders

/-!
The writing half of market/arbitration.py with the rationale of market/rationale.py
and the local administration of admin/market.py. Notices, statements and ordinary
evidence are left out. `resolveCases` catches inside its transaction without a
savepoint, so `recover` keeps whatever the refused execution had written.
-/

namespace MsgServer.Market

open Library Ledger

variable (terms : Terms) (world : World)

def insertCase (row : Case) : Tx Unit :=
  Program.write fun market => do
    referenced market row.orderId
    require (∀ other ∈ market.cases.rows, other.orderId ≠ row.orderId) "constraint_conflict"
    let cases ← insertRow market.cases row
    return { market with cases := cases }

def updateCase (caseId : String) (change : Case → Case) : Tx Unit :=
  Program.write fun market => .ok { market with cases := market.cases.modify caseId change }

def insertVote (vote : Vote) : Tx Unit :=
  Program.write fun market => do
    require ((identity market vote.arbitrator).isSome ∧
      market.cases.contains vote.caseId = true) "constraint_conflict"
    let votes ← insertRow market.votes vote
    return { market with votes := votes }

/-- The id is the primary key and (case_id,round) is UNIQUE. -/
def insertDecision (decision : Decision) : Tx Unit :=
  Program.write fun market => do
    require (decisionById market decision.id = none ∧
      market.cases.contains decision.caseId = true) "constraint_conflict"
    let decisions ← insertRow market.decisions ⟨decision, false⟩
    return { market with decisions := decisions }

def insertEvidence (row : Evidence) : Tx Unit :=
  Program.write fun market => do
    require ((identity market row.author).isSome ∧
      market.cases.contains row.caseId = true) "constraint_conflict"
    let evidence ← insertRow market.evidence row
    return { market with evidence := evidence }

/-! Opening a case. -/

def deliveryFault (failure : Failure) : Except Failure (Option Reason) :=
  if failure.code = "delivery_not_found" then .ok (some .deliveryMissing)
  else if failure.code = "delivery_digest_mismatch" then .ok (some .deliveryDigestMismatch)
  else if failure.code = "package_missing" then .ok (some .packageMissing)
  else if failure.code = "package_digest_mismatch" then .ok (some .packageDigestMismatch)
  else .error failure

def storedFault (locked : Contract) (order : Order) : Except Failure (Option Reason) :=
  if locked.listing.deliveryMode = .managedInstant then
    match readPackage terms world order with
    | .ok _ => .ok none
    | .error failure =>
        match packageFault failure with
        | some reason => .ok (some reason)
        | none => .error failure
  else .ok none

def fundedFault (locked : Contract) (order : Order) : Except Failure (Option Reason) := do
  let fundedAt ← requireRow order.fundedAt "internal_error"
  if fundedAt + locked.policy.deliveryTimeout ≤ world.now then return some .deliveryTimeout
  else storedFault terms world locked order

def deliveredFault (market : State) (order : Order) : Except Failure (Option Reason) :=
  match verifiedDelivery terms world market order with
  | .ok _ => .ok none
  | .error failure => deliveryFault failure

/-- `objective_fault`. -/
def objectiveFault (market : State) (order : Order) : Except Failure (Option Reason) := do
  let locked ← contract terms market order.id
  if order.state = .funded then fundedFault terms world locked order
  else if order.state = .delivered then deliveredFault terms world market order
  else return none

def newCaseId : String := "case_" ++ world.entropy

/-- The case before its panel is drawn. -/
def draftCase (order : Order) (actor : String) (reason : Reason) (policy : DisputePolicy)
    (epochs : List (String × String)) : Case where
  id := newCaseId world
  orderId := order.id
  round := 0
  state := .open
  deadline := world.now + policy.caseTimeoutSeconds
  buyer := order.buyer
  seller := order.seller
  openedBy := actor
  openedAt := world.now
  reason := reason
  policy := policy
  policyDigest := terms.policyDigest policy
  epochs := epochs
  panels := []
  roundDeadlines := [(0, world.now + policy.caseTimeoutSeconds)]

def seated (market : State) (row : Case) : Case :=
  { row with panels := [(0, panelFor terms market row 0)] }

def withState (market : State) (row : Case) : Case :=
  { row with state := if panelValid terms market row = true then .open else .held }

/-- A contract without an arbitration policy has no case timeout to read. -/
def newCase (market : State) (locked : Contract) (order : Order) (actor : String)
    (reason : Reason) : Except Failure Case :=
  match locked.policy with
  | .dispute policy epochs =>
      .ok (withState terms market
        (seated terms market (draftCase terms world order actor reason policy epochs)))
  | .entitlement _ _ => .error { code := "internal_error" }

def openDispute (locked : Contract) (order : Order) (origin : Origin) (reason : Reason) :
    Tx Unit := do
  let row ← read fun market => newCase terms world market locked order origin.actor reason
  insertCase row
  let _ ← transition terms order .disputed origin reason
  return ()

def resolveFault (locked : Contract) (order : Order) (origin : Origin) (reason : Reason) :
    Option Reason → Tx Unit
  | some fault => do
      let _ ← settle terms world order (plainSettlement origin fault order.totalPriceMinor)
      return ()
  | none => openDispute terms world locked order origin reason

def disputeReasons : List Reason :=
  [.quality, .notAsDescribed, .wrongCiphertext, .deliveryMissing, .deliveryDigestMismatch,
    .packageMissing, .packageDigestMismatch, .deliveryTimeout, .other]

def disputeFresh (locked : Contract) (order : Order) (origin : Origin) (reason : Reason) :
    Tx Unit := do
  read fun _ => require (order.state = .funded ∨ order.state = .delivered) "order_not_disputable"
  let fault ← read fun market => objectiveFault terms world market order
  resolveFault terms world locked order origin reason fault

/-- orders.dispute_open@1: a repeated request names the case that is there. -/
def openCase (request : Request) (orderId : String) (reason : Reason) : Tx Unit := do
  read fun _ => require (reason ∈ disputeReasons) "invalid_arguments"
  let actor ← read fun _ => signedSubject request
  let order ← read fun market => readOrder market orderId actor
  let locked ← read fun market => contract terms market order.id
  let existing ← read fun market => .ok (market.cases.rows.find? fun row => row.orderId == order.id)
  if existing.isSome = true then return ()
  else disputeFresh terms world locked order (origin world request actor) reason

/-! Voting. -/

structure Ballot where
  request : Request
  proposal : Proposal
  signature : Signature

def voteRecord (ballot : Ballot) (row : Case) (actor : String) : Vote where
  caseId := row.id
  round := row.round
  arbitrator := actor
  proposal := ballot.proposal
  signature := ballot.signature
  principal := ballot.request.principal
  castAt := world.now

/-- What `vote` reads before it writes. -/
def readBallot (market : State) (ballot : Ballot) : Except Failure (Case × Vote) := do
  let actor ← signedSubject ballot.request
  let row ← caseFor terms market ballot.request ballot.proposal.caseId false
  require (actor ∈ row.panel ∧ panelValid terms market row = true) "arbitrator_required"
  require (row.state = .open ∧ world.now < row.roundDeadline) "case_voting_closed"
  let order ← readOrder market row.orderId row.buyer
  proposalValid row ballot.proposal order.totalPriceMinor
  verifyRationale terms world market row ballot.proposal
  verifyVote terms world market row (voteRecord world ballot row actor)
  return (row, voteRecord world ballot row actor)

def castVote (vote : Vote) : Option Vote → Tx Unit
  | some previous => read fun _ => require (previous.proposal = vote.proposal) "conflicting_vote"
  | none => insertVote vote

def sameBallot (row : Case) (proposal : Proposal) (vote : Vote) : Bool :=
  vote.caseId == row.id && vote.round == row.round && vote.proposal == proposal

def matchingVotes (market : State) (row : Case) (proposal : Proposal) :
    Except Failure (List Vote) := do
  (market.votes.rows.filter (sameBallot row proposal)).forM (verifyVote terms world market row)
  return market.votes.rows.filter (sameBallot row proposal)

def byArbitrator (left right : Vote) : Prop := left.arbitrator ≤ right.arbitrator

instance (left right : Vote) : Decidable (byArbitrator left right) :=
  inferInstanceAs (Decidable (_ ≤ _))

def quorumVotes (row : Case) (matching : List Vote) : List Vote :=
  (matching.insertionSort byArbitrator).take row.policy.quorum

def newDecision (row : Case) (proposal : Proposal) (matching : List Vote) : Decision where
  id := terms.decisionId proposal
  caseId := row.id
  orderId := row.orderId
  round := row.round
  proposal := proposal
  refundMinor := proposal.refundMinor
  policyDigest := proposal.policyDigest
  rationaleRef := proposal.rationaleRef
  rationaleDigest := proposal.rationaleDigest
  voters := (quorumVotes row matching).map Vote.arbitrator
  expiresAt := proposal.expiresAt
  notBefore := latest ((quorumVotes row matching).map Vote.castAt) + appealDelay row

/-- The decision of a quorum of matching votes. -/
def recordDecision (row : Case) (proposal : Proposal) (matching : List Vote) : Tx Unit :=
  if row.policy.quorum ≤ matching.length then do
    insertDecision (newDecision terms row proposal matching)
    updateCase row.id fun stored =>
      { stored with
        state := .decided
        deadline := (newDecision terms row proposal matching).notBefore }
  else pure ()

/-- orders.dispute_vote@1. -/
def vote (ballot : Ballot) : Tx Unit := do
  let (row, cast) ← read fun market => readBallot terms world market ballot
  let previous ← read fun market => .ok (market.votes.find? (row.id, row.round, cast.arbitrator))
  castVote cast previous
  let matching ← read fun market => matchingVotes terms world market row ballot.proposal
  recordDecision terms row ballot.proposal matching

/-! Executing, appealing and revoking. -/

def decisionOf (market : State) (row : Case) (decisionId : String) : Except Failure Decision := do
  let stored ← requireRow ((market.decisions.find? (row.id, row.round)).filter
    fun stored => stored.body.id == decisionId) "decision_not_current"
  return stored.body

def decidedSettlement (origin : Origin) (decision : Decision) : SettleRequest where
  origin := origin
  reason := .arbitrationDecision
  refundMinor := decision.refundMinor
  decision := some decision
  fulfill := none

def executeFresh (order : Order) (decision : Decision) (origin : Origin) :
    Option Settlement → Tx (List Posting)
  | some fact => do
      read fun _ => require (fact.decisionId = some decision.id) "order_already_settled"
      return fact.receipts
  | none => do
      let (_, receipts) ← settle terms world order (decidedSettlement origin decision)
      return receipts

def executeBody (row : Case) (decisionId : String) (origin : Origin) : Tx (List Posting) := do
  let order ← read fun market => readOrder market row.orderId row.buyer
  let decision ← read fun market => decisionOf market row decisionId
  let existing ← read fun market => .ok (market.settlements.find? order.id)
  executeFresh terms world order decision origin existing

/-- `execute`. -/
def execute (row : Case) (decisionId : String) (origin : Origin) : Tx (List Posting) :=
  internalMutation terms world row.orderId (executeBody terms world row decisionId origin)

/-- orders.dispute_execute@1. -/
def executeDecision (request : Request) (caseId decisionId : String) : Tx Unit := do
  let actor ← read fun _ => signedSubject request
  let row ← read fun market => caseFor terms market request caseId false
  let _ ← execute terms world row decisionId (origin world request actor)
  return ()

def appealUntil (market : State) (row : Case) : Nat :=
  match market.decisions.find? (row.id, 0) with
  | some stored => stored.body.notBefore
  | none => (lookup row.roundDeadlines 0).getD 0 + row.policy.appealSeconds

def appealed (market : State) (row : Case) : Case :=
  { row with
    panels := (1, panelFor terms market row 1) :: row.panels
    round := 1
    deadline := world.now + row.policy.caseTimeoutSeconds
    roundDeadlines := (1, world.now + row.policy.caseTimeoutSeconds) :: row.roundDeadlines }

def readAppeal (market : State) (request : Request) (caseId : String) : Except Failure Case := do
  let _ ← signedSubject request
  let row ← caseFor terms market request caseId true
  require (row.policy.allowAppeal = true ∧ row.round = 0 ∧
    (row.state = .decided ∨ row.state = .held)) "appeal_not_available"
  require (world.now < appealUntil market row) "appeal_window_closed"
  return withState terms market (appealed terms world market row)

/-- orders.dispute_appeal@1. -/
def appeal (request : Request) (caseId : String) : Tx Unit := do
  let row ← read fun market => readAppeal terms world market request caseId
  updateCase row.id fun _ => row

def readRevocation (market : State) (request : Request) (caseId decisionId : String) :
    Except Failure Case := do
  let actor ← signedSubject request
  let row ← caseFor terms market request caseId false
  let _ ← requireRow
    (((market.decisions.find? (row.id, row.round)).filter fun stored =>
      stored.body.id == decisionId).filter fun stored => decide (actor ∈ stored.body.voters))
    "decision_signer_required"
  require (row.state = .decided ∨ row.state = .held) "decision_already_executed"
  return row

/-- orders.dispute_revoke@1. -/
def revoke (request : Request) (caseId decisionId : String) : Tx Unit := do
  let row ← read fun market => readRevocation terms market request caseId decisionId
  Program.write fun market => .ok
    { market with
      decisions := market.decisions.modify (row.id, row.round) fun stored =>
        { stored with revoked := true } }
  updateCase row.id fun stored => { stored with state := .held }

structure Deposit where
  request : Request
  caseId : String
  ref : String × String
  /-- The author's own readable text, with its bytes verified. -/
  blob : Except Failure Blob

def rationaleEvidence (deposit : Deposit) (row : Case) (actor : String) (blob : Blob) :
    Evidence where
  id := terms.rationaleId row.id row.round deposit.ref
  caseId := row.id
  author := actor
  parties := true
  kind := .rationale
  blob := blob
  source := some deposit.ref
  round := row.round
  recordedAt := world.now

def depositNew (row : Case) (evidence : Evidence) : Option Evidence → Tx Unit
  | some _ => pure ()
  | none => do
      read fun market => require ((market.evidence.rows.filter fun stored =>
        stored.caseId == row.id && stored.author == evidence.author).length < 64)
        "case_evidence_limit"
      insertEvidence evidence

def readDeposit (market : State) (deposit : Deposit) : Except Failure (Case × Evidence) := do
  let actor ← signedSubject deposit.request
  let row ← caseFor terms market deposit.request deposit.caseId false
  require (actor ∈ row.panel ∧ panelValid terms market row = true) "arbitrator_required"
  require (row.state = .open ∧ world.now < row.roundDeadline) "case_evidence_closed"
  let blob ← deposit.blob
  return (row, rationaleEvidence terms world deposit row actor blob)

/-- orders.dispute_rationale@1. -/
def depositRationale (deposit : Deposit) : Tx Unit := do
  let (row, evidence) ← read fun market => readDeposit terms world market deposit
  let previous ← read fun market => .ok (market.evidence.find? evidence.id)
  depositNew row evidence previous
  let _ ← read fun market => rationaleRecord terms market row deposit.ref evidence.blob.digest
  return ()

/-- orders.arbitrator_conflict@1. -/
def declareConflict (request : Request) (party : String) : Tx Unit := do
  let actor ← read fun _ => signedSubject request
  let _ ← read fun market => requireRow ((market.roles.find? actor).filter Role.active)
    "arbitrator_required"
  let _ ← read fun market => Session.subject market.authority party
  Program.write fun market => .ok
    { market with
      conflicts := if (actor, party) ∈ market.conflicts then market.conflicts
        else market.conflicts ++ [(actor, party)] }

/-! The timer. -/

def heldCodes : List String :=
  ["decision_revoked_or_unknown", "decision_expired", "decision_panel_invalid",
    "decision_member_invalid", "credential_revoked", "credential_expired", "invalid_signature",
    "permission_denied", "credential_ceiling", "decision_not_current", "decision_quorum_invalid",
    "decision_signer_mismatch", "decision_conflicting_vote", "decision_context_mismatch",
    "decision_rationale_missing", "decision_rationale_mismatch"]

def hold (row : Case) (reason : String) : Tx (List String) := do
  updateCase row.id fun stored => { stored with state := .held }
  Program.write fun market => .ok
    { market with
      holds := ⟨row.id, reason, world.clock⟩ ::
        market.holds.filter fun held => held.caseId != row.id }
  return [row.id]

def executeDecided (row : Case) : Tx (List String) := do
  let stored ← read fun market =>
    requireRow (market.decisions.find? (row.id, row.round)) "decision_not_current"
  let _ ← execute terms world row stored.body.id
    ⟨world.clock, row.buyer, "case-resolve:" ++ row.id⟩
  return [row.id]

/-- No unexpected failure is converted into a money rule. -/
def holdOrRaise (row : Case) (failure : Failure) : Tx (List String) :=
  if failure.code ∈ heldCodes then hold world row failure.code else throw failure

def resolveRow (row : Case) : Tx (List String) :=
  if row.state = .decided then
    Program.recover (executeDecided terms world row) (holdOrRaise world row)
  else hold world row "quorum_timeout"

def resolveCase (caseId : String) : Tx (List String) := do
  let row ← read fun market => readCase market caseId
  resolveRow terms world row

def caseBefore (left right : Case) : Prop :=
  left.deadline < right.deadline ∨ (left.deadline = right.deadline ∧ left.id ≤ right.id)

instance (left right : Case) : Decidable (caseBefore left right) :=
  inferInstanceAs (Decidable (_ ∨ _))

def caseDue (now : Nat) (row : Case) : Bool :=
  (row.state == .open || row.state == .decided) && decide (row.deadline ≤ now)

def dueCases (market : State) (now limit : Nat) : List String :=
  (((market.cases.rows.filter (caseDue now)).insertionSort caseBefore).map Case.id).take limit

def resolveAll : List String → Tx (List String)
  | [] => pure []
  | caseId :: rest => do
      let first ← resolveCase terms world caseId
      let later ← resolveAll rest
      return first ++ later

/-- `resolve_cases`. -/
def resolveCases (limit : Nat) : Tx (List String) := do
  read fun market => Session.requireCurrent market.authority
  let rows ← read fun market => .ok (dueCases market world.clock limit)
  resolveAll terms world rows

/-! Local administration. -/

def arbitratorIdentity (market : State) (id : String) : Except Failure Unit := do
  let row ← Session.subject market.authority id
  require (row.kind = .registered ∧ row.localOnly = false) "invalid_arbitrator"

def publishPolicy (policy : DisputePolicy) : Tx Unit := do
  let valid ← read fun _ => validatePolicy policy
  read fun _ => require (valid.id ≠ defaultPolicy.id) "builtin_policy_immutable"
  read fun market => require (market.policies.find? valid.id = none) "arbitration_policy_exists"
  read fun market => valid.candidates.forM (arbitratorIdentity market)
  Program.write fun market => do
    let policies ← insertRow market.policies valid
    return { market with policies := policies }

/-- A new grant of a revoked role is a new epoch. -/
def setRole (market : State) (subject : String) (active : Bool) : Except Failure Role :=
  match market.roles.find? subject, active with
  | none, true => .ok ⟨subject, "role_" ++ world.entropy, true⟩
  | some row, true =>
      if row.active then .error { code := "arbitrator_role_unchanged" }
      else .ok { row with epoch := "role_" ++ world.entropy, active := true }
  | some row, false =>
      if row.active then .ok { row with active := false }
      else .error { code := "arbitrator_role_unchanged" }
  | none, false => .error { code := "arbitrator_role_unchanged" }

def storeRole (role : Role) (market : State) : Except Failure State :=
  match market.roles.find? role.subject with
  | some _ => .ok { market with roles := market.roles.modify role.subject fun _ => role }
  | none => do
      let roles ← insertRow market.roles role
      return { market with roles := roles }

def changeRole (subject : String) (active : Bool) : Tx Unit := do
  read fun market => arbitratorIdentity market subject
  read fun _ => require (subject ≠ rootSubject) "invalid_arbitrator"
  let role ← read fun market => setRole world market subject active
  Program.write (storeRole role)

end MsgServer.Market
