import Mathlib.Data.List.Sort
import MsgServer.Market.Policy
import MsgServer.Workers.Effects

/-!
The reading half of market/arbitration.py and market/rationale.py: who sits on a
panel, what a proposal must say, and when a decision may still be carried out.
Nothing here writes.
-/

namespace MsgServer.Market

open Library Session

def lookup {β : Type} (entries : List (Nat × β)) (round : Nat) : Option β :=
  (entries.find? fun entry => entry.1 == round).map Prod.snd

def readCase (market : State) (caseId : String) : Except Failure Case :=
  requireRow (market.cases.find? caseId) "case_not_found"

def Case.panel (row : Case) : List String := (lookup row.panels row.round).getD []

def Case.roundDeadline (row : Case) : Nat := (lookup row.roundDeadlines row.round).getD 0

def conflicted (market : State) (candidate : String) (row : Case) : Bool :=
  candidate == row.buyer || candidate == row.seller ||
    decide ((candidate, row.buyer) ∈ market.conflicts) ||
    decide ((candidate, row.seller) ∈ market.conflicts)

def epochOf (row : Case) (candidate : String) : Option String :=
  ((row.epochs.find? fun entry => entry.1 == candidate).map Prod.snd).filter fun epoch => epoch != ""

/-- The role is still the grant that the contract froze. -/
def roleStands (market : State) (candidate : String) (row : Case) : Bool :=
  match epochOf row candidate, market.roles.find? candidate with
  | some epoch, some role => role.active && role.epoch == epoch && !conflicted market candidate row
  | _, _ => false

variable (terms : Terms) (world : World) (market : State)

def standing (candidate : String) : Except Failure Bool := do
  let member ← subject market.authority candidate
  let home ← resource terms.toApp market.authority candidate
  return !member.localOnly && member.kind == .registered && home.state == .active

/-- `member_valid`; any failure to read the member counts as invalid. -/
def memberValid (candidate : String) (row : Case) : Bool :=
  roleStands market candidate row &&
    match standing terms market candidate with
    | .ok valid => valid
    | .error _ => false

def panelKey (row : Case) (round : Nat) (candidate : String) : String × String :=
  (terms.panelScore row.orderId row.policyDigest round candidate, candidate)

def panelBefore (row : Case) (round : Nat) (left right : String) : Prop :=
  (panelKey terms row round left).1 < (panelKey terms row round right).1 ∨
    (panelKey terms row round left).1 = (panelKey terms row round right).1 ∧ left ≤ right

instance (row : Case) (round : Nat) (left right : String) :
    Decidable (panelBefore terms row round left right) :=
  inferInstanceAs (Decidable (_ ∨ _))

/-- The members of the first panel may not sit on the second. -/
def previousPanel (row : Case) (round : Nat) : List String :=
  if round = 0 then [] else (lookup row.panels 0).getD []

def eligible (row : Case) (round : Nat) : List String :=
  row.policy.candidates.filter fun candidate =>
    decide (candidate ∉ previousPanel row round) && memberValid terms market candidate row

def panelFor (row : Case) (round : Nat) : List String :=
  ((eligible terms market row round).insertionSort (panelBefore terms row round)).take
    row.policy.panelSize

def panelValid (row : Case) : Bool :=
  row.panel.length == row.policy.panelSize &&
    row.panel.all fun candidate => memberValid terms market candidate row

/-- `owned_case`: a party, or while the round lasts a member of its panel. -/
def caseFor (request : Request) (caseId : String) (parties : Bool) : Except Failure Case := do
  let viewer ← requireRow request.principal.subject "case_not_found"
  require (request.principal.actor = some viewer) "case_not_found"
  let row ← readCase market caseId
  require (viewer = row.buyer ∨ viewer = row.seller ∨
    (parties = false ∧ viewer ∈ row.panel ∧ memberValid terms market viewer row = true))
    "case_not_found"
  return row

/-- The fields of `proposal_base`. -/
structure ProposalBase where
  caseId : String
  orderId : String
  round : Nat
  policyDigest : String
  expiresAt : Nat
  deriving DecidableEq

def proposalBase (row : Case) : ProposalBase :=
  ⟨row.id, row.orderId, row.round, row.policyDigest,
    row.roundDeadline + row.policy.decisionLifetimeSeconds⟩

def Proposal.base (proposal : Proposal) : ProposalBase :=
  ⟨proposal.caseId, proposal.orderId, proposal.round, proposal.policyDigest, proposal.expiresAt⟩

def proposalValid (row : Case) (proposal : Proposal) (total : Int) : Except Failure Unit := do
  require (proposal.base = proposalBase row) "decision_context_mismatch"
  require ((proposal.outcome = .release ∧ proposal.refundMinor = 0) ∨
    (proposal.outcome = .refund ∧ proposal.refundMinor = total) ∨
    (proposal.outcome = .split ∧ 0 < proposal.refundMinor ∧ proposal.refundMinor < total))
    "decision_amount_mismatch"

/-- `record` of market/rationale.py. -/
def rationaleRecord (row : Case) (ref : String × String) (digest : String) :
    Except Failure Evidence := do
  let body ← requireRow
    ((market.evidence.find? (terms.rationaleId row.id row.round ref)).filter fun evidence =>
      evidence.caseId == row.id) "decision_rationale_missing"
  require (body.author ∈ row.panel ∧ body.parties = true ∧ body.kind = .rationale ∧
    body.round = row.round ∧ body.source = some ref ∧ body.blob.digest = digest)
    "decision_rationale_mismatch"
  return body

def rationaleFailure (failure : Failure) : Failure :=
  if failure.code = "package_missing" then { code := "decision_rationale_missing" }
  else if failure.code = "package_digest_mismatch" then { code := "decision_rationale_mismatch" }
  else failure

def verifyRationale (row : Case) (proposal : Proposal) : Except Failure Unit := do
  let body ← rationaleRecord terms market row proposal.rationaleRef proposal.rationaleDigest
  (verifyBlob world body.blob).mapError rationaleFailure

def voteOperation : String := "orders.dispute_vote@1"

/-- The captured principal still holds the authority it voted with. -/
def voterCurrent (vote : Vote) : Except Failure Unit := do
  let current ← Effects.currentPrincipal terms.toApp market.authority world.clock vote.principal
  Authorization.requireBase terms.toApp market.authority world.clock current voteOperation
    vote.arbitrator

def voteSigned (vote : Vote) : Except Failure Unit := do
  let key ← credential market.authority vote.principal.credentialId
  require (vote.signature.keyId = key.id ∧ key.kind = .signingKey) "decision_signer_mismatch"
  verified terms.toApp key.verifier (terms.proposalText vote.proposal) vote.signature
    "arbitration-decision"

def verifyVote (row : Case) (vote : Vote) : Except Failure Unit := do
  require (vote.principal.subject = some vote.arbitrator ∧
    vote.principal.actor = vote.principal.subject ∧ vote.principal.method = .signature ∧
    memberValid terms market vote.arbitrator row = true) "decision_member_invalid"
  voterCurrent terms world market vote
  voteSigned terms market vote

def decisionById (id : String) : Option DecisionRow :=
  market.decisions.rows.find? fun row => row.body.id == id

def appealDelay (row : Case) : Nat :=
  if row.round = 0 ∧ row.policy.allowAppeal = true then row.policy.appealSeconds else 0

/-- One turn of the loop over the voters; the time its vote was cast. -/
def castTime (row : Case) (decision : Decision) (arbitrator : String) : Except Failure Nat := do
  let vote ← requireRow (market.votes.find? (row.id, row.round, arbitrator))
    "decision_quorum_invalid"
  require (vote.proposal = decision.proposal) "decision_conflicting_vote"
  verifyVote terms world market row vote
  return vote.castAt

def castTimes (row : Case) (decision : Decision) : List String → Except Failure (List Nat)
  | [] => .ok []
  | arbitrator :: rest => do
      let time ← castTime terms world market row decision arbitrator
      let later ← castTimes row decision rest
      return time :: later

def latest (times : List Nat) : Nat := times.foldr max 0

def decisionStands (order : Order) (decision : Decision) : Except Failure Case := do
  let _ ← requireRow
    ((decisionById market decision.id).filter fun row => !row.revoked && row.body == decision)
    "decision_revoked_or_unknown"
  let row ← readCase market decision.caseId
  require (row.orderId = order.id ∧ row.round = decision.round ∧ row.state = .decided ∧
    order.state = .disputed) "decision_not_current"
  return row

def decisionWindow (row : Case) (decision : Decision) (now : Nat) : Except Failure Unit := do
  require (decision.refundMinor = decision.proposal.refundMinor ∧
    decision.policyDigest = row.policyDigest) "decision_context_mismatch"
  require (now < decision.expiresAt) "decision_expired"
  require (decision.notBefore ≤ now) "appeal_window_open"

def decisionQuorum (row : Case) (decision : Decision) : Except Failure Unit :=
  require (decision.voters.length = row.policy.quorum ∧ decision.voters.Nodup ∧
    ∀ voter ∈ decision.voters, voter ∈ row.panel) "decision_quorum_invalid"

/-- `validate_decision` of market/arbitration.py, check by check. -/
def validateDecision (order : Order) (decision : Decision) (now : Nat) : Except Failure Unit := do
  let row ← decisionStands market order decision
  proposalValid row decision.proposal order.totalPriceMinor
  decisionWindow row decision now
  require (panelValid terms market row = true) "decision_panel_invalid"
  require (decision.rationaleRef = decision.proposal.rationaleRef ∧
    decision.rationaleDigest = decision.proposal.rationaleDigest) "decision_rationale_mismatch"
  verifyRationale terms world market row decision.proposal
  decisionQuorum row decision
  let times ← castTimes terms world market row decision decision.voters
  require (decision.notBefore = latest times + appealDelay row ∧
    decision.expiresAt = decision.proposal.expiresAt) "decision_context_mismatch"

end MsgServer.Market
