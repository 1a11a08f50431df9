import MsgServer.Library.Run
import MsgServer.Market.Arbitration
import MsgServer.Market.Checkout
import MsgServer.Market.Email
import MsgServer.Plugins.Bounty

/-!
The market as one system. A step is one request past authentication, one turn of a
timer, one act of the local console, or a change of the authority tables by the
rest of the server; each is a transaction of its own, so a refused one leaves
everything as it was. Any two steps may follow each other in any order.
-/

namespace MsgServer.Market

open Library

variable (terms : Terms) (world : World)

inductive Op where
  | reserve (checkout : Checkout) (explicit : Bool)
  | buy (checkout : Checkout) (explicit : Bool)
  | buyLegacy (checkout : LegacyCheckout)
  | pay (payment : Payment)
  | cancel (request : Request) (orderId : String)
  | cancelLegacy (request : Request) (orderId : String)
  | prepareOrder (request : Request) (orderId : String)
  | prepareLegacy (request : Request) (orderId : String)
  | submit (submission : Submission)
  | accept (acceptance : Acceptance)
  | acceptLegacy (acceptance : Acceptance)
  | redeem (redemption : Redemption)
  | bindEmail (binding : EmailBinding)
  | verifyEmail (proof : EmailProof)
  | disableEmail (request : Request) (orderId : String)
  | openCase (request : Request) (orderId : String) (reason : Reason)
  | vote (ballot : Ballot)
  | depositRationale (deposit : Deposit)
  | execute (request : Request) (caseId decisionId : String)
  | appeal (request : Request) (caseId : String)
  | revoke (request : Request) (caseId decisionId : String)
  | declareConflict (request : Request) (party : String)
  | resolveDue (limit : Nat)
  | resolveCases (limit : Nat)
  | createBounty (offer : BountyOffer)
  | topUp (request : BountyRequest) (amount : Int)
  | pauseBounty (request : BountyRequest)
  | resumeBounty (request : BountyRequest)
  | closeBounty (request : BountyRequest)
  | challenge (request : BountyRequest) (nonce : String)
  | claim (request : ClaimRequest)
  | transfer (transfer : Transfer)
  | issue (action : IssueAction) (amount : Int)
  | publishPolicy (policy : DisputePolicy)
  | changeRole (subject : String) (active : Bool)
  | authority (next : Session.Store)

/-- Version 3 is the implicit settlement, version 4 the explicit one. -/
def checkoutVersion (explicit : Bool) : Nat := if explicit then 4 else 3

def orderBoundary {α : Type} (request : Request) (orderId : Option String) (handler : Tx α) :
    Tx α :=
  operationBoundary terms world orderId request.principal.subject false handler

def caseBoundary {α : Type} (request : Request) (caseId : String) (handler : Tx α) : Tx α := do
  let orderId ← read fun market => .ok ((market.cases.find? caseId).map Case.orderId)
  operationBoundary terms world orderId request.principal.subject true handler

/-- The rest of the server keeps every subject and the identity of every credential,
and makes new subject ids with their own prefix. -/
def authorityExtends (old new : Session.Store) : Prop :=
  (∀ row ∈ old.subjects.rows, (new.subjects.find? row.resourceId).isSome = true) ∧
    (∀ row ∈ new.subjects.rows, isSubjectId row.resourceId = true) ∧
    ∀ row ∈ old.credentials.rows,
      (new.credentials.find? row.id).map (fun key => (key.subjectId, key.kind, key.verifier)) =
        some (row.subjectId, row.kind, row.verifier)

instance (old new : Session.Store) : Decidable (authorityExtends old new) :=
  inferInstanceAs (Decidable (_ ∧ _))

def changeAuthority (next : Session.Store) : Tx Unit :=
  Program.write fun market => do
    require (authorityExtends market.authority next) "credential_identity_immutable"
    return { market with authority := next }

/-- The request behind an operation and the contract it is registered under. -/
def Op.entry : Op → Option (Request × String × Nat)
  | .reserve checkout explicit => some (checkout.request, "orders.create", if explicit then 2 else 1)
  | .buy checkout explicit => some (checkout.request, "orders.buy", if explicit then 4 else 3)
  | .buyLegacy checkout => some (checkout.request, "orders.buy", if checkout.instant then 2 else 1)
  | .pay payment => some (payment.request, "orders.fund", 1)
  | .cancel request _ => some (request, "orders.cancel", 2)
  | .cancelLegacy request _ => some (request, "orders.cancel", 1)
  | .prepareOrder request _ => some (request, "delivery.prepare", 2)
  | .prepareLegacy request _ => some (request, "delivery.prepare", 1)
  | .submit submission => some (submission.request, "delivery.submit", 1)
  | .accept acceptance => some (acceptance.request, "delivery.accept", 2)
  | .acceptLegacy acceptance => some (acceptance.request, "delivery.accept", 1)
  | .redeem redemption => some (redemption.request, "money.redeem", 3)
  | .bindEmail binding => some (binding.request, "orders.email_bind", 1)
  | .verifyEmail proof => some (proof.request, "orders.email_verify", 1)
  | .disableEmail request _ => some (request, "orders.email_disable", 1)
  | .openCase request _ _ => some (request, "orders.dispute_open", 1)
  | .vote ballot => some (ballot.request, "orders.dispute_vote", 1)
  | .depositRationale deposit => some (deposit.request, "orders.dispute_rationale", 1)
  | .execute request _ _ => some (request, "orders.dispute_execute", 1)
  | .appeal request _ => some (request, "orders.dispute_appeal", 1)
  | .revoke request _ _ => some (request, "orders.dispute_revoke", 1)
  | .declareConflict request _ => some (request, "orders.arbitrator_conflict", 1)
  | .createBounty offer => some (offer.request, "bounty.create", 1)
  | .topUp request _ => some (request.request, "bounty.top_up", 1)
  | .pauseBounty request => some (request.request, "bounty.pause", 1)
  | .resumeBounty request => some (request.request, "bounty.resume", 1)
  | .closeBounty request => some (request.request, "bounty.close", 1)
  | .challenge request _ => some (request.request, "bounty.challenge", 1)
  | .claim request => some (request.request, "bounty.claim", 1)
  | .transfer money => some (money.request, "money.transfer", 1)
  | .resolveDue _ => none
  | .resolveCases _ => none
  | .issue _ _ => none
  | .publishPolicy _ => none
  | .changeRole _ _ => none
  | .authority _ => none

/-- The registry finds the handler by the operation and the version of the request. -/
def routed (op : Op) : Except Failure Unit :=
  match op.entry with
  | none => .ok ()
  | some (request, operation, version) =>
      require (isOperation request operation version) "unknown_operation"

def handle : Op → Tx Unit
  | .reserve checkout explicit =>
      orderBoundary terms world checkout.request none
        (reserve terms world checkout (checkoutVersion explicit))
  | .buy checkout explicit =>
      orderBoundary terms world checkout.request none
        (buy terms world checkout (checkoutVersion explicit))
  | .buyLegacy checkout =>
      orderBoundary terms world checkout.request none (buyLegacy terms world checkout)
  | .pay payment =>
      orderBoundary terms world payment.request (some payment.orderId) (pay terms world payment)
  | .cancel request orderId =>
      orderBoundary terms world request (some orderId) (cancel terms world request orderId)
  | .cancelLegacy request orderId =>
      orderBoundary terms world request (some orderId) (cancelLegacy terms world request orderId)
  | .prepareOrder request orderId =>
      orderBoundary terms world request (some orderId) (prepareOrder terms world request orderId)
  | .prepareLegacy request orderId =>
      orderBoundary terms world request (some orderId) (prepareLegacy terms world request orderId)
  | .submit submission =>
      orderBoundary terms world submission.request (some submission.orderId)
        (submitDelivery terms world submission)
  | .accept acceptance =>
      orderBoundary terms world acceptance.request (some acceptance.orderId)
        (acceptDelivery terms world acceptance)
  | .acceptLegacy acceptance =>
      orderBoundary terms world acceptance.request (some acceptance.orderId)
        (acceptLegacy terms world acceptance)
  | .redeem redemption =>
      orderBoundary terms world redemption.request none (redeem terms world redemption)
  | .bindEmail binding =>
      orderBoundary terms world binding.request (some binding.orderId)
        (bindEmail terms world binding)
  | .verifyEmail proof =>
      orderBoundary terms world proof.request (some proof.orderId) (verifyEmail world proof)
  | .disableEmail request orderId =>
      orderBoundary terms world request (some orderId) (disableEmail request orderId)
  | .openCase request orderId reason =>
      orderBoundary terms world request (some orderId) (openCase terms world request orderId reason)
  | .vote ballot =>
      caseBoundary terms world ballot.request ballot.proposal.caseId (vote terms world ballot)
  | .depositRationale deposit =>
      caseBoundary terms world deposit.request deposit.caseId (depositRationale terms world deposit)
  | .execute request caseId decisionId =>
      caseBoundary terms world request caseId (executeDecision terms world request caseId decisionId)
  | .appeal request caseId =>
      caseBoundary terms world request caseId (appeal terms world request caseId)
  | .revoke request caseId decisionId =>
      caseBoundary terms world request caseId (revoke terms request caseId decisionId)
  | .declareConflict request party =>
      orderBoundary terms world request none (declareConflict request party)
  | .resolveDue limit => do
      let _ ← resolveDue terms world limit
      return ()
  | .resolveCases limit => do
      let _ ← resolveCases terms world limit
      return ()
  | .createBounty offer => createBounty terms world offer
  | .topUp request amount => topUp world request amount
  | .pauseBounty request => pauseBounty request
  | .resumeBounty request => resumeBounty world request
  | .closeBounty request => closeBounty world request
  | .challenge request nonce => challenge world request nonce
  | .claim request => claim terms world request
  | .transfer money => transferMoney world money
  | .issue action amount => issueMoney world action amount
  | .publishPolicy policy => publishPolicy policy
  | .changeRole subject active => changeRole world subject active
  | .authority next => changeAuthority next

def perform (op : Op) : Tx Unit := do
  read fun _ => routed op
  handle terms world op

/-- One transaction; what it meets of the world is part of the label. -/
def step (next : World × Op) (market : State) : State :=
  match Program.atomically (perform terms next.1 next.2) market with
  | .ok _ reached => reached
  | .error _ reached => reached

theorem step_cases (next : World × Op) (market : State) :
    step terms next market = market ∨
      perform terms next.1 next.2 market = .ok () (step terms next market) := by
  unfold step
  cases outcome : Program.atomically (perform terms next.1 next.2) market with
  | ok done reached =>
      exact Or.inr ((Program.atomically_ok _ _ _ _).mp outcome)
  | error failure reached =>
      exact Or.inl ((Program.atomically_error _ _ _ _).mp outcome).1

def run (steps : List (World × Op)) : State := Run.run (step terms) steps State.empty

def Reachable (market : State) : Prop := Run.Reachable (step terms) State.empty market

end MsgServer.Market
