import MsgServer.Market.Holding

/-!
The rest of the programs as runs of moves: the timers, the published checkouts, cases,
bounties and ordinary money. From the empty market every reachable state is the end of
a run of moves, so an invariant of every move holds in every reachable state.
-/

namespace MsgServer.Market

open Library Ledger

variable {terms : Terms} {client : Client} {world : World}

/-! The timer of unpaid and undelivered orders. -/

theorem settle_active {order final : Order} {request : SettleRequest} {receipts : List Posting}
    {market next : State} (current : Current market order) (unfulfilled : request.fulfill = none)
    (done : settle terms world order request market = .ok (final, receipts) next) :
    next.active = market.active := by
  have nothing : ∀ locked, contract terms market order.id = .ok locked →
      ∀ purchase, request.fulfill = some purchase → ∃ extra,
        locked.entitlement = some extra ∧ extra.offer.offerId = locked.listingId ∧
          purchase = ⟨locked.buyer, extra.requestId, locked.quantity, extra.offer⟩ := by
    intro _ _ purchase asked
    rw [unfulfilled] at asked
    cases asked
  rcases settle_ok current nothing done with ⟨_, _, rfl, _⟩ | ⟨_, _, _, rfl, _⟩ <;> rfl

theorem expire_moves {order : Order} {buyer : String} {market next : State}
    (current : Current market order) (done : expire terms world order buyer market = .ok () next) :
    Moves terms client market next ∧ next.active = market.active := by
  unfold expire at done
  split at done
  · simp only [Program.bind_ok, Program.pure_ok] at done
    obtain ⟨_, _, cancelling, _, rfl⟩ := done
    have cancelled : Moves terms client _ _ ∧ _ := cancel_moves current cancelling
    exact ⟨cancelled.1, cancelled.2.2⟩
  · simp only [Program.bind_ok, Prod.exists, Program.pure_ok] at done
    obtain ⟨_, _, _, settling, _, rfl⟩ := done
    exact ⟨(plain_settle_moves current settling).1, settle_active current rfl settling⟩

theorem expireIfDue_moves {orderId buyer : String} {expired : List String} {market next : State}
    (done : expireIfDue terms world orderId buyer market = .ok expired next) :
    Moves terms client market next ∧ next.active = market.active := by
  simp only [expireIfDue, Program.bind_ok, read_ok] at done
  obtain ⟨order, _, ⟨found, rfl⟩, locked, _, ⟨_, rfl⟩, due, _, ⟨_, rfl⟩, rest⟩ := done
  split at rest
  · obtain ⟨_, rfl⟩ := (Program.pure_ok _ _ _ _).mp rest
    exact ⟨Moves.refl _, rfl⟩
  · simp only [Program.bind_ok, Program.pure_ok] at rest
    obtain ⟨_, _, expiring, _, rfl⟩ := rest
    exact expire_moves (readOrder_ok found).2 expiring

theorem expireAll_moves {rows : List (String × String)} {expired : List String}
    {market next : State} (done : expireAll terms world rows market = .ok expired next) :
    Moves terms client market next ∧ next.active = market.active := by
  induction rows generalizing market expired with
  | nil =>
      obtain ⟨_, rfl⟩ := (Program.pure_ok _ _ _ _).mp done
      exact ⟨Moves.refl _, rfl⟩
  | cons row rest ih =>
      simp only [expireAll, Program.bind_ok, Program.pure_ok] at done
      obtain ⟨_, _, first, _, _, later, _, rfl⟩ := done
      obtain ⟨head, headActive⟩ : Moves terms client _ _ ∧ _ :=
        internalMutation_moves (fun _ _ _ inside => expireIfDue_moves inside) first
      obtain ⟨tail, tailActive⟩ := ih later
      exact ⟨head.trans tail, tailActive.trans headActive⟩

theorem resolveDue_moves {limit : Nat} {expired : List String} {market next : State}
    (done : resolveDue terms world limit market = .ok expired next) :
    Moves terms client market next ∧ next.active = market.active := by
  simp only [resolveDue, Program.bind_ok, read_ok] at done
  obtain ⟨_, _, ⟨_, rfl⟩, _, _, ⟨_, rfl⟩, expiring⟩ := done
  exact expireAll_moves expiring

/-! The published checkouts. -/

theorem prepareManaged_moves {order : Order} {market next : State}
    (current : Current market order)
    (done : prepareManaged terms world order market = .ok () next) :
    Moves terms client market next := by
  simp only [prepareManaged, updateOrderWhere, Program.bind_ok, read_ok, require_ok,
    Program.write_ok, Program.except_bind_ok, requireRow_ok, Program.except_pure,
    Except.ok.injEq] at done
  obtain ⟨_, _, ⟨deliverable, rfl⟩, _, _, ⟨target, rfl⟩, _, _, ⟨_, rfl⟩, row, _, ⟨_, rfl⟩, _, _,
    delivering, _, _, rfl⟩ := done
  obtain ⟨deliveries, inserted, rfl⟩ := insertDelivery_ok delivering
  have made : LegacyPrepared _ order (managedDelivery terms world order row) deliveries :=
    ⟨current, deliverable, target, rfl, inserted⟩
  exact Moves.order (.legacyPrepared made world.now)

theorem stampDelivery_ok {order : Order} {reason : LegacyReason} {buyer : String}
    {receipt : Posting} {market next : State}
    (done : stampDelivery world order reason buyer receipt market = .ok () next) :
    ∃ stamp, (∀ row, (stamp row).committed = row.committed) ∧
      next = { market with deliveries := market.deliveries.modify order.id stamp } := by
  cases reason with
  | buyerCancel =>
      obtain ⟨_, rfl⟩ := (Program.pure_ok _ _ _ _).mp done
      exact ⟨fun row => row, fun _ => rfl, by rw [Table.modify_self]⟩
  | checkoutAccept =>
      simp only [stampDelivery, updateDeliveryWhere, Program.write_ok, Program.except_bind_ok,
        requireRow_ok, Program.except_pure, Except.ok.injEq] at done
      obtain ⟨_, _, rfl⟩ := done
      refine ⟨_, ?_, rfl⟩
      intro row
      rfl
  | buyerAccept =>
      simp only [stampDelivery, updateDeliveryWhere, Program.write_ok, Program.except_bind_ok,
        requireRow_ok, Program.except_pure, Except.ok.injEq] at done
      obtain ⟨_, _, rfl⟩ := done
      refine ⟨_, ?_, rfl⟩
      intro row
      rfl

theorem legacyOrder_ok {market : State} {legacy : LegacyRequest} {reason : LegacyReason}
    {buyer : String} {order : Order}
    (done : legacyOrder terms world market legacy reason buyer = .ok order) :
    Current market order ∧ market.contracts.find? order.id = none ∧
      market.settlements.find? order.id = none ∧ order.buyer = buyer := by
  simp only [legacyOrder, Program.except_bind_ok, require_ok, Program.except_pure,
    Except.ok.injEq] at done
  obtain ⟨row, found, _, uncontracted, _, unsettled, _, owned, _, _, _, _, _, _, rfl⟩ := done
  exact ⟨(readOrder_ok found).2, uncontracted, unsettled, owned⟩

theorem settleLegacy_moves {legacy : LegacyRequest} {reason : LegacyReason} {receipt : Posting}
    {market next : State} (asked : client legacy.request.requestId)
    (done : settleLegacy terms world legacy reason market = .ok receipt next) :
    Moves terms client market next := by
  simp only [settleLegacy, updateOrderWhere, insertEscrowDecision, Program.bind_ok, read_ok,
    require_ok, Program.write_ok, Program.except_bind_ok, requireRow_ok, insertRow_ok,
    Program.except_pure, Except.ok.injEq, Program.pure_ok] at done
  obtain ⟨buyer, _, ⟨_, rfl⟩, order, _, ⟨found, rfl⟩, chosen, _, ⟨branched, rfl⟩, _, _,
    ⟨escrow, rfl⟩, _, _, ⟨_, rfl⟩, receipt, _, posting, _, _, stamping, _, _, ⟨_, _, rfl⟩, _, _,
    ⟨_, _, _, _, decisions, recorded, rfl⟩, rfl, rfl⟩ := done
  obtain ⟨books, rfl, posted⟩ := postRelease_ok posting
  obtain ⟨stamp, stamped, rfl⟩ := stampDelivery_ok stamping
  obtain ⟨current, uncontracted, unsettled, owned⟩ := legacyOrder_ok found
  have made : LegacySettled terms _ world order legacy reason buyer chosen books receipt stamp
      decisions :=
    { current := current
      uncontracted := uncontracted
      unsettled := unsettled
      owned := owned
      branched := branched
      escrow := escrow
      posted := posted
      stamped := stamped
      recorded := recorded }
  exact Moves.order (.legacySettled asked made)

/-- The orders that a published checkout opens. -/
def OpensLegacy (terms : Terms) (client : Client) (world : World) (checkout : LegacyCheckout) :
    Prop :=
  ∀ market offer receipt, readLegacyOffer terms world market checkout = .ok offer →
    client.opens market (legacyOrderRow terms world checkout offer receipt)

theorem openLegacy_moves {checkout : LegacyCheckout} {offer : LegacyOffer} {market next : State}
    (asked : client checkout.request.requestId) (opens : OpensLegacy terms client world checkout)
    (done : openLegacy terms world checkout market = .ok offer next) :
    Moves terms client market next := by
  simp only [openLegacy, openAccount, insertOrder, Program.bind_ok, read_ok, Program.write_ok,
    Program.except_bind_ok, require_ok, insertRow_ok, Program.except_pure, Except.ok.injEq,
    Program.pure_ok] at done
  obtain ⟨offer, _, ⟨read, rfl⟩, _, _, ⟨opened, account, rfl⟩, receipt, _, posting, _, _,
    ⟨_, amounts, _, ⟨buyer, seller, _⟩, _, _, orders, inserted, rfl⟩, rfl, rfl⟩ := done
  obtain ⟨books, rfl, posted⟩ := post_ok rfl posting
  have made : LegacyOpened terms _ world checkout offer opened books receipt orders :=
    { account := account
      posted := posted
      positive := amounts.2.2.1
      parties := ⟨buyer, seller⟩
      inserted := inserted }
  exact Moves.order (.legacyOpened asked (opens _ _ _ read) made)

theorem buyLegacy_moves {checkout : LegacyCheckout} {market next : State}
    (asked : client checkout.request.requestId) (opens : OpensLegacy terms client world checkout)
    (done : buyLegacy terms world checkout market = .ok () next) :
    Moves terms client market next := by
  simp only [buyLegacy, Program.bind_ok] at done
  obtain ⟨offer, middle, opening, completing⟩ := done
  refine (openLegacy_moves asked opens opening).trans ?_
  unfold completeCheckout at completing
  split at completing
  · simp only [Program.bind_ok, read_ok] at completing
    obtain ⟨order, _, ⟨found, rfl⟩, _, _, preparing, accepting⟩ := completing
    refine (prepareManaged_moves (readOrder_ok found).2 preparing).trans ?_
    unfold acceptCheckout at accepting
    split at accepting
    · simp only [Program.bind_ok, Program.pure_ok] at accepting
      obtain ⟨_, _, settling, _, rfl⟩ := accepting
      exact settleLegacy_moves asked settling
    · obtain ⟨_, rfl⟩ := (Program.pure_ok _ _ _ _).mp accepting
      exact Moves.refl _
  · obtain ⟨_, rfl⟩ := (Program.pure_ok _ _ _ _).mp completing
    exact Moves.refl _

theorem prepareLegacy_moves {request : Request} {orderId : String} {market next : State}
    (done : prepareLegacy terms world request orderId market = .ok () next) :
    Moves terms client market next := by
  simp only [prepareLegacy, Program.bind_ok, read_ok] at done
  obtain ⟨_, _, ⟨_, rfl⟩, order, _, ⟨found, rfl⟩, preparing⟩ := done
  exact prepareManaged_moves (readBuyerOrder_ok found).2.1 preparing

theorem cancelLegacy_moves {request : Request} {orderId : String} {market next : State}
    (asked : client request.requestId)
    (done : cancelLegacy terms world request orderId market = .ok () next) :
    Moves terms client market next := by
  simp only [cancelLegacy, Program.bind_ok, Program.pure_ok] at done
  obtain ⟨_, _, settling, _, rfl⟩ := done
  exact settleLegacy_moves asked settling

theorem acceptLegacy_moves {acceptance : Acceptance} {market next : State}
    (asked : client acceptance.request.requestId)
    (done : acceptLegacy terms world acceptance market = .ok () next) :
    Moves terms client market next := by
  simp only [acceptLegacy, Program.bind_ok, read_ok] at done
  obtain ⟨_, _, ⟨_, rfl⟩, rest⟩ := done
  split at rest
  · exact acceptDelivery_moves rest
  · simp only [acceptUnversioned, Program.bind_ok, Program.pure_ok] at rest
    obtain ⟨_, _, settling, _, rfl⟩ := rest
    exact settleLegacy_moves asked settling

/-! Cases. -/

theorem newCase_named {market : State} {locked : Contract} {order : Order} {actor : String}
    {reason : Reason} {row : Case}
    (drawn : newCase terms world market locked order actor reason = .ok row) :
    row.orderId = order.id := by
  unfold newCase at drawn
  split at drawn
  · cases drawn
    rfl
  · cases drawn

theorem openDispute_moves {locked : Contract} {order : Order} {origin : Origin} {reason : Reason}
    {market next : State} (current : Current market order)
    (agreed : contract terms market order.id = .ok locked)
    (disputable : order.state = .funded ∨ order.state = .delivered)
    (done : openDispute terms world locked order origin reason market = .ok () next) :
    Moves terms client market next := by
  simp only [openDispute, insertCase, Program.bind_ok, read_ok, Program.write_ok,
    Program.except_bind_ok, require_ok, insertRow_ok, Program.except_pure, Except.ok.injEq,
    Program.pure_ok] at done
  obtain ⟨row, _, ⟨drawn, rfl⟩, _, _, ⟨_, _, _, single, cases, inserted, rfl⟩, _, _, turning, _,
    rfl⟩ := done
  obtain ⟨⟨writing, _⟩, rfl, rfl⟩ := transition_ok turning
  have made : Disputed _ order row cases :=
    { current := current
      disputable := disputable
      named := newCase_named drawn
      single := single
      inserted := inserted
      writable := writing }
  exact Moves.order (.disputed made origin reason locked world agreed drawn)

theorem openCase_moves {request : Request} {orderId : String} {reason : Reason}
    {market next : State} (done : openCase terms world request orderId reason market = .ok () next) :
    Moves terms client market next := by
  simp only [openCase, Program.bind_ok, read_ok] at done
  obtain ⟨_, _, ⟨_, rfl⟩, actor, _, ⟨_, rfl⟩, order, _, ⟨found, rfl⟩, locked, _, ⟨agreed, rfl⟩,
    existing, _, ⟨_, rfl⟩, rest⟩ := done
  split at rest
  · obtain ⟨_, rfl⟩ := (Program.pure_ok _ _ _ _).mp rest
    exact Moves.refl _
  · simp only [disputeFresh, Program.bind_ok, read_ok, require_ok] at rest
    obtain ⟨_, _, ⟨disputable, rfl⟩, fault, _, ⟨_, rfl⟩, rest⟩ := rest
    have current := (readOrder_ok found).2
    cases fault with
    | some fault =>
        simp only [resolveFault, Program.bind_ok, Prod.exists, Program.pure_ok] at rest
        obtain ⟨_, _, _, settling, _, rfl⟩ := rest
        exact (plain_settle_moves current settling).1
    | none => exact openDispute_moves current agreed disputable rest

theorem caseFor_ok {market : State} {request : Request} {caseId : String} {parties : Bool}
    {row : Case} (found : caseFor terms market request caseId parties = .ok row) :
    CurrentCase market row ∧ row.id = caseId := by
  simp only [caseFor, readCase, Program.except_bind_ok, requireRow_ok, Program.except_pure,
    Except.ok.injEq] at found
  obtain ⟨_, _, _, _, stored, found, _, _, rfl⟩ := found
  have named : stored.id = caseId := Table.find?_key found
  exact ⟨by rw [CurrentCase, named]; exact found, named⟩

/-- What an accepted ballot says of its case. -/
structure Balloted (terms : Terms) (world : World) (market : State) (ballot : Ballot) (row : Case)
    (cast : Vote) : Prop where
  current : CurrentCase market row
  named : row.id = ballot.proposal.caseId
  shape : ∃ actor, cast = voteRecord world ballot row actor
  member : cast.arbitrator ∈ row.panel
  panel : panelValid terms market row = true
  isOpen : row.state = .open
  intime : world.now < row.roundDeadline
  valid : ∃ order, market.orders.find? row.orderId = some order ∧
    proposalValid row ballot.proposal order.totalPriceMinor = .ok ()
  verified : verifyVote terms world market row cast = .ok ()

theorem readBallot_ok {market : State} {ballot : Ballot} {row : Case} {cast : Vote}
    (read : readBallot terms world market ballot = .ok (row, cast)) :
    Balloted terms world market ballot row cast := by
  simp only [readBallot, Program.except_bind_ok, require_ok, Program.except_pure,
    Except.ok.injEq, Prod.mk.injEq] at read
  obtain ⟨actor, _, row, found, _, ⟨member, panel⟩, _, ⟨isOpen, intime⟩, order, reread, _, valid, _,
    _, _, verified, rfl, rfl⟩ := read
  obtain ⟨current, named⟩ := caseFor_ok found
  obtain ⟨sameId, stored⟩ := readOrder_ok reread
  exact
    { current := current
      named := named
      shape := ⟨actor, rfl⟩
      member := member
      panel := panel
      isOpen := isOpen
      intime := intime
      valid := ⟨order, by rw [← sameId]; exact stored, valid⟩
      verified := verified }

theorem castVote_moves {ballot : Ballot} {row : Case} {cast : Vote} {market next : State}
    (ballotRead : readBallot terms world market ballot = .ok (row, cast)) {previous : Option Vote}
    (done : castVote cast previous market = .ok () next) :
    Moves terms client market next ∧ ∃ votes, next = { market with votes := votes } := by
  cases previous with
  | some vote =>
      simp only [castVote, read_ok] at done
      obtain ⟨_, rfl⟩ := done
      exact ⟨Moves.refl _, _, rfl⟩
  | none =>
      simp only [castVote, insertVote, Program.write_ok, Program.except_bind_ok, insertRow_ok,
        Program.except_pure, Except.ok.injEq] at done
      obtain ⟨_, _, votes, inserted, rfl⟩ := done
      exact ⟨Moves.dispute (.voted ballotRead inserted), votes, rfl⟩

theorem recordDecision_moves {row : Case} {proposal : Proposal} {matching : List Vote}
    {market next : State} (current : CurrentCase market row) (isOpen : row.state = .open)
    (valid : ∃ order, market.orders.find? row.orderId = some order ∧
      proposalValid row proposal order.totalPriceMinor = .ok ())
    (counted : matchingVotes terms world market row proposal = .ok matching)
    (done : recordDecision terms row proposal matching market = .ok () next) :
    Moves terms client market next := by
  unfold recordDecision at done
  split at done
  · rename_i quorum
    simp only [insertDecision, updateCase, Program.bind_ok, Program.write_ok,
      Program.except_bind_ok, require_ok, insertRow_ok, Program.except_pure,
      Except.ok.injEq] at done
    obtain ⟨_, _, ⟨_, ⟨unnamed, _⟩, decisions, inserted, rfl⟩, rfl⟩ := done
    have made : Decided terms world _ row proposal matching decisions :=
      ⟨current, isOpen, valid, counted, quorum, unnamed, inserted⟩
    exact Moves.dispute (.decided made)
  · obtain ⟨_, rfl⟩ := (Program.pure_ok _ _ _ _).mp done
    exact Moves.refl _

theorem vote_moves {ballot : Ballot} {market next : State}
    (done : vote terms world ballot market = .ok () next) : Moves terms client market next := by
  simp only [vote, Program.bind_ok, read_ok, Prod.exists] at done
  obtain ⟨row, cast, _, ⟨ballotRead, rfl⟩, _, _, ⟨_, rfl⟩, _, _, casting, matching, _,
    ⟨counted, rfl⟩, recording⟩ := done
  obtain ⟨voted, votes, rfl⟩ : Moves terms client _ _ ∧ _ := castVote_moves ballotRead casting
  have balloted := readBallot_ok ballotRead
  exact voted.trans
    (recordDecision_moves balloted.current balloted.isOpen balloted.valid counted recording)

theorem execute_moves {row : Case} {decisionId : String} {origin : Origin}
    {receipts : List Posting} {market next : State}
    (done : execute terms world row decisionId origin market = .ok receipts next) :
    Moves terms client market next ∧ next.active = market.active := by
  apply internalMutation_moves _ done
  intro start result reached done
  rcases executeBody_ok done with rfl | ⟨_, _, _, _, _, _, made, rfl⟩
  · exact ⟨Moves.refl _, rfl⟩
  · exact ⟨Moves.order (.settled made), rfl⟩

theorem executeDecision_moves {request : Request} {caseId decisionId : String}
    {market next : State}
    (done : executeDecision terms world request caseId decisionId market = .ok () next) :
    Moves terms client market next := by
  simp only [executeDecision, Program.bind_ok, read_ok, Program.pure_ok] at done
  obtain ⟨_, _, ⟨_, rfl⟩, _, _, ⟨_, rfl⟩, _, _, executing, _, rfl⟩ := done
  exact (execute_moves executing).1

theorem appeal_moves {request : Request} {caseId : String} {market next : State}
    (done : appeal terms world request caseId market = .ok () next) :
    Moves terms client market next := by
  simp only [appeal, updateCase, Program.bind_ok, read_ok, Program.write_ok,
    Except.ok.injEq] at done
  obtain ⟨row, _, ⟨appealRead, rfl⟩, rfl⟩ := done
  exact Moves.dispute (.appealed appealRead)

theorem revoke_moves {request : Request} {caseId decisionId : String} {market next : State}
    (done : revoke terms request caseId decisionId market = .ok () next) :
    Moves terms client market next := by
  simp only [revoke, updateCase, Program.bind_ok, read_ok, Program.write_ok,
    Except.ok.injEq] at done
  obtain ⟨row, _, ⟨revocation, rfl⟩, _, _, rfl, rfl⟩ := done
  exact Moves.dispute (.revoked revocation)

theorem depositRationale_moves {deposit : Deposit} {market next : State}
    (done : depositRationale terms world deposit market = .ok () next) :
    Moves terms client market next := by
  simp only [depositRationale, Program.bind_ok, read_ok, Prod.exists, Program.pure_ok] at done
  obtain ⟨row, evidence, _, ⟨_, rfl⟩, previous, _, ⟨_, rfl⟩, _, _, depositing, _, _, ⟨_, rfl⟩, _,
    rfl⟩ := done
  cases previous with
  | some stored =>
      obtain ⟨_, rfl⟩ := (Program.pure_ok _ _ _ _).mp depositing
      exact Moves.refl _
  | none =>
      simp only [depositNew, insertEvidence, Program.bind_ok, read_ok, Program.write_ok,
        Program.except_bind_ok, insertRow_ok, Program.except_pure, Except.ok.injEq] at depositing
      obtain ⟨_, _, ⟨_, rfl⟩, _, _, stored, _, rfl⟩ := depositing
      exact Moves.dispute (.deposited _ stored)

theorem declareConflict_moves {request : Request} {party : String} {market next : State}
    (done : declareConflict request party market = .ok () next) :
    Moves terms client market next := by
  simp only [declareConflict, Program.bind_ok, read_ok, Program.write_ok, Except.ok.injEq] at done
  obtain ⟨_, _, ⟨_, rfl⟩, _, _, ⟨_, rfl⟩, _, _, ⟨_, rfl⟩, rfl⟩ := done
  exact Moves.dispute (.conflicted _ _)

/-! The timer of cases. -/

/-- Cases that the timer listed and has not come to yet. -/
structure Pending (market : State) (caseIds : List String) : Prop where
  distinct : caseIds.Nodup
  waiting : ∀ id ∈ caseIds, ∃ row, market.cases.find? id = some row ∧
    (row.state = .open ∨ row.state = .decided)

theorem hold_moves {row : Case} {reason : String} {held : List String} {market next : State}
    (current : CurrentCase market row) (pending : row.state = .open ∨ row.state = .decided)
    (done : hold world row reason market = .ok held next) :
    Moves terms client market next ∧ next.active = market.active ∧
      next.cases = market.cases.modify row.id setHeld := by
  simp only [hold, updateCase, Program.bind_ok, Program.write_ok, Except.ok.injEq,
    Program.pure_ok] at done
  obtain ⟨_, _, rfl, _, _, rfl, _, rfl⟩ := done
  exact ⟨Moves.dispute (.held current pending _), rfl, rfl⟩

theorem resolveRow_moves {row : Case} {held : List String} {market next : State}
    (current : CurrentCase market row) (pending : row.state = .open ∨ row.state = .decided)
    (done : resolveRow terms world row market = .ok held next) :
    Moves terms client market next ∧ next.active = market.active ∧
      ∃ change, next.cases = market.cases.modify row.id change := by
  unfold resolveRow at done
  split at done
  · rcases (Program.recover_ok _ _ _ _ _).mp done with carried | ⟨failure, reached, refused, caught⟩
    · simp only [executeDecided, Program.bind_ok, read_ok, Program.pure_ok] at carried
      obtain ⟨_, _, ⟨_, rfl⟩, _, _, executing, _, rfl⟩ := carried
      obtain ⟨moves, active⟩ : Moves terms client _ _ ∧ _ := execute_moves executing
      refine ⟨moves, active, ?_⟩
      rcases execute_cases executing with same | closed
      · exact ⟨fun row => row, by rw [same, Table.modify_self]⟩
      · exact ⟨markExecuted, closed⟩
    · unfold holdOrRaise at caught
      split at caught
      · rename_i listed
        have untouched := executeDecided_clean refused listed
        subst untouched
        obtain ⟨moves, active, shape⟩ : Moves terms client _ _ ∧ _ :=
          hold_moves current pending caught
        exact ⟨moves, active, setHeld, shape⟩
      · exact absurd caught (Program.throw_ok _ _ _ _)
  · obtain ⟨moves, active, shape⟩ : Moves terms client _ _ ∧ _ := hold_moves current pending done
    exact ⟨moves, active, setHeld, shape⟩

theorem resolveAll_moves {caseIds held : List String} {market next : State}
    (pending : Pending market caseIds)
    (done : resolveAll terms world caseIds market = .ok held next) :
    Moves terms client market next ∧ next.active = market.active := by
  induction caseIds generalizing market held with
  | nil =>
      obtain ⟨_, rfl⟩ := (Program.pure_ok _ _ _ _).mp done
      exact ⟨Moves.refl _, rfl⟩
  | cons caseId rest ih =>
      simp only [resolveAll, resolveCase, readCase, Program.bind_ok, read_ok, requireRow_ok,
        Program.pure_ok] at done
      obtain ⟨_, reached, ⟨row, start, ⟨found, rfl⟩, first⟩, _, _, later, _, rfl⟩ := done
      have named : row.id = caseId := Table.find?_key found
      have current : CurrentCase start row := by
        rw [CurrentCase, named]
        exact found
      obtain ⟨listed, atHead, state⟩ := pending.waiting caseId List.mem_cons_self
      rw [found] at atHead
      cases atHead
      obtain ⟨moves, active, change, shape⟩ : Moves terms client _ _ ∧ _ :=
        resolveRow_moves current state first
      obtain ⟨apart, distinct⟩ := List.nodup_cons.mp pending.distinct
      have remaining : Pending reached rest := by
        refine ⟨distinct, ?_⟩
        intro id member
        obtain ⟨other, stored, waiting⟩ := pending.waiting id (List.mem_cons_of_mem _ member)
        have different : id ≠ row.id := by
          rintro rfl
          exact apart (named ▸ member)
        exact ⟨other, by rw [shape, Table.find?_modify_ne _ _ different]; exact stored, waiting⟩
      obtain ⟨tail, tailActive⟩ := ih remaining later
      exact ⟨moves.trans tail, tailActive.trans active⟩

theorem dueCases_pending (market : State) (now limit : Nat) :
    Pending market (dueCases market now limit) := by
  have listed : ∀ id ∈ dueCases market now limit, ∃ row ∈ market.cases.rows,
      caseDue now row = true ∧ row.id = id := by
    intro id member
    obtain ⟨row, inList, named⟩ := List.mem_map.mp (List.mem_of_mem_take member)
    have due := List.mem_filter.mp ((List.perm_insertionSort caseBefore _).mem_iff.mp inList)
    exact ⟨row, due.1, due.2, named⟩
  constructor
  · have unique : ((market.cases.rows.filter (caseDue now)).map Case.id).Nodup :=
      market.cases.unique.sublist (List.filter_sublist.map Case.id)
    have sorted := ((List.perm_insertionSort caseBefore
      (market.cases.rows.filter (caseDue now))).map Case.id).nodup_iff.mpr unique
    exact sorted.sublist (List.take_sublist _ _)
  · intro id member
    obtain ⟨row, stored, due, rfl⟩ := listed id member
    refine ⟨row, (Table.mem_iff_find? _ row).mp stored, ?_⟩
    simp only [caseDue, Bool.and_eq_true, Bool.or_eq_true, beq_iff_eq] at due
    exact due.1

theorem resolveCases_moves {limit : Nat} {held : List String} {market next : State}
    (done : resolveCases terms world limit market = .ok held next) :
    Moves terms client market next ∧ next.active = market.active := by
  simp only [resolveCases, Program.bind_ok, read_ok, Except.ok.injEq] at done
  obtain ⟨_, _, ⟨_, rfl⟩, _, _, ⟨rfl, rfl⟩, resolving⟩ := done
  exact resolveAll_moves (dueCases_pending _ _ _) resolving

/-! Bounties and ordinary money. -/

theorem createBounty_move {offer : BountyOffer} {market next : State}
    (asked : client offer.request.requestId)
    (done : createBounty terms world offer market = .ok () next) :
    MoneyMove terms client market next := by
  simp only [createBounty, openAccount, insertBounty, Program.bind_ok, read_ok, Program.write_ok,
    Program.except_bind_ok, require_ok, insertRow_ok, Program.except_pure, Except.ok.injEq,
    Program.pure_ok] at done
  obtain ⟨publisher, _, ⟨offerRead, rfl⟩, _, _, ⟨opened, account, rfl⟩, _, _, ⟨_, rfl⟩, _, _,
    ⟨_, positive, _, ⟨known, _⟩, bounties, inserted, rfl⟩, receipt, _, posting, _, rfl⟩ := done
  obtain ⟨books, rfl, posted⟩ := post_ok rfl posting
  have made : BountyOpened terms world _ offer publisher opened books receipt bounties :=
    { read := offerRead
      account := account
      positive := positive
      known := known
      inserted := inserted
      posted := posted }
  exact .opened asked made

theorem topUp_move {request : BountyRequest} {amount : Int} {market next : State}
    (asked : client request.request.requestId)
    (done : topUp world request amount market = .ok () next) : MoneyMove terms client market next := by
  simp only [topUp, updateBounty, Program.bind_ok, read_ok, Program.write_ok,
    Except.ok.injEq] at done
  obtain ⟨row, _, ⟨rowRead, rfl⟩, _, _, ⟨_, rfl⟩, _, _, ⟨_, rfl⟩, receipt, _, posting, _, _,
    ⟨rfl, rfl⟩, rfl⟩ := done
  obtain ⟨books, rfl, posted⟩ := post_ok rfl posting
  exact .toppedUp asked rowRead posted

theorem pauseBounty_move {request : BountyRequest} {market next : State}
    (done : pauseBounty request market = .ok () next) : MoneyMove terms client market next := by
  simp only [pauseBounty, updateBounty, Program.bind_ok, read_ok, Program.write_ok,
    Except.ok.injEq] at done
  obtain ⟨row, _, ⟨rowRead, rfl⟩, rfl⟩ := done
  exact .changed rowRead .paused (by decide) (some .publisherPaused)

theorem resumeBounty_move {request : BountyRequest} {market next : State}
    (done : resumeBounty world request market = .ok () next) : MoneyMove terms client market next := by
  simp only [resumeBounty, updateBounty, Program.bind_ok, read_ok, Program.write_ok,
    Except.ok.injEq] at done
  obtain ⟨row, _, ⟨rowRead, rfl⟩, _, _, ⟨_, rfl⟩, _, _, ⟨_, rfl⟩, _, _, ⟨_, rfl⟩, rfl⟩ := done
  exact .changed rowRead .active (by decide) none

theorem refundBounty_ok {request : BountyRequest} {row : Bounty} {remaining : Int}
    {market next : State} (done : refundBounty world request row remaining market = .ok () next) :
    ∃ books, next = { market with books := books } ∧
      Returned market (closeEntry world request.request row remaining) books := by
  unfold refundBounty at done
  split at done
  · rename_i zero
    obtain ⟨_, rfl⟩ := (Program.pure_ok _ _ _ _).mp done
    exact ⟨_, rfl, .empty zero⟩
  · simp only [Program.bind_ok, Program.pure_ok] at done
    obtain ⟨_, _, posting, _, rfl⟩ := done
    obtain ⟨books, rfl, posted⟩ := post_ok rfl posting
    exact ⟨books, rfl, .posted posted⟩

theorem closeBounty_move {request : BountyRequest} {market next : State}
    (asked : client request.request.requestId)
    (done : closeBounty world request market = .ok () next) : MoneyMove terms client market next := by
  simp only [closeBounty, updateBounty, Program.bind_ok, read_ok, Program.write_ok,
    Except.ok.injEq] at done
  obtain ⟨row, _, ⟨rowRead, rfl⟩, _, _, ⟨rfl, rfl⟩, _, _, refunding, rfl⟩ := done
  obtain ⟨books, rfl, returned⟩ := refundBounty_ok refunding
  exact .closed asked rowRead returned

theorem challenge_move {request : BountyRequest} {nonce : String} {market next : State}
    (done : challenge world request nonce market = .ok () next) :
    MoneyMove terms client market next := by
  simp only [challenge, insertChallenge, Program.bind_ok, read_ok, Program.write_ok,
    Program.except_bind_ok, require_ok, insertRow_ok, Program.except_pure, Except.ok.injEq] at done
  obtain ⟨claimant, _, ⟨_, rfl⟩, row, _, ⟨_, rfl⟩, _, _, ⟨_, rfl⟩, _, _, ⟨_, rfl⟩, _, _, ⟨_, rfl⟩,
    key, _, ⟨_, rfl⟩, _, ⟨known, _⟩, challenges, inserted, rfl⟩ := done
  exact .challenged known rfl inserted

theorem pauseExhausted_ok {listing : Bounty} {reason : Option PauseReason} {market next : State}
    (done : pauseExhausted listing reason market = .ok () next) :
    next = { market with bounties := pausedBy market.bounties listing reason } := by
  cases reason with
  | none => exact ((Program.pure_ok _ _ _ _).mp done).2
  | some reason =>
      simp only [pauseExhausted, updateBounty, Program.write_ok, Except.ok.injEq] at done
      exact done.symm

theorem claim_move {request : ClaimRequest} {market next : State}
    (asked : client request.request.requestId)
    (done : claim terms world request market = .ok () next) : MoneyMove terms client market next := by
  simp only [claim, insertClaim, consumeChallenge, Program.bind_ok, read_ok, Prod.exists,
    Program.write_ok, Program.except_bind_ok, require_ok, requireRow_ok, insertRow_ok,
    Program.except_pure, Except.ok.injEq] at done
  obtain ⟨row, listing, _, ⟨claimRead, rfl⟩, receipt, _, posting, _, _,
    ⟨_, ⟨known, _⟩, _, ⟨_, once⟩, claims, inserted, rfl⟩, _, _, ⟨_, _, rfl⟩, reason, _, ⟨rfl, rfl⟩,
    pausing⟩ := done
  obtain ⟨books, rfl, posted⟩ := post_ok rfl posting
  have made : Claimed terms world _ request row listing books receipt claims :=
    { read := claimRead
      posted := posted
      claimant := known
      once := once
      inserted := inserted }
  have shape := pauseExhausted_ok pausing
  subst shape
  exact .claimed asked made

theorem subject_known {market : State} {id : String} {row : Subject}
    (found : Session.subject market.authority id = .ok row) :
    row.resourceId = id ∧ (identity market id).isSome = true := by
  simp only [Session.subject, requireRow_ok] at found
  have stored : identity market id = some row := found
  exact ⟨Table.find?_key found, by rw [stored]; rfl⟩

theorem transferMoney_move {transfer : Transfer} {market next : State}
    (asked : client transfer.request.requestId)
    (done : transferMoney world transfer market = .ok () next) :
    MoneyMove terms client market next := by
  simp only [transferMoney, readTransfer, Program.bind_ok, read_ok, Prod.exists,
    Program.except_bind_ok, require_ok, requireRow_ok, Program.except_pure, Except.ok.injEq,
    Prod.mk.injEq, Program.pure_ok] at done
  obtain ⟨sender, recipient, _, ⟨⟨_, _, _, _, _, _, _, _, source, fromSource, destination,
    toDestination, _, _, _, _, rfl, rfl⟩, rfl⟩, receipt, _, posting, _, rfl⟩ := done
  obtain ⟨books, rfl, posted⟩ := post_ok rfl posting
  obtain ⟨named, known⟩ := subject_known toDestination
  exact .transferred asked rfl rfl
    ⟨(subject_known fromSource).2, by rw [named]; exact known⟩ posted

theorem issueMoney_move {action : IssueAction} {amount : Int} {market next : State}
    (done : issueMoney world action amount market = .ok () next) :
    MoneyMove terms client market next := by
  simp only [issueMoney, Program.bind_ok, read_ok, Program.write_ok, Program.except_bind_ok,
    Prod.exists, Program.except_pure, Except.ok.injEq] at done
  obtain ⟨_, _, ⟨recipient, rfl⟩, books, receipt, appended, rfl⟩ := done
  exact .issued recipient (appendEntry_ok appended)

/-! Local administration. -/

theorem publishPolicy_move {policy : DisputePolicy} {market next : State}
    (done : publishPolicy policy market = .ok () next) : CaseMove terms market next := by
  simp only [publishPolicy, Program.bind_ok, read_ok, Program.write_ok, Program.except_bind_ok,
    insertRow_ok, Program.except_pure, Except.ok.injEq] at done
  obtain ⟨_, _, ⟨_, rfl⟩, _, _, ⟨_, rfl⟩, _, _, ⟨_, rfl⟩, _, _, ⟨_, rfl⟩, policies, _, rfl⟩ := done
  exact .enacted _ policies

theorem changeRole_move {subject : String} {active : Bool} {market next : State}
    (done : changeRole world subject active market = .ok () next) :
    CaseMove terms market next := by
  simp only [changeRole, storeRole, Program.bind_ok, read_ok, Program.write_ok] at done
  obtain ⟨_, _, ⟨_, rfl⟩, _, _, ⟨_, rfl⟩, role, start, ⟨_, rfl⟩, stored⟩ := done
  cases found : start.roles.find? role.subject with
  | some old =>
      simp only [found, Except.ok.injEq] at stored
      subst stored
      exact .appointed _ _
  | none =>
      simp only [found, Program.except_bind_ok, insertRow_ok, Program.except_pure,
        Except.ok.injEq] at stored
      obtain ⟨roles, _, rfl⟩ := stored
      exact .appointed _ roles

theorem changeAuthority_ok {authority : Session.Store} {market next : State}
    (done : changeAuthority authority market = .ok () next) :
    authorityExtends market.authority authority ∧ next = { market with authority := authority } := by
  simp only [changeAuthority, Program.write_ok, Program.except_bind_ok, require_ok,
    Program.except_pure, Except.ok.injEq] at done
  obtain ⟨_, extended, rfl⟩ := done
  exact ⟨extended, rfl⟩

/-! The address of an order. -/

theorem notifyDelivered_moves {order : Order} {market next : State}
    (current : Current market order)
    (done : notifyDelivered world order market = .ok () next) : Moves terms client market next := by
  unfold notifyDelivered at done
  split at done
  · simp only [Program.bind_ok, Program.pure_ok] at done
    obtain ⟨_, _, mailing, _, rfl⟩ := done
    exact (enqueueNotification_moves current mailing).1
  · obtain ⟨_, rfl⟩ := (Program.pure_ok _ _ _ _).mp done
    exact Moves.refl _

theorem bindEmail_moves {binding : EmailBinding} {market next : State}
    (done : bindEmail terms world binding market = .ok () next) :
    Moves terms client market next := by
  simp only [bindEmail, Program.bind_ok, read_ok, Prod.exists] at done
  obtain ⟨_, _, ⟨_, rfl⟩, order, _, ⟨found, rfl⟩, _, _, ⟨_, rfl⟩, _, _, ⟨_, rfl⟩, _, _, ⟨_, rfl⟩,
    _, _, _, ⟨_, rfl⟩, _, _, ⟨_, rfl⟩, saved, _, saving, _, _, ⟨_, rfl⟩, notifying⟩ := done
  obtain ⟨moves, current, _⟩ : Moves terms client _ _ ∧ _ ∧ _ :=
    saveTarget_moves (readBuyerOrder_ok found).2.1 (by rfl) saving
  exact moves.trans (notifyDelivered_moves current notifying)

theorem verifyEmail_moves {proof : EmailProof} {market next : State}
    (done : verifyEmail world proof market = .ok () next) : Moves terms client market next := by
  simp only [verifyEmail, Program.bind_ok, read_ok] at done
  obtain ⟨_, _, ⟨_, rfl⟩, order, _, ⟨found, rfl⟩, _, _, ⟨_, rfl⟩, _, _, ⟨_, rfl⟩, saved, _, saving,
    _, _, ⟨_, rfl⟩, notifying⟩ := done
  obtain ⟨moves, current, _⟩ : Moves terms client _ _ ∧ _ ∧ _ :=
    saveTarget_moves (readBuyerOrder_ok found).2.1 (by rfl) saving
  exact moves.trans (notifyDelivered_moves current notifying)

theorem disableEmail_moves {request : Request} {orderId : String} {market next : State}
    (done : disableEmail request orderId market = .ok () next) :
    Moves terms client market next := by
  simp only [disableEmail, Program.bind_ok, read_ok, Program.pure_ok] at done
  obtain ⟨_, _, ⟨_, rfl⟩, order, _, ⟨found, rfl⟩, _, _, saving, _, rfl⟩ := done
  exact (saveTarget_moves (readBuyerOrder_ok found).2.1 (by rfl) saving).1

/-! Every operation. -/

/-- The request id that an operation gets from outside. -/
def Op.clientId (op : Op) : Option String := op.entry.map fun entry => entry.1.requestId

/-- An operation opens the orders that a client may open. -/
def Opens (terms : Terms) (client : Client) (world : World) : Op → Prop
  | .reserve checkout _ => OpensOffer terms client world checkout
  | .buy checkout _ => OpensOffer terms client world checkout
  | .buyLegacy checkout => OpensLegacy terms client world checkout
  | .redeem redemption => OpensRedeemed terms client world redemption
  | _ => True

theorem opens_any (op : Op) : Opens terms Client.any world op := by
  cases op
  case reserve => exact fun _ _ _ _ => trivial
  case buy => exact fun _ _ _ _ => trivial
  case buyLegacy => exact fun _ _ _ _ => trivial
  case redeem => exact fun _ _ _ _ => trivial
  all_goals trivial

/-- No operation but a redemption is registered as one. -/
theorem routed_ordinary {op : Op} {request : Request} {operation : String} {version : Nat}
    (routes : op.entry = some (request, operation, version)) (other : operation ≠ "money.redeem")
    (done : routed op = .ok ()) : ¬ isOperation request "money.redeem" 3 := by
  simp only [routed, routes, require_ok] at done
  rintro ⟨redeem, _⟩
  exact other (done.1.symm.trans redeem)

theorem orderBoundary_moves {request : Request} {orderId : Option String} {handler : Tx Unit}
    {market next : State}
    (body : ∀ start reached, handler start = .ok () reached → Moves terms client start reached)
    (done : orderBoundary terms world request orderId handler market = .ok () next) :
    Moves terms client market next ∧ next.active = market.active :=
  operationBoundary_moves (fun start _ reached => body start reached) done

theorem caseBoundary_moves {request : Request} {caseId : String} {handler : Tx Unit}
    {market next : State}
    (body : ∀ start reached, handler start = .ok () reached → Moves terms client start reached)
    (done : caseBoundary terms world request caseId handler market = .ok () next) :
    Moves terms client market next ∧ next.active = market.active := by
  simp only [caseBoundary, Program.bind_ok, read_ok] at done
  obtain ⟨_, _, ⟨_, rfl⟩, bounded⟩ := done
  exact operationBoundary_moves (fun start _ reached => body start reached) bounded

theorem MoneyMove.alone {market next : State} (move : MoneyMove terms client market next) :
    Moves terms client market next ∧ next.active = market.active := by
  refine ⟨Moves.money move, ?_⟩
  cases move <;> rfl

theorem CaseMove.alone {market next : State} (move : CaseMove terms market next) :
    Moves terms client market next ∧ next.active = market.active := by
  refine ⟨Moves.dispute move, ?_⟩
  cases move <;> rfl

/-- A successful operation is a run of moves under its own request id; afterwards no
order is left that it might still write. -/
theorem perform_moves {op : Op} {market next : State} (asked : ∀ id ∈ op.clientId, client id)
    (opens : Opens terms client world op)
    (done : perform terms world op market = .ok () next) :
    Moves terms client market next ∧ next.active = market.active := by
  simp only [perform, Program.bind_ok, read_ok] at done
  obtain ⟨_, _, ⟨routing, rfl⟩, done⟩ := done
  cases op with
  | reserve checkout explicit => exact orderBoundary_moves (fun _ _ => reserve_moves opens) done
  | buy checkout explicit =>
      have ordinary := routed_ordinary rfl (by decide) routing
      exact orderBoundary_moves (fun _ _ => buy_moves (asked _ rfl) opens ordinary) done
  | buyLegacy checkout =>
      exact orderBoundary_moves (fun _ _ => buyLegacy_moves (asked _ rfl) opens) done
  | pay payment =>
      have ordinary := routed_ordinary rfl (by decide) routing
      exact orderBoundary_moves (fun _ _ => pay_moves (asked _ rfl) ordinary) done
  | cancel request orderId => exact orderBoundary_moves (fun _ _ => cancelRequest_moves) done
  | cancelLegacy request orderId =>
      exact orderBoundary_moves (fun _ _ => cancelLegacy_moves (asked _ rfl)) done
  | prepareOrder request orderId => exact orderBoundary_moves (fun _ _ => prepareOrder_moves) done
  | prepareLegacy request orderId => exact orderBoundary_moves (fun _ _ => prepareLegacy_moves) done
  | submit submission => exact orderBoundary_moves (fun _ _ => submitDelivery_moves) done
  | accept acceptance => exact orderBoundary_moves (fun _ _ => acceptDelivery_moves) done
  | acceptLegacy acceptance =>
      exact orderBoundary_moves (fun _ _ => acceptLegacy_moves (asked _ rfl)) done
  | redeem redemption =>
      exact orderBoundary_moves (fun _ _ => redeem_moves (asked _ rfl) opens) done
  | bindEmail binding => exact orderBoundary_moves (fun _ _ => bindEmail_moves) done
  | verifyEmail proof => exact orderBoundary_moves (fun _ _ => verifyEmail_moves) done
  | disableEmail request orderId => exact orderBoundary_moves (fun _ _ => disableEmail_moves) done
  | openCase request orderId reason => exact orderBoundary_moves (fun _ _ => openCase_moves) done
  | vote ballot => exact caseBoundary_moves (fun _ _ => vote_moves) done
  | depositRationale deposit => exact caseBoundary_moves (fun _ _ => depositRationale_moves) done
  | execute request caseId decisionId =>
      exact caseBoundary_moves (fun _ _ => executeDecision_moves) done
  | appeal request caseId => exact caseBoundary_moves (fun _ _ => appeal_moves) done
  | revoke request caseId decisionId => exact caseBoundary_moves (fun _ _ => revoke_moves) done
  | declareConflict request party =>
      exact orderBoundary_moves (fun _ _ => declareConflict_moves) done
  | resolveDue limit =>
      simp only [handle, Program.bind_ok, Program.pure_ok] at done
      obtain ⟨_, _, resolving, _, rfl⟩ := done
      exact resolveDue_moves resolving
  | resolveCases limit =>
      simp only [handle, Program.bind_ok, Program.pure_ok] at done
      obtain ⟨_, _, resolving, _, rfl⟩ := done
      exact resolveCases_moves resolving
  | createBounty offer => exact (createBounty_move (asked _ rfl) done).alone
  | topUp request amount => exact (topUp_move (asked _ rfl) done).alone
  | pauseBounty request => exact (pauseBounty_move done).alone
  | resumeBounty request => exact (resumeBounty_move done).alone
  | closeBounty request => exact (closeBounty_move (asked _ rfl) done).alone
  | challenge request nonce => exact (challenge_move done).alone
  | claim request => exact (claim_move (asked _ rfl) done).alone
  | transfer money => exact (transferMoney_move (asked _ rfl) done).alone
  | issue action amount => exact (issueMoney_move done).alone
  | publishPolicy policy => exact (publishPolicy_move done).alone
  | changeRole subject active => exact (changeRole_move done).alone
  | authority next =>
      obtain ⟨extended, rfl⟩ := changeAuthority_ok done
      exact ⟨Moves.one (.authority extended), rfl⟩

theorem step_moves {next : World × Op} {market : State} (asked : ∀ id ∈ next.2.clientId, client id)
    (opens : Opens terms client next.1 next.2) :
    Moves terms client market (step terms next market) ∧
      (step terms next market).active = market.active := by
  rcases step_cases terms next market with same | done
  · rw [same]
    exact ⟨Moves.refl market, rfl⟩
  · exact perform_moves asked opens done

/-- A run of operations is a run of moves. -/
theorem run_moves {steps : List (World × Op)} {market : State}
    (asked : ∀ next ∈ steps, ∀ id ∈ next.2.clientId, client id)
    (opens : ∀ next ∈ steps, Opens terms client next.1 next.2) :
    Moves terms client market (Run.run (step terms) steps market) := by
  induction steps generalizing market with
  | nil => exact Moves.refl market
  | cons next rest ih =>
      have first : Moves terms client market (step terms next market) :=
        (step_moves (asked next List.mem_cons_self) (opens next List.mem_cons_self)).1
      exact first.trans (ih (fun later member => asked later (List.mem_cons_of_mem next member))
        fun later member => opens later (List.mem_cons_of_mem next member))

theorem run_moves_any {steps : List (World × Op)} {market : State} :
    Moves terms Client.any market (Run.run (step terms) steps market) :=
  run_moves (fun _ _ _ _ => trivial) fun next _ => opens_any next.2

/-- Between two operations no order may be written. -/
theorem run_active (steps : List (World × Op)) : (run terms steps).active = [] := by
  have kept : ∀ (next : World × Op) (market : State), market.active = [] →
      (step terms next market).active = [] := by
    intro next market none
    have stepped : Moves terms Client.any market _ ∧ _ :=
      step_moves (fun _ _ => trivial) (opens_any next.2)
    exact stepped.2.trans none
  exact Run.run_invariant (step terms) kept steps State.empty rfl

theorem reachable_moves {market : State} (reached : Reachable terms market) :
    Moves terms Client.any State.empty market := by
  obtain ⟨steps, rfl⟩ := reached
  exact run_moves_any

/-- An invariant of every move is an invariant of every run. -/
theorem moves_invariant {Inv : State → Prop}
    (kept : ∀ market next, Inv market → Move terms client market next → Inv next)
    {market next : State} (moves : Moves terms client market next) (holds : Inv market) :
    Inv next := by
  induction moves with
  | refl => exact holds
  | tail _ move ih => exact kept _ _ ih move

end MsgServer.Market
