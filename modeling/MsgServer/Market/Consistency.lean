import MsgServer.Market.Projection

/-!
Every move keeps the rows of an order in agreement with its contract. The moves that
rewrite a pending order have only its own columns to answer for; a settlement has to
show that what it paid and granted is what it says.
-/

namespace MsgServer.Market

open Library Ledger

variable {terms : Terms} {client : Client}

theorem deliverySnapshot_congr {market next : State} (same : next.deliveries = market.deliveries)
    (id : String) : deliverySnapshot next id = deliverySnapshot market id := by
  simp only [deliverySnapshot, same]

/-- A rewrite that touches nothing but the row and the transitions. -/
theorem rewrites_row {market next : State} {order : Order} {change : Order → Order}
    (current : Current market order) (keeps : Keeps change)
    (authority : next.authority = market.authority)
    (orders : next.orders = market.orders.modify order.id change)
    (contracts : next.contracts = market.contracts) (books : next.books = market.books)
    (settlements : next.settlements = market.settlements)
    (deliveries : next.deliveries = market.deliveries)
    (entitlements : next.entitlements = market.entitlements) :
    Rewrites market next order change where
  current := current
  keeps := keeps
  authority := authority
  orders := orders
  contracts := contracts
  postings := by rw [books]; exact fun _ _ found => found
  settlements := by rw [settlements]; exact fun _ _ => rfl
  deliveries := fun id _ => deliverySnapshot_congr deliveries id
  entitlements := by rw [entitlements]; exact fun _ _ found => found

/-- Moves that rewrite a pending order and neither settle nor deliver anything. -/
theorem Consistent.turn {market next : State} {order : Order} {state : OrderState}
    (consistent : Consistent terms market)
    (rewrites : Rewrites market next order (setState state))
    (pending : order.state ≠ .settled ∧ order.state ≠ .refunded)
    (later : state ≠ .settled ∧ state ≠ .refunded)
    (sound : OrderSound next (setState state order))
    (settlements : next.settlements = market.settlements)
    (decisions : next.escrowDecisions = market.escrowDecisions) : Consistent terms next := by
  apply consistent.rewrite rewrites _ rfl sound
  · rw [settlements]
    exact fun _ member => Or.inl member
  · rw [decisions]
    exact fun _ member => Or.inl member
  · intro locked found made
    obtain ⟨named, _, _⟩ := consistent.own rewrites.current found
    exact made.restate rewrites named pending later settlements made.digest
      (payment_kept rewrites.postings made.payment)

/-- Past its payment an order may be delivered. -/
theorem past {state : OrderState} {P : Prop} (later : state ≠ .created ∧ state ≠ .funded) :
    state = .created ∨ state = .funded → P := by
  rintro (created | funded)
  · exact absurd created later.1
  · exact absurd funded later.2

theorem setState_staged {order : Order} {state : OrderState} (staged : Staged order)
    (funding : order.state.funding = true) (later : state.funding = true) :
    Staged (setState state order) := by
  rcases staged with ⟨_, _, created | cancelled⟩ | ⟨id, payment, refs, _⟩ | settled | refunded
  · simp [created, OrderState.funding] at funding
  · simp [cancelled, OrderState.funding] at funding
  · exact Or.inr (Or.inl ⟨id, payment, refs, later⟩)
  · simp [settled, OrderState.funding] at funding
  · simp [refunded, OrderState.funding] at funding

/-- The payment of an order whose escrow holds its price. -/
theorem Staged.payment {order : Order} (staged : Staged order)
    (funding : order.state.funding = true) :
    ∃ id, order.paymentTransactionId = some id ∧ order.receiptRefs = [id] := by
  rcases staged with ⟨_, _, created | cancelled⟩ | ⟨id, payment, refs, _⟩ | settled | refunded
  · simp [created, OrderState.funding] at funding
  · simp [cancelled, OrderState.funding] at funding
  · exact ⟨id, payment, refs⟩
  · simp [settled, OrderState.funding] at funding
  · simp [refunded, OrderState.funding] at funding

theorem Turned.rewrites {market : State} {order : Order} {state : OrderState}
    (made : Turned market order state) (origin : Origin) (reason : Reason) :
    Rewrites market (market.turn order state origin reason) order (setState state) :=
  rewrites_row made.current (keeps_setState state) rfl rfl rfl rfl rfl rfl rfl

theorem Disputed.rewrites {market : State} {order : Order} {row : Case} {cases : Table Case.id}
    (made : Disputed market order row cases) (origin : Origin) (reason : Reason) :
    Rewrites market (State.turn { market with cases := cases } order .disputed origin reason) order
      (setState .disputed) :=
  rewrites_row made.current (keeps_setState _) rfl rfl rfl rfl rfl rfl rfl

theorem consistent_turned {market : State} {order : Order} {state : OrderState}
    (consistent : Consistent terms market) (made : Turned market order state) (origin : Origin)
    (reason : Reason) : Consistent terms (market.turn order state origin reason) := by
  have rewrites := made.rewrites origin reason
  have sound := consistent.orders order made.current.mem
  have turning := made.turning
  generalize before : order.state = from_ at turning
  cases turning with
  | cancelled =>
      apply consistent.turn rewrites (by simp [before]) (by decide) _ rfl rfl
      refine ⟨sound.amounts, ?_, past (by decide : OrderState.cancelled ≠ .created ∧ OrderState.cancelled ≠ .funded)⟩
      rcases sound.staged with ⟨payment, refs, _⟩ | ⟨_, _, _, funding⟩ | settled | refunded
      · exact Or.inl ⟨payment, refs, Or.inr rfl⟩
      · simp [before, OrderState.funding] at funding
      · simp [before] at settled
      · simp [before] at refunded
  | accepted =>
      apply consistent.turn rewrites (by simp [before]) (by decide) _ rfl rfl
      exact ⟨sound.amounts, setState_staged sound.staged (by rw [before]; rfl) rfl,
        past (by decide : OrderState.accepted ≠ .created ∧ OrderState.accepted ≠ .funded)⟩

theorem consistent_disputed {market : State} {order : Order} {row : Case}
    {cases : Table Case.id} (consistent : Consistent terms market)
    (made : Disputed market order row cases) (origin : Origin) (reason : Reason) :
    Consistent terms (State.turn { market with cases := cases } order .disputed origin reason) := by
  have rewrites := made.rewrites origin reason
  have sound := consistent.orders order made.current.mem
  have funding : order.state.funding = true := by
    rcases made.disputable with state | state <;> rw [state] <;> rfl
  apply consistent.turn rewrites (funding_pending funding) (by decide) _ rfl rfl
  exact ⟨sound.amounts, setState_staged sound.staged funding rfl,
    past (by decide : OrderState.disputed ≠ .created ∧ OrderState.disputed ≠ .funded)⟩

theorem consistent_retargeted {market : State} {order : Order}
    (consistent : Consistent terms market) (current : Current market order) (target : Target)
    (handle : target.handleSnapshot = order.deliveryTarget.handleSnapshot) :
    Consistent terms { market with
      orders := market.orders.modify order.id fun row => { row with deliveryTarget := target } } := by
  have rewrites : Rewrites market { market with
      orders := market.orders.modify order.id fun row => { row with deliveryTarget := target } }
      order fun row => { row with deliveryTarget := target } :=
    rewrites_row current (keeps_target target) rfl rfl rfl rfl rfl rfl rfl
  have sound := consistent.orders order current.mem
  apply consistent.rewrite rewrites _ handle ⟨sound.amounts, sound.staged, sound.undelivered⟩
    (fun _ member => Or.inl member) (fun _ member => Or.inl member)
  intro locked found made
  obtain ⟨named, _, _⟩ := consistent.own current found
  refine ⟨made.version, made.intent, ?_, made.fixed, made.digest, made.payment, made.settlement⟩
  rw [named]
  exact rewrites.found

/-- The columns of an order that its contract names again. -/
theorem Projected.columns {market : State} {locked : Contract} {order : Order}
    (made : Projected terms market locked order) :
    order.buyer = locked.buyer ∧ order.seller = locked.seller ∧
      order.escrowSubject = locked.escrowSubject ∧
      order.totalPriceMinor = locked.totalPriceMinor ∧
      order.currencyId = locked.listing.currencyId :=
  ⟨congrArg Fixed.buyer made.fixed, congrArg Fixed.seller made.fixed,
    congrArg Fixed.escrowSubject made.fixed, congrArg Fixed.totalPriceMinor made.fixed,
    congrArg Fixed.currencyId made.fixed⟩

theorem Funded.rewrites {market : State} {world : World} {request : Request} {order : Order}
    {locked : Contract} {books : Books} {receipt : Posting}
    (made : Funded terms market world request order locked books receipt) :
    Rewrites market (market.funded world request order locked books receipt) order
      fun row => setState .funded (paid world request receipt row) where
  current := made.current
  keeps := (keeps_paid world request receipt).comp (keeps_setState .funded)
  authority := rfl
  orders := funded_orders _ _ _ _ _ _ _
  contracts := rfl
  postings := fun _ _ found => made.posted.appended.found found
  settlements := fun _ _ => rfl
  deliveries := fun _ _ => rfl
  entitlements := fun _ _ found => found

theorem consistent_funded {market : State} {world : World} {request : Request} {order : Order}
    {locked : Contract} {books : Books} {receipt : Posting} (consistent : Consistent terms market)
    (made : Funded terms market world request order locked books receipt) :
    Consistent terms (market.funded world request order locked books receipt) := by
  have rewrites := made.rewrites
  have sound := consistent.orders order made.current.mem
  have undelivered := sound.undelivered (Or.inl made.created)
  have soundPaid : OrderSound (market.funded world request order locked books receipt)
      (setState .funded (paid world request receipt order)) :=
    ⟨sound.amounts, Or.inr (Or.inl ⟨receipt.transactionId, rfl, rfl, rfl⟩), fun _ => undelivered⟩
  apply consistent.rewrite rewrites _ rfl soundPaid
    (fun _ member => Or.inl member) (fun _ member => Or.inl member)
  intro other found projected
  obtain ⟨named, _, _⟩ := consistent.own made.current found
  have same : other = locked :=
    Option.some.inj (found.symm.trans (contract_ok made.agreed).1)
  rw [same] at named projected ⊢
  apply projected.restate rewrites named (by simp [made.created]) (by simp [setState]) rfl
    made.digest
  -- The payment of the order is the posting just made.
  apply (paymentCheck_some rfl).mpr
  obtain ⟨buyer, _, escrow, total, currency⟩ := projected.columns
  obtain ⟨transactionId, sequence, shape⟩ := made.posted.appended.shape
  have stored := made.posted.appended.stored
  show (books.postings.find? receipt.transactionId).map paymentRow = _
  rw [stored, Option.map_some, shape]
  simp [paymentRow, EntryRequest.posting, payment, entry, ← buyer, ← escrow, ← total,
    ← currency, sound.amounts.2, named, setState, paid]

theorem Dispatched.rewrites {market : State} {order : Order} {delivery : Delivery}
    {deliveries : Table Delivery.orderId} (made : Dispatched market order delivery deliveries)
    (origin : Origin) (envelopes : Table Envelope.orderId) :
    Rewrites market (market.dispatched order origin deliveries envelopes) order
      fun row => setDelivered origin.now (setState .delivered row) where
  current := made.current
  keeps := (keeps_setState .delivered).comp (keeps_setDelivered origin.now)
  authority := rfl
  orders := dispatched_orders _ _ _ _ _
  contracts := rfl
  postings := fun _ _ found => found
  settlements := fun _ _ => rfl
  deliveries := by
    intro id different
    show (deliveries.find? id).map Delivery.committed = _
    rw [Table.find?_insert made.inserted, if_neg (by rw [made.named]; exact Ne.symm different)]
    rfl
  entitlements := fun _ _ found => found

theorem consistent_dispatched {market : State} {order : Order} {delivery : Delivery}
    {deliveries : Table Delivery.orderId} (consistent : Consistent terms market)
    (made : Dispatched market order delivery deliveries) (origin : Origin)
    (envelopes : Table Envelope.orderId) :
    Consistent terms (market.dispatched order origin deliveries envelopes) := by
  have rewrites := made.rewrites origin envelopes
  have sound := consistent.orders order made.current.mem
  have funding : order.state.funding = true := by rw [made.deliverable.1]; rfl
  obtain ⟨id, payment, refs⟩ := sound.staged.payment funding
  have soundDelivered : OrderSound (market.dispatched order origin deliveries envelopes)
      (setDelivered origin.now (setState .delivered order)) :=
    ⟨sound.amounts, Or.inr (Or.inl ⟨id, payment, refs, rfl⟩), past (by simp [setDelivered, setState])⟩
  apply consistent.rewrite rewrites _ rfl soundDelivered
    (fun _ member => Or.inl member) (fun _ member => Or.inl member)
  intro locked found projected
  obtain ⟨named, _, _⟩ := consistent.own made.current found
  exact projected.restate rewrites named (funding_pending funding)
    (by simp [setDelivered, setState]) rfl projected.digest
    (payment_kept rewrites.postings projected.payment)

/-! A settlement shows what it did. -/

/-- One leg as the settlement describes it; an empty one is not mentioned. -/
theorem Paid.legs {subject? : String → Option Subject} {order : Order} {recipient : String}
    {request : EntryRequest} {before after : Books} {receipts : List Posting}
    (paid : Paid subject? order recipient request before after receipts) :
    receipts.map legOf =
      [Leg.mk request.kind (some order.escrowSubject) (some recipient) request.amount currencyId
        request.reference].filter fun leg => leg.amountMinor != 0 := by
  cases paid with
  | empty zero => simp [zero]
  | posted nonzero appended =>
      obtain ⟨transactionId, sequence, rfl⟩ := appended.shape
      simp [nonzero, legOf, EntryRequest.posting, released]

theorem Paid.found {subject? : String → Option Subject} {order : Order} {recipient : String}
    {request : EntryRequest} {before after : Books} {receipts : List Posting}
    (paid : Paid subject? order recipient request before after receipts) {id : String}
    {old : Posting} (stored : before.postings.find? id = some old) :
    after.postings.find? id = some old := by
  cases paid with
  | empty zero => exact stored
  | posted nonzero appended => exact appended.found stored

theorem Paid.stored {subject? : String → Option Subject} {order : Order} {recipient : String}
    {request : EntryRequest} {before after : Books} {receipts : List Posting}
    (paid : Paid subject? order recipient request before after receipts) :
    ∀ receipt ∈ receipts, after.postings.find? receipt.transactionId = some receipt := by
  cases paid with
  | empty zero => simp
  | posted nonzero appended =>
      intro receipt member
      rw [List.mem_singleton.mp member]
      exact appended.stored

variable {world : World} {market : State} {order : Order} {locked : Contract}
  {request : SettleRequest} {payout : Payout}

theorem Settled.found (made : Settled terms world market order locked request payout) {id : String}
    {old : Posting} (stored : market.books.postings.find? id = some old) :
    payout.books.postings.find? id = some old := by
  obtain ⟨middle, refund, release⟩ := made.paid
  exact release.found (refund.found stored)

theorem Settled.stored (made : Settled terms world market order locked request payout) :
    ∀ receipt ∈ payout.receipts,
      payout.books.postings.find? receipt.transactionId = some receipt := by
  obtain ⟨middle, refund, release⟩ := made.paid
  intro receipt member
  rcases List.mem_append.mp member with inRefund | inRelease
  · exact release.found (refund.stored receipt inRefund)
  · exact release.stored receipt inRelease

theorem Settled.legs (made : Settled terms world market order locked request payout)
    (projected : Projected terms market locked order) (currency : order.currencyId = currencyId)
    (named : locked.orderId = order.id) :
    payout.receipts.map legOf =
      expectedLegs locked request.refundMinor (order.totalPriceMinor - request.refundMinor) := by
  obtain ⟨middle, refund, release⟩ := made.paid
  obtain ⟨buyer, seller, escrow, _, sameCurrency⟩ := projected.columns
  rw [Payout.receipts, List.map_append, refund.legs, release.legs, ← List.filter_append]
  simp only [expectedLegs, refundEntry, releaseEntry, List.singleton_append, ← buyer, ← seller,
    ← escrow, ← sameCurrency, currency, named]

theorem settledState_cases (order : Order) (refundMinor : Int) :
    settledState order refundMinor = .refunded ∨ settledState order refundMinor = .settled := by
  unfold settledState
  split
  · exact Or.inl rfl
  · exact Or.inr rfl

/-- Only a paid and unresolved order is settled. -/
theorem Settled.funding (made : Settled terms world market order locked request payout) :
    order.state.funding = true := by
  rcases made.legal with ⟨funded, _⟩ | legal
  · rw [funded]
    rfl
  · rcases settledState_cases order request.refundMinor with state | state <;>
      rw [state] at legal <;> generalize order.state = before at legal <;>
      cases before <;> simp [transitions] at legal <;> rfl

theorem Settled.acceptance (made : Settled terms world market order locked request payout)
    (version : locked.version = 4) (undecided : request.decisionId = none)
    (released : order.totalPriceMinor - request.refundMinor ≠ 0) :
    request.reason = .buyerAcceptance ∧ request.refundMinor = 0 := by
  have authority := made.authority
  have noDecision : request.decision = none := Option.map_eq_none_iff.mp undecided
  have partly : request.refundMinor ≠ order.totalPriceMinor := by omega
  simp only [settleAuthority, version, noDecision, partly, if_false, Program.except_bind_ok,
    require_ok, Nat.reduceEqDiff] at authority
  obtain ⟨_, accepted, whole, _⟩ := authority
  exact ⟨(accepted trivial).1, whole⟩

theorem Settled.granted (made : Settled terms world market order locked request payout)
    (sound : OrderSound market order) (named : locked.orderId = order.id) :
    entitlementGrant (market.settled order request payout) locked
      (closeOrder order request.origin.now payout.receipts
        (setState (settledState order request.refundMinor) order))
      (statement order request payout.receipts (deliverySnapshot market order.id)
        payout.entitlementId) = .ok () := by
  unfold entitlementGrant
  split
  · rename_i version
    have authority := made.authority
    simp only [settleAuthority, version, if_true, require_ok] at authority
    obtain ⟨_, whole, funded, _, reason, _⟩ := authority
    obtain ⟨undelivered, unsent⟩ := sound.undelivered (Or.inr funded)
    have settled : settledState order request.refundMinor = .settled := by
      have positive := sound.amounts.1
      rw [settledState, if_neg (by omega)]
    cases made.grant with
    | none other same unnamed => exact absurd version other
    | granted purchase receipt _ asked first capacity inserted isNamed =>
        obtain ⟨extra, isExtra, offer, rfl⟩ := made.purchase purchase asked
        simp only [grantCheck, Program.except_bind_ok, requireRow_ok, require_ok]
        refine ⟨(), ⟨settled, reason, whole, undelivered, ?_⟩, extra, isExtra, receipt, first, _,
          isNamed, ?_⟩
        · rw [named]
          exact unsent
        · show payout.entitlements.find? _ = _
          rw [Table.find?_insert inserted]
          simp [Market.granted, expectedGrant, statement, offer]
  · rfl

theorem Settled.accounted (made : Settled terms world market order locked request payout)
    (sound : OrderSound market order) (projected : Projected terms market locked order)
    (named : locked.orderId = order.id) :
    Accounted (market.settled order request payout) locked
      (closeOrder order request.origin.now payout.receipts
        (setState (settledState order request.refundMinor) order))
      (statement order request payout.receipts (deliverySnapshot market order.id)
        payout.entitlementId) := by
  have bounds := made.bounds
  obtain ⟨id, payment, refs⟩ := sound.staged.payment made.funding
  obtain ⟨_, _, _, total, _⟩ := projected.columns
  constructor
  case named => exact named.symm
  case nonnegative =>
    constructor
    · exact bounds.1
    · show 0 ≤ order.totalPriceMinor - request.refundMinor
      omega
  case legs => exact made.legs projected sound.amounts.2 named
  case total =>
    show request.refundMinor + (order.totalPriceMinor - request.refundMinor) = _
    omega
  case state =>
    show settledState order request.refundMinor =
      finalState (order.totalPriceMinor - request.refundMinor)
    simp only [settledState, finalState]
    exact if_congr (by omega) rfl rfl
  case settledAt => rfl
  case refs =>
    show (order.receiptRefs ++ payout.receipts.map Posting.transactionId).map some =
      order.paymentTransactionId :: payout.receipts.map _
    simp [refs, payment, Function.comp_def]
  case facts => rfl
  case delivery =>
    rw [named]
    rfl
  case acceptance =>
    rintro ⟨version, undecided, released⟩
    exact made.acceptance version undecided released
  case grant => exact made.granted sound named
  case recorded => exact made.stored

theorem Settled.rewrites (made : Settled terms world market order locked request payout) :
    Rewrites market (market.settled order request payout) order fun row =>
      closeOrder order request.origin.now payout.receipts
        (setState (settledState order request.refundMinor) row) where
  current := made.current
  keeps := (keeps_setState _).comp (keeps_closeOrder _ _ _)
  authority := rfl
  orders := settled_orders _ _ _ _
  contracts := rfl
  postings := fun _ _ => made.found
  settlements := by
    intro id different
    show payout.settlements.find? id = _
    rw [Table.find?_insert made.recorded, if_neg (by exact Ne.symm different)]
  deliveries := fun _ _ => rfl
  entitlements := by
    intro id row found
    show payout.entitlements.find? id = some row
    cases made.grant with
    | none version same unnamed =>
        rw [same]
        exact found
    | granted purchase receipt version asked first capacity inserted named =>
        rw [Table.find?_insert inserted, if_neg]
        · exact found
        · intro clash
          have fresh := Table.insert_fresh inserted
          rw [clash, found] at fresh
          cases fresh

theorem consistent_settled (consistent : Consistent terms market)
    (made : Settled terms world market order locked request payout) :
    Consistent terms (market.settled order request payout) := by
  have sound := consistent.orders order made.current.mem
  have final := settledState_cases order request.refundMinor
  have found := (contract_ok made.agreed).1
  have soundSettled : OrderSound (market.settled order request payout)
      (closeOrder order request.origin.now payout.receipts
        (setState (settledState order request.refundMinor) order)) := by
    refine ⟨sound.amounts, Or.inr (Or.inr final.symm), ?_⟩
    apply past
    rcases final with state | state <;> simp [closeOrder, setState, state]
  apply consistent.rewrite made.rewrites _ rfl soundSettled
  · intro fact member
    rcases (Table.mem_insert made.recorded fact).mp member with old | rfl
    · exact Or.inl old
    · exact Or.inr ⟨locked, found, made.explicit⟩
  · exact fun _ member => Or.inl member
  · intro other isOther projected
    obtain ⟨named, _, _⟩ := consistent.own made.current isOther
    have same : other = locked := Option.some.inj (isOther.symm.trans found)
    rw [same] at named projected ⊢
    refine ⟨projected.version, projected.intent, ?_, projected.fixed, projected.digest,
      payment_kept made.rewrites.postings projected.payment, ?_⟩
    · rw [named]
      exact made.rewrites.found
    · apply (settlementCheck_some _).mpr (made.accounted sound projected named)
      show payout.settlements.find? _ = _
      rw [Table.find?_insert made.recorded, if_pos (by exact named.symm)]

/-! A new order. -/

/-- What a move that creates an order has to keep of everything else. -/
structure Enters (market next : State) (order : Order) : Prop where
  inserted : market.orders.insert order = some next.orders
  authority : next.authority = market.authority
  contracts : ∀ id, id ≠ order.id → next.contracts.find? id = market.contracts.find? id
  postings : ∀ id posting, market.books.postings.find? id = some posting →
    next.books.postings.find? id = some posting
  settlements : next.settlements = market.settlements
  escrowDecisions : next.escrowDecisions = market.escrowDecisions
  deliveries : next.deliveries = market.deliveries
  entitlements : next.entitlements = market.entitlements

/-- Nothing is known of an order that is not there. -/
structure Unknown (market : State) (id : String) : Prop where
  contract : market.contracts.find? id = none
  settlement : market.settlements.find? id = none
  decision : market.escrowDecisions.find? id = none
  delivery : deliverySnapshot market id = none

theorem Consistent.unknown (consistent : Consistent terms market) {id : String}
    (fresh : market.orders.find? id = none) : Unknown market id := by
  have uncontracted : market.contracts.find? id = none := by
    by_contra known
    obtain ⟨locked, found⟩ := Option.ne_none_iff_exists'.mp known
    obtain ⟨_, order, stored, _⟩ := consistent.projected found
    rw [fresh] at stored
    cases stored
  constructor
  · exact uncontracted
  · by_contra known
    obtain ⟨fact, found⟩ := Option.ne_none_iff_exists'.mp known
    have named : fact.orderId = id := Table.find?_key found
    obtain ⟨locked, contracted, _⟩ := consistent.contracted fact (Table.find?_mem found)
    rw [named, uncontracted] at contracted
    cases contracted
  · by_contra known
    obtain ⟨fact, found⟩ := Option.ne_none_iff_exists'.mp known
    have named : fact.orderId = id := Table.find?_key found
    have stored := (consistent.uncontracted fact (Table.find?_mem found)).2
    rw [named, fresh] at stored
    cases stored
  · by_contra known
    have stored := consistent.ordered id known
    rw [fresh] at stored
    cases stored

theorem Enters.known {next : State} (enters : Enters market next order) {id : String} {row : Order}
    (found : market.orders.find? id = some row) :
    id ≠ order.id ∧ next.orders.find? id = some row := by
  have different : id ≠ order.id := by
    rintro rfl
    rw [Table.insert_fresh enters.inserted] at found
    cases found
  refine ⟨different, ?_⟩
  rw [Table.find?_insert enters.inserted, if_neg (Ne.symm different)]
  exact found

theorem Consistent.enter {next : State} (consistent : Consistent terms market)
    (enters : Enters market next order)
    (own : ∀ locked, next.contracts.find? order.id = some locked →
      Projected terms next locked order ∧ order.deliveryTarget.handleSnapshot ≠ none)
    (amounts : 0 < order.totalPriceMinor ∧ order.currencyId = currencyId)
    (staged : Staged order) (undelivered : order.deliveredAt = none) : Consistent terms next := by
  have unknown := consistent.unknown (Table.insert_fresh enters.inserted)
  have snapshots : ∀ id, deliverySnapshot next id = deliverySnapshot market id :=
    deliverySnapshot_congr enters.deliveries
  constructor
  · intro row member
    rcases (Table.mem_insert enters.inserted row).mp member with old | rfl
    · have sound := consistent.orders row old
      exact ⟨sound.amounts, sound.staged, by rw [snapshots]; exact sound.undelivered⟩
    · exact ⟨amounts, staged, fun _ => ⟨undelivered, by rw [snapshots]; exact unknown.delivery⟩⟩
  · intro locked member
    have found := (Table.mem_iff_find? _ locked).mp member
    by_cases isOwn : locked.orderId = order.id
    · rw [isOwn] at found
      exact ⟨order, own locked found⟩
    · rw [enters.contracts _ isOwn] at found
      obtain ⟨row, made, handle⟩ := consistent.valid locked (Table.find?_mem found)
      refine ⟨row, made.beside ?_, handle⟩
      constructor
      · exact .same enters.authority
      · rw [(enters.known made.current).2, made.current]
      · exact enters.postings
      · rw [enters.settlements]
      · exact snapshots _
      · rw [enters.entitlements]
        exact fun _ _ found => found
  · rw [enters.settlements]
    intro fact member
    obtain ⟨locked, found, explicit⟩ := consistent.contracted fact member
    refine ⟨locked, ?_, explicit⟩
    rw [enters.contracts]
    · exact found
    · intro isOwn
      rw [isOwn, unknown.contract] at found
      cases found
  · rw [enters.escrowDecisions]
    intro fact member
    obtain ⟨uncontracted, stored⟩ := consistent.uncontracted fact member
    obtain ⟨row, found⟩ := Option.isSome_iff_exists.mp stored
    obtain ⟨different, kept⟩ := enters.known found
    refine ⟨by rw [enters.contracts _ different]; exact uncontracted, ?_⟩
    rw [kept]
    rfl
  · intro id known
    rw [snapshots] at known
    obtain ⟨row, found⟩ := Option.isSome_iff_exists.mp (consistent.ordered id known)
    rw [(enters.known found).2]
    rfl

theorem Opened.enters {locked : Contract} {books : Books} {orders : Table Order.id}
    {contracts : Table Contract.orderId}
    (made : Opened terms market order locked books orders contracts) :
    Enters market (market.opened books orders contracts) order where
  inserted := made.inserted
  authority := rfl
  contracts := by
    intro id different
    show contracts.find? id = _
    rw [Table.find?_insert made.contracted, if_neg (by rw [made.named]; exact Ne.symm different)]
  postings := by
    intro id posting found
    show books.postings.find? id = some posting
    rw [(insertAccount_ok made.account).2]
    exact found
  settlements := rfl
  escrowDecisions := rfl
  deliveries := rfl
  entitlements := rfl

theorem consistent_opened {locked : Contract} {books : Books} {orders : Table Order.id}
    {contracts : Table Contract.orderId} (consistent : Consistent terms market)
    (made : Opened terms market order locked books orders contracts) :
    Consistent terms (market.opened books orders contracts) := by
  have unknown := consistent.unknown (Table.insert_fresh made.inserted)
  obtain ⟨_, _, total, currency⟩ := made.amounts
  apply consistent.enter made.enters _ ⟨total, currency⟩
    (Or.inl ⟨made.blank.payment, made.blank.refs, Or.inl made.blank.state⟩) made.blank.delivered
  intro other found
  have same : locked = other := by
    have found : contracts.find? order.id = some other := found
    rw [Table.find?_insert made.contracted, if_pos made.named] at found
    exact Option.some.inj found
  subst same
  refine ⟨⟨made.version, intent_kept (.same rfl) made.intent, ?_, made.fixed, made.digest, ?_, ?_⟩,
    made.target⟩
  · show orders.find? locked.orderId = some order
    rw [Table.find?_insert made.inserted, if_pos made.named.symm]
  · simp only [paymentCheck, made.blank.payment]
  · apply settlementCheck_none
    · rw [made.named]
      exact unknown.settlement
    · simp [made.blank.state]
    · simp [made.blank.state]

/-! The published checkouts. -/

theorem LegacyOpened.enters {checkout : LegacyCheckout} {offer : LegacyOffer}
    {opened books : Books} {receipt : Posting} {orders : Table Order.id}
    (made : LegacyOpened terms market world checkout offer opened books receipt orders) :
    Enters market { market with books := books, orders := orders }
      (legacyOrderRow terms world checkout offer receipt) where
  inserted := made.inserted
  authority := rfl
  contracts := fun _ _ => rfl
  postings := by
    intro id posting found
    apply made.posted.appended.found
    show opened.postings.find? id = some posting
    rw [(insertAccount_ok made.account).2]
    exact found
  settlements := rfl
  escrowDecisions := rfl
  deliveries := rfl
  entitlements := rfl

theorem consistent_legacyOpened {checkout : LegacyCheckout} {offer : LegacyOffer}
    {opened books : Books} {receipt : Posting} {orders : Table Order.id}
    (consistent : Consistent terms market)
    (made : LegacyOpened terms market world checkout offer opened books receipt orders) :
    Consistent terms { market with books := books, orders := orders } := by
  have unknown := consistent.unknown (Table.insert_fresh made.inserted)
  apply consistent.enter made.enters _ ⟨made.positive, rfl⟩
    (Or.inr (Or.inl ⟨receipt.transactionId, rfl, rfl, rfl⟩)) rfl
  intro locked found
  have found : market.contracts.find? _ = some locked := found
  rw [unknown.contract] at found
  cases found

/-- An order of the published checkouts has no handle, so it has no contract. -/
theorem Consistent.unversioned (consistent : Consistent terms market)
    (current : Current market order) (target : legacyTarget order) :
    market.contracts.find? order.id = none := by
  by_contra known
  obtain ⟨locked, found⟩ := Option.ne_none_iff_exists'.mp known
  apply (consistent.own current found).2.2
  rw [target]

/-- Nothing has to be shown of the contract of an order that has none. -/
theorem Consistent.rewriteLegacy {next : State} {change : Order → Order}
    (consistent : Consistent terms market) (rewrites : Rewrites market next order change)
    (uncontracted : market.contracts.find? order.id = none)
    (handle : (change order).deliveryTarget.handleSnapshot =
      order.deliveryTarget.handleSnapshot)
    (sound : OrderSound next (change order))
    (settlements : next.settlements = market.settlements)
    (decisions : ∀ fact ∈ next.escrowDecisions.rows, fact ∈ market.escrowDecisions.rows ∨
      fact.orderId = order.id) : Consistent terms next := by
  apply consistent.rewrite rewrites _ handle sound
  · rw [settlements]
    exact fun _ member => Or.inl member
  · intro fact member
    exact (decisions fact member).imp_right fun named => ⟨named, uncontracted⟩
  · intro locked found
    rw [uncontracted] at found
    cases found

theorem LegacyPrepared.rewrites {delivery : Delivery} {deliveries : Table Delivery.orderId}
    (made : LegacyPrepared market order delivery deliveries) (now : Nat) :
    Rewrites market
      { market with
        deliveries := deliveries
        orders := market.orders.modify order.id (markDelivered now) } order (markDelivered now) where
  current := made.current
  keeps := keeps_markDelivered now
  authority := rfl
  orders := rfl
  contracts := rfl
  postings := fun _ _ found => found
  settlements := fun _ _ => rfl
  deliveries := by
    intro id different
    show (deliveries.find? id).map Delivery.committed = _
    rw [Table.find?_insert made.inserted, if_neg (by rw [made.named]; exact Ne.symm different)]
    rfl
  entitlements := fun _ _ found => found

theorem consistent_legacyPrepared {delivery : Delivery} {deliveries : Table Delivery.orderId}
    (consistent : Consistent terms market)
    (made : LegacyPrepared market order delivery deliveries) (now : Nat) :
    Consistent terms
      { market with
        deliveries := deliveries
        orders := market.orders.modify order.id (markDelivered now) } := by
  have sound := consistent.orders order made.current.mem
  have funding : order.state.funding = true := by rw [made.deliverable.1]; rfl
  obtain ⟨id, payment, refs⟩ := sound.staged.payment funding
  apply consistent.rewriteLegacy (made.rewrites now) (consistent.unversioned made.current made.target) rfl _ rfl
    (fun _ member => Or.inl member)
  exact ⟨sound.amounts, Or.inr (Or.inl ⟨id, payment, refs, rfl⟩), past (by simp [markDelivered])⟩

/-- A stamp on a delivery does not change what has been committed to. -/
theorem deliverySnapshot_stamped {next : State} {orderId : String} {stamp : Delivery → Delivery}
    (stamped : ∀ row, (stamp row).committed = row.committed)
    (deliveries : next.deliveries = market.deliveries.modify orderId stamp) (id : String) :
    deliverySnapshot next id = deliverySnapshot market id := by
  have keeps : ∀ row, (stamp row).orderId = row.orderId := by
    intro row
    have same := congrArg Delivery.orderId (stamped row)
    exact same
  rw [deliverySnapshot, deliverySnapshot, deliveries]
  by_cases same : id = orderId
  · rw [same, Table.find?_modify_self _ _ _ keeps, Option.map_map]
    exact congrArg (Option.map · _) (funext stamped)
  · rw [Table.find?_modify_ne _ _ same]

theorem LegacySettled.rewrites {legacy : LegacyRequest} {reason : LegacyReason} {buyer : String}
    {chosen : Branch} {books : Books} {receipt : Posting} {stamp : Delivery → Delivery}
    {decisions : Table EscrowDecision.orderId}
    (made : LegacySettled terms market world order legacy reason buyer chosen books receipt stamp
      decisions) :
    Rewrites market (market.legacySettled world order chosen books receipt stamp decisions) order
      (resolved world order chosen receipt) where
  current := made.current
  keeps := keeps_resolved world order chosen receipt
  authority := rfl
  orders := rfl
  contracts := rfl
  postings := fun _ _ found => made.posted.found found
  settlements := fun _ _ => rfl
  deliveries := fun id _ => deliverySnapshot_stamped made.stamped rfl id
  entitlements := fun _ _ found => found

theorem consistent_legacySettled {legacy : LegacyRequest} {reason : LegacyReason} {buyer : String}
    {chosen : Branch} {books : Books} {receipt : Posting} {stamp : Delivery → Delivery}
    {decisions : Table EscrowDecision.orderId} (consistent : Consistent terms market)
    (made : LegacySettled terms market world order legacy reason buyer chosen books receipt stamp
      decisions) :
    Consistent terms (market.legacySettled world order chosen books receipt stamp decisions) := by
  have sound := consistent.orders order made.current.mem
  have ended : chosen.state = .settled ∨ chosen.state = .refunded := by
    rcases branch_ok made.branched with ⟨_, state, _⟩ | ⟨_, state, _⟩
    · exact Or.inr state
    · exact Or.inl state
  apply consistent.rewriteLegacy made.rewrites made.uncontracted rfl _ rfl
  · intro fact member
    rcases (Table.mem_insert made.recorded fact).mp member with old | rfl
    · exact Or.inl old
    · exact Or.inr rfl
  · refine ⟨sound.amounts, Or.inr (Or.inr ended), past ?_⟩
    rcases ended with state | state <;> simp [resolved, state]

/-! Every move. -/

theorem consistent_order {next : State} (consistent : Consistent terms market)
    (move : OrderMove terms client market next) : Consistent terms next := by
  cases move with
  | opened opens made => exact consistent_opened consistent made
  | scheduled deadlines =>
      exact consistent.frame (.same rfl) (fun _ _ found => found) rfl rfl rfl rfl (fun _ => rfl) rfl
  | retargeted current target handle => exact consistent_retargeted consistent current target handle
  | funded asked made => exact consistent_funded consistent made
  | turned made origin reason => exact consistent_turned consistent made origin reason
  | disputed made origin reason locked world agreed drawn =>
      exact consistent_disputed consistent made origin reason
  | dispatched made origin envelopes => exact consistent_dispatched consistent made origin envelopes
  | acknowledged orderId stamp stamped =>
      exact consistent.frame (.same rfl) (fun _ _ found => found) rfl rfl rfl rfl
        (deliverySnapshot_stamped stamped rfl) rfl
  | settled made => exact consistent_settled consistent made
  | legacyOpened asked opens made => exact consistent_legacyOpened consistent made
  | legacyPrepared made now => exact consistent_legacyPrepared consistent made now
  | legacySettled asked made => exact consistent_legacySettled consistent made

/-- Moves on bounties and ordinary money touch nothing but the ledger and the bounties. -/
structure Apart (market next : State) : Prop where
  postings : ∀ id posting, market.books.postings.find? id = some posting →
    next.books.postings.find? id = some posting
  authority : next.authority = market.authority
  orders : next.orders = market.orders
  contracts : next.contracts = market.contracts
  transitions : next.transitions = market.transitions
  settlements : next.settlements = market.settlements
  escrowDecisions : next.escrowDecisions = market.escrowDecisions
  deliveries : next.deliveries = market.deliveries
  entitlements : next.entitlements = market.entitlements
  cases : next.cases = market.cases
  votes : next.votes = market.votes
  decisions : next.decisions = market.decisions
  sources : next.sources = market.sources
  active : next.active = market.active

theorem Returned.found {request : EntryRequest} {books : Books}
    (returned : Returned market request books) {id : String} {old : Posting}
    (stored : market.books.postings.find? id = some old) : books.postings.find? id = some old := by
  cases returned with
  | empty zero => exact stored
  | posted done => exact done.appended.found stored

theorem money_apart {next : State} (move : MoneyMove terms client market next) :
    Apart market next := by
  constructor
  case postings =>
    cases move with
    | opened asked made =>
        intro id posting found
        apply made.posted.appended.found
        show _ = some posting
        rw [(insertAccount_ok made.account).2]
        exact found
    | toppedUp asked read posted => exact fun _ _ => posted.appended.found
    | changed read state isOpen reason => exact fun _ _ found => found
    | closed asked read returned => exact fun _ _ => returned.found
    | challenged claimant unspent inserted => exact fun _ _ found => found
    | claimed asked made => exact fun _ _ => made.posted.appended.found
    | transferred asked isSender isRecipient known posted =>
        exact fun _ _ => posted.appended.found
    | issued read appended => exact fun _ _ => appended.found
  all_goals cases move <;> rfl

theorem CredentialsKept.extended {authority : Session.Store}
    (extended : authorityExtends market.authority authority) :
    CredentialsKept market { market with authority := authority } := by
  intro id key found
  have named : key.id = id := Table.find?_key found
  have kept := extended.2.2 key (Table.find?_mem found)
  obtain ⟨later, stored, same⟩ := Option.map_eq_some_iff.mp kept
  simp only [Prod.mk.injEq] at same
  exact ⟨later, by rw [← named]; exact stored, same⟩

theorem consistent_move {next : State} (consistent : Consistent terms market)
    (move : Move terms client market next) : Consistent terms next := by
  cases move with
  | order move => exact consistent_order consistent move
  | dispute move =>
      have aside := case_aside move
      apply consistent.frame (.same aside.authority) _ aside.orders aside.contracts
        aside.settlements aside.escrowDecisions (deliverySnapshot_congr aside.deliveries)
        aside.entitlements
      rw [aside.books]
      exact fun _ _ found => found
  | money move =>
      have apart := money_apart move
      exact consistent.frame (.same apart.authority) apart.postings apart.orders apart.contracts
        apart.settlements apart.escrowDecisions (deliverySnapshot_congr apart.deliveries)
        apart.entitlements
  | authority extended =>
      exact consistent.frame (.extended extended) (fun _ _ found => found) rfl rfl rfl rfl
        (fun _ => rfl) rfl
  | activated grown =>
      exact consistent.frame (.same rfl) (fun _ _ found => found) rfl rfl rfl rfl (fun _ => rfl) rfl
  | restored published =>
      exact consistent.frame (.same rfl) (fun _ _ found => found) rfl rfl rfl rfl (fun _ => rfl) rfl
  | revised agreed resource content owner stored others =>
      exact consistent.frame (.same rfl) (fun _ _ found => found) rfl rfl rfl rfl (fun _ => rfl) rfl

theorem consistent_empty : Consistent terms State.empty := by
  constructor <;> simp [State.empty, Table.empty, deliverySnapshot, Table.find?]

theorem run_consistent (terms : Terms) (steps : List (World × Op)) :
    Consistent terms (run terms steps) := by
  have moves : Moves terms Client.any State.empty (run terms steps) :=
    run_moves_any
  exact moves_invariant (fun _ _ => consistent_move) moves consistent_empty

end MsgServer.Market
