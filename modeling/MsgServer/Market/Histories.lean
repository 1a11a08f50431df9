import MsgServer.Market.Moves

/-!
Every program of the market is a run of moves. One lemma for each function of the
model says which moves a successful call makes and what it returns; the row that a
function passes on is shown to be the stored one.
-/

namespace MsgServer.Market

open Library Ledger

variable {terms : Terms} {client : Client} {world : World}

theorem Moves.refl (market : State) : Moves terms client market market :=
  Relation.ReflTransGen.refl

theorem Moves.one {market next : State} (move : Move terms client market next) :
    Moves terms client market next :=
  Relation.ReflTransGen.single move

theorem Moves.trans {first second third : State} (left : Moves terms client first second)
    (right : Moves terms client second third) : Moves terms client first third :=
  Relation.ReflTransGen.trans left right

theorem Moves.order {market next : State} (move : OrderMove terms client market next) :
    Moves terms client market next :=
  Moves.one (.order move)

theorem Moves.dispute {market next : State} (move : CaseMove terms market next) :
    Moves terms client market next :=
  Moves.one (.dispute move)

theorem Moves.money {market next : State} (move : MoneyMove terms client market next) :
    Moves terms client market next :=
  Moves.one (.money move)

/-! Statements. -/

theorem post_ok {request : EntryRequest} {market next : State} {receipt : Posting}
    (plain : request.localIssuer = false)
    (done : post world false request market = .ok receipt next) :
    ∃ books, next = { market with books := books } ∧ Ordinary market request books receipt := by
  simp only [post, Program.update_ok, Program.except_bind_ok, Prod.exists, Program.except_pure,
    Except.ok.injEq, Prod.mk.injEq] at done
  obtain ⟨books, posting, posted, rfl, rfl⟩ := done
  obtain ⟨appended, _, guarded⟩ := postTransfer_ok posted
  have same : { request with localIssuer := false } = request := by
    rw [← plain]
  rw [same] at appended
  refine ⟨books, rfl, appended, ?_⟩
  intro sender row isSender opened escrow
  exact Bool.false_ne_true (guarded sender row isSender opened (Or.inl escrow))

theorem postRelease_ok {order : Order} {recipient : String} {request : EntryRequest}
    {market next : State} {receipt : Posting}
    (done : postRelease world (release order recipient) request market = .ok receipt next) :
    ∃ books, next = { market with books := books } ∧
      Appended (identity market) (released order recipient request) market.books books receipt := by
  simp only [postRelease, Program.update_ok, Program.except_bind_ok, Prod.exists,
    Program.except_pure, Except.ok.injEq, Prod.mk.injEq] at done
  obtain ⟨books, posting, posted, rfl, rfl⟩ := done
  exact ⟨books, rfl, (postEscrowRelease_ok posted).1⟩

theorem postLeg_ok {order : Order} {recipient : String} {amount : Int} {request : EntryRequest}
    {market next : State} {receipts : List Posting} (same : request.amount = amount)
    (done : postLeg world order recipient amount request market = .ok receipts next) :
    ∃ books, next = { market with books := books } ∧
      Paid (identity market) order recipient request market.books books receipts := by
  unfold postLeg at done
  split at done
  · rename_i zero
    obtain ⟨rfl, rfl⟩ := (Program.pure_ok _ _ _ _).mp done
    exact ⟨_, rfl, .empty (same.trans zero)⟩
  · rename_i nonzero
    simp only [Program.bind_ok, Program.pure_ok] at done
    obtain ⟨receipt, _, posted, rfl, rfl⟩ := done
    obtain ⟨books, rfl, appended⟩ := postRelease_ok posted
    exact ⟨books, rfl, .posted (fun zero => nonzero (same ▸ zero)) appended⟩

theorem readOrder_ok {market : State} {orderId viewer : String} {order : Order}
    (done : readOrder market orderId viewer = .ok order) :
    order.id = orderId ∧ Current market order := by
  simp only [readOrder, Program.except_bind_ok, requireRow_ok, Option.filter_eq_some_iff,
    Program.except_pure, Except.ok.injEq] at done
  obtain ⟨row, ⟨found, _⟩, _, _, rfl⟩ := done
  have same : row.id = orderId := Table.find?_key found
  exact ⟨same, by rw [Current, same]; exact found⟩

theorem readBuyerOrder_ok {market : State} {orderId buyer : String} {order : Order}
    (done : readBuyerOrder market orderId buyer = .ok order) :
    order.id = orderId ∧ Current market order ∧ order.buyer = buyer := by
  simp only [readBuyerOrder, Program.except_bind_ok, require_ok, Program.except_pure,
    Except.ok.injEq] at done
  obtain ⟨row, found, _, owned, rfl⟩ := done
  exact ⟨(readOrder_ok found).1, (readOrder_ok found).2, owned⟩

theorem contract_ok {market : State} {orderId : String} {locked : Contract}
    (done : contract terms market orderId = .ok locked) :
    market.contracts.find? orderId = some locked ∧ locked.orderId = orderId ∧
      validateProjection terms market locked = .ok () := by
  simp only [contract, Program.except_bind_ok, requireRow_ok, Program.except_pure,
    Except.ok.injEq] at done
  obtain ⟨row, found, _, _, _, valid, rfl⟩ := done
  exact ⟨found, Table.find?_key found, valid⟩

/-- The row that a change of the stored one leaves. -/
theorem Current.modify {market : State} {order : Order} (current : Current market order)
    {change : Order → Order} (keeps : ∀ row, (change row).id = row.id) :
    Current { market with orders := market.orders.modify order.id change } (change order) := by
  have found : market.orders.find? order.id = some order := current
  show (market.orders.modify order.id change).find? (change order).id = some (change order)
  rw [keeps, Table.find?_modify_self _ _ _ keeps, found, Option.map_some]

theorem updateOrder_ok {id : String} {change : Order → Order} {market next : State}
    (done : updateOrder id change market = .ok () next) :
    next = { market with orders := market.orders.modify id change } := by
  simp only [updateOrder, Program.write_ok, Except.ok.injEq] at done
  exact done.symm

/-- What a successful `transition` checked and did. -/
structure Transitioned (terms : Terms) (market : State) (order : Order) (state : OrderState)
    (reason : Reason) : Prop where
  writable : writable market order.id = .ok ()
  legal : transitionCheck terms market order state reason = .ok ()

theorem transition_ok {order final : Order} {state : OrderState} {origin : Origin}
    {reason : Reason} {market next : State}
    (done : transition terms order state origin reason market = .ok final next) :
    Transitioned terms market order state reason ∧ final = setState state order ∧
      next = market.turn order state origin reason := by
  simp only [transition, Program.bind_ok, read_ok, updateOrderWhere, insertTransition,
    Program.write_ok, Program.except_bind_ok, requireRow_ok, Program.except_pure, Except.ok.injEq,
    Program.pure_ok] at done
  obtain ⟨_, _, ⟨writable, rfl⟩, _, _, ⟨legal, rfl⟩, _, _, ⟨_, _, rfl⟩, _, _, rfl, rfl, rfl⟩ := done
  exact ⟨⟨writable, legal⟩, rfl, rfl⟩

theorem current_turn {market : State} {order : Order} (current : Current market order)
    (state : OrderState) (origin : Origin) (reason : Reason) :
    Current (market.turn order state origin reason) (setState state order) :=
  current.modify (fun _ => rfl : ∀ row, (setState state row).id = row.id)

/-! Settlement. -/

theorem fulfilled_ok {locked : Contract} {request : SettleRequest} {receipts : List Posting}
    {market next : State} {id : Option String}
    (done : fulfilled terms locked request receipts market = .ok id next) :
    ∃ entitlements, next = { market with entitlements := entitlements } ∧
      ∀ payout : Payout, payout.receipts = receipts → payout.entitlements = entitlements →
        payout.entitlementId = id → Granted terms market locked request payout := by
  unfold fulfilled at done
  split at done
  · rename_i version
    simp only [grantHosting, insertEntitlement, Program.bind_ok, read_ok, Program.write_ok,
      requireRow_ok, require_ok, Program.except_bind_ok, insertRow_ok, Program.except_pure,
      Except.ok.injEq, Program.pure_ok] at done
    obtain ⟨purchase, _, ⟨asked, rfl⟩, receipt, _, ⟨first, rfl⟩, _, _,
      ⟨_, _, ⟨capacity, rfl⟩, _, _, ⟨_, _, entitlements, inserted, rfl⟩, rfl, rfl⟩, rfl, rfl⟩ := done
    refine ⟨entitlements, rfl, ?_⟩
    intro payout sameReceipts sameTable sameId
    exact .granted purchase receipt version asked (sameReceipts ▸ first) capacity
      (by rw [sameTable]; exact inserted) sameId
  · rename_i version
    obtain ⟨rfl, rfl⟩ := (Program.pure_ok _ _ _ _).mp done
    exact ⟨_, rfl, fun payout _ sameTable sameId => .none version sameTable sameId⟩

theorem executeCase_ok {decision : Option Decision} {market next : State}
    (done : executeCase decision market = .ok () next) :
    next = { market with cases := executed market decision } := by
  cases decision <;> simp only [executeCase, Program.write_ok, Except.ok.injEq] at done <;>
    exact done.symm

theorem insertSettlement_ok {fact : Settlement} {market next : State}
    (done : insertSettlement fact market = .ok () next) :
    ∃ settlements, market.settlements.insert fact = some settlements ∧
      next = { market with settlements := settlements } ∧
      (fact.decisionId ≠ none →
        ∀ other ∈ market.settlements.rows, other.decisionId ≠ fact.decisionId) := by
  simp only [insertSettlement, Program.write_ok, Program.except_bind_ok, require_ok, insertRow_ok,
    Program.except_pure, Except.ok.injEq] at done
  obtain ⟨_, _, _, unique, settlements, inserted, rfl⟩ := done
  exact ⟨settlements, inserted, rfl, unique⟩

theorem legal_of_check {market : State} {order : Order} {state : OrderState} {reason : Reason}
    (passed : transitionCheck terms market order state reason = .ok ()) :
    order.state = .funded ∧ state = .settled ∨ state ∈ transitions order.state := by
  unfold transitionCheck at passed
  split at passed
  · rename_i straight
    exact Or.inl straight
  · exact Or.inr ((require_ok _ _ _).mp passed)

/-- What `settle` knows when it goes on to `settleFresh`. -/
structure Entered (terms : Terms) (market : State) (order : Order) (locked : Contract)
    (request : SettleRequest) : Prop where
  current : Current market order
  agreed : contract terms market order.id = .ok locked
  explicit : ¬ (locked.version = 4 ∧ request.reason = .managedInstantVerified)
  undecided : market.escrowDecisions.find? order.id = none
  bounds : 0 ≤ request.refundMinor ∧ request.refundMinor ≤ order.totalPriceMinor
  unsettled : market.settlements.find? order.id = none
  purchase : ∀ purchase, request.fulfill = some purchase → ∃ extra,
    locked.entitlement = some extra ∧ extra.offer.offerId = locked.listingId ∧
      purchase = ⟨locked.buyer, extra.requestId, locked.quantity, extra.offer⟩

theorem current_settled {market : State} {order : Order} (current : Current market order)
    (request : SettleRequest) (payout : Payout) :
    Current (market.settled order request payout)
      (closeOrder order request.origin.now payout.receipts
        (setState (settledState order request.refundMinor) order)) :=
  (current_turn current (settledState order request.refundMinor) request.origin
    request.reason).modify fun _ => rfl

theorem settleFresh_ok {order final : Order} {locked : Contract} {request : SettleRequest}
    {receipts : List Posting} {market next : State}
    (entered : Entered terms market order locked request)
    (done : settleFresh terms world locked order request market = .ok (final, receipts) next) :
    ∃ payout, Settled terms world market order locked request payout ∧
      next = market.settled order request payout ∧ receipts = payout.receipts ∧
      final = closeOrder order request.origin.now payout.receipts
        (setState (settledState order request.refundMinor) order) := by
  simp only [settleFresh, Program.bind_ok, read_ok, require_ok, Program.pure_ok, Prod.mk.injEq,
    Except.ok.injEq] at done
  obtain ⟨_, _, ⟨authority, rfl⟩, _, _, ⟨balanced, rfl⟩, refund, _, refunding, release, _,
    releasing, id, _, granting, turned, _, turning, _, _, closing, delivery, _, ⟨rfl, rfl⟩, _, _,
    recording, _, _, executing, ⟨rfl, rfl⟩, rfl⟩ := done
  have isRefund : (refundEntry order request.origin request.refundMinor).amount =
      request.refundMinor := rfl
  have isRelease : (releaseEntry order request.origin
      (order.totalPriceMinor - request.refundMinor)).amount =
        order.totalPriceMinor - request.refundMinor := rfl
  obtain ⟨middle, rfl, paidRefund⟩ := postLeg_ok isRefund refunding
  obtain ⟨books, rfl, paidRelease⟩ := postLeg_ok isRelease releasing
  obtain ⟨entitlements, rfl, granted⟩ := fulfilled_ok granting
  obtain ⟨⟨writing, legal⟩, rfl, rfl⟩ := transition_ok turning
  have closed := updateOrder_ok closing
  subst closed
  obtain ⟨settlements, inserted, rfl, unique⟩ := insertSettlement_ok recording
  have shape := executeCase_ok executing
  subst shape
  let payout : Payout := ⟨books, refund, release, entitlements, id, settlements⟩
  refine ⟨payout, ?_, rfl, rfl, rfl⟩
  exact
    { current := entered.current
      agreed := entered.agreed
      explicit := entered.explicit
      undecided := entered.undecided
      bounds := entered.bounds
      unsettled := entered.unsettled
      authority := authority
      balanced := balanced
      paid := ⟨middle, paidRefund, paidRelease⟩
      grant := by
        have grant := granted payout rfl rfl rfl
        cases grant with
        | none version same unnamed => exact .none version same unnamed
        | granted purchase receipt version asked first capacity inserted named =>
            exact .granted purchase receipt version asked first capacity inserted named
      writable := writing
      legal := legal_of_check legal
      purchase := entered.purchase
      decision := unique
      recorded := inserted }

/-- A call of `settle` either finds its own settlement or makes one. -/
theorem settle_ok {order final : Order} {request : SettleRequest} {receipts : List Posting}
    {market next : State} (current : Current market order)
    (purchase : ∀ locked, contract terms market order.id = .ok locked →
      ∀ purchase, request.fulfill = some purchase → ∃ extra,
        locked.entitlement = some extra ∧ extra.offer.offerId = locked.listingId ∧
          purchase = ⟨locked.buyer, extra.requestId, locked.quantity, extra.offer⟩)
    (done : settle terms world order request market = .ok (final, receipts) next) :
    (∃ fact, market.settlements.find? order.id = some fact ∧ next = market ∧ final = order ∧
        receipts = fact.receipts ∧ repeated fact request = .ok ()) ∨
      ∃ locked payout, Settled terms world market order locked request payout ∧
        next = market.settled order request payout ∧ receipts = payout.receipts ∧
        final = closeOrder order request.origin.now payout.receipts
          (setState (settledState order request.refundMinor) order) := by
  simp only [settle, Program.bind_ok, read_ok, require_ok, Except.ok.injEq] at done
  obtain ⟨locked, _, ⟨agreed, rfl⟩, _, _, ⟨explicit, rfl⟩, _, _, ⟨undecided, rfl⟩, _, _,
    ⟨bounds, rfl⟩, existing, reached, ⟨rfl, rfl⟩, rest⟩ := done
  cases found : reached.settlements.find? order.id with
  | some fact =>
      simp only [found, settleOr, Program.bind_ok, read_ok, Program.pure_ok, Prod.mk.injEq] at rest
      obtain ⟨_, _, ⟨same, rfl⟩, ⟨rfl, rfl⟩, rfl⟩ := rest
      exact Or.inl ⟨fact, rfl, rfl, rfl, rfl, same⟩
  | none =>
      simp only [found, settleOr] at rest
      have entered : Entered terms reached order locked request :=
        ⟨current, agreed, explicit, undecided, bounds, found, purchase locked agreed⟩
      obtain ⟨payout, made⟩ := settleFresh_ok entered rest
      exact Or.inr ⟨locked, payout, made⟩

theorem settle_moves {order final : Order} {request : SettleRequest} {receipts : List Posting}
    {market next : State} (current : Current market order)
    (purchase : ∀ locked, contract terms market order.id = .ok locked →
      ∀ purchase, request.fulfill = some purchase → ∃ extra,
        locked.entitlement = some extra ∧ extra.offer.offerId = locked.listingId ∧
          purchase = ⟨locked.buyer, extra.requestId, locked.quantity, extra.offer⟩)
    (done : settle terms world order request market = .ok (final, receipts) next) :
    Moves terms client market next ∧ Current next final := by
  rcases settle_ok current purchase done with ⟨_, _, rfl, rfl, _⟩ | ⟨_, payout, made, rfl, _, rfl⟩
  · exact ⟨Moves.refl _, current⟩
  · exact ⟨Moves.order (.settled made), current_settled current request payout⟩

theorem plain_settle_moves {order final : Order} {origin : Origin} {reason : Reason} {amount : Int}
    {receipts : List Posting} {market next : State} (current : Current market order)
    (done : settle terms world order (plainSettlement origin reason amount) market =
      .ok (final, receipts) next) :
    Moves terms client market next ∧ Current next final := by
  apply settle_moves current _ done
  rintro locked _ purchase ⟨⟩

/-! Boundaries. -/

theorem revise_ok {orderId : String} {locked : Contract} {body : OrderSnapshot}
    {market next : State} (done : revise market world orderId locked body = .ok next) :
    ∃ sources source, next = { market with sources := sources } ∧
      sources.find? orderId = some source ∧ source.snapshot = body ∧
      (source.owner = locked.buyer ∨
        ∃ old, market.sources.find? orderId = some old ∧ old.owner = source.owner) ∧
      ∀ id, id ≠ orderId → sources.find? id = market.sources.find? id := by
  unfold revise at done
  cases found : market.sources.find? orderId with
  | none =>
      simp only [found, Program.except_bind_ok, insertRow_ok, Program.except_pure,
        Except.ok.injEq] at done
      obtain ⟨_, _, sources, inserted, rfl⟩ := done
      refine ⟨sources, ⟨orderId, locked.buyer, body⟩, rfl, ?_, rfl, Or.inl rfl, ?_⟩
      · rw [Table.find?_insert inserted, if_pos rfl]
      · intro id different
        rw [Table.find?_insert inserted, if_neg (Ne.symm different)]
  | some source =>
      simp only [found] at done
      split at done
      · rename_i same
        cases done
        exact ⟨_, source, rfl, found, same, Or.inr ⟨source, rfl, rfl⟩, fun _ _ => rfl⟩
      · simp only [Program.except_bind_ok, Program.except_pure, Except.ok.injEq] at done
        obtain ⟨_, _, rfl⟩ := done
        refine ⟨_, { source with snapshot := body }, rfl, ?_, rfl, Or.inr ⟨source, rfl, rfl⟩, ?_⟩
        · rw [Table.find?_modify_self market.sources orderId
            (fun row => { row with snapshot := body }) fun _ => rfl, found, Option.map_some]
        · intro id different
          exact Table.find?_modify_ne _ _ different

/-- What `publish` leaves: the revision of the order contains its rows, and the
revisions of other orders are untouched. -/
structure Published (terms : Terms) (client : Client) (market next : State)
    (orderIds : List String) : Prop where
  moves : Moves terms client market next
  shape : ∃ sources, next = { market with sources := sources }
  current : ∀ id ∈ orderIds, modelled market id = true → UpToDate next id
  kept : ∀ id, UpToDate market id → UpToDate next id

theorem publish_ok {orderId : String} {market next : State}
    (done : publish terms world orderId market = .ok () next) :
    Published terms client market next [orderId] := by
  simp only [publish, Program.write_ok] at done
  split at done
  · rename_i resource
    simp only [publishOne, Program.except_bind_ok] at done
    obtain ⟨_, _, locked, agreed, body, content, revised⟩ := done
    obtain ⟨sources, source, rfl, stored, rfl, owner, others⟩ := revise_ok revised
    have found := (contract_ok agreed).1
    have resourceModel : locked.resourceModel = true := by
      simpa [modelled, found] using resource
    have published : UpToDate { market with sources := sources } orderId :=
      ⟨source, stored, content⟩
    refine ⟨Moves.one (.revised found resourceModel content owner stored others), ⟨sources, rfl⟩,
      ?_, ?_⟩
    · intro id member _
      rw [List.mem_singleton.mp member]
      exact published
    · rintro id ⟨old, inTable, same⟩
      by_cases isOrder : id = orderId
      · rw [isOrder]
        exact published
      · exact ⟨old, by rw [others id isOrder]; exact inTable, same⟩
  · rename_i unmodelled
    cases done
    refine ⟨Moves.refl _, ⟨_, rfl⟩, ?_, fun _ upToDate => upToDate⟩
    intro id member modelled
    rw [List.mem_singleton.mp member] at modelled
    exact absurd modelled unmodelled

theorem publishAll_ok {orderIds : List String} {market next : State}
    (done : publishAll terms world orderIds market = .ok () next) :
    Published terms client market next orderIds := by
  induction orderIds generalizing market with
  | nil =>
      obtain ⟨_, rfl⟩ := (Program.pure_ok _ _ _ _).mp done
      exact ⟨Moves.refl _, ⟨_, rfl⟩, fun _ member => absurd member List.not_mem_nil,
        fun _ upToDate => upToDate⟩
  | cons orderId rest ih =>
      simp only [publishAll, Program.bind_ok] at done
      obtain ⟨_, middle, first, later⟩ := done
      have head : Published terms client market middle [orderId] := publish_ok first
      have tail := ih later
      obtain ⟨_, rfl⟩ := head.shape
      obtain ⟨_, rfl⟩ := tail.shape
      refine ⟨head.moves.trans tail.moves, ⟨_, rfl⟩, ?_, fun id old => tail.kept id (head.kept id old)⟩
      intro id member isModelled
      rcases List.mem_cons.mp member with isHead | inRest
      · exact tail.kept id (head.current id (List.mem_singleton.mpr isHead) isModelled)
      · exact tail.current id inRest isModelled

theorem activate_ok {orderIds : List String} {market next : State}
    (done : activate orderIds market = .ok () next) :
    ∃ ids, next = { market with active := ids } ∧ (∀ id ∈ market.active, id ∈ ids) ∧
      ∀ id, id ∈ ids → id ∈ market.active ∨ id ∈ orderIds := by
  simp only [activate, Program.write_ok, Except.ok.injEq] at done
  subst done
  refine ⟨_, rfl, fun id member => List.mem_append_right _ member, ?_⟩
  intro id member
  rcases List.mem_append.mp member with new | old
  · exact Or.inr (List.mem_filter.mp new).1
  · exact Or.inl old

/-- The boundary publishes whatever the handler may have written before it puts the
set of active orders back. -/
theorem operationBoundary_moves {α : Type} {orderId viewer : Option String} {throughCase : Bool}
    {handler : Tx α} {market next : State} {result : α}
    (body : ∀ start result reached, handler start = .ok result reached →
      Moves terms client start reached)
    (done : operationBoundary terms world orderId viewer throughCase handler market =
      .ok result next) : Moves terms client market next ∧ next.active = market.active := by
  simp only [operationBoundary, restoring_ok, Program.bind_ok, read_ok, Except.ok.injEq,
    Program.pure_ok] at done
  obtain ⟨_, ⟨_, _, ⟨rfl, rfl⟩, ids, _, ⟨_, rfl⟩, _, _, activated, value, reached, handled, _, _,
    ⟨rfl, rfl⟩, _, published, publishing, rfl, rfl⟩, rfl⟩ := done
  obtain ⟨_, rfl, grown, _⟩ := activate_ok activated
  have published : Published terms client _ _ _ := publishAll_ok publishing
  obtain ⟨_, shape⟩ := published.shape
  refine ⟨(Moves.one (.activated grown)).trans ((body _ _ _ handled).trans
    (published.moves.trans (Moves.one (.restored ?_)))), rfl⟩
  intro id member dropped isModelled
  rw [shape] at member isModelled
  exact published.current id
    (List.mem_filter.mpr ⟨member, decide_eq_true (Or.inr dropped)⟩) isModelled

/-- A body that leaves the set of active orders as it found it. -/
theorem internalMutation_moves {α : Type} {orderId : String} {body : Tx α} {market next : State}
    {result : α}
    (inside : ∀ start result reached, body start = .ok result reached →
      Moves terms client start reached ∧ reached.active = start.active)
    (done : internalMutation terms world orderId body market = .ok result next) :
    Moves terms client market next ∧ next.active = market.active := by
  simp only [internalMutation, Program.bind_ok, read_ok, Except.ok.injEq] at done
  obtain ⟨_, _, ⟨rfl, rfl⟩, rest⟩ := done
  split at rest
  · exact inside _ _ _ rest
  · simp only [restoring_ok, Program.bind_ok, read_ok, Program.pure_ok] at rest
    obtain ⟨_, ⟨_, _, ⟨_, rfl⟩, _, _, activated, value, reached, handled, _, published, publishing,
      rfl, rfl⟩, rfl⟩ := rest
    obtain ⟨ids, rfl, grown, bounded⟩ := activate_ok activated
    have published : Published terms client _ _ _ := publish_ok publishing
    obtain ⟨_, shape⟩ := published.shape
    obtain ⟨moves, sameActive⟩ := inside _ _ _ handled
    refine ⟨(Moves.one (.activated grown)).trans (moves.trans
      (published.moves.trans (Moves.one (.restored ?_)))), rfl⟩
    intro id member dropped isModelled
    rw [shape] at member isModelled
    have isActive : id ∈ reached.active := member
    rw [sameActive] at isActive
    rcases bounded id isActive with old | new
    · exact absurd old dropped
    · exact published.current id new isModelled

/-! Checkout and payment. -/

theorem openOrder_ok {order : Order} {market next : State}
    (done : openOrder order market = .ok () next) :
    ∃ books orders, next = { market with books := books, orders := orders } ∧
      insertAccount market.books ⟨order.escrowSubject, .orderEscrow, none, some order.id⟩ =
        .ok books ∧
      (0 < order.quantity ∧ 0 < order.unitPriceMinor ∧ 0 < order.totalPriceMinor ∧
        order.currencyId = currencyId) ∧
      ((identity market order.buyer).isSome = true ∧
        (identity market order.seller).isSome = true) ∧
      market.orders.insert order = some orders := by
  simp only [openOrder, openAccount, insertOrder, Program.bind_ok, Program.write_ok,
    Program.except_bind_ok, require_ok, insertRow_ok, Program.except_pure, Except.ok.injEq] at done
  obtain ⟨_, _, ⟨books, account, rfl⟩, _, amounts, _, ⟨buyer, seller, _⟩, _, _, orders, inserted,
    rfl⟩ := done
  exact ⟨books, orders, rfl, account, amounts, ⟨buyer, seller⟩, inserted⟩

theorem insertContract_ok {locked : Contract} {market next : State}
    (done : insertContract locked market = .ok () next) :
    ∃ contracts, market.contracts.insert locked = some contracts ∧
      next = { market with contracts := contracts } := by
  simp only [insertContract, Program.write_ok, Program.except_bind_ok, insertRow_ok,
    Program.except_pure, Except.ok.injEq] at done
  obtain ⟨_, _, contracts, inserted, rfl⟩ := done
  exact ⟨contracts, inserted, rfl⟩

theorem saveTarget_moves {order final : Order} {target : Target} {market next : State}
    (current : Current market order)
    (handle : target.handleSnapshot = order.deliveryTarget.handleSnapshot)
    (done : saveTarget order target market = .ok final next) :
    Moves terms client market next ∧ Current next final ∧ next.active = market.active := by
  simp only [saveTarget, Program.bind_ok, Program.pure_ok] at done
  obtain ⟨_, _, updated, rfl, rfl⟩ := done
  have shape := updateOrder_ok updated
  subst shape
  exact ⟨Moves.order (.retargeted current target handle),
    current.modify (fun _ => rfl : ∀ row : Order, { row with deliveryTarget := target }.id = row.id),
    rfl⟩

theorem enqueueNotification_moves {order final : Order} {market next : State}
    (current : Current market order)
    (done : enqueueNotification world order market = .ok final next) :
    Moves terms client market next ∧ Current next final := by
  simp only [enqueueNotification, Program.bind_ok, read_ok] at done
  obtain ⟨email, _, ⟨_, rfl⟩, rest⟩ := done
  cases email with
  | none =>
      obtain ⟨rfl, rfl⟩ := (Program.pure_ok _ _ _ _).mp rest
      exact ⟨Moves.refl _, current⟩
  | some email =>
      have handle : { order.deliveryTarget with email := some email }.handleSnapshot =
        order.deliveryTarget.handleSnapshot := rfl
      have saved : Moves terms client _ _ ∧ _ := saveTarget_moves current handle rest
      exact ⟨saved.1, saved.2.1⟩

/-- What an accepted quote says of the currency. -/
theorem readOffer_currency {market : State} {checkout : Checkout} {offered : Offered}
    (done : readOffer world market checkout = .ok offered) :
    offered.listing.body.currencyId = currencyId := by
  simp only [readOffer, quote, Program.except_bind_ok, require_ok, Program.except_pure,
    Except.ok.injEq, Prod.exists] at done
  obtain ⟨_, _, _, _, _, _, _, _, _, _, _, _, _, ⟨_, currency, _⟩, _, _, _, _, _, _, _, _, _, _, _,
    _, _, _, _, rfl⟩ := done
  exact currency.1.trans currency.2

theorem blank_newOrder (checkout : Checkout) (offered : Offered) :
    Blank (newOrder terms world checkout offered) :=
  ⟨rfl, rfl, rfl, rfl, rfl, rfl⟩

theorem versionCheck_new (checkout : Checkout) (offered : Offered) {version : Nat}
    (known : version = 3 ∨ version = 4) :
    versionCheck (newContract terms world checkout offered version) = .ok () := by
  rcases known with rfl | rfl <;> rfl

theorem beginVersion_ok {version : Nat} {market next : State}
    (done : beginVersion world version market = .ok () next) :
    ∃ ids, next = { market with active := ids } ∧ (∀ id ∈ market.active, id ∈ ids) ∧
      ((version == 4) = true → newOrderId world ∈ ids) := by
  unfold beginVersion at done
  split at done
  · simp only [beginNew, Program.write_ok, Except.ok.injEq] at done
    subst done
    exact ⟨_, rfl, fun id member => List.mem_cons_of_mem _ member, fun _ => List.mem_cons_self⟩
  · rename_i other
    obtain ⟨_, rfl⟩ := (Program.pure_ok _ _ _ _).mp done
    exact ⟨_, rfl, fun _ member => member, fun same => absurd (by simpa using same) other⟩

/-- The orders that a checkout opens. -/
def OpensOffer (terms : Terms) (client : Client) (world : World) (checkout : Checkout) : Prop :=
  ∀ market offered ids, readOffer world market checkout = .ok offered →
    client.opens { market with active := ids } (newOrder terms world checkout offered)

theorem create_moves {checkout : Checkout} {version : Nat} {order : Order} {market next : State}
    (opens : OpensOffer terms client world checkout) (known : version = 3 ∨ version = 4)
    (done : create terms world checkout version market = .ok order next) :
    Moves terms client market next ∧ Current next order := by
  simp only [create, verificationMessage, insertDeadline, Program.bind_ok, read_ok,
    Program.write_ok, Program.except_bind_ok, insertRow_ok, Program.except_pure,
    Except.ok.injEq] at done
  obtain ⟨offered, _, ⟨offer, rfl⟩, _, _, begun, _, _, openedOrder, _, _, contracted, _, _,
    ⟨_, _, deadlines, _, rfl⟩, row, _, ⟨reread, rfl⟩, mailing⟩ := done
  obtain ⟨ids, rfl, grown, isActive⟩ := beginVersion_ok begun
  obtain ⟨books, orders, rfl, account, amounts, parties, inserted⟩ := openOrder_ok openedOrder
  obtain ⟨contracts, newest, rfl⟩ := insertContract_ok contracted
  have notEntitlement : version ≠ 5 := by omega
  have made : Opened terms _ (newOrder terms world checkout offered)
      (newContract terms world checkout offered version) books orders contracts :=
    { account := account
      amounts := amounts
      parties := parties
      inserted := inserted
      contracted := newest
      blank := blank_newOrder checkout offered
      drawn := ⟨⟨world.entropy, rfl⟩, ⟨world.entropy, rfl⟩⟩
      target := by simp [newOrder]
      named := rfl
      fixed := by simp [Order.fixed, Contract.fixed, newOrder, newContract, readOffer_currency offer]
      version := versionCheck_new checkout offered known
      intent := by simp [entitlementIntent, newContract, notEntitlement]
      digest := by simp [intentDigest, newContract, notEntitlement]
      writable := isActive }
  have current := (readOrder_ok reread).2
  obtain ⟨mailed, final⟩ : Moves terms client _ _ ∧ _ :=
    enqueueNotification_moves current mailing
  exact ⟨(Moves.one (.activated grown)).trans ((Moves.order (.opened (opens _ _ ids offer) made)).trans
    ((Moves.order (.scheduled _ deadlines)).trans mailed)), final⟩

theorem fundingTerms_ok {market : State} {request : Request} {order : Order} {locked : Contract}
    (done : fundingTerms terms world market request order = .ok locked) :
    order.state = .created ∧ contract terms market order.id = .ok locked ∧
      (locked.version = 5 → request.operation = "money.redeem" ∧ request.contractVersion = 3) := by
  simp only [fundingTerms, Program.except_bind_ok, require_ok, Program.except_pure,
    Except.ok.injEq] at done
  obtain ⟨_, created, row, agreed, _, intent, _, _, _, _, rfl⟩ := done
  exact ⟨created, agreed, intent⟩

theorem fundEscrow_ok {request : Request} {order funded : Order} {locked : Contract}
    {market next : State} (current : Current market order)
    (intent : isOperation request "money.redeem" 3 → ∀ locked,
      contract terms market order.id = .ok locked →
        locked.entitlement.map (fun extra => extra.request.payloadDigest) =
          some request.payloadDigest)
    (done : fundEscrow terms world request order market = .ok (locked, funded) next) :
    ∃ books receipt, Funded terms market world request order locked books receipt ∧
      next = market.funded world request order locked books receipt ∧
      funded = setState .funded (paid world request receipt order) := by
  simp only [fundEscrow, recordPayment, updateDeadline, Program.bind_ok, read_ok,
    Program.write_ok, Program.except_bind_ok, require_ok, Program.except_pure, Except.ok.injEq,
    Program.pure_ok, Prod.mk.injEq] at done
  obtain ⟨terms', _, ⟨agreed, rfl⟩, receipt, _, posting, _, _, ⟨_, unique, rfl⟩, row, _, turning, _,
    _, rfl, ⟨rfl, rfl⟩, rfl⟩ := done
  obtain ⟨books, rfl, posted⟩ := post_ok rfl posting
  obtain ⟨⟨writing, _⟩, rfl, rfl⟩ := transition_ok turning
  obtain ⟨created, agreed, redeemed⟩ := fundingTerms_ok agreed
  refine ⟨books, receipt, ?_, rfl, rfl⟩
  exact
    { current := current
      created := created
      agreed := agreed
      posted := posted
      unique := unique
      digest := by
        apply (require_ok _ _ _).mpr
        intro version
        exact intent (redeemed version) locked agreed
      writable := writing }

theorem current_funded {market : State} {request : Request} {order : Order} {locked : Contract}
    {books : Books} {receipt : Posting} (current : Current market order) :
    Current (market.funded world request order locked books receipt)
      (setState .funded (paid world request receipt order)) := by
  have paying := current.modify (fun _ => rfl : ∀ row, (paid world request receipt row).id = row.id)
  exact paying.modify (fun _ => rfl : ∀ row, (setState .funded row).id = row.id)

/-! Delivery. -/

theorem insertDelivery_ok {delivery : Delivery} {market next : State}
    (done : insertDelivery delivery market = .ok () next) :
    ∃ deliveries, market.deliveries.insert delivery = some deliveries ∧
      next = { market with deliveries := deliveries } := by
  simp only [insertDelivery, Program.write_ok, Program.except_bind_ok, insertRow_ok,
    Program.except_pure, Except.ok.injEq] at done
  obtain ⟨_, _, _, _, deliveries, inserted, rfl⟩ := done
  exact ⟨deliveries, inserted, rfl⟩

theorem storeEnvelope_ok {order : Order}
    {envelope : Option (Option RecipientKey × PayloadRef × String)} {market next : State}
    (done : storeEnvelope order envelope market = .ok () next) :
    ∃ envelopes, next = { market with envelopes := envelopes } := by
  cases envelope with
  | none =>
      obtain ⟨_, rfl⟩ := (Program.pure_ok _ _ _ _).mp done
      exact ⟨_, rfl⟩
  | some envelope =>
      simp only [storeEnvelope, insertEnvelope, Program.write_ok, Program.except_bind_ok,
        insertRow_ok, Program.except_pure, Except.ok.injEq] at done
      obtain ⟨_, _, envelopes, _, rfl⟩ := done
      exact ⟨envelopes, rfl⟩

theorem current_dispatched {market : State} {order : Order} (current : Current market order)
    (origin : Origin) (deliveries : Table Delivery.orderId) (envelopes : Table Envelope.orderId) :
    Current (market.dispatched order origin deliveries envelopes)
      (setDelivered origin.now (setState .delivered order)) := by
  have stored : Current { market with deliveries := deliveries, envelopes := envelopes } order :=
    current
  have turned := current_turn stored .delivered origin .verifiedDelivery
  exact turned.modify (fun _ => rfl : ∀ row, (setDelivered origin.now row).id = row.id)

theorem storeDelivery_moves {order final : Order} {origin : Origin} {goods : Prepared}
    {market next : State} (current : Current market order)
    (done : storeDelivery terms world order origin goods market = .ok final next) :
    Moves terms client market next ∧ Current next final := by
  simp only [storeDelivery, Program.bind_ok, read_ok, require_ok, Program.pure_ok] at done
  obtain ⟨_, _, ⟨deliverable, rfl⟩, _, _, ⟨_, rfl⟩, _, _, delivering, _, _, enveloping, _, _,
    turning, _, _, stamping, rfl, rfl⟩ := done
  obtain ⟨deliveries, inserted, rfl⟩ := insertDelivery_ok delivering
  obtain ⟨envelopes, rfl⟩ := storeEnvelope_ok enveloping
  obtain ⟨⟨writing, _⟩, rfl, rfl⟩ := transition_ok turning
  have shape := updateOrder_ok stamping
  subst shape
  have made : Dispatched _ order (newDelivery terms world order origin.now goods) deliveries :=
    ⟨current, deliverable, rfl, inserted, writing⟩
  exact ⟨Moves.order (.dispatched made origin envelopes),
    current_dispatched current origin deliveries envelopes⟩

theorem prepare_moves {order final : Order} {origin : Origin} {goods : Prepared}
    {market next : State} (current : Current market order)
    (done : prepare terms world order origin goods market = .ok final next) :
    Moves terms client market next ∧ Current next final := by
  simp only [prepare, Program.bind_ok] at done
  obtain ⟨delivered, middle, storing, mailing⟩ := done
  obtain ⟨stored, reached⟩ : Moves terms client _ _ ∧ _ := storeDelivery_moves current storing
  obtain ⟨mailed, final⟩ : Moves terms client _ _ ∧ _ :=
    enqueueNotification_moves reached mailing
  exact ⟨stored.trans mailed, final⟩

theorem accepted_from {state : OrderState} (legal : .accepted ∈ transitions state) :
    state = .delivered := by
  cases state <;> simp [transitions] at legal ⊢

theorem cancelled_from {state : OrderState} (legal : .cancelled ∈ transitions state) :
    state = .created := by
  cases state <;> simp [transitions] at legal ⊢

theorem accept_moves {order final : Order} {origin : Origin} {reason : Reason}
    {market next : State} (current : Current market order)
    (done : transition terms order .accepted origin reason market = .ok final next) :
    Moves terms client market next ∧ Current next final := by
  obtain ⟨⟨writing, legal⟩, rfl, rfl⟩ := transition_ok done
  have delivered : order.state = .delivered := by
    rcases legal_of_check legal with ⟨_, settled⟩ | listed
    · cases settled
    · exact accepted_from listed
  have turning : Turning order.state .accepted := by
    rw [delivered]
    exact .accepted
  exact ⟨Moves.order (.turned ⟨current, turning, writing⟩ origin reason),
    current_turn current .accepted origin reason⟩

theorem cancel_moves {order final : Order} {origin : Origin} {reason : Reason}
    {market next : State} (current : Current market order)
    (done : transition terms order .cancelled origin reason market = .ok final next) :
    Moves terms client market next ∧ Current next final ∧ next.active = market.active := by
  obtain ⟨⟨writing, legal⟩, rfl, rfl⟩ := transition_ok done
  have created : order.state = .created := by
    rcases legal_of_check legal with ⟨_, settled⟩ | listed
    · cases settled
    · exact cancelled_from listed
  have turning : Turning order.state .cancelled := by
    rw [created]
    exact .cancelled
  exact ⟨Moves.order (.turned ⟨current, turning, writing⟩ origin reason),
    current_turn current .cancelled origin reason, rfl⟩

theorem acceptInstant_moves {order final : Order} {origin : Origin} {locked : Contract}
    {market next : State} (current : Current market order)
    (done : acceptInstant terms world order origin locked market = .ok final next) :
    Moves terms client market next := by
  unfold acceptInstant at done
  split at done
  · obtain ⟨_, rfl⟩ := (Program.pure_ok _ _ _ _).mp done
    exact Moves.refl _
  · simp only [Program.bind_ok, Prod.exists, Program.pure_ok] at done
    obtain ⟨_, _, accepting, _, _, _, settling, _, rfl⟩ := done
    obtain ⟨accepted, reached⟩ : Moves terms client _ _ ∧ _ := accept_moves current accepting
    exact accepted.trans (plain_settle_moves reached settling).1

theorem refundFault_moves {order final : Order} {origin : Origin} {failure : Failure}
    {market next : State} (current : Current market order)
    (done : refundFault terms world order origin failure market = .ok final next) :
    Moves terms client market next := by
  unfold refundFault at done
  cases fault : packageFault failure with
  | none =>
      rw [fault] at done
      exact absurd done (Program.throw_ok _ _ _ _)
  | some reason =>
      simp only [fault, Program.bind_ok, Prod.exists, Program.pure_ok] at done
      obtain ⟨_, _, _, settling, _, rfl⟩ := done
      exact (plain_settle_moves current settling).1

theorem automatic_moves {order final : Order} {origin : Origin} {market next : State}
    (current : Current market order)
    (done : automatic terms world order origin market = .ok final next) :
    Moves terms client market next := by
  unfold automatic at done
  cases outcome : readPackage terms world order with
  | error failure =>
      rw [outcome] at done
      exact refundFault_moves current done
  | ok row =>
      simp only [outcome, deliverPackage, Program.bind_ok, read_ok] at done
      obtain ⟨_, _, preparing, _, _, ⟨_, rfl⟩, accepting⟩ := done
      obtain ⟨prepared, reached⟩ : Moves terms client _ _ ∧ _ := prepare_moves current preparing
      exact prepared.trans (acceptInstant_moves reached accepting)

theorem deliverInstant_moves {request : Request} {locked : Contract} {order : Order}
    {market next : State} (current : Current market order)
    (done : deliverInstant terms world request locked order market = .ok () next) :
    Moves terms client market next := by
  unfold deliverInstant at done
  split at done
  · simp only [Program.bind_ok, Program.pure_ok] at done
    obtain ⟨_, _, delivering, _, rfl⟩ := done
    exact automatic_moves current delivering
  · obtain ⟨_, rfl⟩ := (Program.pure_ok _ _ _ _).mp done
    exact Moves.refl _

/-! The operations on versioned orders. -/

theorem fund_moves {request : Request} {order : Order} {market next : State}
    (asked : client request.requestId) (current : Current market order)
    (ordinary : ¬ isOperation request "money.redeem" 3)
    (done : fund terms world request order market = .ok () next) :
    Moves terms client market next := by
  simp only [fund, Program.bind_ok, Prod.exists] at done
  obtain ⟨locked, funded, middle, funding, delivering⟩ := done
  obtain ⟨books, receipt, made, rfl, rfl⟩ :=
    fundEscrow_ok current (fun redeem => absurd redeem ordinary) funding
  exact (Moves.order (.funded asked made)).trans
    (deliverInstant_moves (current_funded current) delivering)

theorem checkoutVersion_known (explicit : Bool) :
    checkoutVersion explicit = 3 ∨ checkoutVersion explicit = 4 := by
  cases explicit <;> simp [checkoutVersion]

theorem reserve_moves {checkout : Checkout} {explicit : Bool} {market next : State}
    (opens : OpensOffer terms client world checkout)
    (done : reserve terms world checkout (checkoutVersion explicit) market = .ok () next) :
    Moves terms client market next := by
  simp only [reserve, Program.bind_ok, Program.pure_ok] at done
  obtain ⟨_, _, creating, _, rfl⟩ := done
  exact (create_moves opens (checkoutVersion_known explicit) creating).1

theorem buy_moves {checkout : Checkout} {explicit : Bool} {market next : State}
    (asked : client checkout.request.requestId) (opens : OpensOffer terms client world checkout)
    (ordinary : ¬ isOperation checkout.request "money.redeem" 3)
    (done : buy terms world checkout (checkoutVersion explicit) market = .ok () next) :
    Moves terms client market next := by
  simp only [buy, Program.bind_ok] at done
  obtain ⟨_, _, creating, funding⟩ := done
  obtain ⟨created, reached⟩ : Moves terms client _ _ ∧ _ :=
    create_moves opens (checkoutVersion_known explicit) creating
  exact created.trans (fund_moves asked reached ordinary funding)

theorem pay_moves {payment : Payment} {market next : State}
    (asked : client payment.request.requestId)
    (ordinary : ¬ isOperation payment.request "money.redeem" 3)
    (done : pay terms world payment market = .ok () next) : Moves terms client market next := by
  simp only [pay, Program.bind_ok, read_ok] at done
  obtain ⟨_, _, ⟨_, rfl⟩, row, _, ⟨found, rfl⟩, _, _, ⟨_, rfl⟩, _, _, ⟨_, rfl⟩, funding⟩ := done
  exact fund_moves asked (readBuyerOrder_ok found).2.1 ordinary funding

theorem cancelOrder_moves {order : Order} {origin : Origin} {market next : State}
    (current : Current market order)
    (done : cancelOrder terms world order origin market = .ok () next) :
    Moves terms client market next := by
  unfold cancelOrder at done
  split at done
  · simp only [Program.bind_ok, Program.pure_ok] at done
    obtain ⟨_, _, cancelling, _, rfl⟩ := done
    exact (cancel_moves current cancelling).1
  · split at done
    · obtain ⟨_, rfl⟩ := (Program.pure_ok _ _ _ _).mp done
      exact Moves.refl _
    · simp only [cancelFunded, Program.bind_ok, read_ok, Prod.exists, Program.pure_ok] at done
      obtain ⟨_, _, ⟨_, rfl⟩, _, _, _, settling, _, rfl⟩ := done
      exact (plain_settle_moves current settling).1

theorem cancelRequest_moves {request : Request} {orderId : String} {market next : State}
    (done : cancel terms world request orderId market = .ok () next) :
    Moves terms client market next := by
  simp only [cancel, Program.bind_ok, read_ok] at done
  obtain ⟨_, _, ⟨_, rfl⟩, row, _, ⟨found, rfl⟩, cancelling⟩ := done
  exact cancelOrder_moves (readBuyerOrder_ok found).2.1 cancelling

theorem prepareOrder_moves {request : Request} {orderId : String} {market next : State}
    (done : prepareOrder terms world request orderId market = .ok () next) :
    Moves terms client market next := by
  simp only [prepareOrder, Program.bind_ok, read_ok] at done
  obtain ⟨_, _, ⟨_, rfl⟩, row, _, ⟨found, rfl⟩, _, _, ⟨_, rfl⟩, _, _, ⟨_, rfl⟩, rest⟩ := done
  split at rest
  · simp only [Program.bind_ok, Program.pure_ok] at rest
    obtain ⟨_, _, delivering, _, rfl⟩ := rest
    exact automatic_moves (readBuyerOrder_ok found).2.1 delivering
  · obtain ⟨_, rfl⟩ := (Program.pure_ok _ _ _ _).mp rest
    exact Moves.refl _

theorem submitDelivery_moves {submission : Submission} {market next : State}
    (done : submitDelivery terms world submission market = .ok () next) :
    Moves terms client market next := by
  simp only [submitDelivery, Program.bind_ok, read_ok, Program.pure_ok] at done
  obtain ⟨_, _, ⟨_, rfl⟩, row, _, ⟨found, rfl⟩, _, _, ⟨_, rfl⟩, _, _, ⟨_, rfl⟩, _, _, ⟨_, rfl⟩, _, _,
    ⟨_, rfl⟩, _, _, ⟨_, rfl⟩, _, _, ⟨_, rfl⟩, _, _, ⟨_, rfl⟩, _, _, ⟨_, rfl⟩, _, _, preparing, _,
    rfl⟩ := done
  exact (prepare_moves (readOrder_ok found).2 preparing).1

theorem acceptDelivered_moves {order final : Order} {origin : Origin} {market next : State}
    (current : Current market order)
    (done : acceptDelivered terms world order origin market = .ok final next) :
    Moves terms client market next := by
  unfold acceptDelivered at done
  split at done
  · simp only [Program.bind_ok, Prod.exists, Program.pure_ok] at done
    obtain ⟨_, _, accepting, _, _, _, settling, _, rfl⟩ := done
    obtain ⟨accepted, reached⟩ : Moves terms client _ _ ∧ _ := accept_moves current accepting
    exact accepted.trans (plain_settle_moves reached settling).1
  · obtain ⟨_, rfl⟩ := (Program.pure_ok _ _ _ _).mp done
    exact Moves.refl _

theorem acceptDelivery_moves {acceptance : Acceptance} {market next : State}
    (done : acceptDelivery terms world acceptance market = .ok () next) :
    Moves terms client market next := by
  simp only [acceptDelivery, Program.bind_ok, read_ok] at done
  obtain ⟨buyer, _, ⟨_, rfl⟩, order, _, ⟨found, rfl⟩, delivery, _, ⟨_, rfl⟩, _, _, ⟨_, rfl⟩, _, _,
    ⟨_, rfl⟩, rest⟩ := done
  unfold acceptUnclaimed at rest
  split at rest
  · obtain ⟨_, rfl⟩ := (Program.pure_ok _ _ _ _).mp rest
    exact Moves.refl _
  · simp only [updateDelivery, Program.bind_ok, Program.write_ok, Except.ok.injEq] at rest
    obtain ⟨_, reached, accepting, rfl⟩ := rest
    exact (acceptDelivered_moves (readBuyerOrder_ok found).2.1 accepting).trans
      (Moves.order (.acknowledged reached order.id _ fun _ => rfl))

/-! Redemption: the contract is read back only when the order is funded. -/

/-- The row that an insert into the contracts is read back as. -/
theorem contract_inserted {contracts grown : Table Contract.orderId} {locked found : Contract}
    {market : State} (inserted : contracts.insert locked = some grown)
    (same : market.contracts = grown)
    (agreed : contract terms market locked.orderId = .ok found) : found = locked := by
  have stored := (contract_ok agreed).1
  rw [same, Table.find?_insert inserted, if_pos rfl] at stored
  exact (Option.some.inj stored).symm

/-- The intent of a contract is read from the authority tables alone. -/
theorem entitlementIntent_congr {market other : State} (same : other.authority = market.authority)
    (locked : Contract) :
    entitlementIntent terms other locked = entitlementIntent terms market locked := by
  simp only [entitlementIntent, intentCheck, same]

theorem validateProjection_intent {market : State} {locked : Contract}
    (valid : validateProjection terms market locked = .ok ()) :
    entitlementIntent terms market locked = .ok () := by
  simp only [validateProjection, Program.except_bind_ok] at valid
  obtain ⟨_, _, _, intent, _⟩ := valid
  exact intent

/-- The orders that a redemption opens. -/
def OpensRedeemed (terms : Terms) (client : Client) (world : World) (redemption : Redemption) :
    Prop :=
  ∀ market redeemed ids, readRedemption terms world market redemption = .ok redeemed →
    client.opens { market with active := ids } (redeemOrder terms world redemption redeemed)

theorem redeem_moves {redemption : Redemption} {market next : State}
    (asked : client redemption.request.requestId)
    (opens : OpensRedeemed terms client world redemption)
    (done : redeem terms world redemption market = .ok () next) :
    Moves terms client market next := by
  simp only [redeem, beginNew, Program.bind_ok, read_ok, Program.write_ok, Except.ok.injEq,
    Prod.exists, Program.pure_ok] at done
  obtain ⟨redeemed, start, ⟨offer, rfl⟩, _, _, rfl, _, _, openedOrder, key, _, ⟨_, rfl⟩, _, _,
    contracted, order, _, ⟨reread, rfl⟩, locked, funded, _, funding, _, _, _, settling, _,
    rfl⟩ := done
  obtain ⟨books, orders, rfl, account, amounts, parties, inserted⟩ := openOrder_ok openedOrder
  obtain ⟨contracts, newest, rfl⟩ := insertContract_ok contracted
  obtain ⟨sameId, current⟩ := readOrder_ok reread
  have isNew : ∀ (later : State) found, later.contracts = contracts →
      contract terms later order.id = .ok found →
      found = redeemContract terms world redemption redeemed key := by
    intro later found same agreed
    rw [sameId] at agreed
    exact contract_inserted newest same agreed
  obtain ⟨paidBooks, receipt, made, rfl, rfl⟩ := fundEscrow_ok current
    (fun _ found agreed => by rw [isNew _ found rfl agreed]; rfl) funding
  have isLocked := isNew _ locked rfl made.agreed
  subst isLocked
  have opening : Opened terms
      { start with active := newOrderId world :: start.active }
      (redeemOrder terms world redemption redeemed)
      (redeemContract terms world redemption redeemed key) books orders contracts :=
    { account := account
      amounts := amounts
      parties := parties
      inserted := inserted
      contracted := newest
      blank := ⟨rfl, rfl, rfl, rfl, rfl, rfl⟩
      drawn := ⟨⟨world.entropy, rfl⟩, ⟨world.entropy, rfl⟩⟩
      target := by simp [redeemOrder]
      named := rfl
      fixed := rfl
      version := rfl
      intent := by
        refine (entitlementIntent_congr ?_ _).trans
          (validateProjection_intent (contract_ok made.agreed).2.2)
        rfl
      digest := by
        apply (require_ok _ _ _).mpr
        intro _
        rfl
      writable := fun _ => List.mem_cons_self }
  have settled : Moves terms client _ _ ∧ _ := settle_moves (current_funded current) (by
    rintro found agreed purchase ⟨⟩
    rw [isNew _ found rfl agreed]
    exact ⟨_, rfl, rfl, rfl⟩) settling
  exact (Moves.one (.activated fun id member => List.mem_cons_of_mem _ member)).trans
    ((Moves.order (.opened (opens _ _ _ offer) opening)).trans ((Moves.order (.funded asked made)).trans settled.1))

end MsgServer.Market
