import MsgServer.Market.Solvency

/-!
The rows of an order never contradict its contract. Every order with a contract passes
the check that reads it, in every reachable state, and outside an operation that may
write it the published revision contains its rows as they stand.
-/

namespace MsgServer.Market

open Library Ledger

variable {terms : Terms} {client : Client}

/-! What the check of a contract says. -/

/-- `validateProjection` on the order it reads. -/
structure Projected (terms : Terms) (market : State) (locked : Contract) (order : Order) : Prop where
  version : versionCheck locked = .ok ()
  intent : entitlementIntent terms market locked = .ok ()
  current : market.orders.find? locked.orderId = some order
  fixed : order.fixed = locked.fixed
  digest : intentDigest locked order = .ok ()
  payment : paymentCheck market locked order = .ok ()
  settlement : settlementCheck market locked order = .ok ()

theorem validateProjection_ok (market : State) (locked : Contract) :
    validateProjection terms market locked = .ok () ↔
      ∃ order, Projected terms market locked order := by
  simp only [validateProjection, Program.except_bind_ok, requireRow_ok, require_ok]
  constructor
  · rintro ⟨_, version, _, intent, order, found, _, fixed, _, digest, _, payment, settlement⟩
    exact ⟨order, version, intent, found, fixed, digest, payment, settlement⟩
  · rintro ⟨order, made⟩
    exact ⟨(), made.version, (), made.intent, order, made.current, (), made.fixed, (), made.digest, (),
      made.payment, made.settlement⟩

/-- A settlement as its order has to show it. -/
structure Accounted (market : State) (locked : Contract) (order : Order) (fact : Settlement) :
    Prop where
  named : fact.orderId = locked.orderId
  nonnegative : 0 ≤ fact.refundMinor ∧ 0 ≤ fact.releaseMinor
  legs : fact.receipts.map legOf = expectedLegs locked fact.refundMinor fact.releaseMinor
  total : fact.refundMinor + fact.releaseMinor = locked.totalPriceMinor
  state : order.state = finalState fact.releaseMinor
  settledAt : order.settledAt = some fact.recordedAt
  refs : order.receiptRefs.map some = order.paymentTransactionId ::
    fact.receipts.map fun receipt => some receipt.transactionId
  facts : order.facts = fact.orderFacts
  delivery : deliverySnapshot market locked.orderId = fact.deliverySnapshot
  acceptance : locked.version = 4 ∧ fact.decisionId = none ∧ fact.releaseMinor ≠ 0 →
    fact.reason = .buyerAcceptance ∧ fact.refundMinor = 0
  grant : entitlementGrant market locked order fact = .ok ()
  recorded : ∀ receipt ∈ fact.receipts,
    market.books.postings.find? receipt.transactionId = some receipt

theorem settlementRow_ok (market : State) (locked : Contract) (order : Order) (fact : Settlement) :
    settlementRow market locked order fact = .ok () ↔ Accounted market locked order fact := by
  simp only [settlementRow, Program.except_bind_ok, require_ok]
  constructor
  · rintro ⟨_, ⟨named, nonnegative⟩, _, legs, _, ⟨total, state, settledAt, refs, facts, delivery⟩, _,
      acceptance, _, grant, recorded⟩
    exact ⟨named, nonnegative, legs, total, state, settledAt, refs, facts, delivery, acceptance,
      grant, recorded⟩
  · intro made
    exact ⟨(), ⟨made.named, made.nonnegative⟩, (), made.legs, (),
      ⟨made.total, made.state, made.settledAt, made.refs, made.facts, made.delivery⟩, (),
      made.acceptance, (), made.grant, made.recorded⟩

theorem finalState_terminal (releaseMinor : Int) :
    finalState releaseMinor = .settled ∨ finalState releaseMinor = .refunded := by
  unfold finalState
  split
  · exact Or.inr rfl
  · exact Or.inl rfl

/-- An order that is neither settled nor refunded has no settlement. -/
theorem Projected.unsettled {market : State} {locked : Contract} {order : Order}
    (made : Projected terms market locked order) (pending : order.state ≠ .settled)
    (unrefunded : order.state ≠ .refunded) : market.settlements.find? locked.orderId = none := by
  have checked := made.settlement
  unfold settlementCheck at checked
  cases found : market.settlements.find? locked.orderId with
  | none => rfl
  | some fact =>
      simp only [found, settlementRow_ok] at checked
      rcases finalState_terminal fact.releaseMinor with final | final
      · exact absurd (checked.state.trans final) pending
      · exact absurd (checked.state.trans final) unrefunded

theorem settlementCheck_none {market : State} {locked : Contract} {order : Order}
    (unsettled : market.settlements.find? locked.orderId = none)
    (pending : order.state ≠ .settled) (unrefunded : order.state ≠ .refunded) :
    settlementCheck market locked order = .ok () := by
  simp only [settlementCheck, unsettled, require_ok]
  exact ⟨pending, unrefunded⟩

theorem settlementCheck_some {market : State} {locked : Contract} {order : Order}
    {fact : Settlement} (found : market.settlements.find? locked.orderId = some fact) :
    settlementCheck market locked order = .ok () ↔ Accounted market locked order fact := by
  simp only [settlementCheck, found, settlementRow_ok]

theorem paymentCheck_some {market : State} {locked : Contract} {order : Order} {id : String}
    (payment : order.paymentTransactionId = some id) :
    paymentCheck market locked order = .ok () ↔
      (market.books.postings.find? id).map paymentRow =
        some (⟨.transfer, some locked.buyer, some locked.escrowSubject, locked.totalPriceMinor,
          locked.listing.currencyId, some (fundReference locked.orderId)⟩, order.fundedAt) := by
  simp only [paymentCheck, payment, require_ok]

/-! What a move leaves alone. -/

/-- The identity of every credential is kept. -/
def CredentialsKept (market next : State) : Prop :=
  ∀ id key, market.authority.credentials.find? id = some key →
    ∃ later, next.authority.credentials.find? id = some later ∧
      later.subjectId = key.subjectId ∧ later.kind = key.kind ∧ later.verifier = key.verifier

/-- Nothing that the check of one order reads has changed. -/
structure Beside (market next : State) (orderId : String) : Prop where
  credentials : CredentialsKept market next
  order : next.orders.find? orderId = market.orders.find? orderId
  postings : ∀ id posting, market.books.postings.find? id = some posting →
    next.books.postings.find? id = some posting
  settlement : next.settlements.find? orderId = market.settlements.find? orderId
  delivery : deliverySnapshot next orderId = deliverySnapshot market orderId
  entitlements : ∀ id row, market.entitlements.find? id = some row →
    next.entitlements.find? id = some row

theorem intent_kept {market next : State} {locked : Contract}
    (credentials : CredentialsKept market next)
    (intent : entitlementIntent terms market locked = .ok ()) :
    entitlementIntent terms next locked = .ok () := by
  unfold entitlementIntent at intent ⊢
  split
  · rename_i version
    simp only [version, if_true, intentCheck, Program.except_bind_ok, requireRow_ok,
      require_ok] at intent ⊢
    obtain ⟨extra, isExtra, _, policy, _, shape, signature, signed, _, request, _, arguments, key,
      stored, _, signer, verified⟩ := intent
    obtain ⟨later, kept, subject, kind, verifier⟩ := credentials _ _ stored
    refine ⟨extra, isExtra, (), policy, (), shape, signature, signed, (), request, (), arguments,
      later, kept, (), ?_, ?_⟩
    · rw [subject, kind, verifier]
      exact signer
    · rw [verifier]
      exact verified
  · rfl

theorem payment_kept {market next : State} {locked : Contract} {order : Order}
    (postings : ∀ id posting, market.books.postings.find? id = some posting →
      next.books.postings.find? id = some posting)
    (paid : paymentCheck market locked order = .ok ()) :
    paymentCheck next locked order = .ok () := by
  cases payment : order.paymentTransactionId with
  | none => simp only [paymentCheck, payment]
  | some id =>
      rw [paymentCheck_some payment] at paid ⊢
      obtain ⟨posting, stored, same⟩ := Option.map_eq_some_iff.mp paid
      rw [postings id posting stored, Option.map_some, same]

theorem grant_kept {market next : State} {locked : Contract} {order : Order} {fact : Settlement}
    (delivery : deliverySnapshot next locked.orderId = deliverySnapshot market locked.orderId)
    (entitlements : ∀ id row, market.entitlements.find? id = some row →
      next.entitlements.find? id = some row)
    (granted : entitlementGrant market locked order fact = .ok ()) :
    entitlementGrant next locked order fact = .ok () := by
  unfold entitlementGrant at granted ⊢
  split
  · rename_i version
    simp only [version, if_true, grantCheck, Program.except_bind_ok, requireRow_ok,
      require_ok] at granted ⊢
    obtain ⟨_, shape, extra, isExtra, receipt, first, id, named, stored⟩ := granted
    exact ⟨(), by rw [delivery]; exact shape, extra, isExtra, receipt, first, id, named,
      entitlements id _ stored⟩
  · rfl

theorem Accounted.kept {market next : State} {locked : Contract} {order : Order}
    {fact : Settlement} (made : Accounted market locked order fact)
    (postings : ∀ id posting, market.books.postings.find? id = some posting →
      next.books.postings.find? id = some posting)
    (delivery : deliverySnapshot next locked.orderId = deliverySnapshot market locked.orderId)
    (entitlements : ∀ id row, market.entitlements.find? id = some row →
      next.entitlements.find? id = some row) : Accounted next locked order fact where
  named := made.named
  nonnegative := made.nonnegative
  legs := made.legs
  total := made.total
  state := made.state
  settledAt := made.settledAt
  refs := made.refs
  facts := made.facts
  delivery := delivery.trans made.delivery
  acceptance := made.acceptance
  grant := grant_kept delivery entitlements made.grant
  recorded := fun receipt member => postings _ _ (made.recorded receipt member)

theorem settlement_kept {market next : State} {locked : Contract} {order : Order}
    (beside : Beside market next locked.orderId)
    (checked : settlementCheck market locked order = .ok ()) :
    settlementCheck next locked order = .ok () := by
  cases found : market.settlements.find? locked.orderId with
  | none =>
      simp only [settlementCheck, beside.settlement, found, require_ok] at checked ⊢
      exact checked
  | some fact =>
      rw [settlementCheck_some found] at checked
      rw [settlementCheck_some (beside.settlement.trans found)]
      exact checked.kept beside.postings beside.delivery beside.entitlements

theorem Projected.beside {market next : State} {locked : Contract} {order : Order}
    (made : Projected terms market locked order) (beside : Beside market next locked.orderId) :
    Projected terms next locked order where
  version := made.version
  intent := intent_kept beside.credentials made.intent
  current := beside.order.trans made.current
  fixed := made.fixed
  digest := made.digest
  payment := payment_kept beside.postings made.payment
  settlement := settlement_kept beside made.settlement

theorem CredentialsKept.refl (market : State) : CredentialsKept market market :=
  fun _ key found => ⟨key, found, rfl, rfl, rfl⟩

theorem CredentialsKept.same {market next : State} (same : next.authority = market.authority) :
    CredentialsKept market next := by
  intro id key found
  exact ⟨key, by rw [same]; exact found, rfl, rfl, rfl⟩

/-! The invariant. -/

/-- An order has been paid exactly when it is past its creation. -/
def Staged (order : Order) : Prop :=
  (order.paymentTransactionId = none ∧ order.receiptRefs = [] ∧
      (order.state = .created ∨ order.state = .cancelled)) ∨
    (∃ id, order.paymentTransactionId = some id ∧ order.receiptRefs = [id] ∧
      order.state.funding = true) ∨
    order.state = .settled ∨ order.state = .refunded

structure OrderSound (market : State) (order : Order) : Prop where
  amounts : 0 < order.totalPriceMinor ∧ order.currencyId = currencyId
  staged : Staged order
  undelivered : order.state = .created ∨ order.state = .funded →
    order.deliveredAt = none ∧ deliverySnapshot market order.id = none

structure Consistent (terms : Terms) (market : State) : Prop where
  orders : ∀ order ∈ market.orders.rows, OrderSound market order
  valid : ∀ locked ∈ market.contracts.rows, ∃ order, Projected terms market locked order ∧
    order.deliveryTarget.handleSnapshot ≠ none
  contracted : ∀ fact ∈ market.settlements.rows, ∃ locked,
    market.contracts.find? fact.orderId = some locked ∧
      ¬ (locked.version = 4 ∧ fact.reason = .managedInstantVerified)
  uncontracted : ∀ fact ∈ market.escrowDecisions.rows,
    market.contracts.find? fact.orderId = none ∧
      (market.orders.find? fact.orderId).isSome = true
  ordered : ∀ id, deliverySnapshot market id ≠ none → (market.orders.find? id).isSome = true

/-- A contract and its order, found by the id they share. -/
theorem Consistent.projected {market : State} (consistent : Consistent terms market) {id : String}
    {locked : Contract} (found : market.contracts.find? id = some locked) :
    locked.orderId = id ∧ ∃ order, market.orders.find? id = some order ∧
      Projected terms market locked order ∧ order.deliveryTarget.handleSnapshot ≠ none := by
  have named : locked.orderId = id := Table.find?_key found
  obtain ⟨order, made, handle⟩ := consistent.valid locked (Table.find?_mem found)
  exact ⟨named, order, by rw [← named]; exact made.current, made, handle⟩

/-- The contract of an order in hand. -/
theorem Consistent.own {market : State} (consistent : Consistent terms market) {order : Order}
    (current : Current market order) {locked : Contract}
    (found : market.contracts.find? order.id = some locked) :
    locked.orderId = order.id ∧ Projected terms market locked order ∧
      order.deliveryTarget.handleSnapshot ≠ none := by
  obtain ⟨named, other, stored, made, handle⟩ := consistent.projected found
  have same : other = order := Option.some.inj (stored.symm.trans current)
  rw [same] at made handle
  exact ⟨named, made, handle⟩

/-- A move that touches no order. -/
theorem Consistent.frame {market next : State} (consistent : Consistent terms market)
    (credentials : CredentialsKept market next)
    (postings : ∀ id posting, market.books.postings.find? id = some posting →
      next.books.postings.find? id = some posting)
    (orders : next.orders = market.orders) (contracts : next.contracts = market.contracts)
    (settlements : next.settlements = market.settlements)
    (decisions : next.escrowDecisions = market.escrowDecisions)
    (deliveries : ∀ id, deliverySnapshot next id = deliverySnapshot market id)
    (entitlements : next.entitlements = market.entitlements) : Consistent terms next := by
  have beside : ∀ id, Beside market next id := fun id =>
    { credentials := credentials
      order := by rw [orders]
      postings := postings
      settlement := by rw [settlements]
      delivery := deliveries id
      entitlements := by rw [entitlements]; exact fun _ _ found => found }
  constructor
  · rw [orders]
    intro order member
    have sound := consistent.orders order member
    exact ⟨sound.amounts, sound.staged, by rw [deliveries]; exact sound.undelivered⟩
  · rw [contracts]
    intro locked member
    obtain ⟨order, made, handle⟩ := consistent.valid locked member
    exact ⟨order, made.beside (beside _), handle⟩
  · rw [settlements, contracts]
    exact consistent.contracted
  · rw [decisions, contracts, orders]
    exact consistent.uncontracted
  · intro id known
    rw [deliveries] at known
    rw [orders]
    exact consistent.ordered id known

/-- What a move that rewrites one order has to keep of everything else. -/
structure Rewrites (market next : State) (order : Order) (change : Order → Order) : Prop where
  current : Current market order
  keeps : Keeps change
  authority : next.authority = market.authority
  orders : next.orders = market.orders.modify order.id change
  contracts : next.contracts = market.contracts
  postings : ∀ id posting, market.books.postings.find? id = some posting →
    next.books.postings.find? id = some posting
  settlements : ∀ id, id ≠ order.id → next.settlements.find? id = market.settlements.find? id
  deliveries : ∀ id, id ≠ order.id → deliverySnapshot next id = deliverySnapshot market id
  entitlements : ∀ id row, market.entitlements.find? id = some row →
    next.entitlements.find? id = some row

theorem Rewrites.beside {market next : State} {order : Order} {change : Order → Order}
    (rewrites : Rewrites market next order change) {id : String} (different : id ≠ order.id) :
    Beside market next id where
  credentials := .same rewrites.authority
  order := by rw [rewrites.orders, Table.find?_modify_ne _ _ different]
  postings := rewrites.postings
  settlement := rewrites.settlements id different
  delivery := rewrites.deliveries id different
  entitlements := rewrites.entitlements

theorem Rewrites.found {market next : State} {order : Order} {change : Order → Order}
    (rewrites : Rewrites market next order change) :
    next.orders.find? order.id = some (change order) := by
  have stored : market.orders.find? order.id = some order := rewrites.current
  rw [rewrites.orders, Table.find?_modify_self _ _ _ rewrites.keeps.id, stored, Option.map_some]

theorem Rewrites.known {market next : State} {order : Order} {change : Order → Order}
    (rewrites : Rewrites market next order change) {id : String}
    (known : (market.orders.find? id).isSome = true) : (next.orders.find? id).isSome = true := by
  by_cases same : id = order.id
  · rw [same, rewrites.found]
    rfl
  · rw [rewrites.orders, Table.find?_modify_ne _ _ same]
    exact known

theorem Consistent.rewrite {market next : State} {order : Order} {change : Order → Order}
    (consistent : Consistent terms market) (rewrites : Rewrites market next order change)
    (own : ∀ locked, market.contracts.find? order.id = some locked →
      Projected terms market locked order → Projected terms next locked (change order))
    (handle : (change order).deliveryTarget.handleSnapshot =
      order.deliveryTarget.handleSnapshot)
    (sound : OrderSound next (change order))
    (settlements : ∀ fact ∈ next.settlements.rows, fact ∈ market.settlements.rows ∨
      ∃ locked, market.contracts.find? fact.orderId = some locked ∧
        ¬ (locked.version = 4 ∧ fact.reason = .managedInstantVerified))
    (decisions : ∀ fact ∈ next.escrowDecisions.rows, fact ∈ market.escrowDecisions.rows ∨
      fact.orderId = order.id ∧ market.contracts.find? order.id = none) :
    Consistent terms next := by
  constructor
  · intro row member
    rw [rewrites.orders] at member
    rcases Table.mem_modify rewrites.keeps.id member with ⟨same, different⟩ | ⟨old, found, rfl⟩
    · have before := consistent.orders row same
      exact ⟨before.amounts, before.staged, by
        rw [rewrites.deliveries _ different]; exact before.undelivered⟩
    · rw [Option.some.inj (found.symm.trans rewrites.current)]
      exact sound
  · rw [rewrites.contracts]
    intro locked member
    by_cases isOwn : locked.orderId = order.id
    · have found : market.contracts.find? order.id = some locked := by
        rw [← isOwn]
        exact (Table.mem_iff_find? _ locked).mp member
      obtain ⟨_, made, named⟩ := consistent.own rewrites.current found
      exact ⟨change order, own locked found made, by rw [handle]; exact named⟩
    · obtain ⟨other, made, named⟩ := consistent.valid locked member
      exact ⟨other, made.beside (rewrites.beside isOwn), named⟩
  · intro fact member
    rw [rewrites.contracts]
    rcases settlements fact member with old | new
    · exact consistent.contracted fact old
    · exact new
  · intro fact member
    rw [rewrites.contracts]
    rcases decisions fact member with old | ⟨named, uncontracted⟩
    · exact ⟨(consistent.uncontracted fact old).1,
        rewrites.known (consistent.uncontracted fact old).2⟩
    · rw [named]
      refine ⟨uncontracted, ?_⟩
      rw [rewrites.found]
      rfl
  · intro id known
    by_cases same : id = order.id
    · rw [same, rewrites.found]
      rfl
    · rw [rewrites.deliveries id same] at known
      exact rewrites.known (consistent.ordered id known)

/-- A pending order stays one: nothing but its own columns has to be checked again. -/
theorem Projected.restate {market next : State} {locked : Contract} {order : Order}
    {change : Order → Order} (made : Projected terms market locked order)
    (rewrites : Rewrites market next order change) (named : locked.orderId = order.id)
    (pending : order.state ≠ .settled ∧ order.state ≠ .refunded)
    (later : (change order).state ≠ .settled ∧ (change order).state ≠ .refunded)
    (settlements : next.settlements = market.settlements)
    (digest : intentDigest locked (change order) = .ok ())
    (payment : paymentCheck next locked (change order) = .ok ()) :
    Projected terms next locked (change order) := by
  refine ⟨made.version, intent_kept (.same rewrites.authority) made.intent, ?_, ?_, digest,
    payment, ?_⟩
  · rw [named]
    exact rewrites.found
  · rw [(rewrites.keeps order).2]
    exact made.fixed
  · apply settlementCheck_none _ later.1 later.2
    rw [settlements]
    exact made.unsettled pending.1 pending.2

theorem funding_pending {state : OrderState} (funding : state.funding = true) :
    state ≠ .settled ∧ state ≠ .refunded := by
  cases state <;> simp [OrderState.funding] at funding ⊢

end MsgServer.Market
