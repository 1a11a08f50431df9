import MsgServer.Market.Sourcing

/-!
An order ends once. Settlements and escrow decisions are written once and never both,
an order that has ended stays as it is, and settling it again only answers the request
it was settled by.
-/

namespace MsgServer.Market

open Library Ledger

variable {terms : Terms} {client : Client} {world : World} {market next : State}
  {order : Order}

/-! What no later operation undoes. -/

/-- An ended order and its escrow are left alone. -/
structure Resting (market next : State) (order : Order) : Prop where
  row : ∃ later, next.orders.find? order.id = some later ∧ later.state = order.state ∧
    later.fixed = order.fixed
  postings : touching next.books order.escrowSubject = touching market.books order.escrowSubject

structure Lasting (market next : State) : Prop where
  settlements : ∀ id fact, market.settlements.find? id = some fact →
    next.settlements.find? id = some fact
  decisions : ∀ id fact, market.escrowDecisions.find? id = some fact →
    next.escrowDecisions.find? id = some fact
  ended : ∀ order ∈ market.orders.rows, order.state.terminal = true → Resting market next order

theorem Resting.refl (member : order ∈ market.orders.rows) : Resting market market order :=
  ⟨⟨order, (Table.mem_iff_find? _ order).mp member, rfl, rfl⟩, rfl⟩

theorem Lasting.refl (market : State) : Lasting market market :=
  ⟨fun _ _ found => found, fun _ _ found => found, fun _ member _ => Resting.refl member⟩

theorem Lasting.trans {third : State} (first : Lasting market next) (second : Lasting next third) :
    Lasting market third where
  settlements := fun id fact found => second.settlements id fact (first.settlements id fact found)
  decisions := fun id fact found => second.decisions id fact (first.decisions id fact found)
  ended := by
    intro order member ended
    obtain ⟨⟨middle, found, sameState, sameFixed⟩, postings⟩ := first.ended order member ended
    have sameId : middle.id = order.id := Table.find?_key found
    have sameEscrow : middle.escrowSubject = order.escrowSubject :=
      congrArg Fixed.escrowSubject sameFixed
    have later := second.ended middle (Table.find?_mem found) (by rw [sameState]; exact ended)
    obtain ⟨⟨last, stored, lastState, lastFixed⟩, lastPostings⟩ := later
    constructor
    · exact ⟨last, by rw [← sameId]; exact stored, lastState.trans sameState,
        lastFixed.trans sameFixed⟩
    · rw [← postings, ← sameEscrow]
      exact lastPostings

theorem Lasting.frame (orders : next.orders = market.orders)
    (settlements : next.settlements = market.settlements)
    (decisions : next.escrowDecisions = market.escrowDecisions)
    (postings : ∀ order ∈ market.orders.rows,
      touching next.books order.escrowSubject = touching market.books order.escrowSubject) :
    Lasting market next where
  settlements := by
    rw [settlements]
    exact fun _ _ found => found
  decisions := by
    rw [decisions]
    exact fun _ _ found => found
  ended := by
    intro order member _
    refine ⟨⟨order, ?_, rfl, rfl⟩, postings order member⟩
    rw [orders]
    exact (Table.mem_iff_find? _ order).mp member

/-- A move that rewrites one order, which has not ended, and moves only its money. -/
theorem Lasting.rewrite {change : Order → Order} (rewrites : Rewrites market next order change)
    (pending : order.state.terminal = false)
    (settlements : ∀ fact, market.settlements.find? order.id = some fact →
      next.settlements.find? order.id = some fact)
    (decisions : ∀ id fact, market.escrowDecisions.find? id = some fact →
      next.escrowDecisions.find? id = some fact)
    (postings : ∀ other ∈ market.orders.rows, other.id ≠ order.id →
      touching next.books other.escrowSubject = touching market.books other.escrowSubject) :
    Lasting market next where
  settlements := by
    intro id fact found
    by_cases own : id = order.id
    · rw [own] at found ⊢
      exact settlements fact found
    · rw [rewrites.settlements id own]
      exact found
  decisions := decisions
  ended := by
    intro other member ended
    have different : other.id ≠ order.id := by
      intro same
      have isOrder := Table.eq_of_key_eq member rewrites.current.mem same
      rw [isOrder, pending] at ended
      cases ended
    refine ⟨⟨other, ?_, rfl, rfl⟩, postings other member different⟩
    rw [rewrites.orders, Table.find?_modify_ne _ _ different]
    exact (Table.mem_iff_find? _ other).mp member

/-- A move that creates an order. -/
theorem Lasting.enter (enters : Enters market next order)
    (postings : ∀ other ∈ market.orders.rows,
      touching next.books other.escrowSubject = touching market.books other.escrowSubject) :
    Lasting market next where
  settlements := by
    rw [enters.settlements]
    exact fun _ _ found => found
  decisions := by
    rw [enters.escrowDecisions]
    exact fun _ _ found => found
  ended := by
    intro other member _
    have found := (Table.mem_iff_find? _ other).mp member
    exact ⟨⟨other, (enters.known found).2, rfl, rfl⟩, postings other member⟩

theorem funding_open {state : OrderState} (funding : state.funding = true) :
    state.terminal = false := by
  cases state <;> simp [OrderState.funding, OrderState.terminal] at funding ⊢

theorem turning_open {before state : OrderState} (turning : Turning before state) :
    before.terminal = false := by
  cases turning <;> rfl

/-- The published settlements start from a paid or a delivered order. -/
theorem branch_open {legacy : LegacyRequest} {reason : LegacyReason} {buyer : String}
    {chosen : Branch} (branched : branch terms world market order legacy reason buyer = .ok chosen) :
    order.state.terminal = false := by
  rcases branch_ok branched with ⟨_, _, _, state⟩ | ⟨_, _, _, state, _⟩ <;> rw [state] <;> rfl

theorem lasting_settled {locked : Contract} {request : SettleRequest} {payout : Payout}
    (grounded : Grounded market)
    (made : Settled terms world market order locked request payout) :
    Lasting market (market.settled order request payout) := by
  have member := made.current.mem
  have parties := grounded.parties order member
  obtain ⟨middle, refund, release⟩ := made.paid
  apply Lasting.rewrite made.rewrites (funding_open made.funding)
  · intro fact found
    rw [made.unsettled] at found
    cases found
  · exact fun _ _ found => found
  · intro other isOther different
    have apart := grounded.other_escrow member isOther different
    have otherEscrow := grounded.escrows other isOther
    show touching payout.books other.escrowSubject = _
    rw [release.untouched apart (subject_not_escrow parties.2 otherEscrow),
      refund.untouched apart (subject_not_escrow parties.1 otherEscrow)]

theorem lasting_legacySettled {legacy : LegacyRequest} {reason : LegacyReason} {buyer : String}
    {chosen : Branch} {books : Books} {receipt : Posting} {stamp : Delivery → Delivery}
    {decisions : Table EscrowDecision.orderId} (grounded : Grounded market)
    (made : LegacySettled terms market world order legacy reason buyer chosen books receipt stamp
      decisions) :
    Lasting market (market.legacySettled world order chosen books receipt stamp decisions) := by
  have member := made.current.mem
  have parties := grounded.parties order member
  have branched := branch_ok made.branched
  have party : isSubjectId chosen.recipient = true := by
    rcases branched with ⟨_, _, recipient, _⟩ | ⟨_, _, recipient, _⟩
    · rw [recipient, ← made.owned]
      exact parties.1
    · rw [recipient]
      exact parties.2
  apply Lasting.rewrite made.rewrites (branch_open made.branched) (fun _ found => found)
  · intro id fact found
    show decisions.find? id = some fact
    rw [Table.find?_insert made.recorded, if_neg]
    · exact found
    · rintro rfl
      rw [Table.insert_fresh made.recorded] at found
      cases found
  · intro other isOther different
    apply made.posted.apart
    · simpa [released] using grounded.other_escrow member isOther different
    · simpa [released] using subject_not_escrow party (grounded.escrows other isOther)

theorem lasting_order (grounded : Grounded market) (move : OrderMove terms client market next) :
    Lasting market next := by
  cases move with
  | opened opens made =>
      exact Lasting.enter made.enters fun other _ =>
        touching_congr (insertAccount_ok made.account).2 _
  | scheduled deadlines => exact Lasting.frame rfl rfl rfl fun _ _ => rfl
  | @retargeted order current target handle =>
      refine ⟨fun _ _ found => found, fun _ _ found => found, ?_⟩
      intro other member _
      have found := (Table.mem_iff_find? _ other).mp member
      have keeps := keeps_target target
      refine ⟨?_, rfl⟩
      by_cases same : other.id = order.id
      · refine ⟨{ other with deliveryTarget := target }, ?_, rfl, (keeps other).2⟩
        show (market.orders.modify order.id _).find? other.id = _
        rw [same, Table.find?_modify_self _ _ _ keeps.id, ← same, found]
        rfl
      · refine ⟨other, ?_, rfl, rfl⟩
        show (market.orders.modify order.id _).find? other.id = _
        rw [Table.find?_modify_ne _ _ same]
        exact found
  | funded asked made =>
      have member := made.current.mem
      apply Lasting.rewrite made.rewrites (by rw [made.created]; rfl) (fun _ found => found)
        (fun _ _ found => found)
      intro other isOther different
      apply made.posted.untouched grounded isOther
      simpa [payment, entry] using grounded.other_escrow member isOther different
  | turned made origin reason =>
      exact Lasting.rewrite (made.rewrites origin reason) (turning_open made.turning)
        (fun _ found => found) (fun _ _ found => found) fun _ _ _ => rfl
  | disputed made origin reason locked world agreed drawn =>
      apply Lasting.rewrite (made.rewrites origin reason) _ (fun _ found => found)
        (fun _ _ found => found) fun _ _ _ => rfl
      rcases made.disputable with state | state <;> rw [state] <;> rfl
  | dispatched made origin envelopes =>
      exact Lasting.rewrite (made.rewrites origin envelopes) (by rw [made.deliverable.1]; rfl)
        (fun _ found => found) (fun _ _ found => found) fun _ _ _ => rfl
  | acknowledged orderId stamp stamped => exact Lasting.frame rfl rfl rfl fun _ _ => rfl
  | settled made => exact lasting_settled grounded made
  | legacyOpened asked opens made =>
      apply Lasting.enter made.enters
      intro other member
      have fresh := grounded.fresh_escrow made.account member
      show touching _ _ = _
      rw [made.posted.appended.apart, touching_congr (insertAccount_ok made.account).2]
      · intro sender
        exact made.posted.unguarded _ _ sender
          ((insertAccount_find made.account).2 _ _ (grounded.accounts other member)) rfl
      · simpa [legacyFunding, entry] using fresh
  | legacyPrepared made now =>
      exact Lasting.rewrite (made.rewrites now) (by rw [made.deliverable.1]; rfl)
        (fun _ found => found) (fun _ _ found => found) fun _ _ _ => rfl
  | legacySettled asked made => exact lasting_legacySettled grounded made

theorem lasting_move (grounded : Grounded market) (move : Move terms client market next) :
    Lasting market next := by
  cases move with
  | order move => exact lasting_order grounded move
  | dispute move =>
      have aside := case_aside move
      apply Lasting.frame aside.orders aside.settlements aside.escrowDecisions
      intro order _
      rw [aside.books]
  | money move =>
      have apart := money_apart move
      exact Lasting.frame apart.orders apart.settlements apart.escrowDecisions
        (money_untouched grounded move).2
  | authority extended => exact Lasting.frame rfl rfl rfl fun _ _ => rfl
  | activated grown => exact Lasting.frame rfl rfl rfl fun _ _ => rfl
  | restored published => exact Lasting.frame rfl rfl rfl fun _ _ => rfl
  | revised agreed resource content owner stored others =>
      exact Lasting.frame rfl rfl rfl fun _ _ => rfl

theorem lasting_moves (sound : Sound terms market) (moves : Moves terms client market next) :
    Lasting market next := by
  induction moves with
  | refl => exact Lasting.refl market
  | tail earlier move ih => exact ih.trans (lasting_move (sound.moves earlier).grounded move)

/-! Settling again. -/

/-- The same split for the same reason under the same decision. -/
def Repeats (fact : Settlement) (request : SettleRequest) : Prop :=
  fact.refundMinor = request.refundMinor ∧ fact.reason = request.reason ∧
    fact.decisionId = request.decisionId

theorem Consistent.accounted (consistent : Consistent terms market)
    (current : Current market order) {fact : Settlement}
    (found : market.settlements.find? order.id = some fact) :
    ∃ locked, market.contracts.find? order.id = some locked ∧ locked.orderId = order.id ∧
      Projected terms market locked order ∧ Accounted market locked order fact ∧
        ¬ (locked.version = 4 ∧ fact.reason = .managedInstantVerified) := by
  have named : fact.orderId = order.id := Table.find?_key found
  obtain ⟨locked, agreed, explicit⟩ := consistent.contracted fact (Table.find?_mem found)
  rw [named] at agreed
  obtain ⟨isOrder, projected, _⟩ := consistent.own current agreed
  have checked := projected.settlement
  rw [settlementCheck_some (by rw [isOrder]; exact found)] at checked
  exact ⟨locked, agreed, isOrder, projected, checked, explicit⟩

/-- Never both: an order with a settlement has a contract and one with an escrow decision
has none. -/
theorem Consistent.never_both (consistent : Consistent terms market) {id : String}
    {fact : Settlement} (found : market.settlements.find? id = some fact) :
    market.escrowDecisions.find? id = none := by
  by_contra known
  obtain ⟨decision, stored⟩ := Option.ne_none_iff_exists'.mp known
  have named : fact.orderId = id := Table.find?_key found
  have isOrder : decision.orderId = id := Table.find?_key stored
  obtain ⟨locked, agreed, _⟩ := consistent.contracted fact (Table.find?_mem found)
  have none := (consistent.uncontracted decision (Table.find?_mem stored)).1
  rw [isOrder, ← named, agreed] at none
  cases none

/-- Whatever refuses a second settlement, nothing has been written. -/
theorem settle_again_clean {request : SettleRequest} {fact : Settlement} {failure : Failure}
    (found : market.settlements.find? order.id = some fact)
    (refused : settle terms world order request market = .error failure next) : next = market := by
  simp only [settle, Program.bind_error, read_error, read_ok, Except.ok.injEq, reduceCtorEq,
    false_and, false_or] at refused
  rcases refused with early | ⟨_, _, ⟨_, rfl⟩, early | ⟨_, _, ⟨_, rfl⟩, early | ⟨_, _, ⟨_, rfl⟩,
    early | ⟨_, _, ⟨_, rfl⟩, existing, _, ⟨rfl, rfl⟩, late⟩⟩⟩⟩
  · exact early.2
  · exact early.2
  · exact early.2
  · exact early.2
  · simp only [found, settleOr, Program.bind_error, read_error, read_ok, Program.pure_error,
      and_false, exists_false, or_false] at late
    exact late.2

theorem settle_again_ok (sound : Sound terms market) (current : Current market order)
    {request : SettleRequest} {fact : Settlement}
    (found : market.settlements.find? order.id = some fact) (same : Repeats fact request) :
    settle terms world order request market = .ok (order, fact.receipts) market := by
  obtain ⟨locked, agreed, _, projected, accounted, explicit⟩ :=
    sound.consistent.accounted current found
  obtain ⟨sameRefund, sameReason, sameDecision⟩ := same
  have bounds : 0 ≤ request.refundMinor ∧ request.refundMinor ≤ order.totalPriceMinor := by
    obtain ⟨_, _, _, total, _⟩ := projected.columns
    have shares := accounted.nonnegative
    have sum := accounted.total
    omega
  simp only [settle, Program.bind_ok, read_ok, require_ok, Except.ok.injEq]
  refine ⟨locked, _, ⟨sound.readable agreed, rfl⟩, (), _, ⟨?_, rfl⟩, (), _,
    ⟨sound.consistent.never_both found, rfl⟩, (), _, ⟨bounds, rfl⟩, _, _, ⟨rfl, rfl⟩, ?_⟩
  · rw [← sameReason]
    exact explicit
  · simp only [found, settleOr, Program.bind_ok, read_ok, repeated, require_ok, Program.pure_ok]
    exact ⟨(), market, ⟨⟨sameRefund, sameReason, sameDecision⟩, rfl⟩, trivial, rfl⟩

theorem settle_again_same {request : SettleRequest} {fact : Settlement}
    {answer : Order × List Posting} (found : market.settlements.find? order.id = some fact)
    (done : settle terms world order request market = .ok answer next) : Repeats fact request := by
  simp only [settle, Program.bind_ok, read_ok, Except.ok.injEq] at done
  obtain ⟨_, _, ⟨_, rfl⟩, _, _, ⟨_, rfl⟩, _, _, ⟨_, rfl⟩, _, _, ⟨_, rfl⟩, _, _, ⟨rfl, rfl⟩,
    late⟩ := done
  simp only [found, settleOr, Program.bind_ok, read_ok, repeated, require_ok] at late
  obtain ⟨_, _, ⟨same, _⟩, _⟩ := late
  exact same

/-! Whole runs. -/

/-- A settlement pays out the price of its order: the legs that are not empty, in full. -/
def PaidOut (market : State) (fact : Settlement) : Prop :=
  ∃ order locked, market.orders.find? fact.orderId = some order ∧
    market.contracts.find? fact.orderId = some locked ∧
    order.fixed = locked.fixed ∧ locked.orderId = fact.orderId ∧
    0 ≤ fact.refundMinor ∧ 0 ≤ fact.releaseMinor ∧
    fact.refundMinor + fact.releaseMinor = order.totalPriceMinor ∧
    fact.receipts.map legOf = expectedLegs locked fact.refundMinor fact.releaseMinor

/-- What asking once more for the settlement of an order does. -/
def AnswersOnce (terms : Terms) (market : State) (fact : Settlement) : Prop :=
  ∀ world order request, market.orders.find? fact.orderId = some order →
    (Repeats fact request →
      settle terms world order request market = .ok (order, fact.receipts) market) ∧
    (¬ Repeats fact request →
      ∃ failure, settle terms world order request market = .error failure market)

structure SingleOutcome (terms : Terms) (early late : State) : Prop where
  settled : ∀ fact ∈ early.settlements.rows, late.settlements.find? fact.orderId = some fact
  decided : ∀ fact ∈ early.escrowDecisions.rows,
    late.escrowDecisions.find? fact.orderId = some fact
  exclusive : ∀ id, late.settlements.find? id = none ∨ late.escrowDecisions.find? id = none
  ended : ∀ order ∈ early.orders.rows, order.state.terminal = true → Resting early late order
  paid : ∀ fact ∈ late.settlements.rows, PaidOut late fact
  again : ∀ fact ∈ late.settlements.rows, AnswersOnce terms late fact

theorem Sound.paid (sound : Sound terms market) {fact : Settlement}
    (member : fact ∈ market.settlements.rows) : PaidOut market fact := by
  obtain ⟨locked, agreed, _⟩ := sound.consistent.contracted fact member
  obtain ⟨_, order, stored, _, _⟩ := sound.consistent.projected agreed
  have isOrder : order.id = fact.orderId := Table.find?_key stored
  have current : Current market order := by
    rw [Current, isOrder]
    exact stored
  have found : market.settlements.find? order.id = some fact := by
    rw [isOrder]
    exact (Table.mem_iff_find? _ fact).mp member
  obtain ⟨other, isOther, named, projected, accounted, _⟩ := sound.consistent.accounted current found
  rw [isOrder] at isOther named
  obtain ⟨_, _, _, total, _⟩ := projected.columns
  exact ⟨order, other, stored, isOther, projected.fixed, named, accounted.nonnegative.1,
    accounted.nonnegative.2, accounted.total.trans total.symm, accounted.legs⟩

theorem Sound.again (sound : Sound terms market) {fact : Settlement}
    (member : fact ∈ market.settlements.rows) : AnswersOnce terms market fact := by
  intro world order request stored
  have isOrder : order.id = fact.orderId := Table.find?_key stored
  have current : Current market order := by
    rw [Current, isOrder]
    exact stored
  have found : market.settlements.find? order.id = some fact := by
    rw [isOrder]
    exact (Table.mem_iff_find? _ fact).mp member
  constructor
  · exact settle_again_ok sound current found
  · intro different
    cases outcome : settle terms world order request market with
    | ok answer reached => exact absurd (settle_again_same found outcome) different
    | error failure reached =>
        rw [settle_again_clean found outcome]
        exact ⟨failure, rfl⟩

/-- Every order has a single terminal outcome: whatever a run has settled, decided or
ended stays so in every longer run, and the longer run never decides it again. -/
theorem outcome_single (terms : Terms) (early later : List (World × Op)) :
    SingleOutcome terms (run terms early) (run terms (early ++ later)) := by
  have sound := run_sound terms early
  have late := run_sound terms (early ++ later)
  have moves : Moves terms Client.any (run terms early) (run terms (early ++ later)) := by
    rw [run, run, Run.run_append]
    exact run_moves_any
  have lasting := lasting_moves sound moves
  constructor
  · intro fact member
    exact lasting.settlements _ _ ((Table.mem_iff_find? _ fact).mp member)
  · intro fact member
    exact lasting.decisions _ _ ((Table.mem_iff_find? _ fact).mp member)
  · intro id
    cases found : (run terms (early ++ later)).settlements.find? id with
    | none => exact Or.inl rfl
    | some fact => exact Or.inr (late.consistent.never_both found)
  · exact lasting.ended
  · exact fun fact member => late.paid member
  · exact fun fact member => late.again member

end MsgServer.Market
