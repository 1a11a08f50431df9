import MsgServer.Library.Totals
import MsgServer.Market.Outcomes

/-!
Stock. What a listing has sold is the sum of its orders that are neither cancelled
nor refunded. Only a checkout adds to it, and every checkout compares the sum with
the quantity of the listing first; no order comes back from the two states that are
not counted.
-/

namespace MsgServer.Market

open Library Ledger

variable {terms : Terms} {client : Client} {world : World} {market next : State}
  {order : Order} {listingId : String} {quantity : Nat}

/-- What one order takes from the stock of a listing. -/
def stockOf (listingId : String) (row : Order) : Nat :=
  if row.listingId = listingId ∧ holdsStock row = true then row.quantity else 0

theorem sold_total (market : State) (listingId : String) :
    sold market listingId = market.orders.total (stockOf listingId) := by
  unfold sold Table.total
  induction market.orders.rows with
  | nil => rfl
  | cons row rest ih =>
      by_cases counted : row.listingId = listingId ∧ holdsStock row = true
      · simp [stockOf, counted, ← ih]
      · rw [List.filter_cons_of_neg (by simpa using counted), ih]
        simp [stockOf, counted]

theorem holdsStock_pending (pending : order.state.terminal = false) : holdsStock order = true := by
  cases state : order.state <;> simp [holdsStock, state, OrderState.terminal] at pending ⊢

theorem Keeps.columns {change : Order → Order} (keeps : Keeps change) (row : Order) :
    (change row).listingId = row.listingId ∧ (change row).quantity = row.quantity :=
  ⟨congrArg Fixed.listingId (keeps row).2, congrArg Fixed.quantity (keeps row).2⟩

/-- A rewrite keeps the columns that are summed, so it can only release stock. -/
theorem stockOf_le {change : Order → Order} (keeps : Keeps change) (row : Order)
    (counted : holdsStock (change row) = true → holdsStock row = true) :
    stockOf listingId (change row) ≤ stockOf listingId row := by
  obtain ⟨sameListing, sameQuantity⟩ := keeps.columns row
  unfold stockOf
  rw [sameListing, sameQuantity]
  by_cases after : row.listingId = listingId ∧ holdsStock (change row) = true
  · rw [if_pos after, if_pos ⟨after.1, counted after.2⟩]
  · rw [if_neg after]
    exact Nat.zero_le _

theorem sold_rewrite {change : Order → Order} (current : Current market order)
    (keeps : Keeps change) (orders : next.orders = market.orders.modify order.id change)
    (counted : holdsStock (change order) = true → holdsStock order = true) :
    sold next listingId ≤ sold market listingId := by
  rw [sold_total, sold_total, orders]
  apply Table.total_modify_le
  intro row found
  rw [Current] at current
  rw [current, Option.some.injEq] at found
  subst found
  rw [Table.rekeyed_of_key (keeps.id order)]
  exact stockOf_le keeps order counted

theorem sold_frame (orders : next.orders = market.orders) :
    sold next listingId = sold market listingId := by
  rw [sold, orders, sold]

/-- Orders may only be opened while the listing has stock for them. -/
def inStock (listingId : String) (quantity : Nat) : Client where
  asks := fun _ => True
  opens := fun market order =>
    order.listingId = listingId → sold market listingId + order.quantity ≤ quantity

theorem sold_enter (opens : (inStock listingId quantity).opens market order)
    (inserted : market.orders.insert order = some next.orders)
    (bounded : sold market listingId ≤ quantity) : sold next listingId ≤ quantity := by
  have sum : sold next listingId = sold market listingId + stockOf listingId order := by
    rw [sold_total, sold_total]
    exact Table.total_insert inserted _
  rw [sum, stockOf]
  split
  · rename_i counted
    exact opens counted.1
  · exact bounded

/-! One move after the other. -/

theorem stock_order (bounded : sold market listingId ≤ quantity)
    (move : OrderMove terms (inStock listingId quantity) market next) :
    sold next listingId ≤ quantity := by
  cases move with
  | opened opens made => exact sold_enter opens made.inserted bounded
  | scheduled deadlines => exact bounded
  | retargeted current target handle =>
      exact (sold_rewrite current (keeps_target target) rfl fun counted => counted).trans bounded
  | funded asked made =>
      have pending := holdsStock_pending (by rw [made.created]; rfl)
      exact (sold_rewrite made.current made.rewrites.keeps made.rewrites.orders
        fun _ => pending).trans bounded
  | turned made origin reason =>
      have pending := holdsStock_pending (turning_open made.turning)
      exact (sold_rewrite made.current (keeps_setState _) rfl fun _ => pending).trans bounded
  | disputed made origin reason locked world agreed drawn =>
      have pending : holdsStock _ = true := holdsStock_pending (by
        rcases made.disputable with state | state <;> rw [state] <;> rfl)
      exact (sold_rewrite made.current (keeps_setState _) rfl fun _ => pending).trans bounded
  | dispatched made origin envelopes =>
      have rewrites := made.rewrites origin envelopes
      have pending := holdsStock_pending (by rw [made.deliverable.1]; rfl)
      exact (sold_rewrite made.current rewrites.keeps rewrites.orders fun _ => pending).trans bounded
  | acknowledged orderId stamp stamped => exact bounded
  | settled made =>
      have pending := holdsStock_pending (funding_open made.funding)
      exact (sold_rewrite made.current made.rewrites.keeps made.rewrites.orders
        fun _ => pending).trans bounded
  | legacyOpened asked opens made => exact sold_enter opens made.inserted bounded
  | legacyPrepared made now =>
      have pending := holdsStock_pending (by rw [made.deliverable.1]; rfl)
      exact (sold_rewrite made.current (keeps_markDelivered now) rfl fun _ => pending).trans bounded
  | legacySettled asked made =>
      have pending := holdsStock_pending (branch_open made.branched)
      exact (sold_rewrite made.current made.rewrites.keeps made.rewrites.orders
        fun _ => pending).trans bounded

theorem stock_move (bounded : sold market listingId ≤ quantity)
    (move : Move terms (inStock listingId quantity) market next) :
    sold next listingId ≤ quantity := by
  cases move with
  | order move => exact stock_order bounded move
  | dispute move => exact (sold_frame (case_aside move).orders).trans_le bounded
  | money move => exact (sold_frame (money_apart move).orders).trans_le bounded
  | authority extended => exact bounded
  | activated grown => exact bounded
  | restored published => exact bounded
  | revised agreed resource content owner stored others => exact bounded

/-! The checkouts compare the sum with the quantity they read. -/

/-- The listing is read with one quantity throughout, and it is no offer of entitlements,
which are made on demand. -/
structure Stocked (listingId : String) (quantity : Nat) (next : World × Op) : Prop where
  listing : ∀ row, next.1.listing = .ok row → row.id = listingId → row.body.quantity = quantity
  offers : ∀ redemption offer, next.2 = .redeem redemption → redemption.offer = .ok offer →
    offer.offerId ≠ listingId

theorem readOffer_stock {checkout : Checkout} {offered : Offered}
    (done : readOffer world market checkout = .ok offered) :
    world.listing = .ok offered.listing ∧
      sold market offered.listing.id + checkout.quantity ≤ offered.listing.body.quantity := by
  simp only [readOffer, Program.except_bind_ok, require_ok, Program.except_pure,
    Except.ok.injEq, Prod.exists] at done
  obtain ⟨_, _, listing, listed, _, _, _, _, _, _, _, _, _, _, _, _, _, stock, _, _, _, _, _, _, _,
    _, _, _, _, rfl⟩ := done
  exact ⟨listed, stock⟩

theorem readLegacyOffer_stock {checkout : LegacyCheckout} {offer : LegacyOffer}
    (done : readLegacyOffer terms world market checkout = .ok offer) :
    world.listing = .ok offer.listing ∧
      sold market offer.listing.id + checkout.quantity ≤ offer.listing.body.quantity := by
  simp only [readLegacyOffer, legacyStock, Program.except_bind_ok, require_ok,
    Program.except_pure, Except.ok.injEq] at done
  obtain ⟨_, _, _, _, listing, listed, _, _, _, _, _, ⟨_, stock⟩, _, _, _, _, _, _, _, _, rfl⟩ := done
  exact ⟨listed, stock⟩

theorem readRedemption_offer {redemption : Redemption} {redeemed : Redeemed}
    (done : readRedemption terms world market redemption = .ok redeemed) :
    redemption.offer = .ok redeemed.offer := by
  simp only [readRedemption, Program.except_bind_ok, Program.except_pure, Except.ok.injEq,
    Prod.exists] at done
  obtain ⟨_, _, _, offer, _, _, _, _, _, _, _, _, _, _, _, _, _, _, _, rfl⟩ := done
  exact offer

theorem opens_inStock {next : World × Op} (stocked : Stocked listingId quantity next) :
    Opens terms (inStock listingId quantity) next.1 next.2 := by
  obtain ⟨world, op⟩ := next
  have offer : ∀ checkout, OpensOffer terms (inStock listingId quantity) world checkout := by
    intro checkout market offered ids done own
    obtain ⟨listed, stock⟩ := readOffer_stock done
    have own : offered.listing.id = listingId := own
    rw [← own, ← stocked.listing _ listed own]
    exact stock
  cases op with
  | reserve checkout explicit => exact offer checkout
  | buy checkout explicit => exact offer checkout
  | buyLegacy checkout =>
      intro market offered receipt done own
      obtain ⟨listed, stock⟩ := readLegacyOffer_stock done
      have own : offered.listing.id = listingId := own
      rw [← own, ← stocked.listing _ listed own]
      exact stock
  | redeem redemption =>
      intro market redeemed ids done own
      exact absurd own (stocked.offers redemption _ rfl (readRedemption_offer done))
  | _ => trivial

/-- No oversell: whatever buyers order, pay, cancel, get back or let expire, the orders
of a listing that count as sold never exceed its quantity. -/
theorem never_oversold (terms : Terms) (steps : List (World × Op)) (listingId : String)
    (quantity : Nat) (stocked : ∀ next ∈ steps, Stocked listingId quantity next) :
    sold (run terms steps) listingId ≤ quantity := by
  have moves : Moves terms (inStock listingId quantity) State.empty (run terms steps) :=
    run_moves (fun _ _ _ _ => trivial) fun next member => opens_inStock (stocked next member)
  have start : sold State.empty listingId ≤ quantity := Nat.zero_le _
  exact moves_invariant (fun _ _ bounded move => stock_move bounded move) moves start

/-! A listing of two pieces, ordered twice. -/

def sampleTerms : Terms where
  toApp := sampleApp
  contractDigest := fun locked => locked.orderId
  policyDigest := DisputePolicy.id
  offerDigest := Offer.offerId
  deliveryDigest := fun _ => "delivery"
  packageDigest := Package.digest
  termsDigest := fun text => text
  termsCommitment := fun left right => left ++ right
  requestText := RedeemRequest.requestId
  requestDigest := RedeemRequest.payloadDigest
  proposalText := fun _ => "proposal"
  challengeText := ChallengePayload.challengeId
  decisionId := fun _ => "decision"
  escrowDecisionId := fun order _ _ => order
  checkoutDigest := fun order _ _ => order
  panelScore := fun order _ _ _ => order
  rationaleId := fun caseId _ _ => caseId
  entitlementId := fun subject request => subject ++ request
  deliveryEnabled := true
  baseCapacity := 0

def sampleListing : Listing where
  id := "l_mugs"
  owner := "u_bob"
  revision := "v_first"
  body :=
    { mode := .sale
      state := .active
      itemKind := .service
      deliveryMode := .service
      escrowPolicy := "escrow-v1"
      disputePolicy := "dispute-v1"
      currencyId := currencyId
      terms := "two mugs"
      priceMinor := 5
      quantity := 2
      packageRef := none
      expiresAt := none }

/-- Every request draws its own order id. -/
def sampleWorld (entropy : String) : World where
  now := 10
  clock := 10
  uuid := fun _ => "uuid"
  entropy := entropy
  listing := .ok sampleListing
  target := fun subject _ => .ok (subject, { state := "none" })
  primaryKey := fun _ => none
  subkey := fun _ => none
  identityKey := fun _ => none
  package := fun _ => none
  blob := fun _ => .intact
  mail := fun _ => .ok none
  stored := fun _ => .ok ()
  published := fun _ => none

def sampleSubjects : Session.Store :=
  { Session.Store.empty with
    subjects :=
      ⟨[⟨"u_ann", .registered, 0, false⟩, ⟨"u_bob", .registered, 0, false⟩], by decide⟩ }

/-- One buyer takes both pieces, a second request for one of them comes too late. -/
def sampleCheckout (requestId : String) (pieces : Nat) : Checkout where
  request :=
    { principal := ⟨some "u_ann", some "u_ann", some "k_ann", .signature, [], []⟩
      operation := "orders.create"
      contractVersion := 2
      requestId := requestId
      payloadDigest := requestId
      expiresAt := 100 }
  listingRevision := "v_first"
  quantity := pieces
  currencyId := currencyId
  totalPriceMinor := 5 * pieces
  email := none

def sampleSteps : List (World × Op) :=
  [(sampleWorld "setup", .authority sampleSubjects),
    (sampleWorld "one", .reserve (sampleCheckout "first" 2) true),
    (sampleWorld "two", .reserve (sampleCheckout "second" 1) true)]

theorem sample_stocked (next : World × Op) (member : next ∈ sampleSteps) :
    Stocked "l_mugs" 2 next := by
  simp only [sampleSteps, List.mem_cons, List.not_mem_nil, or_false] at member
  rcases member with rfl | rfl | rfl
  all_goals
    constructor
    · rintro row ⟨⟩ _
      rfl
    · rintro redemption offer ⟨⟩

theorem never_oversold_sample :
    sold (run sampleTerms sampleSteps) "l_mugs" = 2 ∧
      sold (run sampleTerms sampleSteps) "l_mugs" ≤ 2 :=
  ⟨by decide +kernel, never_oversold sampleTerms sampleSteps "l_mugs" 2 sample_stocked⟩

end MsgServer.Market
