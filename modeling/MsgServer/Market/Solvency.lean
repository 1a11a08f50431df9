import MsgServer.Market.Runs

/-!
The escrow of every order holds its price while the order is paid and not resolved,
and nothing otherwise. The argument is about accounts: the escrow of an order is an
account that no subject and no other order has, so only the moves of that order
reach it.
-/

namespace MsgServer.Market

open Library Ledger

variable {terms : Terms} {client : Client}

/-! Who the accounts belong to. -/

theorem subject_apart {account : String} (isEscrow : ∃ entropy, account = "esc_" ++ entropy) :
    isSubjectId account = false := by
  obtain ⟨entropy, rfl⟩ := isEscrow
  simp [isSubjectId]

def orderAccount (order : Order) : LedgerAccount :=
  ⟨order.escrowSubject, .orderEscrow, none, some order.id⟩

def bountyEscrow (row : Bounty) : LedgerAccount :=
  ⟨row.escrowSubject, .bountyEscrow, none, some row.listingId⟩

/-- Every escrow is an account of its own, and everybody else is a subject. -/
structure Grounded (market : State) : Prop where
  subjects : ∀ row ∈ market.authority.subjects.rows, isSubjectId row.resourceId = true
  accounts : ∀ order ∈ market.orders.rows,
    market.books.accounts.find? order.escrowSubject = some (orderAccount order)
  escrows : ∀ order ∈ market.orders.rows, isSubjectId order.escrowSubject = false
  parties : ∀ order ∈ market.orders.rows,
    isSubjectId order.buyer = true ∧ isSubjectId order.seller = true
  bountyAccounts : ∀ row ∈ market.bounties.rows,
    market.books.accounts.find? row.escrowSubject = some (bountyEscrow row)
  bountyEscrows : ∀ row ∈ market.bounties.rows, isSubjectId row.escrowSubject = false
  publishers : ∀ row ∈ market.bounties.rows, isSubjectId row.publisher = true
  claimants : ∀ row ∈ market.challenges.rows, isSubjectId row.claimant = true

theorem Grounded.identity {market : State} (grounded : Grounded market) {id : String}
    (known : (identity market id).isSome = true) : isSubjectId id = true := by
  obtain ⟨row, found⟩ := Option.isSome_iff_exists.mp known
  have named : row.resourceId = id := Table.find?_key found
  rw [← named]
  exact grounded.subjects row (Table.find?_mem found)

/-- Two orders with one escrow are one order. -/
theorem Grounded.distinct {market : State} (grounded : Grounded market) {left right : Order}
    (inLeft : left ∈ market.orders.rows) (inRight : right ∈ market.orders.rows)
    (same : left.escrowSubject = right.escrowSubject) : left = right := by
  have atLeft := grounded.accounts left inLeft
  rw [same, grounded.accounts right inRight] at atLeft
  have ids : left.id = right.id :=
    (Option.some.inj (congrArg LedgerAccount.sourceId (Option.some.inj atLeft))).symm
  exact Table.eq_of_key_eq inLeft inRight ids

/-- The escrow of an order is not the escrow of a bounty. -/
theorem Grounded.bounty_apart {market : State} (grounded : Grounded market) {order : Order}
    {row : Bounty} (isOrder : order ∈ market.orders.rows) (isBounty : row ∈ market.bounties.rows) :
    row.escrowSubject ≠ order.escrowSubject := by
  intro same
  have account := grounded.accounts order isOrder
  rw [← same, grounded.bountyAccounts row isBounty] at account
  simp [bountyEscrow, orderAccount] at account

/-- A rewrite of an order that keeps everything a contract fixes. -/
def Keeps (change : Order → Order) : Prop :=
  ∀ row, (change row).id = row.id ∧ (change row).fixed = row.fixed

theorem Keeps.id {change : Order → Order} (keeps : Keeps change) (row : Order) :
    (change row).id = row.id := (keeps row).1

theorem Keeps.escrow {change : Order → Order} (keeps : Keeps change) (row : Order) :
    (change row).escrowSubject = row.escrowSubject := congrArg Fixed.escrowSubject (keeps row).2

theorem Keeps.comp {first second : Order → Order} (keepsFirst : Keeps first)
    (keepsSecond : Keeps second) : Keeps fun row => second (first row) :=
  fun row => ⟨(keepsSecond _).1.trans (keepsFirst row).1, (keepsSecond _).2.trans (keepsFirst row).2⟩

/-- What a move may not do to the rows that `Grounded` speaks of. -/
structure Frame (market next : State) : Prop where
  subjects : next.authority = market.authority
  accounts : ∀ id row, market.books.accounts.find? id = some row →
    next.books.accounts.find? id = some row
  orders : ∀ order ∈ next.orders.rows, ∃ old ∈ market.orders.rows,
    old.id = order.id ∧ old.fixed = order.fixed
  bounties : ∀ row ∈ next.bounties.rows, ∃ old ∈ market.bounties.rows,
    old.listingId = row.listingId ∧ old.escrowSubject = row.escrowSubject ∧
      old.publisher = row.publisher
  challenges : ∀ row ∈ next.challenges.rows, ∃ old ∈ market.challenges.rows,
    old.claimant = row.claimant

theorem kept_orders (market : State) :
    ∀ order ∈ market.orders.rows, ∃ old ∈ market.orders.rows,
      old.id = order.id ∧ old.fixed = order.fixed :=
  fun order member => ⟨order, member, rfl, rfl⟩

theorem kept_bounties (market : State) :
    ∀ row ∈ market.bounties.rows, ∃ old ∈ market.bounties.rows,
      old.listingId = row.listingId ∧ old.escrowSubject = row.escrowSubject ∧
        old.publisher = row.publisher :=
  fun row member => ⟨row, member, rfl, rfl, rfl⟩

theorem kept_challenges (market : State) :
    ∀ row ∈ market.challenges.rows, ∃ old ∈ market.challenges.rows, old.claimant = row.claimant :=
  fun row member => ⟨row, member, rfl⟩

theorem modified_orders {market : State} {id : String} {change : Order → Order}
    (keeps : Keeps change) :
    ∀ order ∈ (market.orders.modify id change).rows, ∃ old ∈ market.orders.rows,
      old.id = order.id ∧ old.fixed = order.fixed := by
  intro order member
  rcases Table.mem_modify keeps.id member with ⟨same, _⟩ | ⟨old, found, rfl⟩
  · exact ⟨order, same, rfl, rfl⟩
  · exact ⟨old, Table.find?_mem found, (keeps old).1.symm, (keeps old).2.symm⟩

theorem Grounded.frame {market next : State} (grounded : Grounded market)
    (frame : Frame market next) : Grounded next where
  subjects := by
    rw [frame.subjects]
    exact grounded.subjects
  accounts := by
    intro order member
    obtain ⟨old, wasThere, sameId, sameFixed⟩ := frame.orders order member
    have escrow : old.escrowSubject = order.escrowSubject := congrArg Fixed.escrowSubject sameFixed
    have account := frame.accounts _ _ (grounded.accounts old wasThere)
    rw [orderAccount, ← escrow, ← sameId]
    exact account
  escrows := by
    intro order member
    obtain ⟨old, wasThere, _, sameFixed⟩ := frame.orders order member
    have escrow : old.escrowSubject = order.escrowSubject := congrArg Fixed.escrowSubject sameFixed
    rw [← escrow]
    exact grounded.escrows old wasThere
  parties := by
    intro order member
    obtain ⟨old, wasThere, _, sameFixed⟩ := frame.orders order member
    have buyer : old.buyer = order.buyer := congrArg Fixed.buyer sameFixed
    have seller : old.seller = order.seller := congrArg Fixed.seller sameFixed
    rw [← buyer, ← seller]
    exact grounded.parties old wasThere
  bountyAccounts := by
    intro row member
    obtain ⟨old, wasThere, sameId, escrow, _⟩ := frame.bounties row member
    have account := frame.accounts _ _ (grounded.bountyAccounts old wasThere)
    rw [bountyEscrow, ← escrow, ← sameId]
    exact account
  bountyEscrows := by
    intro row member
    obtain ⟨old, wasThere, _, escrow, _⟩ := frame.bounties row member
    rw [← escrow]
    exact grounded.bountyEscrows old wasThere
  publishers := by
    intro row member
    obtain ⟨old, wasThere, _, _, publisher⟩ := frame.bounties row member
    rw [← publisher]
    exact grounded.publishers old wasThere
  claimants := by
    intro row member
    obtain ⟨old, wasThere, claimant⟩ := frame.challenges row member
    rw [← claimant]
    exact grounded.claimants old wasThere

/-- A new order whose escrow account has just been opened. -/
theorem Grounded.enter {market : State} (grounded : Grounded market) {order : Order}
    {orders : Table Order.id} {books : Books} (inserted : market.orders.insert order = some orders)
    (accounts : ∀ id row, market.books.accounts.find? id = some row →
      books.accounts.find? id = some row)
    (account : books.accounts.find? order.escrowSubject = some (orderAccount order))
    (escrow : isSubjectId order.escrowSubject = false)
    (parties : isSubjectId order.buyer = true ∧ isSubjectId order.seller = true) :
    Grounded { market with books := books, orders := orders } := by
  have cases_of : ∀ other ∈ orders.rows, other ∈ market.orders.rows ∨ other = order :=
    fun other member => (Table.mem_insert inserted other).mp member
  refine ⟨grounded.subjects, ?_, ?_, ?_, ?_, grounded.bountyEscrows, grounded.publishers,
    grounded.claimants⟩
  · intro other member
    rcases cases_of other member with old | rfl
    · exact accounts _ _ (grounded.accounts other old)
    · exact account
  · intro other member
    rcases cases_of other member with old | rfl
    · exact grounded.escrows other old
    · exact escrow
  · intro other member
    rcases cases_of other member with old | rfl
    · exact grounded.parties other old
    · exact parties
  · intro row member
    exact accounts _ _ (grounded.bountyAccounts row member)

/-- The parts of `Frame` for a move that rewrites one order. -/
theorem Grounded.rewrite {market next : State} (grounded : Grounded market) {id : String}
    {change : Order → Order} (keeps : Keeps change)
    (subjects : next.authority = market.authority)
    (accounts : ∀ id row, market.books.accounts.find? id = some row →
      next.books.accounts.find? id = some row)
    (orders : next.orders = market.orders.modify id change)
    (bounties : next.bounties = market.bounties)
    (challenges : next.challenges = market.challenges) : Grounded next := by
  apply grounded.frame
  constructor
  · exact subjects
  · exact accounts
  · rw [orders]
    exact modified_orders keeps
  · rw [bounties]
    exact kept_bounties market
  · rw [challenges]
    exact kept_challenges market

theorem keeps_setState (state : OrderState) : Keeps (setState state) := fun _ => ⟨rfl, rfl⟩

theorem keeps_paid (world : World) (request : Request) (receipt : Posting) :
    Keeps (paid world request receipt) := fun _ => ⟨rfl, rfl⟩

theorem keeps_closeOrder (order : Order) (now : Nat) (receipts : List Posting) :
    Keeps (closeOrder order now receipts) := fun _ => ⟨rfl, rfl⟩

theorem keeps_markDelivered (now : Nat) : Keeps (markDelivered now) := fun _ => ⟨rfl, rfl⟩

theorem keeps_setDelivered (now : Nat) : Keeps (setDelivered now) := fun _ => ⟨rfl, rfl⟩

theorem keeps_target (target : Target) :
    Keeps fun row => { row with deliveryTarget := target } := fun _ => ⟨rfl, rfl⟩

theorem keeps_resolved (world : World) (order : Order) (chosen : Branch) (receipt : Posting) :
    Keeps (resolved world order chosen receipt) := fun _ => ⟨rfl, rfl⟩

theorem funded_orders (market : State) (world : World) (request : Request) (order : Order)
    (locked : Contract) (books : Books) (receipt : Posting) :
    (market.funded world request order locked books receipt).orders =
      market.orders.modify order.id fun row => setState .funded (paid world request receipt row) :=
  Table.modify_modify _ _ (fun _ => rfl) (fun _ => rfl)

theorem settled_orders (market : State) (order : Order) (request : SettleRequest)
    (payout : Payout) :
    (market.settled order request payout).orders = market.orders.modify order.id fun row =>
      closeOrder order request.origin.now payout.receipts
        (setState (settledState order request.refundMinor) row) :=
  Table.modify_modify _ _ (fun _ => rfl) (fun _ => rfl)

theorem dispatched_orders (market : State) (order : Order) (origin : Origin)
    (deliveries : Table Delivery.orderId) (envelopes : Table Envelope.orderId) :
    (market.dispatched order origin deliveries envelopes).orders =
      market.orders.modify order.id fun row =>
        setDelivered origin.now (setState .delivered row) :=
  Table.modify_modify _ _ (fun _ => rfl) (fun _ => rfl)

theorem Paid.kept {subject? : String → Option Subject} {order : Order} {recipient : String}
    {request : EntryRequest} {before after : Books} {receipts : List Posting}
    (paid : Paid subject? order recipient request before after receipts) :
    ∀ id row, before.accounts.find? id = some row → after.accounts.find? id = some row := by
  cases paid with
  | empty zero => exact fun _ _ found => found
  | posted nonzero appended => exact appended.kept

theorem Settled.kept {world : World} {market : State} {order : Order} {locked : Contract}
    {request : SettleRequest} {payout : Payout}
    (made : Settled terms world market order locked request payout) :
    ∀ id row, market.books.accounts.find? id = some row →
      payout.books.accounts.find? id = some row := by
  obtain ⟨middle, first, second⟩ := made.paid
  exact fun id row found => second.kept id row (first.kept id row found)

theorem grounded_order {market next : State} (grounded : Grounded market)
    (move : OrderMove terms client market next) : Grounded next := by
  cases move with
  | opened opens made =>
      obtain ⟨account, kept⟩ := insertAccount_find made.account
      have entered := grounded.enter made.inserted kept account (subject_apart made.drawn.escrow)
        ⟨grounded.identity made.parties.1, grounded.identity made.parties.2⟩
      exact entered.frame ⟨rfl, fun _ _ found => found, kept_orders _, kept_bounties _,
        kept_challenges _⟩
  | scheduled deadlines =>
      exact grounded.frame ⟨rfl, fun _ _ found => found, kept_orders _, kept_bounties _,
        kept_challenges _⟩
  | retargeted current target handle =>
      exact grounded.rewrite (keeps_target target) rfl (fun _ _ found => found) rfl rfl rfl
  | funded asked made =>
      exact grounded.rewrite ((keeps_paid _ _ _).comp (keeps_setState .funded)) rfl
        made.posted.appended.kept (funded_orders _ _ _ _ _ _ _) rfl rfl
  | turned made origin reason =>
      exact grounded.rewrite (keeps_setState _) rfl (fun _ _ found => found) rfl rfl rfl
  | disputed made origin reason locked world agreed drawn =>
      exact grounded.rewrite (keeps_setState _) rfl (fun _ _ found => found) rfl rfl rfl
  | dispatched made origin envelopes =>
      exact grounded.rewrite ((keeps_setState _).comp (keeps_setDelivered _)) rfl
        (fun _ _ found => found) (dispatched_orders _ _ _ _ _) rfl rfl
  | acknowledged orderId stamp stamped =>
      exact grounded.frame ⟨rfl, fun _ _ found => found, kept_orders _, kept_bounties _,
        kept_challenges _⟩
  | settled made =>
      exact grounded.rewrite ((keeps_setState _).comp (keeps_closeOrder _ _ _)) rfl made.kept
        (settled_orders _ _ _ _) rfl rfl
  | legacyOpened asked opens made =>
      obtain ⟨account, kept⟩ := insertAccount_find made.account
      exact grounded.enter made.inserted
        (fun id row found => made.posted.appended.kept id row (kept id row found))
        (made.posted.appended.kept _ _ account) (subject_apart ⟨_, rfl⟩)
        ⟨grounded.identity made.parties.1, grounded.identity made.parties.2⟩
  | legacyPrepared made now =>
      exact grounded.rewrite (keeps_markDelivered now) rfl (fun _ _ found => found) rfl rfl rfl
  | legacySettled asked made =>
      exact grounded.rewrite (keeps_resolved _ _ _ _) rfl made.posted.kept rfl rfl rfl

theorem modified_bounties {market : State} {id : String} {change : Bounty → Bounty}
    (keeps : ∀ row, (change row).listingId = row.listingId ∧
      (change row).escrowSubject = row.escrowSubject ∧ (change row).publisher = row.publisher) :
    ∀ row ∈ (market.bounties.modify id change).rows, ∃ old ∈ market.bounties.rows,
      old.listingId = row.listingId ∧ old.escrowSubject = row.escrowSubject ∧
        old.publisher = row.publisher := by
  intro row member
  rcases Table.mem_modify (fun row => (keeps row).1) member with ⟨same, _⟩ | ⟨old, found, rfl⟩
  · exact ⟨row, same, rfl, rfl, rfl⟩
  · exact ⟨old, Table.find?_mem found, (keeps old).1.symm, (keeps old).2.1.symm,
      (keeps old).2.2.symm⟩

theorem paused_bounties {market : State} {listing : Bounty} (reason : Option PauseReason) :
    ∀ row ∈ (pausedBy market.bounties listing reason).rows, ∃ old ∈ market.bounties.rows,
      old.listingId = row.listingId ∧ old.escrowSubject = row.escrowSubject ∧
        old.publisher = row.publisher := by
  cases reason with
  | none => exact kept_bounties market
  | some reason => exact modified_bounties fun _ => ⟨rfl, rfl, rfl⟩

theorem Returned.kept {market : State} {request : EntryRequest} {books : Books}
    (returned : Returned market request books) :
    ∀ id row, market.books.accounts.find? id = some row → books.accounts.find? id = some row := by
  cases returned with
  | empty zero => exact fun _ _ found => found
  | posted done => exact done.appended.kept

/-- A new bounty whose escrow account has just been opened. -/
theorem Grounded.enterBounty {market : State} (grounded : Grounded market) {row : Bounty}
    {bounties : Table Bounty.listingId} {books : Books}
    (inserted : market.bounties.insert row = some bounties)
    (accounts : ∀ id account, market.books.accounts.find? id = some account →
      books.accounts.find? id = some account)
    (account : books.accounts.find? row.escrowSubject = some (bountyEscrow row))
    (escrow : isSubjectId row.escrowSubject = false) (publisher : isSubjectId row.publisher = true) :
    Grounded { market with books := books, bounties := bounties } := by
  have cases_of : ∀ other ∈ bounties.rows, other ∈ market.bounties.rows ∨ other = row :=
    fun other member => (Table.mem_insert inserted other).mp member
  refine ⟨grounded.subjects, ?_, grounded.escrows, grounded.parties, ?_, ?_, ?_,
    grounded.claimants⟩
  · intro order member
    exact accounts _ _ (grounded.accounts order member)
  · intro other member
    rcases cases_of other member with old | rfl
    · exact accounts _ _ (grounded.bountyAccounts other old)
    · exact account
  · intro other member
    rcases cases_of other member with old | rfl
    · exact grounded.bountyEscrows other old
    · exact escrow
  · intro other member
    rcases cases_of other member with old | rfl
    · exact grounded.publishers other old
    · exact publisher

theorem grounded_money {market next : State} (grounded : Grounded market)
    (move : MoneyMove terms client market next) : Grounded next := by
  cases move with
  | opened asked made =>
      obtain ⟨account, kept⟩ := insertAccount_find made.account
      exact grounded.enterBounty made.inserted
        (fun id row found => made.posted.appended.kept id row (kept id row found))
        (made.posted.appended.kept _ _ account) (subject_apart ⟨_, rfl⟩)
        (grounded.identity made.known)
  | toppedUp asked read posted =>
      exact grounded.frame ⟨rfl, posted.appended.kept, kept_orders _,
        modified_bounties fun _ => ⟨rfl, rfl, rfl⟩, kept_challenges _⟩
  | changed read state isOpen reason =>
      exact grounded.frame ⟨rfl, fun _ _ found => found, kept_orders _,
        modified_bounties fun _ => ⟨rfl, rfl, rfl⟩, kept_challenges _⟩
  | closed asked read returned =>
      exact grounded.frame ⟨rfl, returned.kept, kept_orders _,
        modified_bounties fun _ => ⟨rfl, rfl, rfl⟩, kept_challenges _⟩
  | challenged claimant unspent inserted =>
      refine ⟨grounded.subjects, grounded.accounts, grounded.escrows, grounded.parties,
        grounded.bountyAccounts, grounded.bountyEscrows, grounded.publishers, ?_⟩
      intro row member
      rcases (Table.mem_insert inserted row).mp member with old | rfl
      · exact grounded.claimants row old
      · exact grounded.identity claimant
  | claimed asked made =>
      refine grounded.frame ⟨rfl, made.posted.appended.kept, kept_orders _, paused_bounties _, ?_⟩
      intro row member
      have keeps : ∀ now row, (setConsumed now row).id = row.id := fun _ _ => rfl
      rcases Table.mem_modify (keeps _) member with ⟨same, _⟩ | ⟨old, found, rfl⟩
      · exact ⟨row, same, rfl⟩
      · exact ⟨old, Table.find?_mem found, rfl⟩
  | transferred asked isSender isRecipient known posted =>
      exact grounded.frame ⟨rfl, posted.appended.kept, kept_orders _, kept_bounties _,
        kept_challenges _⟩
  | issued read appended =>
      exact grounded.frame ⟨rfl, appended.kept, kept_orders _, kept_bounties _, kept_challenges _⟩

/-- Moves on cases leave the ledger, the orders and the bounties alone. -/
structure Aside (market next : State) : Prop where
  books : next.books = market.books
  authority : next.authority = market.authority
  orders : next.orders = market.orders
  contracts : next.contracts = market.contracts
  transitions : next.transitions = market.transitions
  settlements : next.settlements = market.settlements
  escrowDecisions : next.escrowDecisions = market.escrowDecisions
  deliveries : next.deliveries = market.deliveries
  entitlements : next.entitlements = market.entitlements
  bounties : next.bounties = market.bounties
  challenges : next.challenges = market.challenges
  claims : next.claims = market.claims
  sources : next.sources = market.sources
  active : next.active = market.active

theorem case_aside {market next : State} (move : CaseMove terms market next) :
    Aside market next := by
  cases move <;> exact ⟨rfl, rfl, rfl, rfl, rfl, rfl, rfl, rfl, rfl, rfl, rfl, rfl, rfl, rfl⟩

theorem Aside.frame {market next : State} (aside : Aside market next) : Frame market next := by
  constructor
  · exact aside.authority
  · rw [aside.books]
    exact fun _ _ found => found
  · rw [aside.orders]
    exact kept_orders market
  · rw [aside.bounties]
    exact kept_bounties market
  · rw [aside.challenges]
    exact kept_challenges market

theorem grounded_move {market next : State} (grounded : Grounded market)
    (move : Move terms client market next) : Grounded next := by
  cases move with
  | order move => exact grounded_order grounded move
  | dispute move => exact grounded.frame (case_aside move).frame
  | money move => exact grounded_money grounded move
  | authority extended =>
      exact ⟨extended.2.1, grounded.accounts, grounded.escrows, grounded.parties,
        grounded.bountyAccounts, grounded.bountyEscrows, grounded.publishers, grounded.claimants⟩
  | activated grown =>
      exact grounded.frame ⟨rfl, fun _ _ found => found, kept_orders _, kept_bounties _,
        kept_challenges _⟩
  | restored published =>
      exact grounded.frame ⟨rfl, fun _ _ found => found, kept_orders _, kept_bounties _,
        kept_challenges _⟩
  | revised agreed resource content owner stored others =>
      exact grounded.frame ⟨rfl, fun _ _ found => found, kept_orders _, kept_bounties _,
        kept_challenges _⟩

theorem grounded_empty : Grounded State.empty := by
  constructor <;> simp [State.empty, Table.empty, Session.Store.empty]

/-! Balances. -/

def Order.held (order : Order) : Int := if order.state.funding then order.totalPriceMinor else 0

/-- The escrow of every order holds what its state says. -/
def Solvent (market : State) : Prop :=
  ∀ order ∈ market.orders.rows, balance market.books order.escrowSubject = order.held

/-- An ordinary posting passes an escrow by unless it is paid into it. -/
theorem Ordinary.untouched {market : State} {request : EntryRequest} {books : Books}
    {receipt : Posting} (posted : Ordinary market request books receipt)
    (grounded : Grounded market) {order : Order} (member : order ∈ market.orders.rows)
    (recipient : request.recipient ≠ some order.escrowSubject) :
    touching books order.escrowSubject = touching market.books order.escrowSubject := by
  apply posted.appended.apart _ recipient
  intro sender
  exact posted.unguarded _ _ sender (grounded.accounts order member) rfl

/-- A move that pays nothing into or out of an escrow and keeps its order's state. -/
theorem Solvent.frame {market next : State} (solvent : Solvent market)
    (orders : next.orders = market.orders)
    (books : ∀ order ∈ market.orders.rows,
      balance next.books order.escrowSubject = balance market.books order.escrowSubject) :
    Solvent next := by
  intro order member
  rw [orders] at member
  rw [books order member]
  exact solvent order member

/-- A move that rewrites one order, which then holds what its new state says. -/
theorem Solvent.rewrite {market next : State} (solvent : Solvent market) {order : Order}
    (current : Current market order) {change : Order → Order} (keeps : Keeps change)
    (orders : next.orders = market.orders.modify order.id change)
    (others : ∀ other ∈ market.orders.rows, other.id ≠ order.id →
      balance next.books other.escrowSubject = balance market.books other.escrowSubject)
    (own : balance next.books order.escrowSubject = (change order).held) : Solvent next := by
  intro row member
  rw [orders] at member
  rcases Table.mem_modify keeps.id member with ⟨same, different⟩ | ⟨old, found, rfl⟩
  · rw [others row same different]
    exact solvent row same
  · have isOrder : old = order := Option.some.inj (found.symm.trans current)
    rw [isOrder, keeps.escrow]
    exact own

/-- A move that rewrites one order and moves no money. -/
theorem Solvent.restate {market next : State} (solvent : Solvent market) {order : Order}
    (current : Current market order) {change : Order → Order} (keeps : Keeps change)
    (orders : next.orders = market.orders.modify order.id change)
    (books : next.books = market.books) (same : (change order).held = order.held) :
    Solvent next := by
  apply solvent.rewrite current keeps orders
  · intro other _ _
    rw [books]
  · rw [books, same]
    exact solvent order (Table.find?_mem current)

theorem Current.mem {market : State} {order : Order} (current : Current market order) :
    order ∈ market.orders.rows :=
  Table.find?_mem current

/-- The other orders have other escrows. -/
theorem Grounded.other_escrow {market : State} (grounded : Grounded market) {order other : Order}
    (isOrder : order ∈ market.orders.rows) (isOther : other ∈ market.orders.rows)
    (different : other.id ≠ order.id) : order.escrowSubject ≠ other.escrowSubject := by
  intro same
  exact different (congrArg Order.id (grounded.distinct isOrder isOther same)).symm

theorem subject_not_escrow {account escrow : String} (isSubject : isSubjectId account = true)
    (isEscrow : isSubjectId escrow = false) : account ≠ escrow := by
  rintro rfl
  rw [isSubject] at isEscrow
  cases isEscrow

/-- One leg leaves every other escrow alone. -/
theorem Paid.untouched {subject? : String → Option Subject} {order : Order} {recipient : String}
    {request : EntryRequest} {before after : Books} {receipts : List Posting}
    (paid : Paid subject? order recipient request before after receipts) {account : String}
    (escrow : order.escrowSubject ≠ account) (other : recipient ≠ account) :
    touching after account = touching before account := by
  cases paid with
  | empty zero => rfl
  | posted nonzero appended =>
      exact appended.apart (by simpa [released] using escrow) (by simpa [released] using other)

/-- One leg takes its amount out of the escrow. -/
theorem Paid.paid {subject? : String → Option Subject} {order : Order} {recipient : String}
    {request : EntryRequest} {before after : Books} {receipts : List Posting}
    (paid : Paid subject? order recipient request before after receipts)
    (other : recipient ≠ order.escrowSubject) :
    balance after order.escrowSubject = balance before order.escrowSubject - request.amount := by
  cases paid with
  | empty zero => omega
  | posted nonzero appended =>
      rw [appended.transfer_effect rfl rfl]
      simp [released, other]

theorem balance_opened {books next : Books} {account : LedgerAccount}
    (inserted : insertAccount books account = .ok next) : balance next account.id = 0 := by
  obtain ⟨grown, postings⟩ := insertAccount_ok inserted
  rw [balance_congr postings]
  exact balance_unposted (unposted_of_unopened (Table.insert_fresh grown))

/-- A new order whose escrow holds what its state says. -/
theorem Solvent.enter {market : State} (solvent : Solvent market) {order : Order}
    {orders : Table Order.id} {books : Books} (inserted : market.orders.insert order = some orders)
    (others : ∀ other ∈ market.orders.rows,
      balance books other.escrowSubject = balance market.books other.escrowSubject)
    (own : balance books order.escrowSubject = order.held) :
    Solvent { market with books := books, orders := orders } := by
  intro row member
  rcases (Table.mem_insert inserted row).mp member with old | rfl
  · rw [show balance books row.escrowSubject = _ from others row old]
    exact solvent row old
  · exact own

/-- The escrow of a new order is no account of an order that is there. -/
theorem Grounded.fresh_escrow {market : State} (grounded : Grounded market) {account : LedgerAccount}
    {books : Books} (inserted : insertAccount market.books account = .ok books) {order : Order}
    (member : order ∈ market.orders.rows) : account.id ≠ order.escrowSubject := by
  intro same
  have fresh := Table.insert_fresh (insertAccount_ok inserted).1
  rw [same, grounded.accounts order member] at fresh
  cases fresh

/-- How a legacy release ends. -/
theorem branch_ok {world : World} {market : State} {order : Order} {legacy : LegacyRequest}
    {reason : LegacyReason} {buyer : String} {chosen : Branch}
    (done : branch terms world market order legacy reason buyer = .ok chosen) :
    (chosen.outcome = .refund ∧ chosen.state = .refunded ∧ chosen.recipient = buyer ∧
        order.state = .funded) ∨
      (chosen.outcome = .release ∧ chosen.state = .settled ∧ chosen.recipient = order.seller ∧
        order.state = .delivered ∧ legacyTarget order) := by
  have accepting : ∀ checkout, acceptBranch terms world market order legacy checkout = .ok chosen →
      chosen.outcome = .release ∧ chosen.state = .settled ∧ chosen.recipient = order.seller ∧
        order.state = .delivered ∧ legacyTarget order := by
    intro checkout accepted
    simp only [acceptBranch, Program.except_bind_ok, require_ok, Program.except_pure,
      Except.ok.injEq] at accepted
    obtain ⟨_, _, _, _, _, _, _, delivered, _, target, rfl⟩ := accepted
    exact ⟨rfl, rfl, rfl, delivered.1, target⟩
  cases reason with
  | buyerCancel =>
      simp only [branch, cancelBranch, Program.except_bind_ok, require_ok, Program.except_pure,
        Except.ok.injEq] at done
      obtain ⟨_, _, _, funded, rfl⟩ := done
      exact Or.inl ⟨rfl, rfl, rfl, funded.1⟩
  | buyerAccept => exact Or.inr (accepting false done)
  | checkoutAccept => exact Or.inr (accepting true done)

theorem escrowCheck_ok {market : State} {order : Order} (passed : escrowCheck market order = .ok ()) :
    balance market.books order.escrowSubject = order.totalPriceMinor ∧
      market.escrowDecisions.find? order.id = none := by
  simp only [escrowCheck, Program.except_bind_ok, require_ok] at passed
  obtain ⟨_, ⟨_, balanced⟩, _, _, undecided⟩ := passed
  exact ⟨balanced, undecided⟩

theorem solvent_funded {market : State} {world : World} {request : Request} {order : Order}
    {locked : Contract} {books : Books} {receipt : Posting} (grounded : Grounded market)
    (solvent : Solvent market)
    (made : Funded terms market world request order locked books receipt) :
    Solvent (market.funded world request order locked books receipt) := by
  have member := made.current.mem
  have buyer := subject_not_escrow (grounded.parties order member).1 (grounded.escrows order member)
  have empty := solvent order member
  simp only [Order.held, made.created, OrderState.funding] at empty
  apply solvent.rewrite made.current ((keeps_paid world request receipt).comp
    (keeps_setState .funded)) (funded_orders _ _ _ _ _ _ _)
  · intro other isOther different
    apply balance_touching
    apply made.posted.untouched grounded isOther
    simpa [payment, entry] using grounded.other_escrow member isOther different
  · show balance books order.escrowSubject = order.totalPriceMinor
    rw [made.posted.appended.transfer_effect rfl rfl, empty]
    simp [payment, entry, buyer]

theorem solvent_settled {market : State} {world : World} {order : Order} {locked : Contract}
    {request : SettleRequest} {payout : Payout} (grounded : Grounded market)
    (solvent : Solvent market)
    (made : Settled terms world market order locked request payout) :
    Solvent (market.settled order request payout) := by
  have member := made.current.mem
  have parties := grounded.parties order member
  have escrow := grounded.escrows order member
  obtain ⟨middle, refund, release⟩ := made.paid
  apply solvent.rewrite made.current ((keeps_setState _).comp (keeps_closeOrder _ _ _))
    (settled_orders _ _ _ _)
  · intro other isOther different
    have apart := grounded.other_escrow member isOther different
    have otherEscrow := grounded.escrows other isOther
    apply balance_touching
    show touching payout.books other.escrowSubject = _
    rw [release.untouched apart (subject_not_escrow parties.2 otherEscrow),
      refund.untouched apart (subject_not_escrow parties.1 otherEscrow)]
  · have emptied : balance payout.books order.escrowSubject = 0 := by
      rw [release.paid (subject_not_escrow parties.2 escrow),
        refund.paid (subject_not_escrow parties.1 escrow), made.balanced]
      simp [refundEntry, releaseEntry]
    show balance payout.books order.escrowSubject = _
    rw [emptied]
    simp only [Order.held, closeOrder, setState, settledState]
    split <;> rfl

theorem solvent_legacySettled {market : State} {world : World} {order : Order}
    {legacy : LegacyRequest} {reason : LegacyReason} {buyer : String} {chosen : Branch}
    {books : Books} {receipt : Posting} {stamp : Delivery → Delivery}
    {decisions : Table EscrowDecision.orderId} (grounded : Grounded market)
    (solvent : Solvent market)
    (made : LegacySettled terms market world order legacy reason buyer chosen books receipt stamp
      decisions) :
    Solvent (market.legacySettled world order chosen books receipt stamp decisions) := by
  have member := made.current.mem
  have parties := grounded.parties order member
  have party : isSubjectId chosen.recipient = true := by
    rcases branch_ok made.branched with ⟨_, _, recipient, _⟩ | ⟨_, _, recipient, _⟩
    · rw [recipient, ← made.owned]
      exact parties.1
    · rw [recipient]
      exact parties.2
  have resolvedState : chosen.state.funding = false := by
    rcases branch_ok made.branched with ⟨_, state, _⟩ | ⟨_, state, _⟩ <;> rw [state] <;> rfl
  apply solvent.rewrite made.current (keeps_resolved world order chosen receipt) rfl
  · intro other isOther different
    apply made.posted.untouched
    · simpa [released] using grounded.other_escrow member isOther different
    · simpa [released] using subject_not_escrow party (grounded.escrows other isOther)
  · show balance books order.escrowSubject = _
    have apart := subject_not_escrow party (grounded.escrows order member)
    rw [made.posted.transfer_effect rfl rfl, (escrowCheck_ok made.escrow).1]
    simp [released, legacyEntry, apart, Order.held, resolved, resolvedState]

/-- Neither a cancellation nor an acceptance changes what an escrow has to hold. -/
theorem held_turning {order : Order} {state : OrderState} (turning : Turning order.state state) :
    (setState state order).held = order.held := by
  unfold Order.held setState
  generalize order.state = before at turning
  cases turning <;> rfl

theorem solvent_order {market next : State} (grounded : Grounded market) (solvent : Solvent market)
    (move : OrderMove terms client market next) : Solvent next := by
  cases move with
  | opened opens made =>
      have empty := balance_opened made.account
      have same := (insertAccount_ok made.account).2
      exact solvent.enter made.inserted (fun other _ => balance_congr same _)
        (empty.trans (by simp [Order.held, made.blank.state, OrderState.funding]))
  | scheduled deadlines => exact solvent.frame rfl fun _ _ => rfl
  | retargeted current target handle =>
      exact solvent.rewrite current (keeps_target target) rfl (fun _ _ _ => rfl)
        (solvent _ current.mem)
  | funded asked made => exact solvent_funded grounded solvent made
  | turned made origin reason =>
      refine solvent.restate made.current (keeps_setState _) rfl rfl ?_
      exact held_turning made.turning
  | disputed made origin reason locked world agreed drawn =>
      refine solvent.restate made.current (keeps_setState _) rfl rfl ?_
      rcases made.disputable with state | state <;>
        simp [Order.held, setState, state, OrderState.funding]
  | dispatched made origin envelopes =>
      refine solvent.restate made.current ((keeps_setState .delivered).comp (keeps_setDelivered _))
        (dispatched_orders _ _ _ _ _) rfl ?_
      simp [Order.held, setState, setDelivered, made.deliverable.1, OrderState.funding]
  | acknowledged orderId stamp stamped => exact solvent.frame rfl fun _ _ => rfl
  | settled made => exact solvent_settled grounded solvent made
  | @legacyOpened world checkout offer opened books receipt orders asked opens made =>
      have empty := balance_opened made.account
      have same := (insertAccount_ok made.account).2
      have buyer : offer.buyer ≠ newEscrow world :=
        subject_not_escrow (grounded.identity made.parties.1) (subject_apart ⟨_, rfl⟩)
      refine solvent.enter made.inserted ?_ ?_
      · intro other member
        have fresh := grounded.fresh_escrow made.account member
        rw [made.posted.appended.untouched, balance_congr same]
        · intro sender
          exact made.posted.unguarded _ _ sender
            ((insertAccount_find made.account).2 _ _ (grounded.accounts other member)) rfl
        · simpa [legacyFunding, entry] using fresh
      · show balance books (newEscrow world) = offer.total
        rw [made.posted.appended.transfer_effect rfl rfl, empty]
        simp [legacyFunding, entry, buyer]
  | legacyPrepared made now =>
      refine solvent.restate made.current (keeps_markDelivered now) rfl rfl ?_
      simp [Order.held, markDelivered, made.deliverable.1, OrderState.funding]
  | legacySettled asked made => exact solvent_legacySettled grounded solvent made

theorem publisherRow_ok {market : State} {request : BountyRequest} {row : Bounty}
    (read : publisherRow market request = .ok row) :
    market.bounties.find? row.listingId = some row ∧ row.state ≠ .closed := by
  simp only [publisherRow, bountyRow, Program.except_bind_ok, requireRow_ok, require_ok,
    Program.except_pure, Except.ok.injEq] at read
  obtain ⟨_, _, stored, found, _, _, _, _, _, _, _, isOpen, rfl⟩ := read
  have named : stored.listingId = request.listingId := Table.find?_key found
  exact ⟨by rw [named]; exact found, isOpen⟩

theorem readClaim_ok {world : World} {market : State} {request : ClaimRequest} {row : Challenge}
    {listing : Bounty} (read : readClaim terms world market request = .ok (row, listing)) :
    (market.challenges.find? row.id = some row ∧ row.consumedAt = none) ∧
      (market.bounties.find? listing.listingId = some listing ∧ row.listingId = listing.listingId) ∧
      ready world market listing row.claimant = .ok () := by
  simp only [readClaim, proofCheck, bountyRow, Program.except_bind_ok, requireRow_ok, require_ok,
    Option.filter_eq_some_iff, beq_iff_eq, Program.except_pure, Except.ok.injEq,
    Prod.mk.injEq] at read
  obtain ⟨_, _, stored, ⟨found, rfl⟩, bounty, isBounty, _, _, _, isReady, _, _, _,
    ⟨_, unspent, _⟩, rfl, rfl⟩ := read
  have challenged : stored.id = request.challengeId := Table.find?_key found
  have named : bounty.listingId = stored.listingId := Table.find?_key isBounty
  exact ⟨⟨by rw [challenged]; exact found, unspent⟩, ⟨by rw [named]; exact isBounty, named.symm⟩,
    isReady⟩

theorem issue_apart {market : State} (grounded : Grounded market) {world : World}
    {action : IssueAction} {amount : Int} (read : issueRecipient market action = .ok ())
    {escrow : String} (isEscrow : isSubjectId escrow = false) :
    (issueEntry world action amount).sender ≠ some escrow ∧
      (issueEntry world action amount).recipient ≠ some escrow := by
  have root : rootSubject ≠ escrow := subject_not_escrow (by decide) isEscrow
  cases action with
  | mint => simp [issueEntry, IssueAction.sender, IssueAction.recipient, root]
  | burn => simp [issueEntry, IssueAction.sender, IssueAction.recipient, root]
  | transfer subject =>
      simp only [issueRecipient, Program.except_bind_ok, require_ok] at read
      obtain ⟨row, found, _⟩ := read
      have isSubject := grounded.identity (subject_known found).2
      simp [issueEntry, IssueAction.sender, IssueAction.recipient, root,
        subject_not_escrow isSubject isEscrow]

/-- Whatever is paid in the course of bounties and ordinary money passes the escrows
of orders by. -/
theorem money_untouched {market next : State} (grounded : Grounded market)
    (move : MoneyMove terms client market next) :
    next.orders = market.orders ∧ ∀ order ∈ market.orders.rows,
      touching next.books order.escrowSubject = touching market.books order.escrowSubject := by
  cases move with
  | opened asked made =>
      refine ⟨rfl, fun order member => ?_⟩
      have fresh := grounded.fresh_escrow made.account member
      rw [made.posted.appended.apart, touching_congr (insertAccount_ok made.account).2]
      · intro sender
        exact made.posted.unguarded _ _ sender
          ((insertAccount_find made.account).2 _ _ (grounded.accounts order member)) rfl
      · simpa [entry, bountyAccount] using fresh
  | toppedUp asked read posted =>
      refine ⟨rfl, fun order member => posted.untouched grounded member ?_⟩
      have apart := grounded.bounty_apart member (Table.find?_mem (publisherRow_ok read).1)
      simpa [topUpEntry, entry] using apart
  | changed read state isOpen reason => exact ⟨rfl, fun _ _ => rfl⟩
  | closed asked read returned =>
      refine ⟨rfl, fun order member => ?_⟩
      cases returned with
      | empty zero => rfl
      | posted done =>
          apply done.untouched grounded member
          have publisher := grounded.publishers _ (Table.find?_mem (publisherRow_ok read).1)
          simpa [closeEntry, entry] using
            subject_not_escrow publisher (grounded.escrows order member)
  | challenged claimant unspent inserted => exact ⟨rfl, fun _ _ => rfl⟩
  | claimed asked made =>
      refine ⟨rfl, fun order member => made.posted.untouched grounded member ?_⟩
      have claimant := grounded.identity made.claimant
      simpa [claimEntry, entry] using subject_not_escrow claimant (grounded.escrows order member)
  | transferred asked isSender isRecipient known posted =>
      refine ⟨rfl, fun order member => posted.untouched grounded member ?_⟩
      rw [isRecipient]
      simpa using subject_not_escrow (grounded.identity known.2) (grounded.escrows order member)
  | issued read appended =>
      refine ⟨rfl, fun order member => ?_⟩
      obtain ⟨sender, recipient⟩ := issue_apart grounded read (grounded.escrows order member)
      exact appended.apart sender recipient

theorem solvent_move {market next : State} (grounded : Grounded market) (solvent : Solvent market)
    (move : Move terms client market next) : Solvent next := by
  cases move with
  | order move => exact solvent_order grounded solvent move
  | dispute move =>
      have aside := case_aside move
      refine solvent.frame aside.orders fun order _ => ?_
      rw [aside.books]
  | money move =>
      obtain ⟨orders, books⟩ := money_untouched grounded move
      exact solvent.frame orders fun order member => balance_touching (books order member)
  | authority extended => exact solvent.frame rfl fun _ _ => rfl
  | activated grown => exact solvent.frame rfl fun _ _ => rfl
  | restored published => exact solvent.frame rfl fun _ _ => rfl
  | revised agreed resource content owner stored others => exact solvent.frame rfl fun _ _ => rfl

theorem moves_solvent {market next : State} (moves : Moves terms client market next)
    (grounded : Grounded market) (solvent : Solvent market) : Grounded next ∧ Solvent next := by
  have kept : ∀ market next, Grounded market ∧ Solvent market →
      Move terms client market next → Grounded next ∧ Solvent next :=
    fun _ _ holds move => ⟨grounded_move holds.1 move, solvent_move holds.1 holds.2 move⟩
  exact moves_invariant kept moves ⟨grounded, solvent⟩

theorem run_solvent (steps : List (World × Op)) :
    Grounded (run terms steps) ∧ Solvent (run terms steps) := by
  have moves : Moves terms Client.any State.empty (run terms steps) :=
    run_moves_any
  apply moves_solvent moves grounded_empty
  intro order member
  simp [State.empty, Table.empty] at member

/-- The escrow of an order holds exactly its price, or nothing. -/
def EscrowHolds (market : State) (order : Order) : Prop :=
  (order.state = .funded ∨ order.state = .delivered ∨ order.state = .accepted ∨
      order.state = .disputed →
    balance market.books order.escrowSubject = order.totalPriceMinor) ∧
  (order.state = .created ∨ order.state = .cancelled ∨ order.state = .refunded ∨
      order.state = .settled →
    balance market.books order.escrowSubject = 0)

/-- After every run from the empty market the escrow of every order holds its price
while the order is paid and unresolved, and nothing before and after. -/
theorem escrows_solvent (terms : Terms) (steps : List (World × Op)) :
    (run terms steps).orders.rows.Forall (EscrowHolds (run terms steps)) := by
  rw [List.forall_iff_forall_mem]
  intro order member
  have held := (run_solvent steps).2 order member
  constructor
  · rintro (state | state | state | state) <;>
      simpa [Order.held, OrderState.funding, state] using held
  · rintro (state | state | state | state) <;>
      simpa [Order.held, OrderState.funding, state] using held

end MsgServer.Market
