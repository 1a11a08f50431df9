import MsgServer.Market.Outcomes

/-!
The escrow of every bounty over whole runs of the market: what has been paid into it,
what the paid claims have taken out of it, and that a closed bounty is left alone. As
with the orders the argument is about accounts; the moves of orders, cases and ordinary
money pass the escrows of bounties by.
-/

namespace MsgServer.Market

open Library Ledger

variable {terms : Terms} {client : Client} {market next : State}

/-! Two bounties with one escrow are one bounty. -/

theorem Grounded.sole_bounty (grounded : Grounded market) {left right : Bounty}
    (inLeft : left ∈ market.bounties.rows) (inRight : right ∈ market.bounties.rows)
    (same : left.escrowSubject = right.escrowSubject) : left = right := by
  have atLeft := grounded.bountyAccounts left inLeft
  rw [same, grounded.bountyAccounts right inRight] at atLeft
  have ids : left.listingId = right.listingId :=
    (Option.some.inj (congrArg LedgerAccount.sourceId (Option.some.inj atLeft))).symm
  exact Table.eq_of_key_eq inLeft inRight ids

theorem Grounded.other_bounty (grounded : Grounded market) {row other : Bounty}
    (isRow : row ∈ market.bounties.rows) (isOther : other ∈ market.bounties.rows)
    (different : other.listingId ≠ row.listingId) : row.escrowSubject ≠ other.escrowSubject := by
  intro same
  exact different (congrArg Bounty.listingId (grounded.sole_bounty isRow isOther same)).symm

theorem Grounded.fresh_bounty (grounded : Grounded market) {account : LedgerAccount}
    {books : Books} (inserted : insertAccount market.books account = .ok books) {row : Bounty}
    (member : row ∈ market.bounties.rows) : account.id ≠ row.escrowSubject := by
  intro same
  have fresh := Table.insert_fresh (insertAccount_ok inserted).1
  rw [same, grounded.bountyAccounts row member] at fresh
  cases fresh

/-! Money paid in. -/

theorem credit_congr {before after : Books} (same : after.postings = before.postings)
    (account : String) : creditTotal after account = creditTotal before account := by
  simp [creditTotal, same]

theorem credit_touching {before after : Books} {account : String}
    (same : touching after account = touching before account) :
    creditTotal after account = creditTotal before account := by
  have credits : ∀ books : Books, (touching books account).filter
      (fun posting => posting.toSubject == some account) =
        books.postings.rows.filter fun posting => posting.toSubject == some account := by
    intro books
    rw [touching, List.filter_filter]
    apply List.filter_congr
    intro posting _
    by_cases named : posting.toSubject = some account <;> simp [named, sides]
  simp only [creditTotal, ← credits, same]

theorem credit_appended {subject? : String → Option Subject} {request : EntryRequest}
    {before after : Books} {posting : Posting}
    (appended : Appended subject? request before after posting) (account : String) :
    creditTotal after account =
      creditTotal before account + if request.recipient = some account then request.amount else 0 := by
  obtain ⟨transactionId, sequence, rfl⟩ := appended.shape
  rw [creditTotal, appended.recorded, List.filter_append, List.map_append, List.sum_append]
  by_cases credited : request.recipient = some account <;>
    simp [creditTotal, EntryRequest.posting, credited]

theorem credit_unposted {books : Books} {account : String}
    (unopened : books.accounts.find? account = none) : creditTotal books account = 0 := by
  have none : (books.postings.rows.filter fun posting => posting.toSubject == some account) = [] := by
    rw [List.filter_eq_nil_iff]
    intro posting member credited
    have named : account ∈ sides posting := by simp [sides, beq_iff_eq.mp credited]
    exact unposted_of_unopened unopened posting member named
  simp [creditTotal, none]

/-! What a bounty, its claims and its escrow say of each other. -/

/-- The escrow of a bounty holds what was paid in less the paid claims while it is open,
and nothing once it is closed; the paid claims are within its terms. -/
structure BountyHolds (market : State) (row : Bounty) : Prop where
  paidIn : creditTotal market.books row.escrowSubject = row.budgetMinor
  reward : 0 < row.rewardMinor
  unspent : row.state ≠ .closed → balance market.books row.escrowSubject =
    row.budgetMinor - claimCount market row.listingId * row.rewardMinor
  emptied : row.state = .closed → balance market.books row.escrowSubject = 0
  solvent : 0 ≤ balance market.books row.escrowSubject
  capped : claimCount market row.listingId ≤ row.maxClaims
  limited : ∀ claimant, claimantCount market row.listingId claimant ≤ row.claimLimitPerSubject

def legs (posting : Posting) : Option String × Option String × Int :=
  (posting.fromSubject, posting.toSubject, posting.amountMinor)

/-- A claim was paid its bounty's reward, from the bounty's escrow, to the subject of a
challenge that is spent. -/
structure ClaimPaid (market : State) (row : Claim) : Prop where
  posted : ∃ listing, market.bounties.find? row.listingId = some listing ∧
    row.rewardMinor = listing.rewardMinor ∧
    (market.books.postings.find? row.transactionId).map legs =
      some (some listing.escrowSubject, some row.claimant, listing.rewardMinor)
  spent : ∃ challenge, market.challenges.find? row.challengeId = some challenge ∧
    challenge.consumedAt ≠ none ∧ challenge.claimant = row.claimant ∧
    challenge.listingId = row.listingId

structure Backed (market : State) : Prop where
  holds : ∀ row ∈ market.bounties.rows, BountyHolds market row
  paid : ∀ row ∈ market.claims.rows, ClaimPaid market row
  challenges : (market.claims.rows.map Claim.challengeId).Nodup
  transactions : (market.claims.rows.map Claim.transactionId).Nodup

/-- The terms a bounty is published under. -/
def Bounty.published (row : Bounty) : Bounty :=
  { row with budgetMinor := 0, state := .closed, pauseReason := none }

theorem published_terms {left right : Bounty} (same : left.published = right.published) :
    left.listingId = right.listingId ∧ left.escrowSubject = right.escrowSubject ∧
      left.rewardMinor = right.rewardMinor ∧ left.maxClaims = right.maxClaims ∧
      left.claimLimitPerSubject = right.claimLimitPerSubject := by
  cases left
  cases right
  simp only [Bounty.published, Bounty.mk.injEq] at same
  obtain ⟨listing, _, escrow, reward, _, claims, limit, _⟩ := same
  exact ⟨listing, escrow, reward, claims, limit⟩

/-- What becomes of one bounty: its terms stay, its budget only grows, and a closed one is
never reopened, funded or paid from again. -/
structure BountyLater (early late : State) (row later : Bounty) : Prop where
  stored : late.bounties.find? row.listingId = some later
  terms : later.published = row.published
  budget : row.budgetMinor ≤ later.budgetMinor
  closed : row.state = .closed → later = row ∧
    touching late.books row.escrowSubject = touching early.books row.escrowSubject ∧
    claimCount late row.listingId = claimCount early row.listingId

structure Carried (early late : State) : Prop where
  bounties : ∀ row ∈ early.bounties.rows, ∃ later, BountyLater early late row later
  claims : ∀ row ∈ early.claims.rows, late.claims.find? row.id = some row
  spent : ∀ row ∈ early.challenges.rows, row.consumedAt ≠ none →
    late.challenges.find? row.id = some row

theorem BountyLater.same {row : Bounty} (found : next.bounties.find? row.listingId = some row)
    (closed : row.state = .closed →
      touching next.books row.escrowSubject = touching market.books row.escrowSubject ∧
      claimCount next row.listingId = claimCount market row.listingId) :
    BountyLater market next row row where
  stored := found
  terms := rfl
  budget := le_refl _
  closed := fun ended => ⟨rfl, closed ended⟩

theorem Carried.refl (market : State) : Carried market market where
  bounties := fun row member =>
    ⟨row, BountyLater.same ((Table.mem_iff_find? _ row).mp member) fun _ => ⟨rfl, rfl⟩⟩
  claims := fun row member => (Table.mem_iff_find? _ row).mp member
  spent := fun row member _ => (Table.mem_iff_find? _ row).mp member

theorem BountyLater.trans {third : State} {row middle last : Bounty}
    (first : BountyLater market next row middle) (second : BountyLater next third middle last) :
    BountyLater market third row last := by
  obtain ⟨sameId, sameEscrow, _⟩ := published_terms first.terms
  constructor
  · rw [← sameId]
    exact second.stored
  · exact second.terms.trans first.terms
  · exact first.budget.trans second.budget
  · intro ended
    have kept := first.closed ended
    have later := second.closed (by rw [kept.1]; exact ended)
    rw [sameEscrow, sameId] at later
    exact ⟨later.1.trans kept.1, later.2.1.trans kept.2.1, later.2.2.trans kept.2.2⟩

theorem Carried.trans {third : State} (first : Carried market next) (second : Carried next third) :
    Carried market third where
  bounties := by
    intro row member
    obtain ⟨middle, kept⟩ := first.bounties row member
    obtain ⟨last, later⟩ := second.bounties middle (Table.find?_mem kept.stored)
    exact ⟨last, kept.trans later⟩
  claims := fun row member => second.claims row (Table.find?_mem (first.claims row member))
  spent := fun row member consumed =>
    second.spent row (Table.find?_mem (first.spent row member consumed)) consumed

/-! Moves that pass the bounties by. -/

/-- Bounties, challenges and claims stay, and no posting names the escrow of a bounty. -/
structure Bypassed (market next : State) : Prop where
  bounties : next.bounties = market.bounties
  challenges : next.challenges = market.challenges
  claims : next.claims = market.claims
  postings : ∀ id posting, market.books.postings.find? id = some posting →
    next.books.postings.find? id = some posting
  untouched : ∀ row ∈ market.bounties.rows,
    touching next.books row.escrowSubject = touching market.books row.escrowSubject

theorem claimCount_congr (same : next.claims = market.claims) (listingId : String) :
    claimCount next listingId = claimCount market listingId := by
  rw [claimCount, claimCount, same]

theorem claimantCount_congr (same : next.claims = market.claims) (listingId claimant : String) :
    claimantCount next listingId claimant = claimantCount market listingId claimant := by
  rw [claimantCount, claimantCount, same]

/-- A bounty that no posting touches and that gets no claim stands as it stood. -/
theorem BountyHolds.frame {row : Bounty} (holds : BountyHolds market row)
    (untouched : touching next.books row.escrowSubject = touching market.books row.escrowSubject)
    (count : claimCount next row.listingId = claimCount market row.listingId)
    (limits : ∀ claimant, claimantCount next row.listingId claimant =
      claimantCount market row.listingId claimant) : BountyHolds next row := by
  have same := balance_touching untouched
  constructor
  · rw [credit_touching untouched]
    exact holds.paidIn
  · exact holds.reward
  · rw [same, count]
    exact holds.unspent
  · rw [same]
    exact holds.emptied
  · rw [same]
    exact holds.solvent
  · rw [count]
    exact holds.capped
  · intro claimant
    rw [limits]
    exact holds.limited claimant

theorem ClaimPaid.frame {row : Claim} (paid : ClaimPaid market row)
    (bounties : ∀ listing, market.bounties.find? row.listingId = some listing →
      ∃ later, next.bounties.find? row.listingId = some later ∧ later.published = listing.published)
    (postings : ∀ posting, market.books.postings.find? row.transactionId = some posting →
      next.books.postings.find? row.transactionId = some posting)
    (challenges : ∀ challenge, market.challenges.find? row.challengeId = some challenge →
      challenge.consumedAt ≠ none → next.challenges.find? row.challengeId = some challenge) :
    ClaimPaid next row := by
  obtain ⟨⟨listing, found, reward, leg⟩, ⟨challenge, asked, consumed, who⟩⟩ := paid
  obtain ⟨later, stored, same⟩ := bounties listing found
  obtain ⟨posting, recorded, shape⟩ := Option.map_eq_some_iff.mp leg
  obtain ⟨_, sameEscrow, sameReward, _⟩ := published_terms same
  constructor
  · refine ⟨later, stored, reward.trans sameReward.symm, ?_⟩
    rw [postings posting recorded, sameReward, sameEscrow]
    exact congrArg some shape
  · exact ⟨challenge, challenges challenge asked consumed, consumed, who⟩

theorem Bypassed.backed (bypassed : Bypassed market next) (backed : Backed market) :
    Backed next where
  holds := by
    intro row member
    rw [bypassed.bounties] at member
    exact (backed.holds row member).frame (bypassed.untouched row member)
      (claimCount_congr bypassed.claims _) (claimantCount_congr bypassed.claims _)
  paid := by
    intro row member
    rw [bypassed.claims] at member
    apply (backed.paid row member).frame
    · rw [bypassed.bounties]
      exact fun listing found => ⟨listing, found, rfl⟩
    · exact bypassed.postings _
    · rw [bypassed.challenges]
      exact fun _ found _ => found
  challenges := by
    rw [bypassed.claims]
    exact backed.challenges
  transactions := by
    rw [bypassed.claims]
    exact backed.transactions

theorem Bypassed.carried (bypassed : Bypassed market next) : Carried market next where
  bounties := by
    intro row member
    refine ⟨row, BountyLater.same ?_ ?_⟩
    · rw [bypassed.bounties]
      exact (Table.mem_iff_find? _ row).mp member
    · intro _
      exact ⟨bypassed.untouched row member, claimCount_congr bypassed.claims _⟩
  claims := by
    rw [bypassed.claims]
    exact fun row member => (Table.mem_iff_find? _ row).mp member
  spent := by
    rw [bypassed.challenges]
    exact fun row member _ => (Table.mem_iff_find? _ row).mp member

/-- A move without postings. -/
theorem Bypassed.quiet (books : next.books = market.books)
    (bounties : next.bounties = market.bounties) (challenges : next.challenges = market.challenges)
    (claims : next.claims = market.claims) : Bypassed market next where
  bounties := bounties
  challenges := challenges
  claims := claims
  postings := by
    rw [books]
    exact fun _ _ found => found
  untouched := by
    rw [books]
    exact fun _ _ => rfl

/-- A posting between subjects and the escrow of an order. -/
theorem Grounded.passes (grounded : Grounded market) {account : String}
    (outside : isSubjectId account = true ∨ ∃ order ∈ market.orders.rows,
      account = order.escrowSubject) {row : Bounty} (member : row ∈ market.bounties.rows) :
    account ≠ row.escrowSubject := by
  rcases outside with subject | ⟨order, isOrder, rfl⟩
  · exact subject_not_escrow subject (grounded.bountyEscrows row member)
  · exact (grounded.bounty_apart isOrder member).symm

/-- One leg of a settlement goes from the escrow of an order to one of its parties. -/
theorem Paid.bypasses {subject? : String → Option Subject} {order : Order} {recipient : String}
    {request : EntryRequest} {before after : Books} {receipts : List Posting}
    (paid : Paid subject? order recipient request before after receipts)
    (grounded : Grounded market) (member : order ∈ market.orders.rows)
    (party : isSubjectId recipient = true) {row : Bounty} (isRow : row ∈ market.bounties.rows) :
    touching after row.escrowSubject = touching before row.escrowSubject :=
  paid.untouched (grounded.passes (Or.inr ⟨order, member, rfl⟩) isRow)
    (grounded.passes (Or.inl party) isRow)

theorem order_bypasses (grounded : Grounded market) (move : OrderMove terms client market next) :
    Bypassed market next := by
  cases move with
  | opened opens made =>
      have same := (insertAccount_ok made.account).2
      refine ⟨rfl, rfl, rfl, fun id posting found => ?_, fun _ _ => touching_congr same _⟩
      rw [← same] at found
      exact found
  | scheduled deadlines => exact Bypassed.quiet rfl rfl rfl rfl
  | retargeted current target handle => exact Bypassed.quiet rfl rfl rfl rfl
  | @funded world request order locked books receipt asked made =>
      have member := made.current.mem
      have buyer := (grounded.parties order member).1
      refine ⟨rfl, rfl, rfl, fun _ _ => made.posted.appended.found, fun row isRow => ?_⟩
      apply made.posted.appended.apart
      · simpa [payment, entry] using grounded.passes (Or.inl buyer) isRow
      · simpa [payment, entry] using grounded.passes (Or.inr ⟨order, member, rfl⟩) isRow
  | turned made origin reason => exact Bypassed.quiet rfl rfl rfl rfl
  | disputed made origin reason locked world agreed drawn => exact Bypassed.quiet rfl rfl rfl rfl
  | dispatched made origin envelopes => exact Bypassed.quiet rfl rfl rfl rfl
  | acknowledged orderId stamp stamped => exact Bypassed.quiet rfl rfl rfl rfl
  | @settled world order locked request payout made =>
      have member := made.current.mem
      have parties := grounded.parties order member
      obtain ⟨middle, refund, release⟩ := made.paid
      refine ⟨rfl, rfl, rfl, fun _ _ => made.found, fun row isRow => ?_⟩
      show touching payout.books row.escrowSubject = _
      rw [release.bypasses grounded member parties.2 isRow,
        refund.bypasses grounded member parties.1 isRow]
  | @legacyOpened world checkout offer opened books receipt orders asked opens made =>
      have same := (insertAccount_ok made.account).2
      have buyer := grounded.identity made.parties.1
      refine ⟨rfl, rfl, rfl, ?_, fun row isRow => ?_⟩
      · intro id posting found
        apply made.posted.appended.found
        show opened.postings.find? id = some posting
        rw [same]
        exact found
      · have fresh := grounded.fresh_bounty made.account isRow
        show touching books row.escrowSubject = _
        rw [made.posted.appended.apart, touching_congr same]
        · simpa [legacyFunding, entry] using grounded.passes (Or.inl buyer) isRow
        · simpa [legacyFunding, entry] using fresh
  | legacyPrepared made now => exact Bypassed.quiet rfl rfl rfl rfl
  | @legacySettled world order legacy reason buyer chosen books receipt stamp decisions asked made =>
      have member := made.current.mem
      have parties := grounded.parties order member
      have party : isSubjectId chosen.recipient = true := by
        rcases branch_ok made.branched with ⟨_, _, recipient, _⟩ | ⟨_, _, recipient, _⟩
        · rw [recipient, ← made.owned]
          exact parties.1
        · rw [recipient]
          exact parties.2
      refine ⟨rfl, rfl, rfl, fun _ _ => made.posted.found, fun row isRow => ?_⟩
      apply made.posted.apart
      · simpa [released] using grounded.passes (Or.inr ⟨order, member, rfl⟩) isRow
      · simpa [released] using grounded.passes (Or.inl party) isRow

/-! Moves on bounties. -/

/-- A move that rewrites one open bounty and moves no money but its own. -/
structure Rewritten (market next : State) (row : Bounty) (change : Bounty → Bounty) : Prop where
  current : market.bounties.find? row.listingId = some row
  isOpen : row.state ≠ .closed
  keeps : ∀ other, (change other).published = other.published
  bounties : next.bounties = market.bounties.modify row.listingId change
  postings : ∀ id posting, market.books.postings.find? id = some posting →
    next.books.postings.find? id = some posting
  untouched : ∀ other ∈ market.bounties.rows, other.listingId ≠ row.listingId →
    touching next.books other.escrowSubject = touching market.books other.escrowSubject

theorem Rewritten.id {row : Bounty} {change : Bounty → Bounty}
    (rewritten : Rewritten market next row change) (other : Bounty) :
    (change other).listingId = other.listingId := (published_terms (rewritten.keeps other)).1

theorem Rewritten.found {row : Bounty} {change : Bounty → Bounty}
    (rewritten : Rewritten market next row change) {listingId : String} {listing : Bounty}
    (found : market.bounties.find? listingId = some listing) :
    ∃ later, next.bounties.find? listingId = some later ∧
      later.published = listing.published := by
  rw [rewritten.bounties]
  by_cases own : listingId = row.listingId
  · refine ⟨change listing, ?_, rewritten.keeps listing⟩
    rw [own, Table.find?_modify_self _ _ _ rewritten.id, ← own, found]
    rfl
  · refine ⟨listing, ?_, rfl⟩
    rw [Table.find?_modify_ne _ _ own]
    exact found

/-- The rows after the move: the others as they were, and the rewritten one. -/
theorem Rewritten.cases {row : Bounty} {change : Bounty → Bounty}
    (rewritten : Rewritten market next row change) {other : Bounty}
    (member : other ∈ next.bounties.rows) :
    (other ∈ market.bounties.rows ∧ other.listingId ≠ row.listingId) ∨ other = change row := by
  rw [rewritten.bounties] at member
  rcases Table.mem_modify rewritten.id member with same | ⟨old, found, rfl⟩
  · exact Or.inl same
  · right
    rw [Option.some.inj (found.symm.trans rewritten.current)]

theorem Rewritten.carried {row : Bounty} {change : Bounty → Bounty}
    (rewritten : Rewritten market next row change)
    (budget : row.budgetMinor ≤ (change row).budgetMinor)
    (counts : ∀ listingId, listingId ≠ row.listingId →
      claimCount next listingId = claimCount market listingId)
    (claims : ∀ claim ∈ market.claims.rows, next.claims.find? claim.id = some claim)
    (spent : ∀ challenge ∈ market.challenges.rows, challenge.consumedAt ≠ none →
      next.challenges.find? challenge.id = some challenge) : Carried market next where
  bounties := by
    intro other member
    by_cases own : other.listingId = row.listingId
    · have isRow := Table.eq_of_key_eq member (Table.find?_mem rewritten.current) own
      refine ⟨change row, ?_, ?_, ?_, ?_⟩
      · rw [rewritten.bounties, own, Table.find?_modify_self _ _ _ rewritten.id, rewritten.current]
        rfl
      · rw [isRow]
        exact rewritten.keeps row
      · rw [isRow]
        exact budget
      · rw [isRow]
        exact fun ended => absurd ended rewritten.isOpen
    · refine ⟨other, BountyLater.same ?_ fun _ => ?_⟩
      · rw [rewritten.bounties, Table.find?_modify_ne _ _ own]
        exact (Table.mem_iff_find? _ other).mp member
      · exact ⟨rewritten.untouched other member own, counts _ own⟩
  claims := claims
  spent := spent

/-- The state stays backed when the rewritten bounty does and no claim is added. -/
theorem Rewritten.backed {row : Bounty} {change : Bounty → Bounty}
    (rewritten : Rewritten market next row change) (backed : Backed market)
    (claims : next.claims = market.claims) (challenges : next.challenges = market.challenges)
    (own : BountyHolds next (change row)) : Backed next where
  holds := by
    intro other member
    rcases rewritten.cases member with ⟨old, different⟩ | rfl
    · exact (backed.holds other old).frame (rewritten.untouched other old different)
        (claimCount_congr claims _) (claimantCount_congr claims _)
    · exact own
  paid := by
    intro claim member
    rw [claims] at member
    apply (backed.paid claim member).frame
    · exact fun _ => rewritten.found
    · exact rewritten.postings _
    · rw [challenges]
      exact fun _ found _ => found
  challenges := by
    rw [claims]
    exact backed.challenges
  transactions := by
    rw [claims]
    exact backed.transactions

theorem Rewritten.carried_quiet {row : Bounty} {change : Bounty → Bounty}
    (rewritten : Rewritten market next row change)
    (budget : row.budgetMinor ≤ (change row).budgetMinor) (claims : next.claims = market.claims)
    (challenges : next.challenges = market.challenges) : Carried market next := by
  apply rewritten.carried budget
  · exact fun _ _ => claimCount_congr claims _
  · rw [claims]
    exact fun claim member => (Table.mem_iff_find? _ claim).mp member
  · rw [challenges]
    exact fun challenge member _ => (Table.mem_iff_find? _ challenge).mp member

/-- An ordinary posting between subjects. -/
theorem Ordinary.bypasses {request : EntryRequest} {books : Books} {receipt : Posting}
    (posted : Ordinary market request books receipt) (grounded : Grounded market)
    {sender recipient : String} (isSender : request.sender = some sender)
    (isRecipient : request.recipient = some recipient) (debited : isSubjectId sender = true)
    (credited : isSubjectId recipient = true) : Bypassed market { market with books := books } where
  bounties := rfl
  challenges := rfl
  claims := rfl
  postings := fun _ _ => posted.appended.found
  untouched := by
    intro row member
    apply posted.appended.apart
    · rw [isSender]
      simpa using grounded.passes (Or.inl debited) member
    · rw [isRecipient]
      simpa using grounded.passes (Or.inl credited) member

/-! Opening. -/

/-- No claim names a bounty that is not there. -/
theorem Backed.unclaimed (backed : Backed market) {listingId : String}
    (absent : market.bounties.find? listingId = none) :
    (∀ row ∈ market.claims.rows, row.listingId ≠ listingId) := by
  rintro row member rfl
  obtain ⟨⟨listing, found, _⟩, _⟩ := backed.paid row member
  rw [absent] at found
  cases found

theorem count_unclaimed {listingId : String}
    (unclaimed : ∀ row ∈ market.claims.rows, row.listingId ≠ listingId) :
    claimCount market listingId = 0 ∧ ∀ claimant, claimantCount market listingId claimant = 0 := by
  constructor
  · rw [claimCount, List.length_eq_zero_iff, List.filter_eq_nil_iff]
    intro row member named
    exact unclaimed row member (beq_iff_eq.mp named)
  · intro claimant
    rw [claimantCount, List.length_eq_zero_iff, List.filter_eq_nil_iff]
    intro row member named
    simp only [Bool.and_eq_true, beq_iff_eq] at named
    exact unclaimed row member named.1

section Opening

variable {world : World} {offer : BountyOffer} {publisher : String} {opened books : Books}
  {receipt : Posting} {bounties : Table Bounty.listingId}

/-- The first payment into a new escrow touches no bounty that is there. -/
theorem BountyOpened.untouched
    (made : BountyOpened terms world market offer publisher opened books receipt bounties)
    (grounded : Grounded market) {row : Bounty} (member : row ∈ market.bounties.rows) :
    touching books row.escrowSubject = touching market.books row.escrowSubject := by
  have fresh := grounded.fresh_bounty made.account member
  have owner := grounded.identity made.known
  rw [made.posted.appended.apart, touching_congr (insertAccount_ok made.account).2]
  · simpa [entry] using grounded.passes (Or.inl owner) member
  · simpa [entry, bountyAccount] using fresh

theorem BountyOpened.holds
    (made : BountyOpened terms world market offer publisher opened books receipt bounties)
    (grounded : Grounded market) (backed : Backed market) :
    BountyHolds { market with books := books, bounties := bounties }
      (newBounty world offer publisher) := by
  have absent : market.bounties.find? (newListingId world) = none := Table.insert_fresh made.inserted
  obtain ⟨none, noneOf⟩ := count_unclaimed (backed.unclaimed absent)
  have unopened : market.books.accounts.find? (newBountyEscrow world) = Option.none :=
    Table.insert_fresh (insertAccount_ok made.account).1
  have owner : publisher ≠ newBountyEscrow world :=
    subject_not_escrow (grounded.identity made.known) (subject_apart ⟨_, rfl⟩)
  have paidIn : creditTotal books (newBountyEscrow world) = offer.budgetMinor := by
    rw [credit_appended made.posted.appended]
    show creditTotal opened (newBountyEscrow world) + _ = _
    rw [credit_congr (insertAccount_ok made.account).2, credit_unposted unopened]
    simp [entry]
  have held : balance books (newBountyEscrow world) = offer.budgetMinor := by
    have empty := balance_opened made.account
    rw [made.posted.appended.transfer_effect rfl rfl]
    show balance opened (newBountyEscrow world) + _ - _ = _
    rw [show balance opened (newBountyEscrow world) = 0 from empty]
    simp [entry, owner]
  have positive := made.positive
  constructor
  · exact paidIn
  · exact positive.1
  · intro _
    show balance books (newBountyEscrow world) =
      offer.budgetMinor - (claimCount market (newListingId world) : Int) * offer.rewardMinor
    rw [held, none]
    simp
  · intro ended
    have isOpen : (newBounty world offer publisher).state ≠ .closed := by
      unfold newBounty
      split <;> simp
    exact absurd ended isOpen
  · show 0 ≤ balance books (newBountyEscrow world)
    rw [held]
    exact positive.2.1.le
  · show claimCount market (newListingId world) ≤ offer.maxClaims
    rw [none]
    exact Nat.zero_le _
  · intro claimant
    show claimantCount market (newListingId world) claimant ≤ _
    rw [noneOf]
    exact Nat.zero_le _

theorem BountyOpened.found
    (made : BountyOpened terms world market offer publisher opened books receipt bounties)
    {id : String} {posting : Posting} (stored : market.books.postings.find? id = some posting) :
    books.postings.find? id = some posting := by
  apply made.posted.appended.found
  rw [← (insertAccount_ok made.account).2] at stored
  exact stored

theorem BountyOpened.kept
    (made : BountyOpened terms world market offer publisher opened books receipt bounties)
    {listingId : String} {row : Bounty} (found : market.bounties.find? listingId = some row) :
    bounties.find? listingId = some row := by
  rw [Table.find?_insert made.inserted, if_neg]
  · exact found
  · rintro rfl
    rw [Table.insert_fresh made.inserted] at found
    cases found

theorem BountyOpened.backed
    (made : BountyOpened terms world market offer publisher opened books receipt bounties)
    (grounded : Grounded market) (backed : Backed market) :
    Backed { market with books := books, bounties := bounties } where
  holds := by
    intro row member
    rcases (Table.mem_insert made.inserted row).mp member with old | rfl
    · exact (backed.holds row old).frame (made.untouched grounded old) rfl fun _ => rfl
    · exact made.holds grounded backed
  paid := by
    intro row member
    apply (backed.paid row member).frame
    · exact fun listing found => ⟨listing, made.kept found, rfl⟩
    · exact fun _ => made.found
    · exact fun _ found _ => found
  challenges := backed.challenges
  transactions := backed.transactions

theorem BountyOpened.carried
    (made : BountyOpened terms world market offer publisher opened books receipt bounties)
    (grounded : Grounded market) :
    Carried market { market with books := books, bounties := bounties } where
  bounties := by
    intro row member
    exact ⟨row, BountyLater.same (made.kept ((Table.mem_iff_find? _ row).mp member))
      fun _ => ⟨made.untouched grounded member, rfl⟩⟩
  claims := fun row member => (Table.mem_iff_find? _ row).mp member
  spent := fun row member _ => (Table.mem_iff_find? _ row).mp member

end Opening

/-! Topping up, pausing, resuming and closing. -/

section Publisher

variable {world : World} {request : BountyRequest} {row : Bounty} {amount : Int} {books : Books}
  {receipt : Posting}

theorem toppedUp_rewritten (grounded : Grounded market)
    (read : publisherRow market request = .ok row)
    (posted : Ordinary market (topUpEntry world request.request row amount) books receipt)
    (state : BountyState) :
    Rewritten market
      { market with
        books := books
        bounties := market.bounties.modify row.listingId (topped row amount state) }
      row (topped row amount state) where
  current := (publisherRow_ok read).1
  isOpen := (publisherRow_ok read).2
  keeps := fun _ => rfl
  bounties := rfl
  postings := fun _ _ => posted.appended.found
  untouched := by
    intro other member different
    have isRow := Table.find?_mem (publisherRow_ok read).1
    apply posted.appended.apart
    · have owner := grounded.publishers row isRow
      simpa [topUpEntry, entry] using grounded.passes (Or.inl owner) member
    · simpa [topUpEntry, entry] using grounded.other_bounty isRow member different

theorem toppedState_open (isOpen : row.state ≠ .closed) : toppedState market row ≠ .closed := by
  unfold toppedState
  split
  · simp
  · exact isOpen

theorem toppedUp_holds (grounded : Grounded market) (backed : Backed market)
    (read : publisherRow market request = .ok row)
    (posted : Ordinary market (topUpEntry world request.request row amount) books receipt)
    {state : BountyState} (stays : state ≠ .closed) :
    BountyHolds
      { market with
        books := books
        bounties := market.bounties.modify row.listingId (topped row amount state) }
      (topped row amount state row) := by
  obtain ⟨found, isOpen⟩ := publisherRow_ok read
  have member := Table.find?_mem found
  have holds := backed.holds row member
  have apart := subject_not_escrow (grounded.publishers row member) (grounded.bountyEscrows row member)
  have paidIn : creditTotal books row.escrowSubject = row.budgetMinor + amount := by
    rw [credit_appended posted.appended, holds.paidIn]
    simp [topUpEntry, entry]
  have held : balance books row.escrowSubject =
      balance market.books row.escrowSubject + amount := by
    rw [posted.appended.transfer_effect rfl rfl]
    simp [topUpEntry, entry, apart]
  have positive : 0 < amount := posted.appended.cleared.positive
  have unspent := holds.unspent isOpen
  have solvent := holds.solvent
  constructor
  · exact paidIn
  · exact holds.reward
  · intro _
    show balance books row.escrowSubject =
      row.budgetMinor + amount - (claimCount market row.listingId : Int) * row.rewardMinor
    omega
  · exact fun ended => absurd ended stays
  · show 0 ≤ balance books row.escrowSubject
    omega
  · exact holds.capped
  · exact holds.limited

/-- A pause or a resumption moves no money. -/
theorem changed_rewritten (read : publisherRow market request = .ok row) (state : BountyState)
    (reason : Option PauseReason) :
    Rewritten market
      { market with bounties := market.bounties.modify row.listingId (setBounty state reason) }
      row (setBounty state reason) where
  current := (publisherRow_ok read).1
  isOpen := (publisherRow_ok read).2
  keeps := fun _ => rfl
  bounties := rfl
  postings := fun _ _ found => found
  untouched := fun _ _ _ => rfl

theorem changed_holds (backed : Backed market) (read : publisherRow market request = .ok row)
    {state : BountyState} (stays : state ≠ .closed) (reason : Option PauseReason) :
    BountyHolds
      { market with bounties := market.bounties.modify row.listingId (setBounty state reason) }
      (setBounty state reason row) := by
  obtain ⟨found, isOpen⟩ := publisherRow_ok read
  have holds := backed.holds row (Table.find?_mem found)
  constructor
  · exact holds.paidIn
  · exact holds.reward
  · exact fun _ => holds.unspent isOpen
  · exact fun ended => absurd ended stays
  · exact holds.solvent
  · exact holds.capped
  · exact holds.limited

theorem closed_rewritten (grounded : Grounded market) (read : publisherRow market request = .ok row)
    (returned : Returned market
      (closeEntry world request.request row (balance market.books row.escrowSubject)) books) :
    Rewritten market
      { market with
        books := books
        bounties := market.bounties.modify row.listingId (setBounty .closed none) }
      row (setBounty .closed none) where
  current := (publisherRow_ok read).1
  isOpen := (publisherRow_ok read).2
  keeps := fun _ => rfl
  bounties := rfl
  postings := fun _ _ => returned.found
  untouched := by
    intro other member different
    cases returned with
    | empty zero => rfl
    | posted done =>
        have isRow := Table.find?_mem (publisherRow_ok read).1
        have owner := grounded.publishers row isRow
        apply done.appended.apart
        · simpa [closeEntry, entry] using grounded.other_bounty isRow member different
        · simpa [closeEntry, entry] using grounded.passes (Or.inl owner) member

theorem closed_holds (grounded : Grounded market) (backed : Backed market)
    (read : publisherRow market request = .ok row)
    (returned : Returned market
      (closeEntry world request.request row (balance market.books row.escrowSubject)) books) :
    BountyHolds
      { market with
        books := books
        bounties := market.bounties.modify row.listingId (setBounty .closed none) }
      (setBounty .closed none row) := by
  obtain ⟨found, isOpen⟩ := publisherRow_ok read
  have member := Table.find?_mem found
  have holds := backed.holds row member
  have apart := subject_not_escrow (grounded.publishers row member) (grounded.bountyEscrows row member)
  have settled : creditTotal books row.escrowSubject = row.budgetMinor ∧
      balance books row.escrowSubject = 0 := by
    cases returned with
    | empty zero => exact ⟨holds.paidIn, zero⟩
    | posted done =>
        constructor
        · rw [credit_appended done.appended, holds.paidIn]
          simp [closeEntry, entry, apart]
        · rw [done.appended.transfer_effect rfl rfl]
          simp [closeEntry, entry, apart]
  constructor
  · exact settled.1
  · exact holds.reward
  · exact fun isOpen => absurd rfl isOpen
  · exact fun _ => settled.2
  · exact settled.2.ge
  · exact holds.capped
  · exact holds.limited

end Publisher

/-! Claiming. -/

theorem ready_ok {world : World} {row : Bounty} {claimant : String}
    (passed : ready world market row claimant = .ok ()) :
    row.state ≠ .closed ∧ claimCount market row.listingId < row.maxClaims ∧
      claimantCount market row.listingId claimant < row.claimLimitPerSubject ∧
      row.rewardMinor ≤ balance market.books row.escrowSubject := by
  simp only [ready, Program.except_bind_ok, require_ok] at passed
  obtain ⟨_, active, _, _, _, _, _, _, _, _, _, count, _, limit, funds⟩ := passed
  exact ⟨by simp [active], count, limit, funds⟩

/-- What a claim leaves of the states of its bounty. -/
def setPaused : Option PauseReason → Bounty → Bounty
  | none => fun row => row
  | some reason => setBounty .paused (some reason)

theorem pausedBy_modify (bounties : Table Bounty.listingId) (listing : Bounty)
    (reason : Option PauseReason) :
    pausedBy bounties listing reason = bounties.modify listing.listingId (setPaused reason) := by
  cases reason with
  | none => exact (Table.modify_self bounties listing.listingId).symm
  | some reason => rfl

theorem setPaused_published (reason : Option PauseReason) (row : Bounty) :
    (setPaused reason row).published = row.published := by
  cases reason <;> rfl

theorem setPaused_budget (reason : Option PauseReason) (row : Bounty) :
    (setPaused reason row).budgetMinor = row.budgetMinor := by
  cases reason <;> rfl

theorem setPaused_open {reason : Option PauseReason} {row : Bounty} (isOpen : row.state ≠ .closed) :
    (setPaused reason row).state ≠ .closed := by
  cases reason with
  | none => exact isOpen
  | some reason => simp [setPaused, setBounty]

section Claiming

variable {world : World} {request : ClaimRequest} {row : Challenge} {listing : Bounty}
  {books : Books} {receipt : Posting} {claims : Table Claim.id}

/-- A bounty row after the claim, and the state it stands in. -/
def afterClaim (market : State) (world : World) (row : Challenge) (listing : Bounty)
    (books : Books) (claims : Table Claim.id) : Bounty → Bounty :=
  setPaused (exhausted
    { market with
      books := books
      claims := claims
      challenges := market.challenges.modify row.id (setConsumed world.now) } listing)

theorem Claimed.rewritten (grounded : Grounded market)
    (made : Claimed terms world market request row listing books receipt claims) :
    Rewritten market (market.claimed world row listing books claims) listing
      (afterClaim market world row listing books claims) := by
  obtain ⟨_, ⟨found, _⟩, isReady⟩ := readClaim_ok made.read
  constructor
  · exact found
  · exact (ready_ok isReady).1
  · exact setPaused_published _
  · exact pausedBy_modify _ _ _
  · exact fun _ _ => made.posted.appended.found
  · intro other member different
    have claimant := grounded.identity made.claimant
    apply made.posted.appended.apart
    · have isListing := Table.find?_mem found
      simpa [claimEntry, entry] using grounded.other_bounty isListing member different
    · simpa [claimEntry, entry] using grounded.passes (Or.inl claimant) member

theorem Claimed.counted
    (made : Claimed terms world market request row listing books receipt claims)
    (listingId : String) :
    claimCount (market.claimed world row listing books claims) listingId =
      claimCount market listingId + if listing.listingId = listingId then 1 else 0 := by
  show (claims.rows.filter _).length = _
  rw [Table.insert_rows made.inserted, List.filter_append, List.length_append, claimCount]
  by_cases own : listing.listingId = listingId <;> simp [claimRow, own]

theorem Claimed.counted_of
    (made : Claimed terms world market request row listing books receipt claims)
    (listingId claimant : String) :
    claimantCount (market.claimed world row listing books claims) listingId claimant =
      claimantCount market listingId claimant +
        if listing.listingId = listingId ∧ row.claimant = claimant then 1 else 0 := by
  show (claims.rows.filter _).length = _
  rw [Table.insert_rows made.inserted, List.filter_append, List.length_append, claimantCount]
  by_cases own : listing.listingId = listingId <;> by_cases who : row.claimant = claimant <;>
    simp [claimRow, own, who]

/-- The reward leaves the escrow once, and the new claim is the one that is counted. -/
theorem Claimed.holds (grounded : Grounded market) (backed : Backed market)
    (made : Claimed terms world market request row listing books receipt claims) :
    BountyHolds (market.claimed world row listing books claims)
      (afterClaim market world row listing books claims listing) := by
  obtain ⟨_, ⟨found, _⟩, isReady⟩ := readClaim_ok made.read
  obtain ⟨isOpen, room, limit, funds⟩ := ready_ok isReady
  have member := Table.find?_mem found
  have holds := backed.holds listing member
  have rewritten := made.rewritten grounded
  obtain ⟨sameId, sameEscrow, sameReward, sameMax, sameLimit⟩ :=
    published_terms (rewritten.keeps listing)
  have sameBudget : (afterClaim market world row listing books claims listing).budgetMinor =
      listing.budgetMinor := setPaused_budget _ _
  have apart : row.claimant ≠ listing.escrowSubject :=
    subject_not_escrow (grounded.identity made.claimant) (grounded.bountyEscrows listing member)
  have paidIn : creditTotal books listing.escrowSubject = listing.budgetMinor := by
    rw [credit_appended made.posted.appended, holds.paidIn]
    simp [claimEntry, entry, apart]
  have held : balance books listing.escrowSubject =
      balance market.books listing.escrowSubject - listing.rewardMinor := by
    rw [made.posted.appended.transfer_effect rfl rfl]
    simp [claimEntry, entry, apart]
  have counted := made.counted listing.listingId
  rw [if_pos rfl] at counted
  constructor
  · rw [sameEscrow, sameBudget]
    exact paidIn
  · rw [sameReward]
    exact holds.reward
  · intro _
    rw [sameEscrow, sameBudget, sameId, sameReward, counted]
    show balance books listing.escrowSubject = _
    rw [held, holds.unspent isOpen]
    push_cast
    ring
  · exact fun ended => absurd ended (setPaused_open isOpen)
  · rw [sameEscrow]
    show 0 ≤ balance books listing.escrowSubject
    omega
  · rw [sameId, sameMax, counted]
    exact room
  · intro claimant
    rw [sameId, sameLimit, made.counted_of]
    by_cases who : row.claimant = claimant
    · rw [if_pos ⟨rfl, who⟩, ← who]
      exact limit
    · rw [if_neg fun both => who both.2]
      exact holds.limited claimant

theorem Claimed.spends
    (made : Claimed terms world market request row listing books receipt claims) :
    ∃ challenge, (market.claimed world row listing books claims).challenges.find? row.id =
        some challenge ∧ challenge.consumedAt ≠ none ∧ challenge.claimant = row.claimant ∧
      challenge.listingId = listing.listingId := by
  obtain ⟨⟨found, _⟩, ⟨_, named⟩, _⟩ := readClaim_ok made.read
  refine ⟨setConsumed world.now row, ?_, by simp [setConsumed], rfl, named⟩
  show (market.challenges.modify row.id (setConsumed world.now)).find? row.id = _
  have keeps : ∀ other : Challenge, (setConsumed world.now other).id = other.id := fun _ => rfl
  rw [Table.find?_modify_self _ _ _ keeps, found]
  rfl

/-- A challenge that is spent is not the one that the claim spends. -/
theorem Claimed.unspent
    (made : Claimed terms world market request row listing books receipt claims) {id : String}
    {challenge : Challenge} (found : market.challenges.find? id = some challenge)
    (consumed : challenge.consumedAt ≠ none) :
    (market.claimed world row listing books claims).challenges.find? id = some challenge := by
  obtain ⟨⟨stored, fresh⟩, _⟩ := readClaim_ok made.read
  have different : id ≠ row.id := by
    rintro rfl
    rw [Option.some.inj (found.symm.trans stored)] at consumed
    exact consumed fresh
  show (market.challenges.modify row.id (setConsumed world.now)).find? id = _
  rw [Table.find?_modify_ne _ _ different]
  exact found

theorem Claimed.paid (grounded : Grounded market)
    (made : Claimed terms world market request row listing books receipt claims) :
    ClaimPaid (market.claimed world row listing books claims)
      (claimRow world listing request row receipt) := by
  obtain ⟨_, ⟨found, _⟩, _⟩ := readClaim_ok made.read
  obtain ⟨later, stored, same⟩ := (made.rewritten grounded).found found
  obtain ⟨_, sameEscrow, sameReward, _⟩ := published_terms same
  constructor
  · refine ⟨later, stored, sameReward.symm, ?_⟩
    show (books.postings.find? receipt.transactionId).map legs = _
    obtain ⟨transactionId, sequence, shape⟩ := made.posted.appended.shape
    rw [made.posted.appended.stored, sameEscrow, sameReward, shape]
    rfl
  · exact made.spends

theorem Claimed.backed (grounded : Grounded market) (backed : Backed market)
    (made : Claimed terms world market request row listing books receipt claims) :
    Backed (market.claimed world row listing books claims) := by
  have rewritten := made.rewritten grounded
  have rows : claims.rows = market.claims.rows ++ [claimRow world listing request row receipt] :=
    Table.insert_rows made.inserted
  constructor
  · intro other member
    rcases rewritten.cases member with ⟨old, different⟩ | rfl
    · apply (backed.holds other old).frame (rewritten.untouched other old different)
      · rw [made.counted, if_neg fun same => different same.symm]
        exact Nat.add_zero _
      · intro claimant
        rw [made.counted_of, if_neg fun both => different both.1.symm]
        exact Nat.add_zero _
    · exact made.holds grounded backed
  · intro claim member
    rcases (Table.mem_insert made.inserted claim).mp member with old | rfl
    · apply (backed.paid claim old).frame
      · exact fun _ => rewritten.found
      · exact rewritten.postings _
      · exact fun _ => made.unspent
    · exact made.paid grounded
  · show (claims.rows.map Claim.challengeId).Nodup
    rw [rows, List.map_append, List.nodup_append]
    refine ⟨backed.challenges, List.nodup_singleton _, ?_⟩
    intro left inLeft right inRight same
    obtain ⟨other, member, rfl⟩ := List.mem_map.mp inLeft
    exact (made.once other member).1 (same.trans (List.mem_singleton.mp inRight))
  · show (claims.rows.map Claim.transactionId).Nodup
    rw [rows, List.map_append, List.nodup_append]
    refine ⟨backed.transactions, List.nodup_singleton _, ?_⟩
    intro left inLeft right inRight same
    obtain ⟨other, member, rfl⟩ := List.mem_map.mp inLeft
    exact (made.once other member).2 (same.trans (List.mem_singleton.mp inRight))

theorem Claimed.carried (grounded : Grounded market)
    (made : Claimed terms world market request row listing books receipt claims) :
    Carried market (market.claimed world row listing books claims) := by
  apply (made.rewritten grounded).carried (setPaused_budget _ _).ge
  · intro listingId different
    rw [made.counted, if_neg fun same => different same.symm]
    exact Nat.add_zero _
  · intro claim member
    show claims.find? claim.id = some claim
    apply (Table.mem_iff_find? _ claim).mp
    exact (Table.mem_insert made.inserted claim).mpr (Or.inl member)
  · exact fun challenge member => made.unspent ((Table.mem_iff_find? _ challenge).mp member)

end Claiming

/-! Challenges. -/

theorem challenge_kept {row : Challenge} {challenges : Table Challenge.id}
    (inserted : market.challenges.insert row = some challenges) {id : String} {old : Challenge}
    (found : market.challenges.find? id = some old) : challenges.find? id = some old := by
  rw [Table.find?_insert inserted, if_neg]
  · exact found
  · rintro rfl
    rw [Table.insert_fresh inserted] at found
    cases found

theorem challenged_backed (backed : Backed market) {row : Challenge}
    {challenges : Table Challenge.id} (inserted : market.challenges.insert row = some challenges) :
    Backed { market with challenges := challenges } where
  holds := fun row member => (backed.holds row member).frame rfl rfl fun _ => rfl
  paid := by
    intro claim member
    apply (backed.paid claim member).frame
    · exact fun listing found => ⟨listing, found, rfl⟩
    · exact fun _ found => found
    · exact fun _ found _ => challenge_kept inserted found
  challenges := backed.challenges
  transactions := backed.transactions

theorem challenged_carried {row : Challenge} {challenges : Table Challenge.id}
    (inserted : market.challenges.insert row = some challenges) :
    Carried market { market with challenges := challenges } where
  bounties := fun row member =>
    ⟨row, BountyLater.same ((Table.mem_iff_find? _ row).mp member) fun _ => ⟨rfl, rfl⟩⟩
  claims := (Carried.refl market).claims
  spent := fun challenge member _ =>
    challenge_kept inserted ((Table.mem_iff_find? _ challenge).mp member)

/-! Every move. -/

/-- What one step has to keep: where the accounts belong, and what backs the bounties. -/
structure Kept (market next : State) : Prop where
  backed : Backed next
  carried : Carried market next

theorem Bypassed.kept (bypassed : Bypassed market next) (backed : Backed market) :
    Kept market next :=
  ⟨bypassed.backed backed, bypassed.carried⟩

theorem issued_bypasses (grounded : Grounded market) {world : World} {action : IssueAction}
    {amount : Int} {books : Books} {receipt : Posting}
    (read : issueRecipient market action = .ok ())
    (appended : Appended (identity market) (issueEntry world action amount) market.books books
      receipt) : Bypassed market { market with books := books } where
  bounties := rfl
  challenges := rfl
  claims := rfl
  postings := fun _ _ => appended.found
  untouched := by
    intro row member
    obtain ⟨sender, recipient⟩ := issue_apart grounded read (grounded.bountyEscrows row member)
    exact appended.apart sender recipient

theorem money_kept (grounded : Grounded market) (backed : Backed market)
    (move : MoneyMove terms client market next) : Kept market next := by
  cases move with
  | opened asked made => exact ⟨made.backed grounded backed, made.carried grounded⟩
  | @toppedUp world request amount row books receipt asked read posted =>
      have stays : toppedState { market with books := books } row ≠ .closed :=
        toppedState_open (publisherRow_ok read).2
      have rewritten := toppedUp_rewritten grounded read posted
        (toppedState { market with books := books } row)
      have positive : 0 < amount := posted.appended.cleared.positive
      constructor
      · exact rewritten.backed backed rfl rfl (toppedUp_holds grounded backed read posted stays)
      · apply rewritten.carried_quiet _ rfl rfl
        show row.budgetMinor ≤ row.budgetMinor + amount
        omega
  | changed read state stays reason =>
      have rewritten := changed_rewritten read state reason
      constructor
      · exact rewritten.backed backed rfl rfl (changed_holds backed read stays reason)
      · exact rewritten.carried_quiet (le_refl _) rfl rfl
  | closed asked read returned =>
      have rewritten := closed_rewritten grounded read returned
      constructor
      · exact rewritten.backed backed rfl rfl (closed_holds grounded backed read returned)
      · exact rewritten.carried_quiet (le_refl _) rfl rfl
  | challenged claimant unspent inserted =>
      exact ⟨challenged_backed backed inserted, challenged_carried inserted⟩
  | claimed asked made => exact ⟨made.backed grounded backed, made.carried grounded⟩
  | transferred asked isSender isRecipient known posted =>
      have bypassed := posted.bypasses grounded isSender isRecipient
        (grounded.identity known.1) (grounded.identity known.2)
      exact bypassed.kept backed
  | issued read appended => exact (issued_bypasses grounded read appended).kept backed

theorem move_kept (grounded : Grounded market) (backed : Backed market)
    (move : Move terms client market next) : Kept market next := by
  cases move with
  | order move => exact (order_bypasses grounded move).kept backed
  | dispute move =>
      have aside := case_aside move
      exact (Bypassed.quiet aside.books aside.bounties aside.challenges aside.claims).kept backed
  | money move => exact money_kept grounded backed move
  | authority extended =>
      apply Bypassed.kept _ backed
      exact Bypassed.quiet rfl rfl rfl rfl
  | activated grown =>
      apply Bypassed.kept _ backed
      exact Bypassed.quiet rfl rfl rfl rfl
  | restored published =>
      apply Bypassed.kept _ backed
      exact Bypassed.quiet rfl rfl rfl rfl
  | revised agreed resource content owner stored others =>
      apply Bypassed.kept _ backed
      exact Bypassed.quiet rfl rfl rfl rfl

/-! Whole runs. -/

theorem backed_empty : Backed State.empty := by
  constructor <;> simp [State.empty, Table.empty]

/-- The induction over the moves carries that the accounts are grounded. -/
theorem moves_kept (moves : Moves terms client market next) (grounded : Grounded market)
    (backed : Backed market) : Grounded next ∧ Kept market next := by
  induction moves with
  | refl => exact ⟨grounded, backed, Carried.refl market⟩
  | tail earlier move ih =>
      obtain ⟨groundedHere, kept⟩ := ih
      have further := move_kept groundedHere kept.backed move
      exact ⟨grounded_move groundedHere move, further.backed, kept.carried.trans further.carried⟩

theorem run_backed (terms : Terms) (steps : List (World × Op)) :
    Grounded (run terms steps) ∧ Backed (run terms steps) := by
  have moves : Moves terms Client.any State.empty (run terms steps) := run_moves_any
  obtain ⟨grounded, kept⟩ := moves_kept moves grounded_empty backed_empty
  exact ⟨grounded, kept.backed⟩

/-- Bounties are solvent after every run of the whole market, and no longer run takes
anything back from a paid claim, touches a closed bounty or changes the terms of one. -/
theorem bounties_solvent (terms : Terms) (early later : List (World × Op)) :
    Backed (run terms early) ∧ Carried (run terms early) (run terms (early ++ later)) := by
  obtain ⟨grounded, backed⟩ := run_backed terms early
  have moves : Moves terms Client.any (run terms early) (run terms (early ++ later)) := by
    rw [run, run, Run.run_append]
    exact run_moves_any
  exact ⟨backed, (moves_kept moves grounded backed).2.carried⟩

end MsgServer.Market
