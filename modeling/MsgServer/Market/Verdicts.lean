import MsgServer.Market.Holding
import MsgServer.Market.Outcomes

/-!
Arbitration over whole runs of the market: who may have decided a case, which decision may
move money, and that an appealed or a revoked decision never does. The argument follows the
three records of a case: its row, the votes and the decisions of its rounds.
-/

namespace MsgServer.Market

open Library Ledger

variable {terms : Terms} {client : Client} {market next : State}

/-! Panels. -/

/-- A member of the panel recorded for a round. -/
def SatOn (row : Case) (round : Nat) (member : String) : Prop :=
  ∃ panel, lookup row.panels round = some panel ∧ member ∈ panel

/-- One panel for each round so far; no member is a party, and none sits twice. -/
structure Panelled (row : Case) : Prop where
  rounds : (row.round = 0 ∧ ∃ first, row.panels = [(0, first)]) ∨
    (row.round = 1 ∧ ∃ first second, row.panels = [(1, second), (0, first)])
  parties : ∀ round member, SatOn row round member →
    member ∈ row.policy.candidates ∧ member ≠ row.buyer ∧ member ≠ row.seller
  apart : ∀ member, SatOn row 1 member → ¬ SatOn row 0 member

theorem roleStands_unconflicted {candidate : String} {row : Case}
    (stands : roleStands market candidate row = true) :
    candidate ≠ row.buyer ∧ candidate ≠ row.seller := by
  unfold roleStands at stands
  split at stands
  · simp only [conflicted, Bool.and_eq_true, Bool.not_eq_true', Bool.or_eq_false_iff,
      beq_eq_false_iff_ne] at stands
    exact ⟨stands.2.1.1.1, stands.2.1.1.2⟩
  · cases stands

theorem panelFor_member {row : Case} {round : Nat} {candidate : String}
    (drawn : candidate ∈ panelFor terms market row round) :
    candidate ∈ row.policy.candidates ∧ candidate ≠ row.buyer ∧ candidate ≠ row.seller ∧
      candidate ∉ previousPanel row round := by
  have sorted := List.mem_of_mem_take drawn
  have chosen := (List.perm_insertionSort _ _).mem_iff.mp sorted
  obtain ⟨listed, passes⟩ := List.mem_filter.mp chosen
  simp only [memberValid, Bool.and_eq_true, decide_eq_true_eq] at passes
  obtain ⟨unseated, stands, _⟩ := passes
  obtain ⟨buyer, seller⟩ := roleStands_unconflicted stands
  exact ⟨listed, buyer, seller, unseated⟩

theorem panel_satOn {row : Case} {member : String} (seated : member ∈ row.panel) :
    SatOn row row.round member := by
  cases found : lookup row.panels row.round with
  | none => simp [Case.panel, found] at seated
  | some panel => exact ⟨panel, found, by simpa [Case.panel, found] using seated⟩

theorem newCase_panelled {locked : Contract} {order : Order} {world : World} {actor : String}
    {reason : Reason} {row : Case}
    (drawn : newCase terms world market locked order actor reason = .ok row) : Panelled row := by
  unfold newCase at drawn
  split at drawn
  · rename_i policy epochs agreed
    cases drawn
    constructor
    · exact Or.inl ⟨rfl, _, rfl⟩
    · rintro round member ⟨panel, found, inside⟩
      by_cases first : round = 0
      · subst first
        simp only [withState, seated, lookup, List.find?_cons, beq_self_eq_true, Option.map_some,
          Option.some.injEq] at found
        subst found
        obtain ⟨listed, buyer, seller, _⟩ := panelFor_member inside
        exact ⟨listed, buyer, seller⟩
      · have other : ((0 : Nat) == round) = false := beq_false_of_ne fun same => first same.symm
        simp [withState, seated, lookup, other] at found
    · rintro member ⟨panel, found, _⟩
      simp [withState, seated, lookup] at found
  · cases drawn

theorem newCase_shape {locked : Contract} {order : Order} {world : World} {actor : String}
    {reason : Reason} {row : Case}
    (drawn : newCase terms world market locked order actor reason = .ok row) :
    row.orderId = order.id ∧ row.buyer = order.buyer ∧ row.seller = order.seller ∧
      (row.state = .open ∨ row.state = .held) := by
  unfold newCase at drawn
  split at drawn
  · cases drawn
    refine ⟨rfl, rfl, rfl, ?_⟩
    unfold withState
    split
    · exact Or.inl rfl
    · exact Or.inr rfl
  · cases drawn

/-- The second panel is drawn without the members of the first. -/
theorem appealed_panelled {world : World} {row : Case} (panelled : Panelled row)
    (first : row.round = 0) :
    Panelled (withState terms market (appealed terms world market row)) := by
  obtain ⟨_, panel, single⟩ : row.round = 0 ∧ ∃ first, row.panels = [(0, first)] := by
    rcases panelled.rounds with early | ⟨late, _⟩
    · exact early
    · rw [first] at late
      cases late
  have earlier : ∀ member, SatOn (withState terms market (appealed terms world market row)) 0 member →
      SatOn row 0 member := by
    rintro member ⟨seats, found, sat⟩
    simp only [withState, appealed, lookup, List.find?_cons] at found
    exact ⟨seats, found, sat⟩
  have later : ∀ member, SatOn (withState terms market (appealed terms world market row)) 1 member →
      member ∈ panelFor terms market row 1 := by
    rintro member ⟨seats, found, sat⟩
    simp only [withState, appealed, lookup, List.find?_cons, beq_self_eq_true, Option.map_some,
      Option.some.injEq] at found
    rw [found]
    exact sat
  constructor
  · right
    refine ⟨rfl, panel, panelFor terms market row 1, ?_⟩
    simp [withState, appealed, single]
  · rintro round member sat
    by_cases second : round = 1
    · subst second
      obtain ⟨listed, buyer, seller, _⟩ := panelFor_member (later member sat)
      exact ⟨listed, buyer, seller⟩
    · obtain ⟨seats, found, inside⟩ := sat
      apply panelled.parties round member
      refine ⟨seats, ?_, inside⟩
      have other : ((1 : Nat) == round) = false := beq_false_of_ne fun same => second same.symm
      simpa [withState, appealed, lookup, other] using found
  · intro member sat before
    obtain ⟨_, _, _, unseated⟩ := panelFor_member (later member sat)
    obtain ⟨seats, found, inside⟩ := earlier member before
    apply unseated
    simpa [previousPanel, found] using inside

/-! What the rows of a case say of each other. -/

/-- A settlement made for a decision: the decision of the case's last round, never revoked,
within its window, for the refund it names. -/
structure Executed (market : State) (fact : Settlement) (stored : DecisionRow) (row : Case) :
    Prop where
  decided : market.decisions.find? stored.key = some stored
  named : fact.decisionId = some stored.body.id
  live : stored.revoked = false
  heard : market.cases.find? stored.body.caseId = some row
  order : row.orderId = fact.orderId
  round : row.round = stored.body.round
  state : row.state = .executed
  refund : fact.refundMinor = stored.body.refundMinor
  window : stored.body.notBefore ≤ fact.recordedAt ∧ fact.recordedAt < stored.body.expiresAt

structure VoteStands (market : State) (vote : Vote) : Prop where
  seat : ∃ row, market.cases.find? vote.caseId = some row ∧ vote.round ≤ row.round ∧
    SatOn row vote.round vote.arbitrator ∧
    vote.castAt < (lookup row.roundDeadlines vote.round).getD 0
  proposal : vote.proposal.caseId = vote.caseId ∧ vote.proposal.round = vote.round

/-- A decision is the proposal of a quorum of members of its round's panel, each of whom
has voted for it. -/
structure DecisionStands (terms : Terms) (market : State) (body : Decision) : Prop where
  heard : ∃ row, market.cases.find? body.caseId = some row ∧ row.orderId = body.orderId ∧
    body.round ≤ row.round ∧ body.voters.length = row.policy.quorum ∧
    ∀ voter ∈ body.voters, SatOn row body.round voter
  distinct : body.voters.Nodup
  votes : ∀ voter ∈ body.voters, ∃ vote,
    market.votes.find? (body.caseId, body.round, voter) = some vote ∧ vote.proposal = body.proposal
  proposal : body.id = terms.decisionId body.proposal ∧
    body.refundMinor = body.proposal.refundMinor ∧ body.proposal.caseId = body.caseId ∧
    body.proposal.round = body.round

/-- What a decision that may be carried out has been written from: a valid proposal, and the
votes of its voters with the times they were cast. -/
structure Proposed (market : State) (row : Case) (order : Order) (body : Decision) : Prop where
  valid : proposalValid row body.proposal order.totalPriceMinor = .ok ()
  terms : body.policyDigest = row.policyDigest ∧ body.rationaleRef = body.proposal.rationaleRef ∧
    body.rationaleDigest = body.proposal.rationaleDigest ∧
    body.expiresAt = body.proposal.expiresAt
  cast : ∃ votes : List Vote, votes.map Vote.arbitrator = body.voters ∧
    (∀ vote ∈ votes, market.votes.find? (row.id, row.round, vote.arbitrator) = some vote) ∧
    body.notBefore = latest (votes.map Vote.castAt) + appealDelay row

/-- A case that is not carried out keeps its order disputed. -/
structure CaseStands (market : State) (row : Case) : Prop where
  panelled : Panelled row
  order : ∃ order, market.orders.find? row.orderId = some order ∧ order.buyer = row.buyer ∧
    order.seller = row.seller ∧ (row.state ≠ .executed → order.state = .disputed) ∧
    (row.state = .executed → order.state.terminal = true)
  pending : row.state = .open → market.decisions.find? (row.id, row.round) = none
  decided : row.state = .decided → ∃ order stored,
    market.orders.find? row.orderId = some order ∧
    market.decisions.find? (row.id, row.round) = some stored ∧ stored.revoked = false ∧
    Proposed market row order stored.body
  executed : row.state = .executed → ∃ fact stored,
    market.settlements.find? row.orderId = some fact ∧ Executed market fact stored row

structure Judged (terms : Terms) (market : State) : Prop where
  cases : ∀ row ∈ market.cases.rows, CaseStands market row
  single : ∀ left ∈ market.cases.rows, ∀ right ∈ market.cases.rows,
    left.orderId = right.orderId → left = right
  votes : ∀ vote ∈ market.votes.rows, VoteStands market vote
  decisions : ∀ stored ∈ market.decisions.rows, DecisionStands terms market stored.body
  distinct : ∀ left ∈ market.decisions.rows, ∀ right ∈ market.decisions.rows,
    left.body.id = right.body.id → left = right
  executed : ∀ fact ∈ market.settlements.rows, fact.decisionId ≠ none →
    ∃ stored row, Executed market fact stored row

/-! What no later step takes back. -/

/-- A case only moves on: its terms and the panels drawn stay, and a carried out case is
left alone. -/
structure CaseLater (row later : Case) : Prop where
  fixed : later.id = row.id ∧ later.orderId = row.orderId ∧ later.buyer = row.buyer ∧
    later.seller = row.seller ∧ later.policy = row.policy
  round : row.round ≤ later.round
  seats : ∀ round ≤ row.round, lookup later.panels round = lookup row.panels round ∧
    lookup later.roundDeadlines round = lookup row.roundDeadlines round
  executed : row.state = .executed → later = row

structure DecisionLater (stored later : DecisionRow) : Prop where
  body : later.body = stored.body
  revoked : stored.revoked = true → later.revoked = true

structure Heard (early late : State) : Prop where
  cases : ∀ row ∈ early.cases.rows, ∃ later, late.cases.find? row.id = some later ∧
    CaseLater row later
  votes : ∀ key vote, early.votes.find? key = some vote → late.votes.find? key = some vote
  decisions : ∀ key stored, early.decisions.find? key = some stored →
    ∃ later, late.decisions.find? key = some later ∧ DecisionLater stored later
  settlements : ∀ id fact, early.settlements.find? id = some fact →
    late.settlements.find? id = some fact

theorem CaseLater.refl (row : Case) : CaseLater row row :=
  ⟨⟨rfl, rfl, rfl, rfl, rfl⟩, le_refl _, fun _ _ => ⟨rfl, rfl⟩, fun _ => rfl⟩

theorem CaseLater.trans {first second third : Case} (left : CaseLater first second)
    (right : CaseLater second third) : CaseLater first third where
  fixed := by
    obtain ⟨id, order, buyer, seller, policy⟩ := left.fixed
    obtain ⟨id', order', buyer', seller', policy'⟩ := right.fixed
    exact ⟨id'.trans id, order'.trans order, buyer'.trans buyer, seller'.trans seller,
      policy'.trans policy⟩
  round := left.round.trans right.round
  seats := by
    intro round bound
    obtain ⟨panel, deadline⟩ := left.seats round bound
    obtain ⟨panel', deadline'⟩ := right.seats round (bound.trans left.round)
    exact ⟨panel'.trans panel, deadline'.trans deadline⟩
  executed := by
    intro ended
    have same := left.executed ended
    rw [same] at right
    exact right.executed ended

theorem Heard.refl (market : State) : Heard market market where
  cases := fun row member => ⟨row, (Table.mem_iff_find? _ row).mp member, CaseLater.refl row⟩
  votes := fun _ _ found => found
  decisions := fun _ stored found => ⟨stored, found, rfl, id⟩
  settlements := fun _ _ found => found

theorem Heard.trans {third : State} (left : Heard market next) (right : Heard next third) :
    Heard market third where
  cases := by
    intro row member
    obtain ⟨middle, found, later⟩ := left.cases row member
    obtain ⟨last, stored, further⟩ := right.cases middle (Table.find?_mem found)
    rw [later.fixed.1] at stored
    exact ⟨last, stored, later.trans further⟩
  votes := fun key vote found => right.votes key vote (left.votes key vote found)
  decisions := by
    intro key stored found
    obtain ⟨middle, kept, later⟩ := left.decisions key stored found
    obtain ⟨last, again, further⟩ := right.decisions key middle kept
    exact ⟨last, again, further.body.trans later.body,
      fun gone => further.revoked (later.revoked gone)⟩
  settlements := fun id fact found => right.settlements id fact (left.settlements id fact found)

theorem Heard.case {row : Case} (heard : Heard market next) {id : String}
    (found : market.cases.find? id = some row) :
    ∃ later, next.cases.find? id = some later ∧ CaseLater row later := by
  have named : row.id = id := Table.find?_key found
  obtain ⟨later, stored, moved⟩ := heard.cases row (Table.find?_mem found)
  exact ⟨later, named ▸ stored, moved⟩

theorem CaseLater.satOn {row later : Case} (moved : CaseLater row later) {round : Nat}
    (bound : round ≤ row.round) {member : String} (sat : SatOn row round member) :
    SatOn later round member := by
  obtain ⟨panel, found, inside⟩ := sat
  exact ⟨panel, (moved.seats round bound).1.trans found, inside⟩

theorem VoteStands.later {vote : Vote} (stands : VoteStands market vote)
    (heard : Heard market next) : VoteStands next vote where
  seat := by
    obtain ⟨row, found, bound, sat, intime⟩ := stands.seat
    obtain ⟨later, stored, moved⟩ := heard.case found
    refine ⟨later, stored, bound.trans moved.round, moved.satOn bound sat, ?_⟩
    rw [(moved.seats _ bound).2]
    exact intime
  proposal := stands.proposal

theorem DecisionStands.later {body : Decision} (stands : DecisionStands terms market body)
    (heard : Heard market next) : DecisionStands terms next body where
  heard := by
    obtain ⟨row, found, order, bound, quorum, seated⟩ := stands.heard
    obtain ⟨later, stored, moved⟩ := heard.case found
    refine ⟨later, stored, moved.fixed.2.1.trans order, bound.trans moved.round, ?_, ?_⟩
    · rw [moved.fixed.2.2.2.2]
      exact quorum
    · exact fun voter member => moved.satOn bound (seated voter member)
  distinct := stands.distinct
  votes := by
    intro voter member
    obtain ⟨vote, found, same⟩ := stands.votes voter member
    exact ⟨vote, heard.votes _ _ found, same⟩
  proposal := stands.proposal

/-- An executed decision stays as it is when its own row does. -/
theorem Executed.later {fact : Settlement} {stored : DecisionRow} {row : Case}
    (executed : Executed market fact stored row) (heard : Heard market next)
    (same : next.decisions.find? stored.key = some stored) : Executed next fact stored row where
  decided := same
  named := executed.named
  live := executed.live
  heard := by
    obtain ⟨later, found, moved⟩ := heard.case executed.heard
    rw [moved.executed executed.state] at found
    exact found
  order := executed.order
  round := executed.round
  state := executed.state
  refund := executed.refund
  window := executed.window

/-- What a case relies on in its order: while it is disputed or ended, nothing but the
settlement of the case changes it. -/
def OrderRests (market next : State) (id : String) : Prop :=
  ∀ order, market.orders.find? id = some order →
    order.state = .disputed ∨ order.state.terminal = true →
    ∃ later, next.orders.find? id = some later ∧ later.state = order.state ∧
      later.fixed = order.fixed

theorem OrderRests.same {id : String} (orders : next.orders.find? id = market.orders.find? id) :
    OrderRests market next id :=
  fun order found _ => ⟨order, orders.trans found, rfl, rfl⟩

/-- A settlement made for a decision has its decision under the key of its case. -/
theorem Executed.key {fact : Settlement} {stored : DecisionRow} {row : Case}
    (executed : Executed market fact stored row) : stored.key = (row.id, row.round) := by
  have named : row.id = stored.body.caseId := Table.find?_key executed.heard
  rw [named, executed.round]
  rfl

/-- A case that a step leaves alone. -/
theorem CaseStands.frame {row : Case} (stands : CaseStands market row)
    (heard : Heard market next) (order : OrderRests market next row.orderId)
    (decisions : next.decisions.find? (row.id, row.round) =
      market.decisions.find? (row.id, row.round)) : CaseStands next row where
  panelled := stands.panelled
  order := by
    obtain ⟨old, found, buyer, seller, disputed, ended⟩ := stands.order
    have resting : old.state = .disputed ∨ old.state.terminal = true := by
      by_cases closed : row.state = .executed
      · exact Or.inr (ended closed)
      · exact Or.inl (disputed closed)
    obtain ⟨later, stored, state, fixed⟩ := order old found resting
    refine ⟨later, stored, (congrArg Fixed.buyer fixed).trans buyer,
      (congrArg Fixed.seller fixed).trans seller, ?_, ?_⟩
    · rw [state]
      exact disputed
    · rw [state]
      exact ended
  pending := by
    rw [decisions]
    exact stands.pending
  decided := by
    intro decided
    obtain ⟨old, stored, found, kept, live, proposed⟩ := stands.decided decided
    have disputed : old.state = .disputed := by
      obtain ⟨same, again, _, _, disputed, _⟩ := stands.order
      rw [found] at again
      cases again
      exact disputed (by simp [decided])
    obtain ⟨later, again, _, fixed⟩ := order old found (Or.inl disputed)
    refine ⟨later, stored, again, decisions.trans kept, live, ?_⟩
    constructor
    · rw [show later.totalPriceMinor = old.totalPriceMinor from
        congrArg Fixed.totalPriceMinor fixed]
      exact proposed.valid
    · exact proposed.terms
    · obtain ⟨votes, voters, cast, since⟩ := proposed.cast
      exact ⟨votes, voters, fun vote member => heard.votes _ _ (cast vote member), since⟩
  executed := by
    intro closed
    obtain ⟨fact, stored, found, executed⟩ := stands.executed closed
    refine ⟨fact, stored, heard.settlements _ _ found, executed.later heard ?_⟩
    rw [executed.key, decisions, ← executed.key]
    exact executed.decided

/-! Steps that pass the cases by. -/

structure Aloof (market next : State) : Prop where
  cases : next.cases = market.cases
  votes : next.votes = market.votes
  decisions : next.decisions = market.decisions
  orders : ∀ id, OrderRests market next id
  kept : ∀ id fact, market.settlements.find? id = some fact →
    next.settlements.find? id = some fact
  settlements : ∀ fact ∈ next.settlements.rows,
    fact ∈ market.settlements.rows ∨ fact.decisionId = none

theorem Aloof.heard (aloof : Aloof market next) : Heard market next where
  cases := by
    rw [aloof.cases]
    exact (Heard.refl market).cases
  votes := by
    rw [aloof.votes]
    exact (Heard.refl market).votes
  decisions := by
    rw [aloof.decisions]
    exact (Heard.refl market).decisions
  settlements := aloof.kept

theorem Aloof.judged (aloof : Aloof market next) (judged : Judged terms market) :
    Judged terms next where
  cases := by
    intro row member
    rw [aloof.cases] at member
    apply (judged.cases row member).frame aloof.heard (aloof.orders _)
    rw [aloof.decisions]
  single := by
    rw [aloof.cases]
    exact judged.single
  votes := by
    intro vote member
    rw [aloof.votes] at member
    exact (judged.votes vote member).later aloof.heard
  decisions := by
    intro stored member
    rw [aloof.decisions] at member
    exact (judged.decisions stored member).later aloof.heard
  distinct := by
    rw [aloof.decisions]
    exact judged.distinct
  executed := by
    intro fact member named
    rcases aloof.settlements fact member with old | unnamed
    · obtain ⟨stored, row, executed⟩ := judged.executed fact old named
      refine ⟨stored, row, executed.later aloof.heard ?_⟩
      rw [aloof.decisions]
      exact executed.decided
    · exact absurd unnamed named

theorem Aloof.quiet (cases : next.cases = market.cases) (votes : next.votes = market.votes)
    (decisions : next.decisions = market.decisions) (orders : next.orders = market.orders)
    (settlements : next.settlements = market.settlements) : Aloof market next where
  cases := cases
  votes := votes
  decisions := decisions
  orders := by
    intro id
    apply OrderRests.same
    rw [orders]
  kept := by
    rw [settlements]
    exact fun _ _ found => found
  settlements := by
    rw [settlements]
    exact fun _ member => Or.inl member

/-- A rewrite of an order that is neither disputed nor ended. -/
theorem rests_rewrites {order : Order} {change : Order → Order}
    (rewrites : Rewrites market next order change) (undisputed : order.state ≠ .disputed)
    (pending : order.state.terminal = false) (id : String) : OrderRests market next id := by
  intro other found resting
  by_cases own : id = order.id
  · subst own
    have same : other = order := Option.some.inj (found.symm.trans rewrites.current)
    subst same
    rcases resting with disputed | ended
    · exact absurd disputed undisputed
    · rw [pending] at ended
      cases ended
  · refine ⟨other, ?_, rfl, rfl⟩
    rw [rewrites.orders, Table.find?_modify_ne _ _ own]
    exact found

theorem Aloof.rewrite {order : Order} {change : Order → Order}
    (rewrites : Rewrites market next order change) (undisputed : order.state ≠ .disputed)
    (pending : order.state.terminal = false) (cases : next.cases = market.cases)
    (votes : next.votes = market.votes) (decisions : next.decisions = market.decisions)
    (settlements : next.settlements = market.settlements) : Aloof market next where
  cases := cases
  votes := votes
  decisions := decisions
  orders := rests_rewrites rewrites undisputed pending
  kept := by
    rw [settlements]
    exact fun _ _ found => found
  settlements := by
    rw [settlements]
    exact fun _ member => Or.inl member

theorem Aloof.enter {order : Order} (enters : Enters market next order)
    (cases : next.cases = market.cases) (votes : next.votes = market.votes)
    (decisions : next.decisions = market.decisions) : Aloof market next where
  cases := cases
  votes := votes
  decisions := decisions
  orders := by
    intro id other found _
    have named : other.id = id := Table.find?_key found
    subst named
    exact ⟨other, (enters.known found).2, rfl, rfl⟩
  kept := by
    rw [enters.settlements]
    exact fun _ _ found => found
  settlements := by
    rw [enters.settlements]
    exact fun _ member => Or.inl member

/-! Steps of one case. -/

/-- One case that is not carried out moves on, with its own decisions. -/
structure Reheard (market next : State) (row later : Case) : Prop where
  current : CurrentCase market row
  live : row.state ≠ .executed
  own : next.cases.find? row.id = some later
  others : ∀ id, id ≠ row.id → next.cases.find? id = market.cases.find? id
  moved : CaseLater row later
  orders : ∀ id, id ≠ row.orderId → OrderRests market next id
  votes : ∀ key vote, market.votes.find? key = some vote → next.votes.find? key = some vote
  decisions : ∀ key stored, market.decisions.find? key = some stored →
    ∃ later, next.decisions.find? key = some later ∧ DecisionLater stored later
  apart : ∀ key : String × Nat, key.1 ≠ row.id →
    next.decisions.find? key = market.decisions.find? key
  settlements : ∀ id fact, market.settlements.find? id = some fact →
    next.settlements.find? id = some fact

theorem Reheard.heard {row later : Case} (reheard : Reheard market next row later) :
    Heard market next where
  cases := by
    intro other member
    have found := (Table.mem_iff_find? _ other).mp member
    by_cases own : other.id = row.id
    · have same : other = row := Table.eq_of_key_eq member (Table.find?_mem reheard.current) own
      subst same
      exact ⟨later, reheard.own, reheard.moved⟩
    · exact ⟨other, (reheard.others _ own).trans found, CaseLater.refl other⟩
  votes := reheard.votes
  decisions := reheard.decisions
  settlements := reheard.settlements

/-- The rows after the step: the others as they were, and the case itself. -/
theorem Reheard.cases {row later : Case} (reheard : Reheard market next row later) {other : Case}
    (member : other ∈ next.cases.rows) :
    (other ∈ market.cases.rows ∧ other.id ≠ row.id) ∨ other = later := by
  have found := (Table.mem_iff_find? _ other).mp member
  by_cases own : other.id = row.id
  · right
    rw [own, reheard.own] at found
    exact (Option.some.inj found).symm
  · left
    rw [reheard.others _ own] at found
    exact ⟨Table.find?_mem found, own⟩

/-- An executed decision of before is one of another case. -/
theorem Reheard.executed {row later : Case} (reheard : Reheard market next row later)
    {fact : Settlement} {stored : DecisionRow} {heard : Case}
    (executed : Executed market fact stored heard) : Executed next fact stored heard := by
  apply executed.later reheard.heard
  have different : stored.key.1 ≠ row.id := by
    intro same
    have found := executed.heard
    rw [show stored.body.caseId = row.id from same, reheard.current] at found
    cases found
    exact reheard.live executed.state
  rw [reheard.apart _ different]
  exact executed.decided

theorem Reheard.judged {row later : Case} (reheard : Reheard market next row later)
    (judged : Judged terms market) (own : CaseStands next later)
    (votes : ∀ vote ∈ next.votes.rows, vote ∈ market.votes.rows ∨ VoteStands next vote)
    (decisions : ∀ stored ∈ next.decisions.rows,
      (∃ old ∈ market.decisions.rows, old.body = stored.body) ∨
        DecisionStands terms next stored.body)
    (distinct : ∀ left ∈ next.decisions.rows, ∀ right ∈ next.decisions.rows,
      left.body.id = right.body.id → left = right)
    (facts : ∀ fact ∈ next.settlements.rows, fact ∈ market.settlements.rows ∨
      ∃ stored row, Executed next fact stored row) : Judged terms next where
  cases := by
    intro other member
    rcases reheard.cases member with ⟨old, different⟩ | rfl
    · apply (judged.cases other old).frame reheard.heard
      · apply reheard.orders
        intro same
        have isRow := judged.single other old row (Table.find?_mem reheard.current) same
        exact different (congrArg Case.id isRow)
      · exact reheard.apart _ different
    · exact own
  single := by
    -- The case keeps its order, so two cases of one order would have been two before.
    have before : ∀ other ∈ next.cases.rows, ∃ old ∈ market.cases.rows,
        old.orderId = other.orderId ∧ (old.id = other.id) := by
      intro other member
      rcases reheard.cases member with ⟨old, _⟩ | rfl
      · exact ⟨other, old, rfl, rfl⟩
      · obtain ⟨id, order, _⟩ := reheard.moved.fixed
        exact ⟨row, Table.find?_mem reheard.current, order.symm, id.symm⟩
    intro left inLeft right inRight same
    obtain ⟨oldLeft, wasLeft, leftOrder, leftId⟩ := before left inLeft
    obtain ⟨oldRight, wasRight, rightOrder, rightId⟩ := before right inRight
    have one := judged.single oldLeft wasLeft oldRight wasRight
      (leftOrder.trans (same.trans rightOrder.symm))
    apply Table.eq_of_key_eq inLeft inRight
    rw [← leftId, ← rightId, one]
  votes := by
    intro vote member
    rcases votes vote member with old | new
    · exact (judged.votes vote old).later reheard.heard
    · exact new
  decisions := by
    intro stored member
    rcases decisions stored member with ⟨old, wasThere, same⟩ | new
    · rw [← same]
      exact (judged.decisions old wasThere).later reheard.heard
    · exact new
  distinct := distinct
  executed := by
    intro fact member named
    rcases facts fact member with old | new
    · obtain ⟨stored, heard, executed⟩ := judged.executed fact old named
      exact ⟨stored, heard, reheard.executed executed⟩
    · exact new

/-! Moves of orders. -/

theorem insert_kept {ρ κ : Type} [DecidableEq κ] {key : ρ → κ} {table grown : Table key} {row : ρ}
    (inserted : table.insert row = some grown) {wanted : κ} {old : ρ}
    (found : table.find? wanted = some old) : grown.find? wanted = some old := by
  rw [Table.find?_insert inserted, if_neg]
  · exact found
  · rintro rfl
    rw [Table.insert_fresh inserted] at found
    cases found

/-- No decision is on record for a case that is not there. -/
theorem Judged.undecided (judged : Judged terms market) {caseId : String}
    (absent : market.cases.find? caseId = none) (round : Nat) :
    market.decisions.find? (caseId, round) = none := by
  by_contra known
  obtain ⟨stored, found⟩ := Option.ne_none_iff_exists'.mp known
  have named : stored.key = (caseId, round) := Table.find?_key found
  obtain ⟨row, heard, _⟩ := (judged.decisions stored (Table.find?_mem found)).heard
  rw [show stored.body.caseId = caseId from congrArg Prod.fst named, absent] at heard
  cases heard

section Opening

variable {order : Order} {row : Case} {cases : Table Case.id}

theorem Disputed.heard (made : Disputed market order row cases) (origin : Origin) (reason : Reason) :
    Heard market (State.turn { market with cases := cases } order .disputed origin reason) where
  cases := fun other member =>
    ⟨other, insert_kept made.inserted ((Table.mem_iff_find? _ other).mp member), CaseLater.refl other⟩
  votes := fun _ _ found => found
  decisions := (Heard.refl market).decisions
  settlements := fun _ _ found => found

theorem Disputed.rests (made : Disputed market order row cases) (origin : Origin) (reason : Reason)
    (id : String) :
    OrderRests market (State.turn { market with cases := cases } order .disputed origin reason) id := by
  apply rests_rewrites (made.rewrites origin reason)
  · rcases made.disputable with state | state <;> simp [state]
  · rcases made.disputable with state | state <;> rw [state] <;> rfl

theorem Disputed.stands (made : Disputed market order row cases) {locked : Contract} {world : World}
    {origin : Origin} {reason : Reason} (judged : Judged terms market)
    (drawn : newCase terms world market locked order origin.actor reason = .ok row) :
    CaseStands (State.turn { market with cases := cases } order .disputed origin reason) row := by
  obtain ⟨named, buyer, seller, state⟩ := newCase_shape drawn
  have undecided := judged.undecided (Table.insert_fresh made.inserted) row.round
  constructor
  · exact newCase_panelled drawn
  · refine ⟨setState .disputed order, ?_, buyer.symm, seller.symm, fun _ => rfl, ?_⟩
    · show (market.orders.modify order.id (setState .disputed)).find? row.orderId = _
      have keeps : ∀ other : Order, (setState .disputed other).id = other.id := fun _ => rfl
      rw [named, Table.find?_modify_self _ _ _ keeps, made.current]
      rfl
    · intro closed
      rcases state with fresh | fresh <;> simp [fresh] at closed
  · exact fun _ => undecided
  · intro decided
    rcases state with fresh | fresh <;> simp [fresh] at decided
  · intro closed
    rcases state with fresh | fresh <;> simp [fresh] at closed

theorem Disputed.judged (made : Disputed market order row cases) {locked : Contract} {world : World}
    {origin : Origin} {reason : Reason} (judged : Judged terms market)
    (drawn : newCase terms world market locked order origin.actor reason = .ok row) :
    Judged terms (State.turn { market with cases := cases } order .disputed origin reason) where
  cases := by
    intro other member
    rcases (Table.mem_insert made.inserted other).mp member with old | rfl
    · exact (judged.cases other old).frame (made.heard origin reason) (made.rests origin reason _) rfl
    · exact made.stands judged drawn
  single := by
    intro left inLeft right inRight same
    rcases (Table.mem_insert made.inserted left).mp inLeft with oldLeft | rfl
    · rcases (Table.mem_insert made.inserted right).mp inRight with oldRight | rfl
      · exact judged.single left oldLeft right oldRight same
      · exact absurd same (made.single left oldLeft)
    · rcases (Table.mem_insert made.inserted right).mp inRight with oldRight | rfl
      · exact absurd same.symm (made.single right oldRight)
      · rfl
  votes := fun vote member => (judged.votes vote member).later (made.heard origin reason)
  decisions := fun stored member => (judged.decisions stored member).later (made.heard origin reason)
  distinct := judged.distinct
  executed := by
    intro fact member named
    obtain ⟨stored, heard, executed⟩ := judged.executed fact member named
    exact ⟨stored, heard, executed.later (made.heard origin reason) executed.decided⟩

end Opening

section Settling

variable {world : World} {order : Order} {locked : Contract} {request : SettleRequest}
  {payout : Payout}

/-- Without a decision only an order outside a dispute is settled. -/
theorem settleAuthority_plain (undecided : request.decision = none)
    (passed : settleAuthority terms world market locked order request = .ok ()) :
    order.state ≠ .disputed := by
  unfold settleAuthority at passed
  split at passed
  · rw [require_ok] at passed
    simp [passed.2.2.1]
  · simp only [undecided] at passed
    split at passed
    · rw [require_ok] at passed
      rcases passed.2 with state | state <;> simp [state]
    · simp only [Program.except_bind_ok, require_ok] at passed
      obtain ⟨_, _, _, accepted, _⟩ := passed
      simp [accepted]

theorem Settled.recorded_kept (made : Settled terms world market order locked request payout)
    {id : String} {fact : Settlement} (found : market.settlements.find? id = some fact) :
    (market.settled order request payout).settlements.find? id = some fact :=
  insert_kept made.recorded found

theorem Settled.facts (made : Settled terms world market order locked request payout)
    {fact : Settlement} (member : fact ∈ (market.settled order request payout).settlements.rows) :
    fact ∈ market.settlements.rows ∨ fact = statement order request payout.receipts
      (deliverySnapshot market order.id) payout.entitlementId :=
  (Table.mem_insert made.recorded fact).mp member

theorem Settled.aloof (made : Settled terms world market order locked request payout)
    (undecided : request.decision = none) : Aloof market (market.settled order request payout) where
  cases := by
    show executed market request.decision = _
    rw [undecided]
    rfl
  votes := rfl
  decisions := rfl
  orders := rests_rewrites made.rewrites (settleAuthority_plain undecided made.authority)
    (funding_open made.funding)
  kept := fun _ _ => made.recorded_kept
  settlements := by
    intro fact member
    rcases made.facts member with old | rfl
    · exact Or.inl old
    · right
      simp [statement, SettleRequest.decisionId, undecided]

/-- What lets a decision move money. -/
structure Carries (market : State) (order : Order) (decision : Decision) (now : Nat)
    (stored : DecisionRow) (row : Case) : Prop where
  decided : market.decisions.find? stored.key = some stored
  body : stored.body = decision
  live : stored.revoked = false
  heard : market.cases.find? decision.caseId = some row
  order : row.orderId = order.id
  round : row.round = decision.round
  state : row.state = .decided
  window : decision.notBefore ≤ now ∧ now < decision.expiresAt

theorem validateDecision_carries {decision : Decision} {now : Nat}
    (valid : validateDecision terms world market order decision now = .ok ()) :
    ∃ stored row, Carries market order decision now stored row := by
  simp only [validateDecision, decisionWindow, Program.except_bind_ok, require_ok] at valid
  obtain ⟨row, stands, _, _, _, ⟨_, _, _, alive, since⟩, _⟩ := valid
  obtain ⟨⟨stored, found, live, same⟩, heard, named, round, state, _⟩ := decisionStands_ok stands
  have member : stored ∈ market.decisions.rows := List.mem_of_find?_eq_some found
  exact ⟨stored, row, (Table.mem_iff_find? _ stored).mp member, same, live, heard, named, round,
    state, since, alive⟩

theorem markExecuted_later {row : Case} (state : row.state = .decided) :
    CaseLater row (markExecuted row) := by
  simp only [markExecuted, state, if_true]
  refine ⟨⟨rfl, rfl, rfl, rfl, rfl⟩, le_refl _, fun _ _ => ⟨rfl, rfl⟩, ?_⟩
  intro closed
  rw [state] at closed
  cases closed

theorem keeps_executed (row : Case) : (markExecuted row).id = row.id := by
  unfold markExecuted
  split <;> rfl

variable {decision : Decision} {stored : DecisionRow} {row : Case}

theorem Settled.reheard (made : Settled terms world market order locked request payout)
    (decided : request.decision = some decision)
    (carries : Carries market order decision request.origin.now stored row) :
    Reheard market (market.settled order request payout) row (markExecuted row) := by
  have cases : (market.settled order request payout).cases =
      market.cases.modify decision.caseId markExecuted := by
    show executed market request.decision = _
    rw [decided]
    rfl
  have named : row.id = decision.caseId := Table.find?_key carries.heard
  constructor
  · rw [CurrentCase, named]
    exact carries.heard
  · simp [carries.state]
  · rw [cases, named, Table.find?_modify_self _ _ _ keeps_executed, carries.heard]
    rfl
  · intro id different
    rw [cases, Table.find?_modify_ne _ _ (by rw [← named]; exact different)]
  · exact markExecuted_later carries.state
  · intro id different
    rw [carries.order] at different
    apply OrderRests.same
    rw [made.rewrites.orders, Table.find?_modify_ne _ _ different]
  · exact fun _ _ found => found
  · exact (Heard.refl market).decisions
  · exact fun _ _ => rfl
  · exact fun _ _ => made.recorded_kept

/-- The settlement for a decision is on record as made for it. -/
theorem Settled.executes (made : Settled terms world market order locked request payout)
    (decided : request.decision = some decision) (refund : request.refundMinor = decision.refundMinor)
    (carries : Carries market order decision request.origin.now stored row) :
    Executed (market.settled order request payout)
      (statement order request payout.receipts (deliverySnapshot market order.id)
        payout.entitlementId) stored (markExecuted row) := by
  have reheard := made.reheard decided carries
  have named : row.id = decision.caseId := Table.find?_key carries.heard
  have shape : markExecuted row = { row with state := .executed } := by
    simp [markExecuted, carries.state]
  constructor
  · exact carries.decided
  · simp [statement, SettleRequest.decisionId, decided, carries.body]
  · exact carries.live
  · rw [carries.body, ← named]
    exact reheard.own
  · rw [shape]
    exact carries.order
  · rw [shape, carries.body]
    exact carries.round
  · rw [shape]
  · rw [carries.body]
    exact refund
  · rw [carries.body]
    exact carries.window

theorem Settled.judged_decision (made : Settled terms world market order locked request payout)
    (judged : Judged terms market) (decided : request.decision = some decision)
    (refund : request.refundMinor = decision.refundMinor)
    (carries : Carries market order decision request.origin.now stored row) :
    Judged terms (market.settled order request payout) := by
  have reheard := made.reheard decided carries
  have executes := made.executes decided refund carries
  have before := judged.cases row (Table.find?_mem reheard.current)
  have shape : markExecuted row = { row with state := .executed } := by
    simp [markExecuted, carries.state]
  apply reheard.judged judged
  · obtain ⟨old, found, buyer, seller, _⟩ := before.order
    have isOrder : old = order := by
      rw [carries.order] at found
      exact Option.some.inj (found.symm.trans made.current)
    subst isOrder
    constructor
    · rw [shape]
      exact ⟨before.panelled.rounds, before.panelled.parties, before.panelled.apart⟩
    · refine ⟨closeOrder old request.origin.now payout.receipts
        (setState (settledState old request.refundMinor) old), ?_, ?_, ?_, ?_, ?_⟩
      · rw [shape, made.rewrites.orders]
        show Table.find? _ row.orderId = _
        rw [carries.order, Table.find?_modify_self _ _ _ made.rewrites.keeps.id, made.current]
        rfl
      · rw [shape]
        exact buyer
      · rw [shape]
        exact seller
      · intro unexecuted
        rw [shape] at unexecuted
        exact absurd rfl unexecuted
      · intro _
        simp only [closeOrder, setState, settledState]
        split <;> rfl
    · rw [shape]
      intro waiting
      cases waiting
    · rw [shape]
      intro waiting
      cases waiting
    · intro _
      refine ⟨_, stored, ?_, executes⟩
      rw [shape]
      show payout.settlements.find? row.orderId = _
      rw [Table.find?_insert made.recorded, if_pos]
      exact carries.order.symm
  · exact fun vote member => Or.inl member
  · exact fun other member => Or.inl ⟨other, member, rfl⟩
  · exact judged.distinct
  · intro fact member
    rcases made.facts member with old | rfl
    · exact Or.inl old
    · exact Or.inr ⟨stored, _, executes⟩

end Settling

theorem order_judged (judged : Judged terms market) (move : OrderMove terms client market next) :
    Heard market next ∧ Judged terms next := by
  have passing : Aloof market next → Heard market next ∧ Judged terms next :=
    fun aloof => ⟨aloof.heard, aloof.judged judged⟩
  cases move with
  | opened opens made => exact passing (Aloof.enter made.enters rfl rfl rfl)
  | scheduled deadlines => exact passing (Aloof.quiet rfl rfl rfl rfl rfl)
  | @retargeted order current target handle =>
      apply passing
      refine ⟨rfl, rfl, rfl, ?_, fun _ _ found => found, fun _ member => Or.inl member⟩
      intro id other found _
      have keeps := keeps_target target
      by_cases own : id = order.id
      · subst own
        refine ⟨{ other with deliveryTarget := target }, ?_, rfl, (keeps other).2⟩
        show (market.orders.modify order.id _).find? order.id = _
        rw [Table.find?_modify_self _ _ _ keeps.id, found]
        rfl
      · refine ⟨other, ?_, rfl, rfl⟩
        show (market.orders.modify order.id _).find? id = _
        rw [Table.find?_modify_ne _ _ own]
        exact found
  | funded asked made =>
      apply passing
      apply Aloof.rewrite made.rewrites _ _ rfl rfl rfl rfl
      · simp [made.created]
      · rw [made.created]
        rfl
  | turned made origin reason =>
      apply passing
      apply Aloof.rewrite (made.rewrites origin reason) _ (turning_open made.turning) rfl rfl rfl rfl
      have turning := made.turning
      rintro disputed
      rw [disputed] at turning
      cases turning
  | disputed made origin reason locked world agreed drawn =>
      exact ⟨made.heard origin reason, made.judged judged drawn⟩
  | dispatched made origin envelopes =>
      apply passing
      apply Aloof.rewrite (made.rewrites origin envelopes) _ _ rfl rfl rfl rfl
      · simp [made.deliverable.1]
      · rw [made.deliverable.1]
        rfl
  | acknowledged orderId stamp stamped => exact passing (Aloof.quiet rfl rfl rfl rfl rfl)
  | @settled world order locked request payout made =>
      cases decided : request.decision with
      | none => exact passing (made.aloof decided)
      | some decision =>
          obtain ⟨_, valid, refund⟩ := decision_disputed decided made.authority
          obtain ⟨stored, row, carries⟩ := validateDecision_carries valid
          have reheard := made.reheard decided carries
          exact ⟨reheard.heard, made.judged_decision judged decided refund carries⟩
  | legacyOpened asked opens made => exact passing (Aloof.enter made.enters rfl rfl rfl)
  | legacyPrepared made now =>
      apply passing
      apply Aloof.rewrite (made.rewrites now) _ _ rfl rfl rfl rfl
      · simp [made.deliverable.1]
      · rw [made.deliverable.1]
        rfl
  | legacySettled asked made =>
      apply passing
      apply Aloof.rewrite made.rewrites _ (branch_open made.branched) rfl rfl rfl rfl
      rcases branch_ok made.branched with ⟨_, _, _, state⟩ | ⟨_, _, _, state, _⟩ <;> simp [state]

/-! Votes and decisions. -/

theorem proposalValid_base {row : Case} {proposal : Proposal} {total : Int}
    (valid : proposalValid row proposal total = .ok ()) :
    proposal.caseId = row.id ∧ proposal.round = row.round := by
  simp only [proposalValid, Program.except_bind_ok, require_ok] at valid
  obtain ⟨_, base, _⟩ := valid
  exact ⟨congrArg ProposalBase.caseId base, congrArg ProposalBase.round base⟩

/-- A step that leaves the cases, the orders and the settlements and adds votes or decisions. -/
theorem voted_judged {world : World} {ballot : Ballot} {row : Case} {cast : Vote}
    {votes : Table Vote.key} (judged : Judged terms market)
    (read : readBallot terms world market ballot = .ok (row, cast))
    (inserted : market.votes.insert cast = some votes) :
    Heard market { market with votes := votes } ∧ Judged terms { market with votes := votes } := by
  have balloted := readBallot_ok read
  have reheard : Reheard market { market with votes := votes } row row :=
    { current := balloted.current
      live := by simp [balloted.isOpen]
      own := balloted.current
      others := fun _ _ => rfl
      moved := CaseLater.refl row
      orders := fun _ _ => OrderRests.same rfl
      votes := fun _ _ => insert_kept inserted
      decisions := (Heard.refl market).decisions
      apart := fun _ _ => rfl
      settlements := fun _ _ found => found }
  have before := judged.cases row (Table.find?_mem balloted.current)
  refine ⟨reheard.heard, reheard.judged judged ?_ ?_ ?_ judged.distinct ?_⟩
  · exact before.frame reheard.heard (OrderRests.same rfl) rfl
  · intro vote member
    rcases (Table.mem_insert inserted vote).mp member with old | rfl
    · exact Or.inl old
    · right
      obtain ⟨actor, shape⟩ := balloted.shape
      obtain ⟨order, _, valid⟩ := balloted.valid
      have base := proposalValid_base valid
      have seat := panel_satOn balloted.member
      subst shape
      exact ⟨⟨row, balloted.current, le_refl _, seat, balloted.intime⟩, base⟩
  · exact fun stored member => Or.inl ⟨stored, member, rfl⟩
  · exact fun fact member => Or.inl member

section Deciding

variable {world : World} {row : Case} {proposal : Proposal} {matching : List Vote}

theorem matchingVotes_ok (counted : matchingVotes terms world market row proposal = .ok matching) :
    matching = market.votes.rows.filter (sameBallot row proposal) := by
  simp only [matchingVotes, Program.except_bind_ok, Program.except_pure, Except.ok.injEq] at counted
  obtain ⟨_, _, rfl⟩ := counted
  rfl

/-- A vote of the quorum is a recorded vote of this round for the proposal. -/
theorem quorumVotes_member (counted : matchingVotes terms world market row proposal = .ok matching)
    {vote : Vote} (member : vote ∈ quorumVotes row matching) :
    vote ∈ market.votes.rows ∧ vote.key = (row.id, row.round, vote.arbitrator) ∧
      vote.proposal = proposal := by
  have sorted := List.mem_of_mem_take member
  have inside := (List.perm_insertionSort _ _).mem_iff.mp sorted
  rw [matchingVotes_ok counted] at inside
  obtain ⟨recorded, same⟩ := List.mem_filter.mp inside
  simp only [sameBallot, Bool.and_eq_true, beq_iff_eq] at same
  obtain ⟨⟨caseId, round⟩, equal⟩ := same
  exact ⟨recorded, by rw [Vote.key, caseId, round], equal⟩

/-- One vote for each member and round: the voters of a quorum are distinct. -/
theorem quorumVotes_distinct
    (counted : matchingVotes terms world market row proposal = .ok matching) :
    ((quorumVotes row matching).map Vote.arbitrator).Nodup := by
  have keys : ((quorumVotes row matching).map Vote.key).Nodup := by
    have recorded : ((market.votes.rows.filter (sameBallot row proposal)).map Vote.key).Nodup :=
      market.votes.unique.sublist (List.filter_sublist.map Vote.key)
    rw [← matchingVotes_ok counted] at recorded
    have sorted := ((List.perm_insertionSort byArbitrator matching).map Vote.key).nodup_iff.mpr recorded
    exact sorted.sublist ((List.take_sublist _ _).map Vote.key)
  have shape : (quorumVotes row matching).map Vote.key =
      ((quorumVotes row matching).map Vote.arbitrator).map fun voter => (row.id, row.round, voter) := by
    rw [List.map_map]
    apply List.map_congr_left
    intro vote member
    exact (quorumVotes_member counted member).2.1
  rw [shape] at keys
  exact List.Nodup.of_map _ keys

theorem quorumVotes_length (quorum : row.policy.quorum ≤ matching.length) :
    (quorumVotes row matching).length = row.policy.quorum := by
  rw [quorumVotes, List.length_take, List.length_insertionSort]
  omega

theorem decisionById_none {id : String} (unnamed : decisionById market id = none) :
    ∀ stored ∈ market.decisions.rows, stored.body.id ≠ id := by
  intro stored member same
  have absent := List.find?_eq_none.mp unnamed stored member
  simp [same] at absent

variable {decisions : Table DecisionRow.key}

/-- The tables after a decision. -/
def decidedState (terms : Terms) (market : State) (row : Case) (proposal : Proposal)
    (matching : List Vote) (decisions : Table DecisionRow.key) : State :=
  { market with
    decisions := decisions
    cases := market.cases.modify row.id
      (setDecided (newDecision terms row proposal matching).notBefore) }

theorem Decided.reheard (made : Decided terms world market row proposal matching decisions) :
    Reheard market (decidedState terms market row proposal matching decisions) row
      (setDecided (newDecision terms row proposal matching).notBefore row) := by
  have keeps : ∀ other, (setDecided (newDecision terms row proposal matching).notBefore other).id =
      other.id := fun _ => rfl
  constructor
  · exact made.current
  · simp [made.isOpen]
  · show (market.cases.modify row.id _).find? row.id = _
    rw [Table.find?_modify_self _ _ _ keeps, made.current]
    rfl
  · intro id different
    exact Table.find?_modify_ne _ _ different
  · refine ⟨⟨rfl, rfl, rfl, rfl, rfl⟩, le_refl _, fun _ _ => ⟨rfl, rfl⟩, ?_⟩
    intro closed
    rw [made.isOpen] at closed
    cases closed
  · exact fun _ _ => OrderRests.same rfl
  · exact fun _ _ found => found
  · exact fun key stored found => ⟨stored, insert_kept made.inserted found, rfl, id⟩
  · intro key different
    show decisions.find? key = _
    rw [Table.find?_insert made.inserted, if_neg]
    rintro rfl
    exact different rfl
  · exact fun _ _ found => found

theorem Decided.stands (made : Decided terms world market row proposal matching decisions)
    (judged : Judged terms market) :
    DecisionStands terms (decidedState terms market row proposal matching decisions)
      (newDecision terms row proposal matching) := by
  obtain ⟨order, _, valid⟩ := made.valid
  constructor
  · refine ⟨_, made.reheard.own, rfl, le_refl _, ?_, ?_⟩
    · show ((quorumVotes row matching).map Vote.arbitrator).length = row.policy.quorum
      rw [List.length_map, quorumVotes_length made.quorum]
    · intro voter member
      obtain ⟨vote, inside, rfl⟩ := List.mem_map.mp member
      obtain ⟨recorded, key, _⟩ := quorumVotes_member made.counted inside
      obtain ⟨seat, found, _, sat, _⟩ := (judged.votes vote recorded).seat
      rw [show vote.caseId = row.id from congrArg Prod.fst key, made.current] at found
      cases found
      rw [show vote.round = row.round from congrArg (fun k => k.2.1) key] at sat
      exact sat
  · exact quorumVotes_distinct made.counted
  · intro voter member
    obtain ⟨vote, inside, rfl⟩ := List.mem_map.mp member
    obtain ⟨recorded, key, same⟩ := quorumVotes_member made.counted inside
    refine ⟨vote, ?_, same⟩
    rw [show ((newDecision terms row proposal matching).caseId,
      (newDecision terms row proposal matching).round, vote.arbitrator) = vote.key from key.symm]
    exact (Table.mem_iff_find? _ vote).mp recorded
  · exact ⟨rfl, rfl, proposalValid_base valid⟩

/-- The decision is written from the proposal and the quorum's votes as they stand. -/
theorem Decided.proposed (made : Decided terms world market row proposal matching decisions)
    {order : Order} (valid : proposalValid row proposal order.totalPriceMinor = .ok ()) :
    Proposed (decidedState terms market row proposal matching decisions)
      (setDecided (newDecision terms row proposal matching).notBefore row) order
      (newDecision terms row proposal matching) where
  valid := valid
  terms := by
    simp only [proposalValid, Program.except_bind_ok, require_ok] at valid
    obtain ⟨_, base, _⟩ := valid
    exact ⟨congrArg ProposalBase.policyDigest base, rfl, rfl, rfl⟩
  cast := by
    refine ⟨quorumVotes row matching, rfl, ?_, rfl⟩
    intro vote member
    obtain ⟨recorded, key, _⟩ := quorumVotes_member made.counted member
    show market.votes.find? (row.id, row.round, vote.arbitrator) = some vote
    rw [← key]
    exact (Table.mem_iff_find? _ vote).mp recorded

theorem decided_judged (judged : Judged terms market)
    (made : Decided terms world market row proposal matching decisions) :
    Heard market (decidedState terms market row proposal matching decisions) ∧
      Judged terms (decidedState terms market row proposal matching decisions) := by
  have reheard := made.reheard
  have before := judged.cases row (Table.find?_mem made.current)
  have fresh := decisionById_none made.unnamed
  have found : (decidedState terms market row proposal matching decisions).decisions.find?
      (row.id, row.round) = some ⟨newDecision terms row proposal matching, false⟩ := by
    show decisions.find? _ = _
    rw [Table.find?_insert made.inserted]
    exact if_pos rfl
  refine ⟨reheard.heard, reheard.judged judged ?_ ?_ ?_ ?_ ?_⟩
  · constructor
    · exact ⟨before.panelled.rounds, before.panelled.parties, before.panelled.apart⟩
    · obtain ⟨order, stored, buyer, seller, disputed, _⟩ := before.order
      refine ⟨order, stored, buyer, seller, fun _ => disputed (by simp [made.isOpen]), ?_⟩
      intro closed
      cases closed
    · intro waiting
      cases waiting
    · intro _
      obtain ⟨order, stored, valid⟩ := made.valid
      exact ⟨order, _, stored, found, rfl, made.proposed valid⟩
    · intro closed
      cases closed
  · exact fun vote member => Or.inl member
  · intro stored member
    rcases (Table.mem_insert made.inserted stored).mp member with old | rfl
    · exact Or.inl ⟨stored, old, rfl⟩
    · exact Or.inr (made.stands judged)
  · intro left inLeft right inRight same
    rcases (Table.mem_insert made.inserted left).mp inLeft with oldLeft | rfl
    · rcases (Table.mem_insert made.inserted right).mp inRight with oldRight | rfl
      · exact judged.distinct left oldLeft right oldRight same
      · exact absurd same (fresh left oldLeft)
    · rcases (Table.mem_insert made.inserted right).mp inRight with oldRight | rfl
      · exact absurd same.symm (fresh right oldRight)
      · rfl
  · exact fun fact member => Or.inl member

end Deciding

/-! Holding, appealing and revoking. -/

theorem setHeld_later {row : Case} (live : row.state ≠ .executed) : CaseLater row (setHeld row) :=
  ⟨⟨rfl, rfl, rfl, rfl, rfl⟩, le_refl _, fun _ _ => ⟨rfl, rfl⟩, fun closed => absurd closed live⟩

/-- A case that is held has nothing left to show but its panels and its order. -/
theorem setHeld_stands {row : Case} (stands : CaseStands market row) (live : row.state ≠ .executed)
    (orders : next.orders = market.orders) : CaseStands next (setHeld row) := by
  constructor
  · exact ⟨stands.panelled.rounds, stands.panelled.parties, stands.panelled.apart⟩
  · obtain ⟨order, stored, buyer, seller, disputed, _⟩ := stands.order
    refine ⟨order, ?_, buyer, seller, fun _ => disputed live, ?_⟩
    · rw [orders]
      exact stored
    · intro closed
      cases closed
  · intro waiting
    cases waiting
  · intro waiting
    cases waiting
  · intro closed
    cases closed

theorem held_judged (judged : Judged terms market) {row : Case} (current : CurrentCase market row)
    (pending : row.state = .open ∨ row.state = .decided) (holds : List Hold) :
    Heard market { market with cases := market.cases.modify row.id setHeld, holds := holds } ∧
      Judged terms { market with cases := market.cases.modify row.id setHeld, holds := holds } := by
  have live : row.state ≠ .executed := by
    rcases pending with state | state <;> simp [state]
  have keeps : ∀ other : Case, (setHeld other).id = other.id := fun _ => rfl
  have reheard : Reheard market
      { market with cases := market.cases.modify row.id setHeld, holds := holds } row
      (setHeld row) :=
    { current := current
      live := live
      own := by
        show (market.cases.modify row.id setHeld).find? row.id = _
        rw [Table.find?_modify_self _ _ _ keeps, current]
        rfl
      others := fun id different => Table.find?_modify_ne _ _ different
      moved := setHeld_later live
      orders := fun _ _ => OrderRests.same rfl
      votes := fun _ _ found => found
      decisions := (Heard.refl market).decisions
      apart := fun _ _ => rfl
      settlements := fun _ _ found => found }
  refine ⟨reheard.heard, reheard.judged judged ?_ ?_ ?_ judged.distinct ?_⟩
  · exact setHeld_stands (judged.cases row (Table.find?_mem current)) live rfl
  · exact fun vote member => Or.inl member
  · exact fun stored member => Or.inl ⟨stored, member, rfl⟩
  · exact fun fact member => Or.inl member

theorem readAppeal_ok {world : World} {request : Request} {caseId : String} {later : Case}
    (read : readAppeal terms world market request caseId = .ok later) :
    ∃ row, CurrentCase market row ∧ row.round = 0 ∧ (row.state = .decided ∨ row.state = .held) ∧
      later = withState terms market (appealed terms world market row) := by
  simp only [readAppeal, Program.except_bind_ok, require_ok, Program.except_pure,
    Except.ok.injEq] at read
  obtain ⟨_, _, row, found, _, ⟨_, first, state⟩, _, _, rfl⟩ := read
  exact ⟨row, (caseFor_ok found).1, first, state, rfl⟩

theorem appealed_later {world : World} {row : Case} (first : row.round = 0)
    (state : row.state = .decided ∨ row.state = .held) :
    CaseLater row (withState terms market (appealed terms world market row)) := by
  refine ⟨⟨rfl, rfl, rfl, rfl, rfl⟩, ?_, ?_, ?_⟩
  · rw [first]
    exact Nat.zero_le _
  · intro round bound
    have early : round = 0 := by omega
    subst early
    exact ⟨rfl, rfl⟩
  · intro closed
    rcases state with state | state <;> rw [state] at closed <;> cases closed

theorem appealed_judged (judged : Judged terms market) {world : World} {request : Request}
    {caseId : String} {later : Case}
    (read : readAppeal terms world market request caseId = .ok later) :
    Heard market { market with cases := market.cases.modify later.id fun _ => later } ∧
      Judged terms { market with cases := market.cases.modify later.id fun _ => later } := by
  obtain ⟨row, current, first, state, rfl⟩ := readAppeal_ok read
  have live : row.state ≠ .executed := by
    rcases state with state | state <;> simp [state]
  have before := judged.cases row (Table.find?_mem current)
  -- A decision of the second round would be one of a round the case has not reached.
  have undecided : market.decisions.find? (row.id, 1) = none := by
    by_contra known
    obtain ⟨stored, found⟩ := Option.ne_none_iff_exists'.mp known
    have named : stored.key = (row.id, 1) := Table.find?_key found
    obtain ⟨heard, isCase, _, bound, _⟩ := (judged.decisions stored (Table.find?_mem found)).heard
    rw [show stored.body.caseId = row.id from congrArg Prod.fst named, current] at isCase
    cases isCase
    rw [show stored.body.round = 1 from congrArg Prod.snd named, first] at bound
    omega
  have reheard : Reheard market
      { market with
        cases := market.cases.modify (withState terms market (appealed terms world market row)).id
          fun _ => withState terms market (appealed terms world market row) }
      row (withState terms market (appealed terms world market row)) :=
    { current := current
      live := live
      own := by
        show (market.cases.modify row.id _).find? row.id = _
        rw [Table.find?_modify, if_pos rfl, current]
        exact congrArg some (Table.rekeyed_of_key rfl)
      others := fun id different => Table.find?_modify_ne _ _ different
      moved := appealed_later first state
      orders := fun _ _ => OrderRests.same rfl
      votes := fun _ _ found => found
      decisions := (Heard.refl market).decisions
      apart := fun _ _ => rfl
      settlements := fun _ _ found => found }
  have drawn : (withState terms market (appealed terms world market row)).state = .open ∨
      (withState terms market (appealed terms world market row)).state = .held := by
    unfold withState
    split
    · exact Or.inl rfl
    · exact Or.inr rfl
  refine ⟨reheard.heard, reheard.judged judged ?_ ?_ ?_ judged.distinct ?_⟩
  · constructor
    · exact appealed_panelled before.panelled first
    · obtain ⟨order, stored, buyer, seller, disputed, _⟩ := before.order
      refine ⟨order, stored, buyer, seller, fun _ => disputed live, ?_⟩
      intro closed
      rcases drawn with fresh | fresh <;> rw [fresh] at closed <;> cases closed
    · exact fun _ => undecided
    · intro decided
      rcases drawn with fresh | fresh <;> rw [fresh] at decided <;> cases decided
    · intro closed
      rcases drawn with fresh | fresh <;> rw [fresh] at closed <;> cases closed
  · exact fun vote member => Or.inl member
  · exact fun stored member => Or.inl ⟨stored, member, rfl⟩
  · exact fun fact member => Or.inl member

theorem readRevocation_ok {request : Request} {caseId decisionId : String} {row : Case}
    (read : readRevocation terms market request caseId decisionId = .ok row) :
    CurrentCase market row ∧ (row.state = .decided ∨ row.state = .held) := by
  simp only [readRevocation, Program.except_bind_ok, require_ok, Program.except_pure,
    Except.ok.injEq] at read
  obtain ⟨_, _, _, found, _, _, _, state, rfl⟩ := read
  exact ⟨(caseFor_ok found).1, state⟩

theorem revoked_judged (judged : Judged terms market) {request : Request}
    {caseId decisionId : String} {row : Case}
    (read : readRevocation terms market request caseId decisionId = .ok row) :
    Heard market
        { market with
          decisions := market.decisions.modify (row.id, row.round) setRevoked
          cases := market.cases.modify row.id setHeld } ∧
      Judged terms
        { market with
          decisions := market.decisions.modify (row.id, row.round) setRevoked
          cases := market.cases.modify row.id setHeld } := by
  obtain ⟨current, state⟩ := readRevocation_ok read
  have live : row.state ≠ .executed := by
    rcases state with state | state <;> simp [state]
  have keeps : ∀ other : Case, (setHeld other).id = other.id := fun _ => rfl
  have keyed : ∀ stored : DecisionRow, (setRevoked stored).key = stored.key := fun _ => rfl
  have reheard : Reheard market
      { market with
        decisions := market.decisions.modify (row.id, row.round) setRevoked
        cases := market.cases.modify row.id setHeld } row (setHeld row) :=
    { current := current
      live := live
      own := by
        show (market.cases.modify row.id setHeld).find? row.id = _
        rw [Table.find?_modify_self _ _ _ keeps, current]
        rfl
      others := fun id different => Table.find?_modify_ne _ _ different
      moved := setHeld_later live
      orders := fun _ _ => OrderRests.same rfl
      votes := fun _ _ found => found
      decisions := by
        intro key stored found
        by_cases own : key = (row.id, row.round)
        · refine ⟨setRevoked stored, ?_, rfl, fun _ => rfl⟩
          show (market.decisions.modify (row.id, row.round) setRevoked).find? key = _
          rw [own, Table.find?_modify_self _ _ _ keyed, ← own, found]
          rfl
        · refine ⟨stored, ?_, rfl, id⟩
          show (market.decisions.modify (row.id, row.round) setRevoked).find? key = _
          rw [Table.find?_modify_ne _ _ own]
          exact found
      apart := by
        intro key different
        exact Table.find?_modify_ne _ _ fun same => different (congrArg Prod.fst same)
      settlements := fun _ _ found => found }
  have earlier : ∀ stored ∈ (market.decisions.modify (row.id, row.round) setRevoked).rows,
      ∃ old ∈ market.decisions.rows, old.body = stored.body ∧ old.key = stored.key := by
    intro stored member
    rcases Table.mem_modify keyed member with ⟨same, _⟩ | ⟨old, found, rfl⟩
    · exact ⟨stored, same, rfl, rfl⟩
    · exact ⟨old, Table.find?_mem found, rfl, rfl⟩
  refine ⟨reheard.heard, reheard.judged judged ?_ ?_ ?_ ?_ ?_⟩
  · exact setHeld_stands (judged.cases row (Table.find?_mem current)) live rfl
  · exact fun vote member => Or.inl member
  · intro stored member
    obtain ⟨old, wasThere, same, _⟩ := earlier stored member
    exact Or.inl ⟨old, wasThere, same⟩
  · intro left inLeft right inRight same
    obtain ⟨oldLeft, wasLeft, leftBody, leftKey⟩ := earlier left inLeft
    obtain ⟨oldRight, wasRight, rightBody, rightKey⟩ := earlier right inRight
    have one := judged.distinct oldLeft wasLeft oldRight wasRight
      (by rw [leftBody, rightBody]; exact same)
    apply Table.eq_of_key_eq inLeft inRight
    rw [← leftKey, ← rightKey, one]
  · exact fun fact member => Or.inl member

theorem case_judged (judged : Judged terms market) (move : CaseMove terms market next) :
    Heard market next ∧ Judged terms next := by
  have passing : Aloof market next → Heard market next ∧ Judged terms next :=
    fun aloof => ⟨aloof.heard, aloof.judged judged⟩
  cases move with
  | voted read inserted => exact voted_judged judged read inserted
  | decided made => exact decided_judged judged made
  | appealed read => exact appealed_judged judged read
  | revoked read => exact revoked_judged judged read
  | held current pending holds => exact held_judged judged current pending holds
  | deposited evidence => exact passing (Aloof.quiet rfl rfl rfl rfl rfl)
  | conflicted conflicts => exact passing (Aloof.quiet rfl rfl rfl rfl rfl)
  | enacted policies => exact passing (Aloof.quiet rfl rfl rfl rfl rfl)
  | appointed roles => exact passing (Aloof.quiet rfl rfl rfl rfl rfl)

/-! Whole runs. -/

theorem move_judged (judged : Judged terms market) (move : Move terms client market next) :
    Heard market next ∧ Judged terms next := by
  have passing : Aloof market next → Heard market next ∧ Judged terms next :=
    fun aloof => ⟨aloof.heard, aloof.judged judged⟩
  cases move with
  | order move => exact order_judged judged move
  | dispute move => exact case_judged judged move
  | money move =>
      have apart := money_apart move
      exact passing (Aloof.quiet apart.cases apart.votes apart.decisions apart.orders
        apart.settlements)
  | authority extended => exact passing (Aloof.quiet rfl rfl rfl rfl rfl)
  | activated grown => exact passing (Aloof.quiet rfl rfl rfl rfl rfl)
  | restored published => exact passing (Aloof.quiet rfl rfl rfl rfl rfl)
  | revised agreed resource content owner stored others =>
      exact passing (Aloof.quiet rfl rfl rfl rfl rfl)

theorem judged_empty : Judged terms State.empty := by
  constructor <;> simp [State.empty, Table.empty]

theorem moves_judged (moves : Moves terms client market next) (judged : Judged terms market) :
    Heard market next ∧ Judged terms next := by
  induction moves with
  | refl => exact ⟨Heard.refl market, judged⟩
  | tail earlier move ih =>
      obtain ⟨heard, here⟩ := ih
      obtain ⟨further, there⟩ := move_judged here move
      exact ⟨heard.trans further, there⟩

/-- A decision that was revoked, or whose case has gone on to another round. -/
def Barred (market : State) (stored : DecisionRow) : Prop :=
  stored.revoked = true ∨
    ∃ row, market.cases.find? stored.body.caseId = some row ∧ row.round ≠ stored.body.round

/-- No settlement of a later state is made for a barred decision. -/
theorem barred_never (judged : Judged terms market) (later : Judged terms next)
    (heard : Heard market next) {stored : DecisionRow} (member : stored ∈ market.decisions.rows)
    (barred : Barred market stored) :
    ∀ fact ∈ next.settlements.rows, fact.decisionId ≠ some stored.body.id := by
  intro fact settled named
  obtain ⟨executed, row, carried⟩ := later.executed fact settled (by simp [named])
  obtain ⟨kept, found, follows⟩ := heard.decisions _ _ ((Table.mem_iff_find? _ stored).mp member)
  have sameId : kept.body.id = executed.body.id := by
    rw [follows.body]
    exact Option.some.inj (named.symm.trans carried.named)
  have same : kept = executed :=
    later.distinct kept (Table.find?_mem found) executed (Table.find?_mem carried.decided) sameId
  subst same
  rcases barred with revoked | ⟨old, isCase, elsewhere⟩
  · have live := carried.live
    rw [follows.revoked revoked] at live
    cases live
  · obtain ⟨before, isBefore, _, bound, _⟩ := (judged.decisions stored member).heard
    rw [isCase] at isBefore
    cases isBefore
    obtain ⟨now, isNow, moved⟩ := heard.case isCase
    have here := carried.heard
    rw [follows.body, isNow] at here
    cases here
    have round := carried.round
    rw [follows.body] at round
    have grown := moved.round
    omega

/-- Arbitration over every run of the market: the records of cases, votes and decisions
agree, nothing in them is taken back, and an appealed or revoked decision never moves money. -/
theorem arbitration_safe (terms : Terms) (early later : List (World × Op)) :
    Judged terms (run terms early) ∧ Heard (run terms early) (run terms (early ++ later)) ∧
      ∀ stored ∈ (run terms early).decisions.rows, Barred (run terms early) stored →
        ∀ fact ∈ (run terms (early ++ later)).settlements.rows,
          fact.decisionId ≠ some stored.body.id := by
  have start : Moves terms Client.any State.empty (run terms early) := run_moves_any
  have judged := (moves_judged start judged_empty).2
  have moves : Moves terms Client.any (run terms early) (run terms (early ++ later)) := by
    rw [run, run, Run.run_append]
    exact run_moves_any
  obtain ⟨heard, there⟩ := moves_judged moves judged
  exact ⟨judged, heard, fun stored member => barred_never judged there heard member⟩

end MsgServer.Market
