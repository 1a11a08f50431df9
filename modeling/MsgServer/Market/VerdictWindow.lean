import MsgServer.Market.Verdicts

/-!
The writer and the checker of decisions agree. `vote` computes the deadlines, the quorum and
the panel of a decision when it is made; `validate_decision` recomputes them when it is carried
out. Here: a decision on record passes at every time in its window, and only there, as long as
the panel, the rationale and the authority of its voters stand.
-/

namespace MsgServer.Market

open Library Ledger

variable {terms : Terms} {market : State}

/-- What outside the case may keep a decision from being carried out. -/
structure Standing (terms : Terms) (world : World) (market : State) (row : Case) (body : Decision) :
    Prop where
  panel : panelValid terms market row = true
  rationale : verifyRationale terms world market row body.proposal = .ok ()
  voters : ∀ voter ∈ body.voters, ∀ vote,
    market.votes.find? (row.id, row.round, voter) = some vote →
    verifyVote terms world market row vote = .ok ()

/-- The loop over the voters, for the votes that are found under their names. -/
theorem castTimes_iff {world : World} {row : Case} {body : Decision} {votes : List Vote}
    (found : ∀ vote ∈ votes,
      market.votes.find? (row.id, row.round, vote.arbitrator) = some vote)
    (same : ∀ vote ∈ votes, vote.proposal = body.proposal) (times : List Nat) :
    castTimes terms world market row body (votes.map Vote.arbitrator) = .ok times ↔
      (∀ vote ∈ votes, verifyVote terms world market row vote = .ok ()) ∧
        times = votes.map Vote.castAt := by
  induction votes generalizing times with
  | nil =>
      simp only [List.map_nil, castTimes, Except.ok.injEq, List.not_mem_nil, false_imp_iff,
        implies_true, true_and]
      exact eq_comm
  | cons vote rest ih =>
      have tail := ih (fun other member => found other (List.mem_cons_of_mem _ member))
        fun other member => same other (List.mem_cons_of_mem _ member)
      have head : ∀ time, castTime terms world market row body vote.arbitrator = .ok time ↔
          verifyVote terms world market row vote = .ok () ∧ time = vote.castAt := by
        intro time
        have stored := found vote List.mem_cons_self
        have proposed := same vote List.mem_cons_self
        simp only [castTime, Program.except_bind_ok, requireRow_ok, stored, require_ok,
          Option.some.injEq, Program.except_pure, Except.ok.injEq]
        constructor
        · rintro ⟨_, rfl, _, _, _, verified, rfl⟩
          exact ⟨verified, rfl⟩
        · rintro ⟨verified, rfl⟩
          exact ⟨vote, rfl, (), proposed, (), verified, rfl⟩
      simp only [List.map_cons, castTimes, Program.except_bind_ok, head, tail, Program.except_pure,
        Except.ok.injEq, List.mem_cons, forall_eq_or_imp]
      constructor
      · rintro ⟨_, ⟨verified, rfl⟩, _, ⟨others, rfl⟩, rfl⟩
        exact ⟨⟨verified, others⟩, rfl⟩
      · rintro ⟨⟨verified, others⟩, rfl⟩
        exact ⟨_, ⟨verified, rfl⟩, _, ⟨others, rfl⟩, rfl⟩

theorem latest_lt {times : List Nat} {bound : Nat} (positive : 0 < bound)
    (early : ∀ time ∈ times, time < bound) : latest times < bound := by
  induction times with
  | nil => exact positive
  | cons time rest ih =>
      have head := early time List.mem_cons_self
      have tail := ih fun other member => early other (List.mem_cons_of_mem _ member)
      show max time (latest rest) < bound
      omega

theorem satOn_panel {row : Case} {member : String} (sat : SatOn row row.round member) :
    member ∈ row.panel := by
  obtain ⟨panel, found, inside⟩ := sat
  simpa [Case.panel, found] using inside

/-- A decided case with its order and its decision. -/
structure Ruled (terms : Terms) (market : State) (row : Case) (order : Order) (stored : DecisionRow) :
    Prop where
  current : CurrentCase market row
  state : row.state = .decided
  owned : market.orders.find? row.orderId = some order
  disputed : order.state = .disputed
  decided : market.decisions.find? (row.id, row.round) = some stored
  live : stored.revoked = false
  stands : DecisionStands terms market stored.body
  proposed : Proposed market row order stored.body

theorem Judged.ruled (judged : Judged terms market) {row : Case} (member : row ∈ market.cases.rows)
    (state : row.state = .decided) : ∃ order stored, Ruled terms market row order stored := by
  have stands := judged.cases row member
  obtain ⟨order, stored, found, decided, live, proposed⟩ := stands.decided state
  obtain ⟨same, again, _, _, disputed, _⟩ := stands.order
  rw [found] at again
  cases again
  exact ⟨order, stored,
    { current := (Table.mem_iff_find? _ row).mp member
      state := state
      owned := found
      disputed := disputed (by simp [state])
      decided := decided
      live := live
      stands := judged.decisions stored (Table.find?_mem decided)
      proposed := proposed }⟩

section Ruling

variable {row : Case} {order : Order} {stored : DecisionRow}

theorem Ruled.keyed (ruled : Ruled terms market row order stored) :
    stored.body.caseId = row.id ∧ stored.body.round = row.round := by
  have named : stored.key = (row.id, row.round) := Table.find?_key ruled.decided
  exact ⟨congrArg Prod.fst named, congrArg Prod.snd named⟩

/-- The votes behind the decision, with what each says. -/
theorem Ruled.votes (ruled : Ruled terms market row order stored) :
    ∃ votes : List Vote, votes.map Vote.arbitrator = stored.body.voters ∧
      (∀ vote ∈ votes, market.votes.find? (row.id, row.round, vote.arbitrator) = some vote) ∧
      (∀ vote ∈ votes, vote.proposal = stored.body.proposal) ∧
      stored.body.notBefore = latest (votes.map Vote.castAt) + appealDelay row := by
  obtain ⟨votes, voters, found, since⟩ := ruled.proposed.cast
  obtain ⟨caseId, round⟩ := ruled.keyed
  refine ⟨votes, voters, found, ?_, since⟩
  intro vote member
  have listed : vote.arbitrator ∈ stored.body.voters := by
    rw [← voters]
    exact List.mem_map_of_mem member
  obtain ⟨other, isOther, same⟩ := ruled.stands.votes vote.arbitrator listed
  rw [caseId, round, found vote member] at isOther
  cases isOther
  exact same

/-- Under an accepted policy the window of a decision is not empty. -/
theorem Ruled.window (ruled : Ruled terms market row order stored) (judged : Judged terms market)
    {policy : DisputePolicy} (accepted : validatePolicy row.policy = .ok policy) :
    stored.body.notBefore < stored.body.expiresAt := by
  simp only [validatePolicy, Program.except_bind_ok, require_ok] at accepted
  obtain ⟨_, _, _, spans, _, sizes, _, appeals, _⟩ := accepted
  obtain ⟨votes, voters, found, _, since⟩ := ruled.votes
  have quorum : stored.body.voters.length = row.policy.quorum := by
    obtain ⟨heard, isCase, _, _, quorum, _⟩ := ruled.stands.heard
    rw [ruled.keyed.1, ruled.current] at isCase
    cases isCase
    exact quorum
  have intime : ∀ vote ∈ votes, vote.castAt < row.roundDeadline := by
    intro vote member
    have stored := found vote member
    have key : vote.key = (row.id, row.round, vote.arbitrator) := Table.find?_key stored
    obtain ⟨seat, isSeat, _, _, early⟩ := (judged.votes vote (Table.find?_mem stored)).seat
    rw [show vote.caseId = row.id from congrArg Prod.fst key, ruled.current] at isSeat
    cases isSeat
    rw [show vote.round = row.round from congrArg (fun k => k.2.1) key] at early
    exact early
  have someone : 0 < votes.length := by
    have same : votes.length = stored.body.voters.length := by rw [← voters, List.length_map]
    omega
  have positive : 0 < row.roundDeadline :=
    Nat.zero_lt_of_lt (intime _ (List.getElem_mem someone))
  have last : latest (votes.map Vote.castAt) < row.roundDeadline := by
    apply latest_lt positive
    intro time member
    obtain ⟨vote, isVote, rfl⟩ := List.mem_map.mp member
    exact intime vote isVote
  have endsAt : stored.body.expiresAt =
      row.roundDeadline + row.policy.decisionLifetimeSeconds := by
    have valid := ruled.proposed.valid
    simp only [proposalValid, Program.except_bind_ok, require_ok] at valid
    obtain ⟨_, base, _⟩ := valid
    rw [ruled.proposed.terms.2.2.2]
    exact congrArg ProposalBase.expiresAt base
  rw [since, endsAt]
  have lifetime : 60 ≤ row.policy.decisionLifetimeSeconds := spans.2.2.2.1.1
  have delay : appealDelay row < row.policy.decisionLifetimeSeconds := by
    unfold appealDelay
    split
    · rename_i appealable
      exact appeals appealable.2
    · exact Nat.zero_lt_of_lt lifetime
  omega

theorem Ruled.validates (ruled : Ruled terms market row order stored) (judged : Judged terms market)
    (world : World) (now : Nat) :
    validateDecision terms world market order stored.body now = .ok () ↔
      (stored.body.notBefore ≤ now ∧ now < stored.body.expiresAt) ∧
        Standing terms world market row stored.body := by
  obtain ⟨votes, voters, found, same, since⟩ := ruled.votes
  obtain ⟨caseId, round⟩ := ruled.keyed
  have orderId : row.orderId = order.id := (Table.find?_key ruled.owned).symm
  have byId : decisionById market stored.body.id = some stored := by
    have member := Table.find?_mem ruled.decided
    cases located : decisionById market stored.body.id with
    | none =>
        exact absurd rfl (decisionById_none located stored member)
    | some other =>
        have isOther : other ∈ market.decisions.rows := List.mem_of_find?_eq_some located
        have named : other.body.id = stored.body.id := by
          simpa using List.find?_some located
        rw [judged.distinct other isOther stored member named]
  have heard : readCase market stored.body.caseId = .ok row := by
    rw [caseId]
    simp only [readCase, requireRow_ok]
    exact ruled.current
  have stands : decisionStands market order stored.body = .ok row := by
    simp only [decisionStands, Program.except_bind_ok, requireRow_ok, require_ok, byId,
      Option.filter_eq_some_iff, Bool.and_eq_true, Bool.not_eq_true', beq_iff_eq]
    exact ⟨stored, ⟨rfl, ruled.live, rfl⟩, row, heard, (),
      ⟨orderId, round.symm, ruled.state, ruled.disputed⟩, rfl⟩
  have panel : decisionQuorum row stored.body = .ok () := by
    obtain ⟨other, isOther, _, _, quorum, seated⟩ := ruled.stands.heard
    rw [caseId, ruled.current] at isOther
    cases isOther
    simp only [decisionQuorum, require_ok]
    refine ⟨quorum, ruled.stands.distinct, fun voter member => satOn_panel ?_⟩
    rw [← round]
    exact seated voter member
  have times : ∀ times,
      castTimes terms world market row stored.body (votes.map Vote.arbitrator) = .ok times ↔
        (∀ vote ∈ votes, verifyVote terms world market row vote = .ok ()) ∧
          times = votes.map Vote.castAt := castTimes_iff found same
  rw [voters] at times
  simp only [validateDecision, decisionWindow, Program.except_bind_ok, require_ok, stands,
    Except.ok.injEq]
  constructor
  · rintro ⟨_, rfl, _, _, _, ⟨_, _, _, alive, since⟩, _, valid, _, _, _, rationale, _, _, _,
      counted, _⟩
    obtain ⟨verified, _⟩ := (times _).mp counted
    refine ⟨⟨since, alive⟩, valid, rationale, ?_⟩
    intro voter member vote isVote
    rw [← voters] at member
    obtain ⟨listed, inside, rfl⟩ := List.mem_map.mp member
    rw [found listed inside] at isVote
    cases isVote
    exact verified vote inside
  · rintro ⟨⟨opened, alive⟩, standing⟩
    have proposed := ruled.proposed
    refine ⟨row, rfl, (), proposed.valid, (), ⟨(), ⟨ruled.stands.proposal.2.1, proposed.terms.1⟩,
      (), alive, opened⟩, (), standing.panel, (), ⟨proposed.terms.2.1, proposed.terms.2.2.1⟩, (),
      standing.rationale, (), panel, votes.map Vote.castAt,
      (times _).mpr ⟨?_, rfl⟩, since, proposed.terms.2.2.2⟩
    intro vote member
    apply standing.voters vote.arbitrator _ vote (found vote member)
    rw [← voters]
    exact List.mem_map_of_mem member

end Ruling

/-- A decided case has its decision on record, unrevoked; under an accepted policy its window is
not empty, and the check before money moves passes exactly at the times of the window at which
the panel, the rationale and the voters stand. -/
def Executable (terms : Terms) (market : State) (row : Case) : Prop :=
  row.state = .decided → ∃ order stored,
    market.orders.find? row.orderId = some order ∧
    market.decisions.find? (row.id, row.round) = some stored ∧ stored.revoked = false ∧
    (∀ policy, validatePolicy row.policy = .ok policy →
      stored.body.notBefore < stored.body.expiresAt) ∧
    ∀ world now, validateDecision terms world market order stored.body now = .ok () ↔
      (stored.body.notBefore ≤ now ∧ now < stored.body.expiresAt) ∧
        Standing terms world market row stored.body

/-- In every reachable state of the market every decision can be carried out in its window. -/
theorem decisions_executable (terms : Terms) (steps : List (World × Op)) :
    (run terms steps).cases.rows.Forall (Executable terms (run terms steps)) := by
  rw [List.forall_iff_forall_mem]
  intro row member state
  have start : Moves terms Client.any State.empty (run terms steps) := run_moves_any
  have judged := (moves_judged start judged_empty).2
  obtain ⟨order, stored, ruled⟩ := judged.ruled member state
  exact ⟨order, stored, ruled.owned, ruled.decided, ruled.live,
    fun _ accepted => ruled.window judged accepted, ruled.validates judged⟩

end MsgServer.Market
