import MsgServer.Market.Conservation
import MsgServer.Market.Histories

/-!
What is left behind when the timer cannot carry out a decision. The timer catches the
failure inside its transaction, so it matters that every failure it catches is raised
before the first write of the execution: a failure raised later has another code.
-/

namespace MsgServer.Market

open Library Ledger

variable {terms : Terms} {world : World}

/-- A failure that the timer raises again. -/
def Unheld (failure : Failure) : Prop := failure.code ∉ heldCodes

instance (failure : Failure) : Decidable (Unheld failure) :=
  inferInstanceAs (Decidable (_ ∉ _))

theorem unheld_conflict : Unheld constraintConflict := by decide

theorem accountsCheck_unheld {request : Clearing} {failure : Failure}
    (refused : accountsCheck request = .error failure) : Unheld failure := by
  unfold accountsCheck at refused
  split at refused <;>
    simp only [Program.except_bind_error, require_error] at refused <;>
    rcases refused with ⟨_, rfl⟩ | ⟨_, _, _, rfl⟩ <;> decide

theorem clearingDecision_unheld {request : Clearing} {failure : Failure}
    (refused : clearingDecision request = .error failure) : Unheld failure := by
  simp only [clearingDecision, checkedAmount, Program.except_bind_error, require_error,
    Program.except_pure, reduceCtorEq, and_false, exists_false, or_false] at refused
  rcases refused with ⟨_, rfl⟩ | ⟨_, _, ⟨_, rfl⟩ | ⟨_, _, refused | ⟨_, _, ⟨_, rfl⟩ |
    ⟨_, _, ⟨_, rfl⟩ | ⟨_, _, ⟨_, rfl⟩ | ⟨_, _, ⟨_, rfl⟩ | ⟨_, _, _, rfl⟩⟩⟩⟩⟩⟩⟩
  case inr.inr.inl => exact accountsCheck_unheld refused
  all_goals decide

theorem appendEntry_unheld {subject? : String → Option Subject} {uuid : Nat → String}
    {request : EntryRequest} {books : Books} {failure : Failure}
    (refused : appendEntry subject? uuid request books = .error failure) : Unheld failure := by
  simp only [appendEntry, Program.except_bind_error, require_error, Program.except_pure,
    reduceCtorEq, and_false, exists_false, or_false] at refused
  rcases refused with ⟨_, rfl⟩ | ⟨_, _, refused | ⟨_, _, refused | ⟨_, _, refused | ⟨_, _, refused⟩⟩⟩⟩
  · decide
  · exact clearingDecision_unheld refused
  · exact Conservation.registerSide_error refused ▸ unheld_conflict
  · exact Conservation.registerSide_error refused ▸ unheld_conflict
  · exact Conservation.insertPosting_error refused ▸ unheld_conflict

theorem postTransfer_unheld {subject? : String → Option Subject} {uuid : Nat → String}
    {authority : Bool} {request : EntryRequest} {books : Books} {failure : Failure}
    (refused : postTransfer subject? uuid authority request books = .error failure) :
    Unheld failure := by
  simp only [postTransfer, Program.except_bind_error, require_error] at refused
  rcases refused with ⟨_, rfl⟩ | ⟨_, _, guarded | ⟨_, _, refused⟩⟩
  · decide
  · unfold escrowGuard at guarded
    split at guarded
    · cases guarded
    · obtain ⟨_, rfl⟩ := (require_error _ _ _).mp guarded
      decide
  · exact appendEntry_unheld refused

theorem postLeg_unheld {order : Order} {recipient : String} {amount : Int}
    {request : EntryRequest} {market next : State} {failure : Failure}
    (refused : postLeg world order recipient amount request market = .error failure next) :
    Unheld failure := by
  unfold postLeg at refused
  split at refused
  · exact absurd refused (Program.pure_error _ _ _ _)
  · simp only [postRelease, postEscrowRelease, Program.bind_error, Program.update_error,
      Program.except_bind_error, require_error, Program.pure_error, Program.except_pure,
      reduceCtorEq, and_false, exists_false, or_false] at refused
    rcases refused with ⟨⟨_, rfl⟩ | ⟨_, _, ⟨_, rfl⟩ | ⟨_, _, ⟨_, rfl⟩ | ⟨_, _, refused⟩⟩⟩, _⟩
    · decide
    · decide
    · decide
    · exact postTransfer_unheld refused

theorem transition_unheld {order : Order} {state : OrderState} {origin : Origin}
    {reason : Reason} {market next : State} {failure : Failure} (unfunded : order.state ≠ .funded)
    (refused : transition terms order state origin reason market = .error failure next) :
    Unheld failure := by
  have checked : ∀ failure, transitionCheck terms market order state reason = .error failure →
      Unheld failure := by
    intro failure refused
    simp only [transitionCheck, unfunded, false_and, if_false, require_error] at refused
    obtain ⟨_, rfl⟩ := refused
    decide
  simp only [transition, writable, updateOrderWhere, insertTransition, Program.bind_error,
    read_error, read_ok, Program.write_error, Program.write_ok,
    Program.except_bind_error, require_error, require_ok, requireRow_error, Program.except_pure,
    Program.pure_error, reduceCtorEq, false_and, and_false, exists_false, or_false] at refused
  rcases refused with ⟨⟨_, rfl⟩, _⟩ | ⟨_, _, ⟨_, rfl⟩, ⟨refused, _⟩ | ⟨_, _, _, ⟨_, rfl⟩, _⟩⟩
  · decide
  · exact checked _ refused
  · decide

theorem insertSettlement_unheld {fact : Settlement} {market next : State} {failure : Failure}
    (refused : insertSettlement fact market = .error failure next) : Unheld failure := by
  simp only [insertSettlement, referenced, Program.write_error, Program.except_bind_error,
    require_error, Program.except_pure, reduceCtorEq, and_false, exists_false, or_false] at refused
  rcases refused with ⟨⟨_, rfl⟩ | ⟨_, _, ⟨_, rfl⟩ | ⟨_, _, refused⟩⟩, _⟩
  · decide
  · decide
  · exact insertRow_error refused ▸ unheld_conflict

/-- What a decision that may be carried out says of its order. -/
theorem decision_disputed {market : State} {locked : Contract} {order : Order}
    {request : SettleRequest} {decision : Decision} (decided : request.decision = some decision)
    (passed : settleAuthority terms world market locked order request = .ok ()) :
    locked.version ≠ 5 ∧
      validateDecision terms world market order decision request.origin.now = .ok () ∧
      request.refundMinor = decision.refundMinor := by
  unfold settleAuthority at passed
  split at passed
  · rw [decided, require_ok] at passed
    cases passed.1
  · rename_i version
    simp only [decided, decisionAuthority, Program.except_bind_ok, require_ok] at passed
    obtain ⟨_, valid, amount⟩ := passed
    exact ⟨version, valid, amount⟩

theorem validateDecision_stands {market : State} {order : Order} {decision : Decision} {now : Nat}
    (valid : validateDecision terms world market order decision now = .ok ()) :
    ∃ row, decisionStands market order decision = .ok row := by
  simp only [validateDecision, Program.except_bind_ok] at valid
  obtain ⟨row, stands, _⟩ := valid
  exact ⟨row, stands⟩

theorem decisionStands_ok {market : State} {order : Order} {decision : Decision} {row : Case}
    (stands : decisionStands market order decision = .ok row) :
    (∃ stored, decisionById market decision.id = some stored ∧ stored.revoked = false ∧
        stored.body = decision) ∧
      market.cases.find? decision.caseId = some row ∧ row.orderId = order.id ∧
      row.round = decision.round ∧ row.state = .decided ∧ order.state = .disputed := by
  simp only [decisionStands, readCase, Program.except_bind_ok, requireRow_ok, require_ok,
    Option.filter_eq_some_iff, Bool.and_eq_true, Bool.not_eq_true', beq_iff_eq,
    Program.except_pure, Except.ok.injEq] at stands
  obtain ⟨stored, ⟨found, live, same⟩, row, isCase, _, current, rfl⟩ := stands
  exact ⟨⟨stored, found, live, same⟩, isCase, current⟩

/-- After its authority is established a settlement by decision fails with no code
that the timer catches. -/
theorem settleFresh_clean {order : Order} {locked : Contract} {request : SettleRequest}
    {decision : Decision} (decided : request.decision = some decision) {market next : State}
    {failure : Failure}
    (refused : settleFresh terms world locked order request market = .error failure next) :
    next = market ∨ Unheld failure := by
  simp only [settleFresh, Program.bind_error, read_error, read_ok] at refused
  rcases refused with ⟨_, rfl⟩ | ⟨_, _, ⟨authority, rfl⟩, refused⟩
  · exact Or.inl rfl
  obtain ⟨version, valid, _⟩ := decision_disputed decided authority
  obtain ⟨row, stands⟩ := validateDecision_stands valid
  have unfunded : order.state ≠ .funded := by
    rw [(decisionStands_ok stands).2.2.2.2.2]
    decide
  have granted : ∀ receipts, fulfilled terms locked request receipts = pure none := by
    intro receipts
    simp [fulfilled, version]
  rcases refused with ⟨_, rfl⟩ | ⟨_, _, ⟨_, rfl⟩, refused⟩
  · exact Or.inl rfl
  refine Or.inr ?_
  rcases refused with refused | ⟨_, _, _, refused⟩
  · exact postLeg_unheld refused
  rcases refused with refused | ⟨_, _, _, refused⟩
  · exact postLeg_unheld refused
  rw [granted] at refused
  rcases refused with refused | ⟨_, _, _, refused⟩
  · exact absurd refused (Program.pure_error _ _ _ _)
  rcases refused with refused | ⟨_, _, _, refused⟩
  · exact transition_unheld unfunded refused
  rcases refused with refused | ⟨_, _, _, refused⟩
  · simp [updateOrder] at refused
  rcases refused with ⟨refused, _⟩ | ⟨_, _, _, refused⟩
  · cases refused
  rcases refused with refused | ⟨_, _, _, refused⟩
  · exact insertSettlement_unheld refused
  rcases refused with refused | ⟨_, _, _, refused⟩
  · simp [executeCase, decided] at refused
  · exact absurd refused (Program.pure_error _ _ _ _)

theorem settle_clean {order : Order} {request : SettleRequest} {decision : Decision}
    (decided : request.decision = some decision) {market next : State} {failure : Failure}
    (refused : settle terms world order request market = .error failure next) :
    next = market ∨ Unheld failure := by
  simp only [settle, Program.bind_error, read_error, read_ok] at refused
  rcases refused with ⟨_, rfl⟩ | ⟨locked, _, ⟨_, rfl⟩, refused⟩
  · exact Or.inl rfl
  rcases refused with ⟨_, rfl⟩ | ⟨_, _, ⟨_, rfl⟩, refused⟩
  · exact Or.inl rfl
  rcases refused with ⟨_, rfl⟩ | ⟨_, _, ⟨_, rfl⟩, refused⟩
  · exact Or.inl rfl
  rcases refused with ⟨_, rfl⟩ | ⟨_, _, ⟨_, rfl⟩, refused⟩
  · exact Or.inl rfl
  rcases refused with ⟨_, rfl⟩ | ⟨existing, _, ⟨_, rfl⟩, refused⟩
  · exact Or.inl rfl
  cases existing with
  | some fact =>
      simp only [settleOr, Program.bind_error, read_error, Program.pure_error, and_false,
        exists_false, or_false] at refused
      exact Or.inl refused.2
  | none => exact settleFresh_clean decided refused

/-! Publishing what was written. -/

theorem snapshot_unheld {market : State} {orderId : String} {failure : Failure}
    (refused : snapshot market orderId = .error failure) : Unheld failure := by
  simp only [snapshot, Program.except_bind_error, requireRow_error, Program.except_pure,
    reduceCtorEq, and_false, exists_false, or_false] at refused
  rcases refused with ⟨_, rfl⟩ | ⟨_, _, _, rfl⟩ <;> decide

theorem sourceMetadata_unheld {market : State} {orderId : String} {force : Bool}
    {failure : Failure} (refused : sourceMetadata market orderId force = .error failure) :
    Unheld failure := by
  unfold sourceMetadata at refused
  split at refused
  · obtain ⟨_, rfl⟩ := (require_error _ _ _).mp refused
    decide
  · split at refused
    · cases refused
    · simp only [sourceCheck, Program.except_bind_error, requireRow_error, require_error] at refused
      rcases refused with ⟨_, rfl⟩ | ⟨_, _, ⟨_, rfl⟩ | ⟨_, _, ⟨_, rfl⟩ | ⟨_, _, refused | ⟨_, _, _, rfl⟩⟩⟩⟩
      case inr.inr.inr.inl => exact snapshot_unheld refused
      all_goals decide

theorem settlementCheck_unheld {market : State} {locked : Contract} {order : Order}
    {failure : Failure} (version : locked.version ≠ 5)
    (refused : settlementCheck market locked order = .error failure) : Unheld failure := by
  unfold settlementCheck at refused
  split at refused
  · obtain ⟨_, rfl⟩ := (require_error _ _ _).mp refused
    decide
  · simp only [settlementRow, entitlementGrant, version, if_false, Program.except_bind_error,
      require_error, reduceCtorEq, false_or] at refused
    rcases refused with ⟨_, rfl⟩ | ⟨_, _, ⟨_, rfl⟩ | ⟨_, _, ⟨_, rfl⟩ | ⟨_, _, ⟨_, rfl⟩ |
      ⟨_, _, _, _, _, rfl⟩⟩⟩⟩ <;> decide

theorem paymentCheck_unheld {market : State} {locked : Contract} {order : Order}
    {failure : Failure} (refused : paymentCheck market locked order = .error failure) :
    Unheld failure := by
  unfold paymentCheck at refused
  split at refused
  · cases refused
  · obtain ⟨_, rfl⟩ := (require_error _ _ _).mp refused
    decide

/-- Only the contract of an entitlement has a signature to verify. -/
theorem validateProjection_unheld {market : State} {locked : Contract} {failure : Failure}
    (version : locked.version ≠ 5)
    (refused : validateProjection terms market locked = .error failure) : Unheld failure := by
  have plain : entitlementIntent terms market locked = .ok () := by
    simp [entitlementIntent, version]
  simp only [validateProjection, versionCheck, plain, intentDigest, Program.except_bind_error,
    require_error, requireRow_error, reduceCtorEq, false_or] at refused
  rcases refused with (⟨_, rfl⟩ | ⟨_, _, _, rfl⟩) | ⟨_, _, _, _, ⟨_, rfl⟩ | ⟨_, _, ⟨_, rfl⟩ |
    ⟨_, _, ⟨_, rfl⟩ | ⟨_, _, refused | ⟨_, _, refused⟩⟩⟩⟩⟩
  case inr.inr.inr.inr.inl => exact paymentCheck_unheld refused
  case inr.inr.inr.inr.inr => exact settlementCheck_unheld version refused
  all_goals decide

theorem contract_unheld {market : State} {orderId : String} {failure : Failure}
    (version : ∀ locked, market.contracts.find? orderId = some locked → locked.version ≠ 5)
    (refused : contract terms market orderId = .error failure) : Unheld failure := by
  simp only [contract, Program.except_bind_error, requireRow_error, requireRow_ok,
    Program.except_pure, reduceCtorEq, and_false, exists_false, or_false] at refused
  rcases refused with ⟨_, rfl⟩ | ⟨locked, found, refused | ⟨_, _, refused⟩⟩
  · decide
  · exact sourceMetadata_unheld refused
  · exact validateProjection_unheld (version locked found) refused

theorem published_unheld {orderId : String} {failure : Failure}
    (refused : published world orderId = .error failure) : Unheld failure := by
  unfold published at refused
  split at refused
  · cases refused
  · rename_i fault _
    obtain rfl := Except.error.inj refused
    cases fault <;> decide

theorem revise_unheld {market : State} {orderId : String} {locked : Contract}
    {body : OrderSnapshot} {failure : Failure}
    (refused : revise market world orderId locked body = .error failure) : Unheld failure := by
  unfold revise at refused
  split at refused
  · simp only [Program.except_bind_error, Program.except_pure, reduceCtorEq, and_false,
      exists_false, or_false] at refused
    rcases refused with refused | ⟨_, _, refused⟩
    · exact published_unheld refused
    · exact insertRow_error refused ▸ unheld_conflict
  · split at refused
    · cases refused
    · simp only [Program.except_bind_error, Program.except_pure, reduceCtorEq, and_false,
        exists_false, or_false] at refused
      exact published_unheld refused

theorem publish_error {orderId : String} {market next : State} {failure : Failure}
    (refused : publish terms world orderId market = .error failure next) :
    next = market ∧ ((∀ locked, market.contracts.find? orderId = some locked →
      locked.version ≠ 5) → Unheld failure) := by
  simp only [publish, Program.write_error] at refused
  obtain ⟨refused, rfl⟩ := refused
  refine ⟨rfl, fun version => ?_⟩
  split at refused
  · simp only [publishOne, Program.except_bind_error, require_error] at refused
    rcases refused with ⟨_, rfl⟩ | ⟨_, _, refused | ⟨_, _, refused | ⟨_, _, refused⟩⟩⟩
    · decide
    · exact contract_unheld version refused
    · exact snapshot_unheld refused
    · exact revise_unheld refused
  · cases refused

/-! Carrying out a decision. -/

theorem decisionOf_ok {market : State} {row : Case} {decisionId : String} {decision : Decision}
    (found : decisionOf market row decisionId = .ok decision) :
    ∃ stored, market.decisions.find? (row.id, row.round) = some stored ∧
      stored.body = decision ∧ decision.id = decisionId ∧ decision.caseId = row.id ∧
      decision.round = row.round := by
  simp only [decisionOf, Program.except_bind_ok, requireRow_ok, Option.filter_eq_some_iff,
    beq_iff_eq, Program.except_pure, Except.ok.injEq] at found
  obtain ⟨stored, ⟨found, named⟩, rfl⟩ := found
  have key : DecisionRow.key stored = (row.id, row.round) := Table.find?_key found
  simp only [DecisionRow.key, Prod.mk.injEq] at key
  exact ⟨stored, found, rfl, named, key.1, key.2⟩

/-- What a successful execution of a decision does: nothing, because its settlement is
there, or the settlement it asks for. -/
theorem executeBody_ok {row : Case} {decisionId : String} {origin : Origin}
    {receipts : List Posting} {market next : State}
    (done : executeBody terms world row decisionId origin market = .ok receipts next) :
    next = market ∨ ∃ order decision locked payout,
      order.id = row.orderId ∧ decisionOf market row decisionId = .ok decision ∧
      Settled terms world market order locked (decidedSettlement origin decision) payout ∧
      next = market.settled order (decidedSettlement origin decision) payout := by
  simp only [executeBody, Program.bind_ok, read_ok, Except.ok.injEq] at done
  obtain ⟨order, _, ⟨found, rfl⟩, decision, _, ⟨decided, rfl⟩, existing, reached, ⟨_, rfl⟩,
    rest⟩ := done
  cases existing with
  | some fact =>
      simp only [executeFresh, Program.bind_ok, read_ok, Program.pure_ok] at rest
      obtain ⟨_, _, ⟨_, rfl⟩, _, rfl⟩ := rest
      exact Or.inl rfl
  | none =>
      simp only [executeFresh, Program.bind_ok, Prod.exists, Program.pure_ok] at rest
      obtain ⟨_, _, _, settling, _, rfl⟩ := rest
      have nothing : ∀ locked, contract terms reached order.id = .ok locked →
          ∀ purchase, (decidedSettlement origin decision).fulfill = some purchase → ∃ extra,
            locked.entitlement = some extra ∧ extra.offer.offerId = locked.listingId ∧
              purchase = ⟨locked.buyer, extra.requestId, locked.quantity, extra.offer⟩ := by
        rintro _ _ _ ⟨⟩
      rcases settle_ok (readOrder_ok found).2 nothing settling with
        ⟨_, _, rfl, _⟩ | ⟨locked, payout, made, rfl, _⟩
      · exact Or.inl rfl
      · exact Or.inr ⟨order, decision, locked, payout, (readOrder_ok found).1, decided, made, rfl⟩

theorem executeBody_clean {row : Case} {decisionId : String} {origin : Origin}
    {market next : State} {failure : Failure}
    (refused : executeBody terms world row decisionId origin market = .error failure next) :
    next = market ∨ Unheld failure := by
  simp only [executeBody, Program.bind_error, read_error, read_ok] at refused
  rcases refused with ⟨_, rfl⟩ | ⟨order, _, ⟨_, rfl⟩, refused⟩
  · exact Or.inl rfl
  rcases refused with ⟨_, rfl⟩ | ⟨decision, _, ⟨_, rfl⟩, refused⟩
  · exact Or.inl rfl
  rcases refused with ⟨_, rfl⟩ | ⟨existing, _, ⟨_, rfl⟩, refused⟩
  · exact Or.inl rfl
  cases existing with
  | some fact =>
      simp only [executeFresh, Program.bind_error, read_error, Program.pure_error, and_false,
        exists_false, or_false] at refused
      exact Or.inl refused.2
  | none =>
      simp only [executeFresh, Program.bind_error, Program.pure_error, and_false, exists_false,
        or_false] at refused
      exact settle_clean rfl refused

theorem execute_clean {row : Case} {decisionId : String} {origin : Origin}
    {market next : State} {failure : Failure}
    (refused : execute terms world row decisionId origin market = .error failure next) :
    next = market ∨ Unheld failure := by
  simp only [execute, internalMutation, Program.bind_error, read_error, read_ok, Except.ok.injEq,
    reduceCtorEq, false_and, false_or] at refused
  obtain ⟨_, _, ⟨rfl, rfl⟩, refused⟩ := refused
  split at refused
  · exact executeBody_clean refused
  · simp only [restoring_error, Program.bind_error, read_error, read_ok, Program.pure_error,
      and_false, exists_false, or_false] at refused
    obtain ⟨reached, refused, rfl⟩ := refused
    rcases refused with ⟨_, rfl⟩ | ⟨_, _, ⟨_, rfl⟩, refused⟩
    · exact Or.inl rfl
    rcases refused with refused | ⟨_, _, activated, refused⟩
    · simp [activate] at refused
    obtain ⟨ids, rfl, _⟩ := activate_ok activated
    rcases refused with refused | ⟨_, _, done, refused⟩
    · rcases executeBody_clean refused with rfl | unheld
      · exact Or.inl rfl
      · exact Or.inr unheld
    · obtain ⟨rfl, unheld⟩ := publish_error refused
      rcases executeBody_ok done with rfl | ⟨order, decision, locked, payout, named, _, made, rfl⟩
      · exact Or.inl rfl
      · refine Or.inr (unheld ?_)
        intro found stored
        have same := (contract_ok made.agreed).1
        rw [named] at same
        rw [Option.some.inj (stored.symm.trans same)]
        exact (decision_disputed rfl made.authority).1

/-- A failure that the timer catches left everything as it was. -/
theorem executeDecided_clean {row : Case} {market next : State} {failure : Failure}
    (refused : executeDecided terms world row market = .error failure next)
    (caught : failure.code ∈ heldCodes) : next = market := by
  simp only [executeDecided, Program.bind_error, read_error, read_ok, Program.pure_error,
    and_false, exists_false, or_false] at refused
  rcases refused with ⟨_, rfl⟩ | ⟨stored, _, ⟨_, rfl⟩, refused⟩
  · rfl
  · rcases execute_clean refused with same | unheld
    · exact same
    · exact absurd caught unheld

/-- What `execute` does to the cases: it may close the case of the decision. -/
theorem execute_cases {row : Case} {decisionId : String} {origin : Origin}
    {receipts : List Posting} {market next : State}
    (done : execute terms world row decisionId origin market = .ok receipts next) :
    next.cases = market.cases ∨ next.cases = market.cases.modify row.id markExecuted := by
  have inside : ∀ start reached receipts,
      executeBody terms world row decisionId origin start = .ok receipts reached →
        reached.cases = start.cases ∨ reached.cases = start.cases.modify row.id markExecuted := by
    intro start reached receipts done
    rcases executeBody_ok done with rfl | ⟨_, _, _, _, _, found, _, rfl⟩
    · exact Or.inl rfl
    · obtain ⟨_, _, _, _, named, _⟩ := decisionOf_ok found
      exact Or.inr (by rw [← named]; rfl)
  simp only [execute, internalMutation, Program.bind_ok, read_ok, Except.ok.injEq] at done
  obtain ⟨_, _, ⟨rfl, rfl⟩, done⟩ := done
  split at done
  · exact inside _ _ _ done
  · simp only [restoring_ok, Program.bind_ok, read_ok, Program.pure_ok] at done
    obtain ⟨_, ⟨_, _, ⟨_, rfl⟩, _, _, activated, _, reached, carried, _, _, publishing, rfl,
      rfl⟩, rfl⟩ := done
    obtain ⟨_, rfl, _⟩ := activate_ok activated
    have published : Published terms Client.any _ _ _ := publish_ok publishing
    obtain ⟨_, shape⟩ := published.shape
    rw [shape]
    have frame := inside _ _ _ carried
    exact frame

end MsgServer.Market
