import MsgServer.Market.Consistency

/-!
The published revision of an order contains its rows as they stand, unless the running
operation may write the order. With the agreement of the rows and the contract this
makes every contract readable in every reachable state.
-/

namespace MsgServer.Market

open Library Ledger

variable {terms : Terms} {client : Client} {world : World} {market next : State}
  {order : Order}

structure Sourced (market : State) : Prop where
  owned : ∀ source ∈ market.sources.rows, ∃ locked,
    market.contracts.find? source.orderId = some locked ∧ locked.resourceModel = true ∧
      source.owner = locked.buyer
  published : ∀ id, modelled market id = true → id ∉ market.active → UpToDate market id

/-! What a revision is made of. -/

/-- The rows that the snapshot of one order contains have not changed. -/
structure Unrevised (market next : State) (id : String) : Prop where
  order : (next.orders.find? id).map Order.projected = (market.orders.find? id).map Order.projected
  contract : next.contracts.find? id = market.contracts.find? id
  settlement : next.settlements.find? id = market.settlements.find? id
  transitions : orderTransitions next id = orderTransitions market id
  source : next.sources.find? id = market.sources.find? id

theorem snapshot_eq (market : State) (id : String) (body : OrderSnapshot) :
    snapshot market id = .ok body ↔ ∃ row locked,
      (market.orders.find? id).map Order.projected = some row ∧
        market.contracts.find? id = some locked ∧
        body = ⟨row, locked, market.settlements.find? id, orderTransitions market id⟩ := by
  simp only [snapshot, Program.except_bind_ok, requireRow_ok, Program.except_pure, Except.ok.injEq,
    Option.map_eq_some_iff]
  constructor
  · rintro ⟨row, found, locked, agreed, rfl⟩
    exact ⟨_, locked, ⟨row, found, rfl⟩, agreed, rfl⟩
  · rintro ⟨_, locked, ⟨row, found, rfl⟩, agreed, rfl⟩
    exact ⟨row, found, locked, agreed, rfl⟩

theorem UpToDate.kept {id : String} (upToDate : UpToDate market id)
    (unrevised : Unrevised market next id) : UpToDate next id := by
  obtain ⟨source, stored, content⟩ := upToDate
  refine ⟨source, unrevised.source.trans stored, ?_⟩
  rw [snapshot_eq] at content ⊢
  rw [unrevised.order, unrevised.contract, unrevised.settlement, unrevised.transitions]
  exact content

theorem modelled_congr {id : String} (same : next.contracts.find? id = market.contracts.find? id) :
    modelled next id = modelled market id := by
  simp only [modelled, same]

/-- Rows of other orders may change as long as the operation may write these orders. -/
theorem Sourced.touch (sourced : Sourced market) (contracts : next.contracts = market.contracts)
    (sources : next.sources = market.sources) (active : next.active = market.active)
    (rows : ∀ id, Unrevised market next id ∨ (modelled market id = true → id ∈ market.active)) :
    Sourced next := by
  constructor
  · rw [contracts, sources]
    exact sourced.owned
  · intro id resource outside
    have same : modelled next id = modelled market id := modelled_congr (by rw [contracts])
    rw [same] at resource
    rw [active] at outside
    rcases rows id with unrevised | writable
    · exact (sourced.published id resource outside).kept unrevised
    · exact absurd (writable resource) outside

/-- A move that changes none of the rows. -/
theorem Sourced.frame (sourced : Sourced market) (orders : next.orders = market.orders)
    (contracts : next.contracts = market.contracts)
    (settlements : next.settlements = market.settlements)
    (transitions : next.transitions = market.transitions) (sources : next.sources = market.sources)
    (active : next.active = market.active) : Sourced next := by
  apply sourced.touch contracts sources active
  intro id
  left
  constructor
  · rw [orders]
  · rw [contracts]
  · rw [settlements]
  · rw [orderTransitions, transitions]
    rfl
  · rw [sources]

theorem orderTransitions_append {facts : List Transition} {id : String}
    (others : ∀ fact ∈ facts, fact.orderId ≠ id)
    (transitions : next.transitions = market.transitions ++ facts) :
    orderTransitions next id = orderTransitions market id := by
  rw [orderTransitions, transitions, List.filter_append, orderTransitions]
  have none : (facts.filter fun fact => fact.orderId == id) = [] := by
    apply List.filter_eq_nil_iff.mpr
    intro fact member
    simpa using others fact member
  rw [none, List.append_nil]

/-- A move that rewrites one order which the operation may write. -/
theorem Sourced.rewrite {change : Order → Order} (sourced : Sourced market)
    (rewrites : Rewrites market next order change) {facts : List Transition}
    (transitions : next.transitions = market.transitions ++ facts)
    (own : ∀ fact ∈ facts, fact.orderId = order.id) (sources : next.sources = market.sources)
    (active : next.active = market.active)
    (writable : modelled market order.id = true → order.id ∈ market.active) : Sourced next := by
  apply sourced.touch rewrites.contracts sources active
  intro id
  by_cases same : id = order.id
  · rw [same]
    exact Or.inr writable
  · left
    constructor
    · rw [rewrites.orders, Table.find?_modify_ne _ _ same]
    · rw [rewrites.contracts]
    · exact rewrites.settlements id same
    · apply orderTransitions_append _ transitions
      intro fact member isId
      exact same (isId.symm.trans (own fact member))
    · rw [sources]

theorem writable_ok {orderId : String} (passed : writable market orderId = .ok ()) :
    modelled market orderId = true → orderId ∈ market.active :=
  (require_ok _ _ _).mp passed

theorem unmodelled {orderId : String} (uncontracted : market.contracts.find? orderId = none) :
    modelled market orderId = true → orderId ∈ market.active := by
  simp [modelled, uncontracted]

/-- A new order, with the contracts that come with it. -/
theorem Sourced.enter (sourced : Sourced market) (consistent : Consistent terms market)
    (enters : Enters market next order) (transitions : next.transitions = market.transitions)
    (sources : next.sources = market.sources) (active : next.active = market.active)
    (writable : modelled next order.id = true → order.id ∈ market.active) : Sourced next := by
  have unknown := consistent.unknown (Table.insert_fresh enters.inserted)
  constructor
  · rw [sources]
    intro source member
    obtain ⟨locked, found, resource, owner⟩ := sourced.owned source member
    refine ⟨locked, ?_, resource, owner⟩
    rw [enters.contracts]
    · exact found
    · intro isNew
      rw [isNew, unknown.contract] at found
      cases found
  · intro id resource outside
    rw [active] at outside
    by_cases isNew : id = order.id
    · rw [isNew] at resource outside
      exact absurd (writable resource) outside
    · rw [modelled_congr (enters.contracts id isNew)] at resource
      apply (sourced.published id resource outside).kept
      constructor
      · rw [Table.find?_insert enters.inserted, if_neg (Ne.symm isNew)]
      · exact enters.contracts id isNew
      · rw [enters.settlements]
      · rw [orderTransitions, transitions]
        rfl
      · rw [sources]

/-! One move after the other. -/

theorem sourced_order (sourced : Sourced market) (consistent : Consistent terms market)
    (move : OrderMove terms client market next) : Sourced next := by
  cases move with
  | @opened order locked books orders contracts opens made =>
      apply sourced.enter consistent made.enters rfl rfl rfl
      intro resource
      apply made.writable
      have found : (market.opened books orders contracts).contracts.find? order.id = some locked := by
        show contracts.find? order.id = _
        rw [Table.find?_insert made.contracted, if_pos made.named]
      simpa [modelled, found] using resource
  | scheduled deadlines => exact sourced.frame rfl rfl rfl rfl rfl rfl
  | @retargeted order current target handle =>
      -- A revision does not contain the target of the order.
      refine sourced.touch rfl rfl rfl ?_
      intro id
      left
      refine ⟨?_, rfl, rfl, rfl, rfl⟩
      have keeps : ∀ row : Order, { row with deliveryTarget := target }.id = row.id := fun _ => rfl
      by_cases same : id = order.id
      · show ((market.orders.modify order.id _).find? id).map Order.projected = _
        rw [same, Table.find?_modify_self _ _ _ keeps, Option.map_map]
        rfl
      · show ((market.orders.modify order.id _).find? id).map Order.projected = _
        rw [Table.find?_modify_ne _ _ same]
  | funded asked made =>
      apply sourced.rewrite made.rewrites rfl _ rfl rfl (writable_ok made.writable)
      simp [transitionFact, paid]
  | turned made origin reason =>
      apply sourced.rewrite (made.rewrites origin reason) rfl _ rfl rfl (writable_ok made.writable)
      simp [transitionFact]
  | disputed made origin reason locked world agreed drawn =>
      apply sourced.rewrite (made.rewrites origin reason) rfl _ rfl rfl (writable_ok made.writable)
      simp [transitionFact]
  | dispatched made origin envelopes =>
      apply sourced.rewrite (made.rewrites origin envelopes) rfl _ rfl rfl
        (writable_ok made.writable)
      simp [transitionFact]
  | acknowledged orderId stamp stamped => exact sourced.frame rfl rfl rfl rfl rfl rfl
  | settled made =>
      apply sourced.rewrite made.rewrites rfl _ rfl rfl (writable_ok made.writable)
      simp [transitionFact]
  | legacyOpened asked opens made =>
      apply sourced.enter consistent made.enters rfl rfl rfl
      have fresh := (consistent.unknown (Table.insert_fresh made.inserted)).contract
      exact unmodelled fresh
  | legacyPrepared made now =>
      apply sourced.rewrite (made.rewrites now) (List.append_nil _).symm _ rfl rfl
        (unmodelled (consistent.unversioned made.current made.target))
      simp
  | legacySettled asked made =>
      apply sourced.rewrite made.rewrites (List.append_nil _).symm _ rfl rfl
        (unmodelled made.uncontracted)
      simp

theorem sourced_move (sourced : Sourced market) (consistent : Consistent terms market)
    (move : Move terms client market next) : Sourced next := by
  cases move with
  | order move => exact sourced_order sourced consistent move
  | dispute move =>
      have aside := case_aside move
      exact sourced.frame aside.orders aside.contracts aside.settlements aside.transitions
        aside.sources aside.active
  | money move =>
      have apart := money_apart move
      exact sourced.frame apart.orders apart.contracts apart.settlements apart.transitions
        apart.sources apart.active
  | authority extended => exact sourced.frame rfl rfl rfl rfl rfl rfl
  | activated grown =>
      refine ⟨sourced.owned, ?_⟩
      intro id resource outside
      exact sourced.published id resource fun member => outside (grown id member)
  | @restored ids published =>
      refine ⟨sourced.owned, ?_⟩
      intro id resource outside
      by_cases wasActive : id ∈ market.active
      · exact published id wasActive outside resource
      · exact sourced.published id resource wasActive
  | @revised orderId locked source sources agreed resource content owner stored others =>
      have named : source.orderId = orderId := Table.find?_key stored
      have isOwner : source.owner = locked.buyer := by
        rcases owner with own | ⟨old, found, same⟩
        · exact own
        · obtain ⟨other, isOther, _, owned⟩ := sourced.owned old (Table.find?_mem found)
          have isOrder : old.orderId = orderId := Table.find?_key found
          rw [isOrder, agreed] at isOther
          rw [← same, owned, Option.some.inj isOther]
      constructor
      · intro row member
        have found := (Table.mem_iff_find? _ row).mp member
        by_cases isOrder : row.orderId = orderId
        · rw [isOrder, stored] at found
          rw [← Option.some.inj found, named]
          exact ⟨locked, agreed, resource, isOwner⟩
        · rw [others _ isOrder] at found
          exact sourced.owned row (Table.find?_mem found)
      · intro id isModelled outside
        by_cases isOrder : id = orderId
        · rw [isOrder]
          exact ⟨source, stored, content⟩
        · apply (sourced.published id isModelled outside).kept
          exact ⟨rfl, rfl, rfl, rfl, others id isOrder⟩

/-! Every run. -/

/-- What holds of the rows of orders in every reachable state. -/
structure Sound (terms : Terms) (market : State) : Prop where
  grounded : Grounded market
  solvent : Solvent market
  consistent : Consistent terms market
  sourced : Sourced market

theorem Sound.move (sound : Sound terms market) (move : Move terms client market next) :
    Sound terms next where
  grounded := grounded_move sound.grounded move
  solvent := solvent_move sound.grounded sound.solvent move
  consistent := consistent_move sound.consistent move
  sourced := sourced_move sound.sourced sound.consistent move

theorem Sound.moves (sound : Sound terms market) (moves : Moves terms client market next) :
    Sound terms next :=
  moves_invariant (fun _ _ holds move => holds.move move) moves sound

theorem sound_empty : Sound terms State.empty where
  grounded := grounded_empty
  solvent := by
    intro order member
    simp [State.empty, Table.empty] at member
  consistent := consistent_empty
  sourced := by
    constructor
    · intro source member
      simp [State.empty, Table.empty] at member
    · intro id resource
      simp [modelled, State.empty, Table.empty, Table.find?] at resource

theorem run_sound (terms : Terms) (steps : List (World × Op)) : Sound terms (run terms steps) := by
  have moves : Moves terms Client.any State.empty (run terms steps) :=
    run_moves_any
  exact sound_empty.moves moves

/-- The rows of every contract agree with it. -/
theorem Sound.valid (sound : Sound terms market) {id : String} {locked : Contract}
    (found : market.contracts.find? id = some locked) :
    validateProjection terms market locked = .ok () := by
  obtain ⟨_, order, _, projected, _⟩ := sound.consistent.projected found
  exact (validateProjection_ok market locked).mpr ⟨order, projected⟩

/-- The full check of a published revision, outside every operation. -/
theorem Sound.checked (sound : Sound terms market) {id : String}
    (isModelled : modelled market id = true) (outside : id ∉ market.active) :
    sourceCheck market id = .ok () := by
  obtain ⟨source, inTable, content⟩ := sound.sourced.published id isModelled outside
  obtain ⟨locked, agreed, _, owner⟩ := sound.sourced.owned source (Table.find?_mem inTable)
  have isId : source.orderId = id := Table.find?_key inTable
  rw [isId] at agreed
  simp only [sourceCheck, Program.except_bind_ok, requireRow_ok, require_ok]
  exact ⟨source, inTable, locked, agreed, (), owner, source.snapshot, content, rfl⟩

/-- An order without a resource has no published revision. -/
theorem Sound.unpublished (sound : Sound terms market) {id : String}
    (plain : modelled market id = false) : market.sources.find? id = none := by
  by_contra known
  obtain ⟨source, inTable⟩ := Option.ne_none_iff_exists'.mp known
  obtain ⟨locked, agreed, resource, _⟩ := sound.sourced.owned source (Table.find?_mem inTable)
  have isId : source.orderId = id := Table.find?_key inTable
  rw [isId] at agreed
  simp [modelled, agreed, resource] at plain

/-- A contract can be read whenever it is there. -/
theorem Sound.readable (sound : Sound terms market) {id : String} {locked : Contract}
    (found : market.contracts.find? id = some locked) :
    contract terms market id = .ok locked := by
  have source : sourceMetadata market id false = .ok () := by
    unfold sourceMetadata
    split
    · rename_i plain
      exact (require_ok _ _ _).mpr (sound.unpublished plain)
    · split
      · rfl
      · rename_i resource inactive
        have isModelled : modelled market id = true := by simpa using resource
        exact sound.checked isModelled fun member => inactive ⟨rfl, member⟩
  simp only [contract, Program.except_bind_ok, requireRow_ok, Program.except_pure,
    Except.ok.injEq]
  exact ⟨locked, found, (), source, (), sound.valid found, rfl⟩

/-- The writers of orders agree with their reader: every contract passes its own check
and can be read, and the published revision of an order contains its rows. -/
structure Readable (terms : Terms) (market : State) : Prop where
  versioned : ∀ locked ∈ market.contracts.rows,
    locked.version = 3 ∨ locked.version = 4 ∨ locked.version = 5
  valid : ∀ locked ∈ market.contracts.rows, validateProjection terms market locked = .ok ()
  read : ∀ locked ∈ market.contracts.rows, contract terms market locked.orderId = .ok locked
  checked : ∀ id, sourceMetadata market id true = .ok ()
  published : ∀ locked ∈ market.contracts.rows, locked.resourceModel = true →
    ∃ source, market.sources.find? locked.orderId = some source ∧
      snapshot market locked.orderId = .ok source.snapshot

theorem Sound.readers (sound : Sound terms market) (idle : market.active = []) :
    Readable terms market := by
  have outside : ∀ id, id ∉ market.active := by simp [idle]
  have stored : ∀ locked ∈ market.contracts.rows,
      market.contracts.find? locked.orderId = some locked :=
    fun locked member => (Table.mem_iff_find? _ locked).mp member
  constructor
  · intro locked member
    obtain ⟨_, order, _, projected, _⟩ := sound.consistent.projected (stored locked member)
    have version := projected.version
    simp only [versionCheck, Program.except_bind_ok, require_ok] at version
    exact version.choose_spec.1
  · exact fun locked member => sound.valid (stored locked member)
  · exact fun locked member => sound.readable (stored locked member)
  · intro id
    cases resource : modelled market id with
    | false =>
        rw [sourceMetadata, if_pos resource]
        exact (require_ok _ _ _).mpr (sound.unpublished resource)
    | true =>
        rw [sourceMetadata, if_neg (by simp [resource]), if_neg (by simp)]
        exact sound.checked resource (outside id)
  · intro locked member resource
    apply sound.sourced.published locked.orderId _ (outside _)
    simp [modelled, stored locked member, resource]

/-- No operation leaves an order that its reader rejects. -/
theorem orders_readable (terms : Terms) (steps : List (World × Op)) :
    Readable terms (run terms steps) :=
  (run_sound terms steps).readers (run_active steps)

end MsgServer.Market
