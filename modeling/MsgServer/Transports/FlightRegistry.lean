import Mathlib.Data.Finset.Dedup
import MsgServer.Transports.Flight

/-!
What the five maps of a flight world have to do with one another. `Linked` speaks of
the ships, the tickets and the subjects; `Registered` adds who is active and how many
ships there may be. Each mutation of the world keeps both, and in a registered world
none of them raises a KeyError or a TypeError.
-/

namespace MsgServer.Flight

open Library

variable {τ β : Type} {limits : Limits τ} {world next : World τ β}

structure Linked (world : World τ β) : Prop where
  tickets : ∀ shipId ticket,
    world.shipTickets.get shipId = some ticket ↔ world.tickets.get ticket = some shipId
  ticketed : ∀ shipId, (∃ ship, world.ships.find? shipId = some ship) ↔
    ∃ ticket, world.shipTickets.get shipId = some ticket
  subjects : ∀ subject shipId, world.subjects.get subject = some shipId ↔
    subject ≠ none ∧ ∃ ship, world.ships.find? shipId = some ship ∧ ship.subjectId = subject
  shown : ∀ shipId ship, world.ships.find? shipId = some ship → ship.subjectId = none →
    ship.publicSubjectId = none

structure Registered (limits : Limits τ) (world : World τ β) : Prop extends Linked world where
  active : ∀ shipId ∈ world.active, ∃ ship, world.ships.find? shipId = some ship
  seats : world.active.card ≤ limits.maxPlayers
  retained : world.ships.rows.length ≤ limits.maxRetained
  offline : ∀ shipId ship, world.ships.find? shipId = some ship → shipId ∉ world.active →
    ship.offlineSince.isSome = true

/-- Nothing new: what is left of the world after ships were removed from it. -/
structure Fewer (world next : World τ β) : Prop where
  active : next.active = world.active
  ships : ∀ shipId ship, next.ships.find? shipId = some ship → world.ships.find? shipId = some ship
  tickets : ∀ ticket, world.tickets.get ticket = none → next.tickets.get ticket = none

theorem Fewer.refl (world : World τ β) : Fewer world world :=
  ⟨rfl, fun _ _ found => found, fun _ absent => absent⟩

theorem Fewer.trans {last : World τ β} (first : Fewer world next) (second : Fewer next last) :
    Fewer world last where
  active := second.active.trans first.active
  ships shipId ship found := first.ships shipId ship (second.ships shipId ship found)
  tickets ticket absent := second.tickets ticket (first.tickets ticket absent)

theorem Fewer.absent (fewer : Fewer world next) {shipId : String}
    (absent : world.ships.find? shipId = none) : next.ships.find? shipId = none := by
  cases found : next.ships.find? shipId with
  | none => rfl
  | some ship =>
      rw [fewer.ships shipId ship found] at absent
      cases absent

/-! Removing a ship. -/

theorem remove_ok {shipId : String} (removed : remove world shipId = .ok next) :
    ∃ ship ticket, world.ships.find? shipId = some ship ∧
      world.shipTickets.get shipId = some ticket ∧
      next = { world with
        ships := world.ships.delete shipId
        subjects := dropSubject world.subjects ship
        shipTickets := world.shipTickets.delete shipId
        tickets := world.tickets.delete ticket } := by
  simp only [remove, Program.except_bind_ok, requireRow_ok, Program.except_pure,
    Except.ok.injEq] at removed
  obtain ⟨ship, found, ticket, held, rfl⟩ := removed
  exact ⟨ship, ticket, found, held, rfl⟩

theorem Linked.removes (linked : Linked world) {shipId : String} {ship : Ship τ β}
    (found : world.ships.find? shipId = some ship) : ∃ next, remove world shipId = .ok next := by
  obtain ⟨ticket, held⟩ := (linked.ticketed shipId).mp ⟨ship, found⟩
  simp [remove, requireRow, found, held, Except.bind, bind, pure, Except.pure]

theorem dropSubject_get (ship : Ship τ β) (subjects : Index (Option String))
    (subject : Option String) (some : subject ≠ none) :
    (dropSubject subjects ship).get subject =
      if subject = ship.subjectId then none else subjects.get subject := by
  unfold dropSubject
  by_cases carries : ship.subjectId.isSome = true
  · simp [carries]
  · have anonymous : ship.subjectId = none := by simpa using carries
    simp [anonymous, some]

theorem Linked.untaken (linked : Linked world) (subject : Option String) (shipId : String)
    {ship : Ship τ β} (found : world.ships.find? shipId = some ship) :
    ∀ otherId other, world.ships.find? otherId = some other → other.subjectId = ship.subjectId →
      subject = ship.subjectId → subject ≠ none → otherId = shipId := by
  rintro otherId other kept same rfl carries
  have claimed := (linked.subjects ship.subjectId shipId).mpr ⟨carries, ship, found, rfl⟩
  have also := (linked.subjects ship.subjectId otherId).mpr ⟨carries, other, kept, same⟩
  exact Option.some.inj (also.symm.trans claimed)

theorem Linked.remove_tickets (linked : Linked world) {shipId ticket : String}
    (held : world.shipTickets.get shipId = some ticket) (otherId other : String) :
    Index.get (world.shipTickets.delete shipId) otherId = some other ↔
      Index.get (world.tickets.delete ticket) other = some otherId := by
  have back := (linked.tickets shipId ticket).mp held
  have forth := linked.tickets otherId other
  simp only [Index.get_delete]
  by_cases gone : otherId = shipId
  · subst gone
    by_cases used : other = ticket
    · simp [used]
    · have apart : world.tickets.get other ≠ some otherId := fun atOther =>
        used (Option.some.inj ((forth.mpr atOther).symm.trans held))
      simp [used, apart]
  · by_cases used : other = ticket
    · subst used
      have apart : world.shipTickets.get otherId ≠ some other := fun atOther =>
        gone (Option.some.inj ((forth.mp atOther).symm.trans back))
      simp [gone, apart]
    · simpa [gone, used] using forth

theorem Linked.remove_subjects (linked : Linked world) {shipId : String} {ship : Ship τ β}
    (found : world.ships.find? shipId = some ship) (subject : Option String) (otherId : String) :
    (dropSubject world.subjects ship).get subject = some otherId ↔
      subject ≠ none ∧
        ∃ other, (world.ships.delete shipId).find? otherId = some other ∧
          other.subjectId = subject := by
  have before := linked.subjects subject otherId
  simp only [Table.find?_delete]
  by_cases anonymous : subject = none
  · subst anonymous
    have nobody : world.subjects.get none ≠ some otherId := fun held => (before.mp held).1 rfl
    unfold dropSubject
    by_cases carries : ship.subjectId.isSome = true
    · simp [carries, nobody]
    · simp [carries, nobody]
  · rw [dropSubject_get ship world.subjects subject anonymous]
    by_cases mine : subject = ship.subjectId
    · rw [if_pos mine]
      constructor
      · intro absent
        cases absent
      · rintro ⟨_, other, kept, same⟩
        by_cases gone : otherId = shipId
        · simp [gone] at kept
        · rw [if_neg gone] at kept
          exact absurd (linked.untaken subject shipId found otherId other kept
            (same.trans mine) mine anonymous) gone
    · rw [if_neg mine, before]
      by_cases gone : otherId = shipId
      · subst gone
        have apart : ¬ ship.subjectId = subject := fun same => mine same.symm
        simp [found, apart]
      · simp [gone]

theorem Linked.remove (linked : Linked world) {shipId : String}
    (removed : remove world shipId = .ok next) : Linked next := by
  obtain ⟨ship, ticket, found, held, rfl⟩ := remove_ok removed
  constructor
  · exact linked.remove_tickets held
  · intro otherId
    simp only [Index.get_delete, Table.find?_delete]
    by_cases gone : otherId = shipId
    · simp [gone]
    · simpa [gone] using linked.ticketed otherId
  · exact linked.remove_subjects found
  · intro otherId other kept
    simp only [Table.find?_delete] at kept
    by_cases gone : otherId = shipId
    · simp [gone] at kept
    · rw [if_neg gone] at kept
      exact linked.shown otherId other kept

theorem remove_fewer {shipId : String} (removed : remove world shipId = .ok next) :
    Fewer world next := by
  obtain ⟨ship, ticket, found, held, rfl⟩ := remove_ok removed
  refine ⟨rfl, ?_, ?_⟩
  · intro otherId other kept
    simp only [Table.find?_delete] at kept
    by_cases gone : otherId = shipId
    · simp [gone] at kept
    · simpa [gone] using kept
  · intro other absent
    simp [absent]

theorem remove_kept {shipId otherId : String} (removed : remove world shipId = .ok next)
    (apart : otherId ≠ shipId) : next.ships.find? otherId = world.ships.find? otherId := by
  obtain ⟨ship, ticket, found, held, rfl⟩ := remove_ok removed
  simp [Table.find?_delete, apart]

theorem remove_gone {shipId : String} (removed : remove world shipId = .ok next) :
    next.ships.find? shipId = none := by
  obtain ⟨ship, ticket, found, held, rfl⟩ := remove_ok removed
  simp [Table.find?_delete]

theorem remove_length {shipId : String} (removed : remove world shipId = .ok next) :
    next.ships.rows.length + 1 = world.ships.rows.length := by
  obtain ⟨ship, ticket, found, held, rfl⟩ := remove_ok removed
  exact Table.length_delete found

theorem Registered.remove (registered : Registered limits world) {shipId : String}
    (removed : remove world shipId = .ok next) (idle : shipId ∉ world.active) :
    Registered limits next := by
  have fewer := remove_fewer removed
  refine { registered.toLinked.remove removed with
    active := ?_, seats := ?_, retained := ?_, offline := ?_ }
  · intro otherId isActive
    rw [fewer.active] at isActive
    have apart : otherId ≠ shipId := fun same => idle (same ▸ isActive)
    rw [remove_kept removed apart]
    exact registered.active otherId isActive
  · rw [fewer.active]
    exact registered.seats
  · have shorter := remove_length removed
    have bound := registered.retained
    omega
  · intro otherId other kept resting
    rw [fewer.active] at resting
    exact registered.offline otherId other (fewer.ships otherId other kept) resting

/-! Pruning and evicting. -/

theorem pruneRows_ok (now : τ) (rows : List (Ship τ β)) (registered : Registered limits world)
    (distinct : (rows.map Ship.id).Nodup)
    (listed : ∀ ship ∈ rows, world.ships.find? ship.id = some ship) :
    ∃ next, rows.foldlM (fun left ship =>
        if expired limits now left ship then Flight.remove left ship.id else .ok left) world =
          .ok next ∧ Registered limits next ∧ Fewer world next := by
  induction rows generalizing world with
  | nil => exact ⟨world, rfl, registered, Fewer.refl world⟩
  | cons ship rest ih =>
      simp only [List.map_cons, List.nodup_cons] at distinct
      simp only [List.foldlM_cons]
      by_cases old : expired limits now world ship = true
      · have idle : ship.id ∉ world.active := by
          simp only [expired, Bool.and_eq_true, decide_eq_true_eq] at old
          exact old.1
        obtain ⟨left, removed⟩ := registered.removes (listed ship (List.mem_cons_self ..))
        have later : ∀ other ∈ rest, left.ships.find? other.id = some other := by
          intro other inside
          have apart : other.id ≠ ship.id := fun same =>
            distinct.1 (same ▸ List.mem_map.mpr ⟨other, inside, rfl⟩)
          rw [remove_kept removed apart]
          exact listed other (List.mem_cons_of_mem _ inside)
        obtain ⟨next, pruned, kept, fewer⟩ := ih (registered.remove removed idle) distinct.2 later
        refine ⟨next, ?_, kept, (remove_fewer removed).trans fewer⟩
        rw [if_pos old, removed]
        exact pruned
      · obtain ⟨next, pruned, kept, fewer⟩ := ih registered distinct.2
          fun other inside => listed other (List.mem_cons_of_mem _ inside)
        refine ⟨next, ?_, kept, fewer⟩
        rw [if_neg old]
        exact pruned

theorem Registered.prune (registered : Registered limits world) (now : τ) :
    ∃ next, Flight.prune limits now world = .ok next ∧ Registered limits next ∧
      Fewer world next :=
  pruneRows_ok now world.ships.rows registered world.ships.unique
    fun ship inside => (Table.mem_iff_find? world.ships ship).mp inside

section Evict

variable [LinearOrder τ]

theorem older_ok {best ship : Ship τ β} (left : best.offlineSince.isSome = true)
    (right : ship.offlineSince.isSome = true) :
    ∃ chosen, older best ship = .ok chosen ∧ (chosen = best ∨ chosen = ship) := by
  obtain ⟨since, atBest⟩ := Option.isSome_iff_exists.mp left
  obtain ⟨until', atShip⟩ := Option.isSome_iff_exists.mp right
  simp only [older, atBest, atShip, Except.ok.injEq, exists_eq_left']
  by_cases before : until' < since
  · simp [before]
  · simp [before]

theorem oldest_fold (rest : List (Ship τ β)) (best : Ship τ β)
    (timed : ∀ ship ∈ best :: rest, ship.offlineSince.isSome = true) :
    ∃ chosen ∈ best :: rest, rest.foldlM older best = .ok chosen := by
  induction rest generalizing best with
  | nil => exact ⟨best, List.mem_cons_self .., rfl⟩
  | cons ship rest ih =>
      obtain ⟨winner, chosen, which⟩ := older_ok (timed best (by simp)) (timed ship (by simp))
      have inside : ∀ other ∈ winner :: rest, other ∈ best :: ship :: rest := by
        intro other member
        rcases List.mem_cons.mp member with rfl | later
        · rcases which with rfl | rfl <;> simp
        · simp [later]
      obtain ⟨last, among, folded⟩ := ih winner fun other member => timed other (inside other member)
      refine ⟨last, inside last among, ?_⟩
      simp only [List.foldlM_cons, chosen]
      exact folded

/-- Fewer players than seats, so a world that is full of ships has one that rests. -/
theorem Registered.idle (registered : Registered limits world)
    (seats : world.active.card < limits.maxPlayers)
    (crowded : limits.maxRetained ≤ world.ships.rows.length) : candidates world ≠ [] := by
  intro nobody
  have manned : (world.ships.rows.map Ship.id).toFinset ⊆ world.active := by
    intro shipId inside
    obtain ⟨ship, member, rfl⟩ := List.mem_map.mp (List.mem_toFinset.mp inside)
    have kept := List.filter_eq_nil_iff.mp nobody ship member
    simpa using kept
  have bound := Finset.card_le_card manned
  rw [List.toFinset_card_of_nodup world.ships.unique, List.length_map] at bound
  have room := limits.retained.1
  omega

theorem Registered.freeRetainedSlot (registered : Registered limits world)
    (seats : world.active.card < limits.maxPlayers) :
    ∃ next, Flight.freeRetainedSlot limits world = .ok next ∧ Registered limits next ∧
      Fewer world next ∧ next.ships.rows.length < limits.maxRetained := by
  unfold Flight.freeRetainedSlot
  by_cases room : world.ships.rows.length < limits.maxRetained
  · rw [if_pos room]
    exact ⟨world, rfl, registered, Fewer.refl world, room⟩
  · rw [if_neg room]
    have resting : ∀ ship ∈ candidates world, ship ∈ world.ships.rows ∧ ship.id ∉ world.active := by
      intro ship inside
      simpa [candidates] using inside
    obtain ⟨first, rest, split⟩ :=
      List.exists_cons_of_ne_nil (registered.idle seats (Nat.le_of_not_lt room))
    have timed : ∀ ship ∈ first :: rest, ship.offlineSince.isSome = true := by
      intro ship inside
      have idle := resting ship (split ▸ inside)
      exact registered.offline ship.id ship ((Table.mem_iff_find? _ ship).mp idle.1) idle.2
    obtain ⟨chosen, among, picked⟩ := oldest_fold rest first timed
    have idle := resting chosen (split ▸ among)
    obtain ⟨next, removed⟩ :=
      registered.removes ((Table.mem_iff_find? world.ships chosen).mp idle.1)
    have shorter := remove_length removed
    have bound := registered.retained
    refine ⟨next, ?_, registered.remove removed idle.2, remove_fewer removed, by omega⟩
    rw [split]
    simp only [oldest, picked]
    exact removed

end Evict

/-! Ships that are born and ships that change. -/

theorem claim_get (world : World τ β) (ship : Ship τ β) (subject : Option String)
    (unclaimed : world.subjects.get ship.subjectId = none) (shipId : String) :
    (claim world ship).subjects.get subject = some shipId ↔
      world.subjects.get subject = some shipId ∨
        subject ≠ none ∧ subject = ship.subjectId ∧ shipId = ship.id := by
  unfold claim
  by_cases carries : ship.subjectId.isSome = true
  · rw [if_pos carries]
    simp only [enlist, Index.get_put]
    by_cases mine : ship.subjectId = subject
    · subst mine
      have named : ship.subjectId ≠ none := Option.isSome_iff_ne_none.mp carries
      simp [unclaimed, named, eq_comm]
    · have other : subject ≠ ship.subjectId := fun same => mine same.symm
      simp [mine, other]
  · have anonymous : ship.subjectId = none := by simpa using carries
    rw [if_neg carries, anonymous]
    constructor
    · exact Or.inl
    · rintro (held | ⟨named, same, -⟩)
      · exact held
      · exact absurd same named

theorem claim_ships (world : World τ β) (ship : Ship τ β) :
    (claim world ship).ships = world.ships ∧ (claim world ship).tickets = world.tickets ∧
      (claim world ship).shipTickets = world.shipTickets ∧
      (claim world ship).active = world.active := by
  unfold claim
  by_cases carries : ship.subjectId.isSome = true
  · simp [carries, enlist]
  · simp [carries]

/-- A ship with an id, a ticket and a subject that nobody has yet. -/
structure Newcomer (world : World τ β) (ship : Ship τ β) (ticket : String) : Prop where
  unseen : world.ships.find? ship.id = none
  unused : world.tickets.get ticket = none
  unclaimed : world.subjects.get ship.subjectId = none
  shown : ship.subjectId = none → ship.publicSubjectId = none

theorem Linked.dock_tickets (linked : Linked world) {ship : Ship τ β} {ticket : String}
    (newcomer : Newcomer world ship ticket) (otherId other : String) :
    Index.get (world.shipTickets.put (ship.id, ticket)) otherId = some other ↔
      Index.get (world.tickets.put (ticket, ship.id)) other = some otherId := by
  have forth := linked.tickets otherId other
  have unticketed : world.shipTickets.get ship.id = none := by
    cases held : world.shipTickets.get ship.id with
    | none => rfl
    | some old =>
        obtain ⟨there, found⟩ := (linked.ticketed ship.id).mpr ⟨old, held⟩
        rw [newcomer.unseen] at found
        cases found
  simp only [Index.get_put]
  by_cases mine : ship.id = otherId
  · subst mine
    by_cases used : ticket = other
    · simp [used]
    · rw [unticketed] at forth
      have apart : world.tickets.get other ≠ some ship.id := fun held => by
        have absurdly := forth.mpr held
        cases absurdly
      simp [used, apart]
  · by_cases used : ticket = other
    · subst used
      rw [newcomer.unused] at forth
      have apart : world.shipTickets.get otherId ≠ some ticket := fun held => by
        have absurdly := forth.mp held
        cases absurdly
      simp [mine, apart]
    · simpa [mine, used] using forth

theorem Linked.dock (linked : Linked world) {ship : Ship τ β} {ticket : String}
    (newcomer : Newcomer world ship ticket) : Linked (Flight.dock (claim world ship) ship ticket) := by
  obtain ⟨ships, tickets, shipTickets, -⟩ := claim_ships world ship
  constructor
  · simp only [Flight.dock, tickets, shipTickets]
    exact linked.dock_tickets newcomer
  · intro otherId
    simp only [Flight.dock, ships, shipTickets, Index.get_put, Table.find?_put]
    by_cases mine : ship.id = otherId
    · simp [mine]
    · simpa [mine] using linked.ticketed otherId
  · intro subject otherId
    have before := linked.subjects subject otherId
    simp only [Flight.dock, ships, Table.find?_put]
    rw [claim_get world ship subject newcomer.unclaimed, before]
    by_cases mine : ship.id = otherId
    · subst mine
      simp [newcomer.unseen, eq_comm]
    · have other : otherId ≠ ship.id := fun same => mine same.symm
      simp [mine, other]
  · intro otherId other found
    simp only [Flight.dock, ships, Table.find?_put] at found
    by_cases mine : ship.id = otherId
    · rw [if_pos mine] at found
      cases found
      exact newcomer.shown
    · rw [if_neg mine] at found
      exact linked.shown otherId other found

/-- A change of ships that moves none of them and renames no subject. -/
structure Revised (world next : World τ β) : Prop where
  subjects : next.subjects = world.subjects
  tickets : next.tickets = world.tickets
  shipTickets : next.shipTickets = world.shipTickets
  count : next.ships.rows.length = world.ships.rows.length
  ships : ∀ shipId, ∃ change : Ship τ β → Ship τ β,
    next.ships.find? shipId = (world.ships.find? shipId).map change ∧
      ∀ ship, (change ship).subjectId = ship.subjectId ∧
        (change ship).publicSubjectId = ship.publicSubjectId

theorem Revised.found (revised : Revised world next) (shipId : String) :
    (∃ ship, next.ships.find? shipId = some ship) ↔ ∃ ship, world.ships.find? shipId = some ship := by
  obtain ⟨change, shape, -⟩ := revised.ships shipId
  rw [shape]
  cases world.ships.find? shipId <;> simp

theorem Linked.revised (linked : Linked world) (revised : Revised world next) : Linked next := by
  constructor
  · rw [revised.tickets, revised.shipTickets]
    exact linked.tickets
  · intro shipId
    rw [revised.found shipId, revised.shipTickets]
    exact linked.ticketed shipId
  · intro subject shipId
    obtain ⟨change, shape, same⟩ := revised.ships shipId
    rw [revised.subjects, linked.subjects subject shipId, shape]
    cases world.ships.find? shipId with
    | none => simp
    | some ship => simp [(same ship).1]
  · intro shipId ship found
    obtain ⟨change, shape, same⟩ := revised.ships shipId
    rw [shape] at found
    obtain ⟨old, atOld, rfl⟩ := Option.map_eq_some_iff.mp found
    rw [(same old).1, (same old).2]
    exact linked.shown shipId old atOld

end MsgServer.Flight
