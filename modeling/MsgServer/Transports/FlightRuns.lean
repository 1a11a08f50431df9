import Mathlib.Logic.Function.Basic
import MsgServer.Library.Run
import MsgServer.Transports.FlightRegistry

/-!
Runs of one flight world. `Game` keeps beside the world the sequence numbers it has
accepted from each ship, under the id the ship now has: a change of projection moves
the history with the ship.
-/

namespace MsgServer.Flight

open Library

variable {τ β : Type} {limits : Limits τ} {world next : World τ β}

/-! What `join` finds out before it changes the world. -/

theorem requestedShip_some (linked : Linked world) {identity : Identity} {resume : Option String}
    {shipId : String} (asked : requestedShip world identity resume = .ok (some shipId)) :
    ∃ ship, world.ships.find? shipId = some ship ∧ ship.subjectId = identity.subjectId := by
  cases resume with
  | none =>
      simp only [requestedShip, Except.ok.injEq] at asked
      by_cases carries : identity.subjectId.isSome = true
      · rw [if_pos carries] at asked
        exact ((linked.subjects identity.subjectId shipId).mp asked).2
      · rw [if_neg carries] at asked
        cases asked
  | some ticket =>
      simp only [requestedShip, Program.except_bind_ok, require_ok, requireRow_ok,
        Program.except_pure, Except.ok.injEq, Option.some.injEq] at asked
      obtain ⟨_, -, other, -, ship, found, _, same, rfl⟩ := asked
      exact ⟨ship, found, same⟩

theorem requestedShip_none (linked : Linked world) {identity : Identity} {resume : Option String}
    (asked : requestedShip world identity resume = .ok none) :
    world.subjects.get identity.subjectId = none := by
  cases resume with
  | none =>
      simp only [requestedShip, Except.ok.injEq] at asked
      by_cases carries : identity.subjectId.isSome = true
      · rwa [if_pos carries] at asked
      · have anonymous : identity.subjectId = none := by simpa using carries
        cases held : world.subjects.get identity.subjectId with
        | none => rfl
        | some shipId => exact absurd anonymous ((linked.subjects _ shipId).mp held).1
  | some ticket =>
      simp [requestedShip, Program.except_bind_ok] at asked

theorem checkIdentity_public {identity : Identity} (checked : checkIdentity identity = .ok ()) :
    publicId identity = none ∨ publicId identity = identity.subjectId := by
  simp only [checkIdentity, Program.except_bind_ok, require_ok] at checked
  obtain ⟨_, -, _, -, _, shown, -⟩ := checked
  exact shown

/-- A join that was let in. -/
structure Let (limits : Limits τ) (world : World τ β) (entry : Entry τ β)
    (target : Option String) : Prop where
  shown : publicId entry.identity = none ∨ publicId entry.identity = entry.identity.subjectId
  idle : ∀ shipId ∈ target, shipId ∉ world.active
  seats : world.active.card < limits.maxPlayers
  returning : ∀ shipId ∈ target, ∃ ship, world.ships.find? shipId = some ship ∧
    ship.subjectId = entry.identity.subjectId
  unclaimed : target = none → world.subjects.get entry.identity.subjectId = none

/-- What `secrets` drew is in use nowhere. -/
def Fresh (world : World τ β) (draw : Draw) : Prop :=
  world.ships.find? draw.shipId = none ∧ world.tickets.get draw.ticket = none

instance (world : World τ β) (draw : Draw) : Decidable (Fresh world draw) :=
  decidable_of_iff ((world.ships.find? draw.shipId).isNone = true ∧
    world.tickets.get draw.ticket = none) (by simp [Fresh])

theorem Fewer.fresh (fewer : Fewer world next) {draw : Draw} (fresh : Fresh world draw) :
    Fresh next draw :=
  ⟨fewer.absent fresh.1, fewer.tickets _ fresh.2⟩

/-- The ship that a join makes or brings back, and the sequence number it has. -/
structure Comes (world next : World τ β) (target : Option String) (shipId : String) : Prop where
  others : ∀ otherId ship, next.ships.find? otherId = some ship → otherId ≠ shipId →
    world.ships.find? otherId = some ship
  born : target = none → ∀ ship, next.ships.find? shipId = some ship → ship.ackSeq = -1
  back : ∀ oldId ∈ target, ∀ ship, next.ships.find? shipId = some ship →
    ∃ old, world.ships.find? oldId = some old ∧ old.ackSeq = ship.ackSeq

/-! Boarding. -/

/-- A world in which one ship is about to become active. -/
structure Boardable (limits : Limits τ) (world : World τ β) (shipId : String) : Prop
    extends Linked world where
  active : ∀ otherId ∈ world.active, ∃ ship, world.ships.find? otherId = some ship
  seats : world.active.card < limits.maxPlayers
  retained : world.ships.rows.length ≤ limits.maxRetained
  offline : ∀ otherId ship, world.ships.find? otherId = some ship → otherId ∉ world.active →
    otherId ≠ shipId → ship.offlineSince.isSome = true
  aboard : ∃ ship, world.ships.find? shipId = some ship

theorem Boardable.manned {shipId : String} (boardable : Boardable limits world shipId)
    (shape : next = { world with active := insert shipId world.active }) :
    Registered limits next := by
  subst shape
  refine ⟨⟨boardable.tickets, boardable.ticketed, boardable.subjects, boardable.shown⟩,
    ?_, ?_, boardable.retained, ?_⟩
  · intro otherId inside
    rcases Finset.mem_insert.mp inside with rfl | before
    · exact boardable.aboard
    · exact boardable.active otherId before
  · have bound := Finset.card_insert_le shipId world.active
    have room := boardable.seats
    exact Nat.le_trans bound room
  · intro otherId ship found resting
    have apart : otherId ≠ shipId := fun same => resting (same ▸ Finset.mem_insert_self ..)
    exact boardable.offline otherId ship found
      (fun before => resting (Finset.mem_insert_of_mem before)) apart

theorem Registered.boardable (registered : Registered limits world) {shipId : String}
    {ship : Ship τ β} (seats : world.active.card < limits.maxPlayers)
    (found : world.ships.find? shipId = some ship) : Boardable limits world shipId :=
  { registered.toLinked with
    active := registered.active
    seats := seats
    retained := registered.retained
    offline := fun otherId other kept resting _ => registered.offline otherId other kept resting
    aboard := ⟨ship, found⟩ }

/-- A rewrite of one ship that keeps who flies it and whom it shows. -/
structure Keeps (change : Ship τ β → Ship τ β) : Prop where
  id : ∀ ship, (change ship).id = ship.id
  subject : ∀ ship, (change ship).subjectId = ship.subjectId
  shown : ∀ ship, (change ship).publicSubjectId = ship.publicSubjectId

theorem revise_found {change : Ship τ β → Ship τ β} (keeps : Keeps change) (shipId otherId : String) :
    (world.revise shipId change).ships.find? otherId =
      if otherId = shipId then (world.ships.find? otherId).map change
      else world.ships.find? otherId := by
  unfold World.revise
  by_cases same : otherId = shipId
  · subst same
    rw [if_pos rfl]
    exact Table.find?_modify_self world.ships otherId change keeps.id
  · rw [if_neg same]
    exact Table.find?_modify_ne world.ships change same

theorem revise_revised {change : Ship τ β → Ship τ β} (keeps : Keeps change) (shipId : String) :
    Revised world (world.revise shipId change) := by
  refine ⟨rfl, rfl, rfl, Table.length_modify .., ?_⟩
  intro otherId
  rw [revise_found keeps]
  by_cases same : otherId = shipId
  · exact ⟨change, if_pos same, fun ship => ⟨keeps.subject ship, keeps.shown ship⟩⟩
  · exact ⟨fun ship => ship, by simp [same], fun _ => ⟨rfl, rfl⟩⟩

theorem Boardable.revise {shipId : String} (boardable : Boardable limits world shipId)
    {change : Ship τ β → Ship τ β} (keeps : Keeps change) :
    Boardable limits (world.revise shipId change) shipId := by
  have revised : Revised world (world.revise shipId change) := revise_revised keeps shipId
  refine { boardable.toLinked.revised revised with
    active := ?_, seats := boardable.seats, retained := ?_, offline := ?_, aboard := ?_ }
  · intro otherId inside
    exact (revised.found otherId).mpr (boardable.active otherId inside)
  · rw [revised.count]
    exact boardable.retained
  · intro otherId ship found resting apart
    rw [revise_found keeps, if_neg apart] at found
    exact boardable.offline otherId ship found resting apart
  · exact (revised.found shipId).mpr boardable.aboard

theorem awake_keeps (physics : Physics τ β) : Keeps (awake physics : Ship τ β → Ship τ β) :=
  ⟨fun _ => rfl, fun _ => rfl, fun _ => rfl⟩

theorem handled_keeps (identity : Identity) : Keeps (handled identity : Ship τ β → Ship τ β) := by
  constructor <;> intro ship <;> unfold handled <;> split <;> rfl

theorem handled_ack (identity : Identity) (ship : Ship τ β) :
    (handled identity ship).ackSeq = ship.ackSeq := by
  unfold handled
  split <;> rfl

/-! Coming back. -/

/-- The world in which a returning ship already shows its present identity. -/
structure Shown (limits : Limits τ) (world shown : World τ β) (old current : Ship τ β) : Prop where
  boardable : Boardable limits shown current.id
  others : ∀ otherId ship, shown.ships.find? otherId = some ship → otherId ≠ current.id →
    world.ships.find? otherId = some ship
  back : ∀ ship, shown.ships.find? current.id = some ship → ship.ackSeq = old.ackSeq

theorem presented_same (registered : Registered limits world) {entry : Entry τ β} {old : Ship τ β}
    (seats : world.active.card < limits.maxPlayers)
    (found : world.ships.find? old.id = some old) :
    Shown limits world (world.revise old.id (handled entry.identity)) old
      (handled entry.identity old) := by
  have keeps := handled_keeps (τ := τ) (β := β) entry.identity
  have sameId := keeps.id old
  refine ⟨?_, ?_, ?_⟩
  · rw [sameId]
    exact (registered.boardable seats found).revise keeps
  · intro otherId ship there apart
    rw [sameId] at apart
    rwa [revise_found keeps, if_neg apart] at there
  · intro ship there
    rw [sameId, revise_found keeps, if_pos rfl, found] at there
    cases there
    exact handled_ack entry.identity old

theorem projected_newcomer (linked : Linked world) {left : World τ β} {entry : Entry τ β}
    {old : Ship τ β} (found : world.ships.find? old.id = some old)
    (removed : remove world old.id = .ok left) (fresh : Fresh world entry.draw)
    (named : old.subjectId ≠ none) : Newcomer left (projected entry old) entry.draw.ticket := by
  have fewer := remove_fewer removed
  refine ⟨fewer.absent fresh.1, fewer.tickets _ fresh.2, ?_, fun anonymous => absurd anonymous named⟩
  cases held : left.subjects.get (projected entry old).subjectId with
  | none => rfl
  | some shipId =>
      obtain ⟨-, other, kept, same⟩ := ((linked.remove removed).subjects _ shipId).mp held
      have equal := linked.untaken old.subjectId old.id found shipId other
        (fewer.ships shipId other kept) same rfl named
      rw [equal, remove_gone removed] at kept
      cases kept

theorem dock_found (left : World τ β) (ship : Ship τ β) (ticket otherId : String) :
    (dock (claim left ship) ship ticket).ships.find? otherId =
      if ship.id = otherId then some ship else left.ships.find? otherId := by
  simp only [dock, (claim_ships left ship).1, Table.find?_put]

theorem dock_active (left : World τ β) (ship : Ship τ β) (ticket : String) :
    (dock (claim left ship) ship ticket).active = left.active :=
  (claim_ships left ship).2.2.2

theorem Registered.docked (registered : Registered limits world) {ship : Ship τ β}
    {ticket : String} (newcomer : Newcomer world ship ticket)
    (seats : world.active.card < limits.maxPlayers)
    (room : world.ships.rows.length < limits.maxRetained) :
    Boardable limits (dock (claim world ship) ship ticket) ship.id := by
  refine { registered.toLinked.dock newcomer with
    active := ?_, seats := ?_, retained := ?_, offline := ?_, aboard := ?_ }
  · intro otherId inside
    rw [dock_active] at inside
    rw [dock_found]
    by_cases mine : ship.id = otherId
    · exact ⟨ship, if_pos mine⟩
    · rw [if_neg mine]
      exact registered.active otherId inside
  · rw [dock_active]
    exact seats
  · have count : (dock (claim world ship) ship ticket).ships.rows.length =
        world.ships.rows.length + 1 := by
      simp only [dock, (claim_ships world ship).1]
      exact Table.length_put_fresh newcomer.unseen
    omega
  · intro otherId other there resting apart
    rw [dock_found, if_neg (Ne.symm apart)] at there
    rw [dock_active] at resting
    exact registered.offline otherId other there resting
  · exact ⟨ship, by rw [dock_found, if_pos rfl]⟩

theorem changeProjection_shown (registered : Registered limits world) {entry : Entry τ β}
    {old current : Ship τ β} (seats : world.active.card < limits.maxPlayers)
    (found : world.ships.find? old.id = some old) (idle : old.id ∉ world.active)
    (fresh : Fresh world entry.draw) (named : old.subjectId ≠ none)
    (changed : changeProjection world entry old = .ok (next, current)) :
    Shown limits world next old current := by
  simp only [changeProjection, Program.except_bind_ok, Program.except_pure, Except.ok.injEq,
    Prod.mk.injEq] at changed
  obtain ⟨left, removed, rfl, rfl⟩ := changed
  have fewer := remove_fewer removed
  have newcomer := projected_newcomer registered.toLinked found removed fresh named
  have claimed : enlist left (projected entry old) = claim left (projected entry old) := by
    have carries : (projected entry old).subjectId.isSome = true :=
      Option.isSome_iff_ne_none.mpr named
    simp [claim, carries]
  have shorter := remove_length removed
  have bound := registered.retained
  rw [claimed]
  refine ⟨(registered.remove removed idle).docked newcomer (fewer.active ▸ seats) (by omega),
    ?_, ?_⟩
  · intro otherId ship there apart
    rw [dock_found, if_neg (Ne.symm apart)] at there
    exact fewer.ships otherId ship there
  · intro ship there
    rw [dock_found, if_pos rfl] at there
    cases there
    rfl

theorem presented_shown (registered : Registered limits world) {entry : Entry τ β}
    {target : Option String} (admitted : Let limits world entry target)
    (fresh : Fresh world entry.draw) {old current : Ship τ β}
    (found : world.ships.find? old.id = some old) (asked : old.id ∈ target)
    (changed : presented world entry old = .ok (next, current)) :
    Shown limits world next old current := by
  unfold presented at changed
  by_cases same : old.publicSubjectId = publicId entry.identity
  · rw [if_pos same] at changed
    cases changed
    exact presented_same registered admitted.seats found
  · rw [if_neg same] at changed
    -- An anonymous ship shows nobody, and so does whoever may resume it.
    have named : old.subjectId ≠ none := by
      intro anonymous
      obtain ⟨again, there, owner⟩ := admitted.returning old.id asked
      rw [found] at there
      cases there
      rw [registered.shown old.id old found anonymous] at same
      rcases admitted.shown with hidden | open'
      · exact same hidden.symm
      · exact same (open'.trans (owner.symm.trans anonymous)).symm
    exact changeProjection_shown registered admitted.seats found (admitted.idle old.id asked) fresh
      named changed

theorem resumeShip_ok (registered : Registered limits world) {entry : Entry τ β}
    {shipId : String} {answer : String × String}
    (admitted : Let limits world entry (some shipId)) (fresh : Fresh world entry.draw)
    (resumed : resumeShip world entry shipId = .ok (next, answer)) :
    Registered limits next ∧ Comes world next (some shipId) answer.1 := by
  simp only [resumeShip, Program.except_bind_ok, requireRow_ok, Program.except_pure,
    Except.ok.injEq, Prod.exists, Prod.mk.injEq] at resumed
  obtain ⟨old, found, shown, current, changed, ticket, held, rfl, rfl⟩ := resumed
  have sameId := Table.find?_key found
  subst sameId
  have display := presented_shown registered admitted fresh found rfl changed
  have keeps := awake_keeps (τ := τ) entry.physics
  have after : ∀ otherId, (board (shown.revise current.id (awake entry.physics)) current).ships.find?
      otherId = if otherId = current.id then (shown.ships.find? otherId).map (awake entry.physics)
        else shown.ships.find? otherId := fun otherId => revise_found keeps current.id otherId
  refine ⟨(display.boardable.revise keeps).manned rfl, ?_,
    (fun absurdly => by cases absurdly), ?_⟩
  · intro otherId ship there apart
    rw [after, if_neg apart] at there
    exact display.others otherId ship there apart
  · intro oldId same ship there
    cases same
    rw [after, if_pos rfl] at there
    obtain ⟨before, atShown, rfl⟩ := Option.map_eq_some_iff.mp there
    exact ⟨old, found, (display.back before atShown).symm⟩

/-! A new ship. -/

theorem Fewer.unclaimed (fewer : Fewer world next) (before : Linked world) (after : Linked next)
    {subject : Option String} (unclaimed : world.subjects.get subject = none) :
    next.subjects.get subject = none := by
  cases held : next.subjects.get subject with
  | none => rfl
  | some shipId =>
      obtain ⟨carries, ship, found, owner⟩ := (after.subjects subject shipId).mp held
      have claimed := (before.subjects subject shipId).mpr
        ⟨carries, ship, fewer.ships shipId ship found, owner⟩
      rw [unclaimed] at claimed
      cases claimed

theorem newShip_ok [LinearOrder τ] (registered : Registered limits world) {entry : Entry τ β}
    {answer : String × String} (admitted : Let limits world entry none)
    (fresh : Fresh world entry.draw) (made : newShip limits world entry = .ok (next, answer)) :
    Registered limits next ∧ Comes world next none answer.1 := by
  simp only [newShip, Program.except_bind_ok, Program.except_pure, Except.ok.injEq,
    Prod.mk.injEq] at made
  obtain ⟨left, freed, rfl, rfl⟩ := made
  obtain ⟨_, same, kept, fewer, room⟩ := registered.freeRetainedSlot admitted.seats
  rw [freed] at same
  cases same
  have drawn := fewer.fresh fresh
  have newcomer : Newcomer left (newborn entry) entry.draw.ticket := by
    refine ⟨drawn.1, drawn.2, ?_, ?_⟩
    · exact fewer.unclaimed registered.toLinked kept.toLinked (admitted.unclaimed rfl)
    · intro anonymous
      rcases admitted.shown with hidden | open'
      · exact hidden
      · exact open'.trans anonymous
  have swapped : dock (claim (board left (newborn entry)) (newborn entry)) (newborn entry)
      entry.draw.ticket =
        board (dock (claim left (newborn entry)) (newborn entry) entry.draw.ticket)
          (newborn entry) := by
    unfold claim
    by_cases carries : (newborn entry).subjectId.isSome = true
    · simp [carries, dock, board, enlist]
    · simp [carries, dock, board]
  have boardable := kept.docked newcomer (fewer.active ▸ admitted.seats) room
  have found := dock_found left (newborn entry) entry.draw.ticket
  rw [swapped]
  refine ⟨boardable.manned rfl, ?_, ?_, fun _ absurdly => by cases absurdly⟩
  · intro otherId ship there apart
    have placed := (found otherId).symm.trans there
    rw [if_neg (show (newborn entry).id ≠ otherId from Ne.symm apart)] at placed
    exact fewer.ships otherId ship placed
  · intro _ ship there
    have placed := (found entry.draw.shipId).symm.trans there
    rw [if_pos (show (newborn entry).id = entry.draw.shipId from rfl)] at placed
    cases placed
    rfl

/-! Joining. -/

theorem Linked.clocked (linked : Linked world) (now : τ) :
    Linked { world with lastStep := now } :=
  ⟨linked.tickets, linked.ticketed, linked.subjects, linked.shown⟩

theorem Registered.clocked (registered : Registered limits world) (now : τ) :
    Registered limits { world with lastStep := now } :=
  { registered.toLinked.clocked now with
    active := registered.active
    seats := registered.seats
    retained := registered.retained
    offline := registered.offline }

section Join

variable [LinearOrder τ]

theorem resumedClock_shape (now : τ) (world : World τ β) :
    ∃ time, resumedClock now world = { world with lastStep := time } := by
  unfold resumedClock
  split
  · exact ⟨now, rfl⟩
  · exact ⟨world.lastStep, rfl⟩

theorem enter_ok (registered : Registered limits world) {entry : Entry τ β}
    {resume : Option String} {answer : String × String} (fresh : Fresh world entry.draw)
    (entered : enter limits world entry resume = .ok (next, answer)) :
    Registered limits next ∧ ∃ target, requestedShip world entry.identity resume = .ok target ∧
      Comes world next target answer.1 := by
  simp only [enter, Program.except_bind_ok, require_ok] at entered
  obtain ⟨_, checked, target, asked, _, idle, _, seats, admitted⟩ := entered
  have shown := checkIdentity_public checked
  obtain ⟨time, shape⟩ := resumedClock_shape entry.now world
  rw [shape] at admitted
  have clocked := registered.clocked time
  cases target with
  | none =>
      have unclaimed := requestedShip_none registered.toLinked asked
      have done := newShip_ok clocked
        ⟨shown, idle, seats, fun _ absurdly => (by cases absurdly), fun _ => unclaimed⟩ fresh admitted
      exact ⟨done.1, none, asked, done.2.others, done.2.born, done.2.back⟩
  | some shipId =>
      have returning := requestedShip_some registered.toLinked asked
      have done := resumeShip_ok clocked
        ⟨shown, idle, seats, fun _ same => Option.some.inj same ▸ returning,
          fun absurdly => by cases absurdly⟩ fresh admitted
      exact ⟨done.1, some shipId, asked, done.2.others, done.2.born, done.2.back⟩

theorem join_registered (registered : Registered limits world) (entry : Entry τ β)
    (resume : Option String) (fresh : Fresh world entry.draw) :
    Registered limits (join limits world entry resume).1 := by
  obtain ⟨pruned, done, kept, fewer⟩ := registered.prune entry.now
  simp only [join, done]
  cases outcome : enter limits pruned entry resume with
  | error failure => exact kept
  | ok result =>
      obtain ⟨next, answer⟩ := result
      exact (enter_ok kept (fewer.fresh fresh) outcome).1

end Join

/-! The other calls. -/

theorem grounded_keeps (now : τ) (physics : Physics τ β) :
    Keeps (grounded now physics : Ship τ β → Ship τ β) :=
  ⟨fun _ => rfl, fun _ => rfl, fun _ => rfl⟩

theorem Registered.revised (registered : Registered limits world) (revised : Revised world next)
    (crew : next.active = world.active)
    (resting : ∀ shipId ship, next.ships.find? shipId = some ship →
      ∃ old, world.ships.find? shipId = some old ∧ ship.offlineSince = old.offlineSince) :
    Registered limits next := by
  refine { registered.toLinked.revised revised with
    active := ?_, seats := ?_, retained := ?_, offline := ?_ }
  · intro shipId inside
    exact (revised.found shipId).mpr (registered.active shipId (crew ▸ inside))
  · rw [crew]
    exact registered.seats
  · rw [revised.count]
    exact registered.retained
  · intro shipId ship found idle
    obtain ⟨old, before, same⟩ := resting shipId ship found
    rw [same]
    exact registered.offline shipId old before (crew ▸ idle)

theorem leave_registered (registered : Registered limits world) (now : τ) (physics : Physics τ β)
    (shipId : String) : Registered limits (leave world now physics shipId) := by
  unfold leave
  by_cases inside : shipId ∈ world.active
  · rw [if_pos inside]
    have keeps := grounded_keeps (τ := τ) now physics
    have revised : Revised { world with active := world.active.erase shipId }
        ({ world with active := world.active.erase shipId }.revise shipId
          (grounded now physics)) := revise_revised keeps shipId
    have linked : Linked { world with active := world.active.erase shipId } :=
      ⟨registered.tickets, registered.ticketed, registered.subjects, registered.shown⟩
    refine { linked.revised revised with active := ?_, seats := ?_, retained := ?_, offline := ?_ }
    · intro otherId kept
      exact (revised.found otherId).mpr (registered.active otherId (Finset.mem_of_mem_erase kept))
    · exact Nat.le_trans (Finset.card_erase_le ..) registered.seats
    · rw [revised.count]
      exact registered.retained
    · intro otherId ship found idle
      rw [revise_found keeps] at found
      by_cases mine : otherId = shipId
      · rw [if_pos mine] at found
        obtain ⟨old, -, rfl⟩ := Option.map_eq_some_iff.mp found
        rfl
      · rw [if_neg mine] at found
        exact registered.offline otherId ship found fun before =>
          idle (Finset.mem_erase.mpr ⟨mine, before⟩)
  · rw [if_neg inside]
    exact registered

theorem simulate_found (world : World τ β) (physics : Physics τ β) (shipId : String) :
    (simulate world physics).ships.find? shipId = (world.ships.find? shipId).map fun ship =>
      if ship.id ∈ world.active then withBody physics ship else ship := by
  refine Table.find?_rewrite world.ships _ ?_ shipId
  intro ship
  split <;> rfl

theorem simulate_revised (world : World τ β) (physics : Physics τ β) :
    Revised world (simulate world physics) := by
  refine ⟨rfl, rfl, rfl, by simp [simulate, Table.rewrite], fun shipId =>
    ⟨_, simulate_found world physics shipId, ?_⟩⟩
  intro ship
  split
  · exact ⟨rfl, rfl⟩
  · exact ⟨rfl, rfl⟩

/-- The physics touches no sequence number and brings nobody offline. -/
theorem simulate_ship {physics : Physics τ β} {shipId : String} {ship : Ship τ β}
    (found : (simulate world physics).ships.find? shipId = some ship) :
    ∃ old, world.ships.find? shipId = some old ∧ ship.ackSeq = old.ackSeq ∧
      ship.offlineSince = old.offlineSince := by
  rw [simulate_found] at found
  obtain ⟨old, before, rfl⟩ := Option.map_eq_some_iff.mp found
  refine ⟨old, before, ?_⟩
  split
  · exact ⟨rfl, rfl⟩
  · exact ⟨rfl, rfl⟩

theorem simulate_registered (registered : Registered limits world) (physics : Physics τ β) :
    Registered limits (simulate world physics) :=
  registered.revised (simulate_revised world physics) rfl fun _ _ found => by
    obtain ⟨old, before, -, same⟩ := simulate_ship found
    exact ⟨old, before, same⟩

theorem acknowledge_keeps (seq : Int) : Keeps (acknowledge seq : Ship τ β → Ship τ β) :=
  ⟨fun _ => rfl, fun _ => rfl, fun _ => rfl⟩

theorem relabel_keeps (handle : String) :
    Keeps fun ship : Ship τ β => { ship with handle := handle } :=
  ⟨fun _ => rfl, fun _ => rfl, fun _ => rfl⟩

theorem revise_registered (registered : Registered limits world)
    {change : Ship τ β → Ship τ β} (keeps : Keeps change)
    (resting : ∀ ship, (change ship).offlineSince = ship.offlineSince) (shipId : String) :
    Registered limits (world.revise shipId change) := by
  refine registered.revised (revise_revised keeps shipId) rfl ?_
  intro otherId ship found
  rw [revise_found keeps] at found
  by_cases mine : otherId = shipId
  · rw [if_pos mine] at found
    obtain ⟨old, before, rfl⟩ := Option.map_eq_some_iff.mp found
    exact ⟨old, before, resting old⟩
  · rw [if_neg mine] at found
    exact ⟨ship, found, rfl⟩

theorem input_registered (registered : Registered limits world) (physics : Physics τ β)
    (shipId : String) (packet : Packet) :
    Registered limits (input world physics shipId packet).1 := by
  unfold input
  by_cases valid : shipId ∈ world.active ∧ validInput packet = true
  · rw [if_pos valid]
    cases found : world.ships.find? shipId with
    | none => exact registered
    | some ship =>
        dsimp only
        by_cases late : packet.seq ≤ ship.ackSeq
        · rw [if_pos late]
          exact registered
        · rw [if_neg late]
          exact simulate_registered
            (revise_registered registered (acknowledge_keeps packet.seq) (fun _ => rfl) shipId) physics
  · rw [if_neg valid]
    exact registered


/-! Runs. -/

/-- `history` lists the sequence numbers accepted from the ship that now has this id. -/
structure Game (τ β : Type) where
  world : World τ β
  history : String → List Int

/-- `relabel` is the handle that flight_space.py writes into a ship; `changeRegion` moves a
ship and nothing else. -/
inductive Call (τ β : Type) where
  | join (entry : Entry τ β) (resume : Option String)
  | leave (now : τ) (physics : Physics τ β) (shipId : String)
  | input (physics : Physics τ β) (shipId : String) (packet : Packet)
  | changeRegion (physics : Physics τ β)
  | relabel (shipId handle : String)
  | step (now : τ) (physics : Physics τ β)
  | snapshot (now : τ)
  | clear (now : τ)

def settled (world : World τ β) : Except Failure (World τ β) → World τ β
  | .ok next => next
  | .error _ => world

def extended (history : List Int) (accepted : Bool) (seq : Int) : List Int :=
  if accepted = true then history ++ [seq] else history

section Runs

variable [LinearOrder τ]

/-- A returning ship brings the history of the ship it was. -/
def inherited (limits : Limits τ) (game : Game τ β) (entry : Entry τ β) (resume : Option String) :
    List Int :=
  match prune limits entry.now game.world with
  | .error _ => []
  | .ok pruned =>
      match requestedShip pruned entry.identity resume with
      | .ok (some shipId) => game.history shipId
      | _ => []

def arrival (limits : Limits τ) (game : Game τ β) (entry : Entry τ β) (resume : Option String) :
    Game τ β :=
  let result := join limits game.world entry resume
  match result.2 with
  | .error _ => { game with world := result.1 }
  | .ok (shipId, _) =>
      ⟨result.1, Function.update game.history shipId (inherited limits game entry resume)⟩

def advance (limits : Limits τ) (call : Call τ β) (game : Game τ β) : Game τ β :=
  match call with
  | .join entry resume =>
      if Fresh game.world entry.draw then arrival limits game entry resume else game
  | .leave now physics shipId => { game with world := leave game.world now physics shipId }
  | .input physics shipId packet =>
      let result := input game.world physics shipId packet
      ⟨result.1, Function.update game.history shipId
        (extended (game.history shipId) result.2 packet.seq)⟩
  | .changeRegion physics => { game with world := simulate game.world physics }
  | .relabel shipId handle =>
      { game with world := game.world.revise shipId fun ship => { ship with handle := handle } }
  | .step now physics =>
      { game with world := settled game.world (tick limits game.world now physics) }
  | .snapshot now => { game with world := settled game.world (prune limits now game.world) }
  | .clear now => { game with world := World.empty now }

/-- The accepted numbers rise, and the last one is the one the ship acknowledges. -/
structure Sequence (history : List Int) (ackSeq : Int) : Prop where
  increasing : history.Pairwise (· < ·)
  bounded : ∀ seq ∈ history, seq ≤ ackSeq
  last : ackSeq = history.getLastD (-1)

theorem sequence_empty : Sequence [] (-1) :=
  ⟨List.Pairwise.nil, fun _ inside => (nomatch inside), rfl⟩

theorem Sequence.append {history : List Int} {ackSeq seq : Int} (sequence : Sequence history ackSeq)
    (later : ackSeq < seq) : Sequence (history ++ [seq]) seq := by
  refine ⟨?_, ?_, by simp⟩
  · apply List.pairwise_append.mpr
    refine ⟨sequence.increasing, List.pairwise_singleton _ _, ?_⟩
    intro old inside new last
    have bound := sequence.bounded old inside
    rw [List.mem_singleton] at last
    omega
  · intro old inside
    rcases List.mem_append.mp inside with before | last
    · have bound := sequence.bounded old before
      omega
    · rw [List.mem_singleton] at last
      omega

/-- What holds of a game at all times. -/
structure Sound (limits : Limits τ) (game : Game τ β) : Prop where
  registered : Registered limits game.world
  sequences : ∀ shipId ship, game.world.ships.find? shipId = some ship →
    Sequence (game.history shipId) ship.ackSeq

theorem Sound.same {game : Game τ β} (sound : Sound limits game) {world : World τ β}
    (registered : Registered limits world)
    (acks : ∀ shipId ship, world.ships.find? shipId = some ship →
      ∃ old, game.world.ships.find? shipId = some old ∧ ship.ackSeq = old.ackSeq) :
    Sound limits { game with world := world } := by
  refine ⟨registered, ?_⟩
  intro shipId ship found
  obtain ⟨old, before, same⟩ := acks shipId ship found
  rw [same]
  exact sound.sequences shipId old before

theorem revise_ack {change : Ship τ β → Ship τ β} (keeps : Keeps change)
    (same : ∀ ship, (change ship).ackSeq = ship.ackSeq) {shipId otherId : String} {ship : Ship τ β}
    (found : (world.revise shipId change).ships.find? otherId = some ship) :
    ∃ old, world.ships.find? otherId = some old ∧ ship.ackSeq = old.ackSeq := by
  rw [revise_found keeps] at found
  by_cases mine : otherId = shipId
  · rw [if_pos mine] at found
    obtain ⟨old, before, rfl⟩ := Option.map_eq_some_iff.mp found
    exact ⟨old, before, same old⟩
  · rw [if_neg mine] at found
    exact ⟨ship, found, rfl⟩

theorem sound_arrival {game : Game τ β} (sound : Sound limits game) (entry : Entry τ β)
    (resume : Option String) (fresh : Fresh game.world entry.draw) :
    Sound limits (arrival limits game entry resume) := by
  have registered := join_registered sound.registered entry resume fresh
  obtain ⟨pruned, done, kept, fewer⟩ := sound.registered.prune entry.now
  have thinned : ∀ shipId ship, pruned.ships.find? shipId = some ship →
      Sequence (game.history shipId) ship.ackSeq := fun shipId ship found =>
    sound.sequences shipId ship (fewer.ships shipId ship found)
  unfold arrival
  simp only [join, done] at registered ⊢
  cases outcome : enter limits pruned entry resume with
  | error failure => exact ⟨kept, thinned⟩
  | ok result =>
      obtain ⟨next, shipId, ticket⟩ := result
      simp only [outcome] at registered
      obtain ⟨-, target, asked, comes⟩ := enter_ok kept (fewer.fresh fresh) outcome
      refine ⟨registered, ?_⟩
      intro otherId ship found
      by_cases mine : otherId = shipId
      · subst mine
        simp only [inherited, done, asked, Function.update_self]
        cases target with
        | none =>
            rw [comes.born rfl ship found]
            exact sequence_empty
        | some oldId =>
            obtain ⟨old, before, same⟩ := comes.back oldId rfl ship found
            rw [← same]
            exact thinned oldId old before
      · simp only [Function.update_of_ne mine]
        exact thinned otherId ship (comes.others otherId ship found mine)

theorem sound_input {game : Game τ β} (sound : Sound limits game) (physics : Physics τ β)
    (shipId : String) (packet : Packet) :
    Sound limits (advance limits (.input physics shipId packet) game) := by
  refine ⟨input_registered sound.registered physics shipId packet, ?_⟩
  intro otherId ship found
  simp only [advance, input] at found ⊢
  by_cases valid : shipId ∈ game.world.active ∧ validInput packet = true
  · rw [if_pos valid] at found ⊢
    cases there : game.world.ships.find? shipId with
    | none =>
        simp only [there, extended, Bool.false_eq_true, ↓reduceIte, Function.update_eq_self] at found ⊢
        exact sound.sequences otherId ship found
    | some old =>
        simp only [there] at found ⊢
        by_cases late : packet.seq ≤ old.ackSeq
        · simp only [if_pos late, extended, Bool.false_eq_true, ↓reduceIte,
            Function.update_eq_self] at found ⊢
          exact sound.sequences otherId ship found
        · simp only [if_neg late, extended, ↓reduceIte] at found ⊢
          obtain ⟨revised, before, same, -⟩ := simulate_ship found
          rw [same]
          rw [revise_found (acknowledge_keeps packet.seq)] at before
          by_cases mine : otherId = shipId
          · subst mine
            rw [if_pos rfl, there] at before
            cases before
            rw [Function.update_self]
            exact (sound.sequences otherId old there).append (Int.lt_of_not_ge late)
          · rw [if_neg mine] at before
            rw [Function.update_of_ne mine]
            exact sound.sequences otherId revised before
  · rw [if_neg valid] at found ⊢
    simp only [extended, Bool.false_eq_true, ↓reduceIte, Function.update_eq_self] at found ⊢
    exact sound.sequences otherId ship found

theorem sound_pruned {game : Game τ β} (sound : Sound limits game) (now : τ) :
    Sound limits { game with world := settled game.world (prune limits now game.world) } := by
  obtain ⟨pruned, done, kept, fewer⟩ := sound.registered.prune now
  rw [done]
  exact sound.same kept fun shipId ship found => ⟨ship, fewer.ships shipId ship found, rfl⟩

theorem empty_registered (limits : Limits τ) (now : τ) :
    Registered limits (World.empty now : World τ β) := by
  refine ⟨⟨?_, ?_, ?_, ?_⟩, ?_, Nat.zero_le _, Nat.zero_le _, ?_⟩
  · intro shipId ticket
    simp [World.empty]
  · intro shipId
    constructor
    · rintro ⟨_, found⟩
      cases found
    · rintro ⟨_, found⟩
      cases found
  · intro subject shipId
    constructor
    · intro found
      cases found
    · rintro ⟨_, _, found, _⟩
      cases found
  · intro shipId ship found
    cases found
  · intro shipId inside
    simp [World.empty] at inside
  · intro shipId ship found
    cases found

theorem advance_sound (call : Call τ β) (game : Game τ β) (sound : Sound limits game) :
    Sound limits (advance limits call game) := by
  cases call with
  | join entry resume =>
      simp only [advance]
      by_cases fresh : Fresh game.world entry.draw
      · rw [if_pos fresh]
        exact sound_arrival sound entry resume fresh
      · rw [if_neg fresh]
        exact sound
  | leave now physics shipId =>
      refine sound.same (leave_registered sound.registered now physics shipId) ?_
      intro otherId ship found
      unfold leave at found
      by_cases inside : shipId ∈ game.world.active
      · rw [if_pos inside] at found
        exact revise_ack (grounded_keeps now physics) (fun _ => rfl) found
      · rw [if_neg inside] at found
        exact ⟨ship, found, rfl⟩
  | input physics shipId packet => exact sound_input sound physics shipId packet
  | changeRegion physics =>
      refine sound.same (simulate_registered sound.registered physics) ?_
      intro shipId ship found
      obtain ⟨old, before, same, -⟩ := simulate_ship found
      exact ⟨old, before, same⟩
  | relabel shipId handle =>
      exact sound.same (revise_registered sound.registered (relabel_keeps handle) (fun _ => rfl) shipId)
        fun _ _ found => revise_ack (relabel_keeps handle) (fun _ => rfl) found
  | step now physics =>
      simp only [advance, tick]
      by_cases past : now < game.world.lastStep
      · rw [if_pos past]
        exact sound
      · rw [if_neg past]
        have simulated : Sound limits
            { game with world := { simulate game.world physics with lastStep := now } } := by
          refine sound.same ((simulate_registered sound.registered physics).clocked now) ?_
          intro shipId ship found
          obtain ⟨old, before, same, -⟩ := simulate_ship found
          exact ⟨old, before, same⟩
        obtain ⟨pruned, done, kept, fewer⟩ := simulated.registered.prune now
        simp only at done
        rw [done]
        exact simulated.same kept fun shipId ship found => ⟨ship, fewer.ships shipId ship found, rfl⟩
  | snapshot now => exact sound_pruned sound now
  | clear now =>
      refine ⟨empty_registered limits now, ?_⟩
      intro shipId ship found
      cases found

/-- In every reachable state: the maps of the world fit, `_free_retained_slot` finds a ship to
give up whenever `join` calls it, and the numbers accepted from a ship rise up to the one it
acknowledges. -/
theorem registry_invariant (limits : Limits τ) (now : τ) (calls : List (Call τ β)) :
    let game := Run.run (advance limits) calls ⟨World.empty now, fun _ => []⟩
    Registered limits game.world ∧
      (∀ time pruned, prune limits time game.world = .ok pruned →
        pruned.active.card < limits.maxPlayers →
          ∃ next, freeRetainedSlot limits (resumedClock time pruned) = .ok next) ∧
      ∀ shipId ship, game.world.ships.find? shipId = some ship →
        Sequence (game.history shipId) ship.ackSeq := by
  intro game
  have sound : Sound limits game :=
    Run.run_invariant (advance limits) advance_sound calls _
      ⟨empty_registered limits now, fun _ _ found => by cases found⟩
  refine ⟨sound.registered, ?_, sound.sequences⟩
  intro time pruned done seats
  obtain ⟨_, same, kept, -⟩ := sound.registered.prune time
  rw [done] at same
  cases same
  obtain ⟨clock, shape⟩ := resumedClock_shape time pruned
  rw [shape]
  obtain ⟨next, freed, -⟩ := (kept.clocked clock).freeRetainedSlot seats
  exact ⟨next, freed⟩

end Runs

end MsgServer.Flight
