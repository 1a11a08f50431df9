import Mathlib.Data.Rat.Floor
import Mathlib.Tactic.Ring
import MsgServer.Transports.Collectibles

/-!
The gravity wells of transports/flight_simulation.py: the projection that a world accepts,
its spatial index and the wells that act on one ship. What a ship carries besides its place
and its identity is left out.
-/

namespace MsgServer.GravityWells

open Library

open Collectibles (Point distSquared)

variable {α : Type} [Field α] [LinearOrder α] [IsStrictOrderedRing α] [FloorRing α]

-- What the numerals of a well need, under a name of its own.
local instance threeNonzero : NeZero 3 := inferInstance

local instance threeLarge : Nat.AtLeastTwo 3 := inferInstance

local instance sevenLarge : Nat.AtLeastTwo 7 := inferInstance

local instance eightLarge : Nat.AtLeastTwo 8 := inferInstance

def maxGravityWells : Nat := 256

def gravityCellSize : α := 48

structure GravityWell (α : Type) where
  id : String
  position : Point α
  radius : α

def GravityWell.influence (well : GravityWell α) : α := max 36 (well.radius * 8)

/-- The checks on one record, of which the types of its fields are left out. -/
def ValidRecord (seen : List String) (record : GravityWell α) : Prop :=
  1 ≤ record.id.length ∧ record.id.length ≤ 160 ∧ record.id ∉ seen ∧
    distSquared 0 record.position ≤ (400000001 / 1000000) * (400000001 / 1000000) ∧
    1 ≤ record.radius ∧ record.radius ≤ 6

instance (seen : List String) (record : GravityWell α) : Decidable (ValidRecord seen record) :=
  inferInstanceAs (Decidable (_ ∧ _ ∧ _ ∧ _ ∧ _ ∧ _))

def readRecords : List String → List (GravityWell α) → Except Failure (List (GravityWell α))
  | _, [] => .ok []
  | seen, record :: rest => do
      require (ValidRecord seen record) "invalid_gravity_wells"
      let wells ← readRecords (record.id :: seen) rest
      return record :: wells

/-- The part of `FlightWorld` that holds the wells. -/
structure Gravity (α : Type) where
  wells : List (GravityWell α)
  cells : Grid.Cell → List (GravityWell α)
  order : String → Nat
  ready : Bool

def Gravity.empty : Gravity α :=
  { wells := [], cells := fun _ => [], order := fun _ => 0, ready := false }

def setGravityWells (records : List (GravityWell α)) : Except Failure (Gravity α) := do
  require (records.length ≤ maxGravityWells) "invalid_gravity_wells"
  let wells ← readRecords [] records
  return { wells := wells
           cells := Grid.index (fun well => Grid.cellOf gravityCellSize well.position) wells
           order := fun id => wells.findIdx fun well => well.id = id
           ready := true }

structure Ship (α : Type) where
  id : String
  position : Point α
  spawnPosition : Point α
  subjectId : Option String
  publicSubjectId : Option String

/-- The well of a ship's own home, which no projection shows. -/
def home (gravity : Gravity α) (ship : Ship α) : List (GravityWell α) :=
  if gravity.ready ∧ ship.subjectId.getD "" ≠ "" ∧ ship.publicSubjectId = none then
    [{ id := "flight_home_" ++ ship.id
       position := fun axis => if axis = 1 then ship.spawnPosition axis - 7
         else ship.spawnPosition axis
       radius := 3 }]
  else []

/-- The wells in the cells around the cell of the ship. -/
def probed (gravity : Gravity α) (ship : Ship α) : List (GravityWell α) :=
  let cell := Grid.cellOf gravityCellSize ship.position
  (Grid.box (fun axis => cell axis - 1) fun axis => cell axis + 1).flatMap gravity.cells

def nearWells (gravity : Gravity α) (ship : Ship α) : List (GravityWell α) :=
  (probed gravity ship).insertionSort
      (fun first second => gravity.order first.id ≤ gravity.order second.id) ++
    home gravity ship

/-- The influence radius of the well contains the place. -/
def Reaches (place : Point α) (well : GravityWell α) : Prop :=
  distSquared place well.position ≤ well.influence * well.influence

instance (place : Point α) (well : GravityWell α) : Decidable (Reaches place well) :=
  inferInstanceAs (Decidable (_ ≤ _))

/-! What an accepted projection is -/

omit [IsStrictOrderedRing α] [FloorRing α] in
theorem readRecords_ok {seen : List String} {records wells : List (GravityWell α)}
    (done : readRecords seen records = .ok wells) :
    wells = records ∧ (records.map GravityWell.id).Nodup ∧
      ∀ well ∈ records, well.id ∉ seen ∧ 1 ≤ well.radius ∧ well.radius ≤ 6 := by
  induction records generalizing seen wells with
  | nil =>
      simp only [readRecords, Except.ok.injEq] at done
      simp [← done]
  | cons record rest ih =>
      simp only [readRecords, Program.except_bind_ok, require_ok, exists_const,
        Program.except_pure, Except.ok.injEq] at done
      obtain ⟨valid, more, read, rfl⟩ := done
      obtain ⟨rfl, once, each⟩ := ih read
      refine ⟨rfl, ?_, ?_⟩
      · rw [List.map_cons, List.nodup_cons]
        refine ⟨fun twice => ?_, once⟩
        obtain ⟨well, member, same⟩ := List.mem_map.mp twice
        exact (each well member).1 (by simp [same])
      · intro well member
        rcases List.mem_cons.mp member with rfl | later
        · exact ⟨valid.2.2.1, valid.2.2.2.2.1, valid.2.2.2.2.2⟩
        · have facts := each well later
          exact ⟨fun early => facts.1 (by simp [early]), facts.2⟩

omit [Field α] [LinearOrder α] [IsStrictOrderedRing α] [FloorRing α] in
/-- The descriptor order of the wells is the order of their list. -/
theorem order_increases {wells : List (GravityWell α)} (once : (wells.map GravityWell.id).Nodup) :
    wells.Pairwise fun first second =>
      (wells.findIdx fun well => well.id = first.id) <
        wells.findIdx fun well => well.id = second.id := by
  induction wells with
  | nil => exact .nil
  | cons well rest ih =>
      rw [List.map_cons, List.nodup_cons] at once
      have differ : ∀ other ∈ rest, well.id ≠ other.id := fun other member same =>
        once.1 (List.mem_map.mpr ⟨other, member, same.symm⟩)
      constructor
      · intro other member
        simp [List.findIdx_cons, differ other member]
      · refine (ih once.2).imp_of_mem fun {first second} firstIn secondIn less => ?_
        simp only [List.findIdx_cons, differ first firstIn, differ second secondIn,
          decide_false, cond_false]
        omega

/-- A well that reaches a place lies in one of the cells around it. -/
theorem cell_of_reaches {place : Point α} {well : GravityWell α} (small : well.radius ≤ 6)
    (reaches : Reaches place well) (axis : Fin 3) :
    Grid.cellOf gravityCellSize place axis - 1 ≤ Grid.cellOf gravityCellSize well.position axis ∧
      Grid.cellOf gravityCellSize well.position axis ≤
        Grid.cellOf gravityCellSize place axis + 1 := by
  have influence : well.influence ≤ 48 := max_le (by norm_num) (by linarith)
  have positive : 0 ≤ well.influence := le_trans (by norm_num) (le_max_left _ _)
  have least : (well.position axis - place axis) ^ 2 ≤ distSquared place well.position := by
    apply Finset.single_le_sum (f := fun axis => (well.position axis - place axis) ^ 2)
    · exact fun other _ => sq_nonneg _
    · exact Finset.mem_univ axis
  have close : |well.position axis - place axis| ≤ well.influence := by
    apply abs_le_of_sq_le_sq _ positive
    rw [pow_two well.influence]
    exact least.trans reaches
  obtain ⟨left, right⟩ := abs_le.mp close
  -- A step of one cell edge moves the floor by exactly one.
  have down : (place axis - 48) / 48 = place axis / 48 - 1 := by ring
  have up : (place axis + 48) / 48 = place axis / 48 + 1 := by ring
  unfold Grid.cellOf gravityCellSize
  constructor
  · rw [← Int.floor_sub_one, ← down]
    exact Int.floor_le_floor (div_le_div_of_nonneg_right (by linarith) (by norm_num))
  · rw [← Int.floor_add_one, ← up]
    exact Int.floor_le_floor (div_le_div_of_nonneg_right (by linarith) (by norm_num))

/-! The index loses no well -/

/-- What an accepted projection leaves: distinct ids, bounded radii, and the index of the
accepted wells. -/
structure Projected (gravity : Gravity α) : Prop where
  once : (gravity.wells.map GravityWell.id).Nodup
  small : ∀ well ∈ gravity.wells, well.radius ≤ 6
  cells : gravity.cells =
    Grid.index (fun well => Grid.cellOf gravityCellSize well.position) gravity.wells
  order : gravity.order = fun id => gravity.wells.findIdx fun well => well.id = id

theorem setGravityWells_ok {records : List (GravityWell α)} {gravity : Gravity α}
    (done : setGravityWells records = .ok gravity) :
    gravity.wells = records ∧ Projected gravity := by
  simp only [setGravityWells, Program.except_bind_ok, require_ok, exists_const,
    Program.except_pure, Except.ok.injEq] at done
  obtain ⟨_, wells, read, rfl⟩ := done
  obtain ⟨rfl, once, each⟩ := readRecords_ok read
  exact ⟨rfl, once, fun well member => (each well member).2.2, rfl, rfl⟩

/-- The wells in the probed cells come back in descriptor order. -/
theorem sorted_probed {gravity : Gravity α} (projected : Projected gravity) (ship : Ship α) :
    ∃ near : GravityWell α → Bool,
      (probed gravity ship).insertionSort
          (fun first second => gravity.order first.id ≤ gravity.order second.id) =
        gravity.wells.filter near ∧
      ∀ well ∈ gravity.wells, Reaches ship.position well → near well := by
  classical
  let near : GravityWell α → Bool := fun well =>
    decide (Grid.cellOf gravityCellSize well.position ∈
      Grid.box (fun axis => Grid.cellOf gravityCellSize ship.position axis - 1)
        fun axis => Grid.cellOf gravityCellSize ship.position axis + 1)
  refine ⟨near, ?_, ?_⟩
  · have found : (probed gravity ship).Perm (gravity.wells.filter near) := by
      unfold probed
      rw [projected.cells]
      exact Grid.probe_perm _ (Grid.nodup_box _ _)
    have increasing := order_increases projected.once
    have rising : (gravity.wells.filter near).Pairwise fun first second =>
        gravity.order first.id ≤ gravity.order second.id := by
      rw [projected.order]
      exact (increasing.filter _).imp fun less => less.le
    -- Two wells with one place in the descriptor are one well.
    have told : ∀ first ∈ gravity.wells, ∀ second ∈ gravity.wells,
        gravity.order first.id = gravity.order second.id → first = second := by
      intro first firstIn second secondIn same
      rw [projected.order] at same
      rcases List.Pairwise.forall_of_forall_of_flip
        (R := fun first second => (gravity.wells.findIdx fun well => well.id = first.id) =
          (gravity.wells.findIdx fun well => well.id = second.id) → first = second)
        (fun _ _ _ => rfl)
        (increasing.imp fun less same => absurd same less.ne)
        (increasing.imp fun less same => absurd same less.ne') firstIn secondIn same with rfl
      rfl
    have order := List.perm_insertionSort
      (fun first second : GravityWell α => gravity.order first.id ≤ gravity.order second.id)
      (probed gravity ship)
    refine List.Perm.eq_of_pairwise ?_ (List.pairwise_insertionSort _ _) rising
      (order.trans found)
    intro first second firstIn secondIn low high
    have firstHere := List.mem_of_mem_filter (found.mem_iff.mp (order.mem_iff.mp firstIn))
    have secondHere := List.mem_of_mem_filter secondIn
    exact told first firstHere second secondHere (Nat.le_antisymm low high)
  · intro well member reaches
    simp only [near, decide_eq_true_eq, Grid.mem_box]
    intro axis
    exact cell_of_reaches (projected.small well member) reaches axis

/-- Both spatial indexes agree with a scan: the sweep of a field claims what it would claim
with every glyph as a candidate, and of an accepted projection the wells near a ship are, in
descriptor order, a part that leaves out no well that reaches it, before the ship's home. -/
theorem indexes_exact (field : Collectibles.CollectibleField α) (start stop : Point α) (now : α)
    (maximum : Int) {records : List (GravityWell α)} {gravity : Gravity α}
    (accepted : setGravityWells records = .ok gravity) (ship : Ship α) :
    Collectibles.collect field start stop now maximum =
        Collectibles.scan field start stop now maximum ∧
      (nearWells gravity ship).Sublist (records ++ home gravity ship) ∧
      (nearWells gravity ship).filter (fun well => Reaches ship.position well) =
        (records ++ home gravity ship).filter fun well => Reaches ship.position well := by
  refine ⟨Collectibles.collect_eq_scan field start stop now maximum, ?_⟩
  obtain ⟨rfl, projected⟩ := setGravityWells_ok accepted
  obtain ⟨near, sorted, complete⟩ := sorted_probed projected ship
  rw [nearWells, sorted]
  constructor
  · exact List.filter_sublist.append_right _
  · rw [List.filter_append, List.filter_append, List.filter_filter]
    congr 1
    apply List.filter_congr
    intro well member
    by_cases reaches : Reaches ship.position well
    · simp [reaches, complete well member reaches]
    · simp [reaches]

def earth : GravityWell ℚ := { id := "u_root", position := ![-60, 0, 0], radius := 2 }

def visitor : Ship ℚ :=
  { id := "ship_1", position := ![-40, 0, 0], spawnPosition := ![0, 0, 0], subjectId := none,
    publicSubjectId := none }

theorem earth_accepted : ∃ gravity, setGravityWells [earth] = .ok gravity := by
  have valid : ValidRecord [] earth := by
    refine ⟨by decide, by decide, by decide, ?_, ?_, ?_⟩
    · rw [distSquared, Fin.sum_univ_three]
      show ((-60 : ℚ) - 0) ^ 2 + (0 - 0) ^ 2 + (0 - 0) ^ 2 ≤ _
      norm_num
    · norm_num [earth]
    · norm_num [earth]
  exact ⟨_, by simp [setGravityWells, readRecords, require_true _ valid, maxGravityWells]; rfl⟩

theorem indexes_exact_visitor : ∃ gravity, setGravityWells [earth] = .ok gravity ∧
    (nearWells gravity visitor).filter (fun well => Reaches visitor.position well) =
      ([earth] ++ home gravity visitor).filter fun well => Reaches visitor.position well := by
  obtain ⟨gravity, accepted⟩ := earth_accepted
  exact ⟨gravity, accepted,
    (indexes_exact (.init [![0, 0, 0]]) 0 0 100 32 accepted visitor).2.2⟩

end MsgServer.GravityWells
