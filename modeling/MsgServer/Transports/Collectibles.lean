import Mathlib.Algebra.BigOperators.Fin
import Mathlib.Algebra.Order.BigOperators.Group.Finset
import Mathlib.Data.List.Sort
import Mathlib.Data.Prod.Lex
import MsgServer.Core.Models
import MsgServer.Library.Grid

/-!
The pickups of transports/flight_collectibles.py: a field of fixed points with a spatial
index, one availability bit for each glyph, its respawn time and the heap of the timers.
Coordinates and instants are exact numbers of any ordered field. The heap is the sorted list
of its entries. What only feeds the descriptor, and the count of the last candidates, is left
out.
-/

namespace MsgServer.Collectibles

open Library

abbrev Point (α : Type) := Fin 3 → α

variable {α : Type} [Field α] [LinearOrder α] [IsStrictOrderedRing α] [FloorRing α]

def radius : α := 8

def respawnSeconds : α := 45

def cellSize : α := 16

def maxPerStep : Nat := 32

/-- Each glyph in the cell of its point. -/
def cellsOf (positions : List (Point α)) : Grid.Cell → List Nat :=
  Grid.index (fun glyph => Grid.cellOf cellSize (positions.getD glyph 0))
    (List.range positions.length)

/-- `due` is `_until`, where zero says that the glyph is there; an entry of the heap is
`(until, glyph)`. The index is the one that the constructor builds. -/
structure CollectibleField (α : Type) [Field α] [LinearOrder α] [IsStrictOrderedRing α]
    [FloorRing α] where
  positions : List (Point α)
  revision : Nat
  taken : List (BitVec 8)
  due : List α
  respawns : List (α ×ₗ Nat)
  cells : Grid.Cell → List Nat
  indexed : cells = cellsOf positions

/-- `CollectibleField.__init__` for the points that the seed and the anchors give. -/
def CollectibleField.init (positions : List (Point α)) : CollectibleField α where
  positions := positions
  revision := 0
  taken := List.replicate ((positions.length + 7) / 8) 0
  due := List.replicate positions.length 0
  respawns := []
  cells := cellsOf positions
  indexed := rfl

def CollectibleField.position (field : CollectibleField α) (glyph : Nat) : Point α :=
  field.positions.getD glyph 0

def CollectibleField.dueAt (field : CollectibleField α) (glyph : Nat) : α :=
  field.due.getD glyph 0

def bit (glyph : Nat) : BitVec 8 := 1#8 <<< (glyph % 8)

/-- `_until[glyph] = 0.0` and the bit cleared. -/
def release (field : CollectibleField α) (glyph : Nat) : CollectibleField α :=
  { field with
      due := field.due.set glyph 0
      taken := field.taken.modify (glyph / 8) fun byte => byte &&& ~~~ bit glyph
      revision := field.revision + 1 }

/-- One entry off the heap. -/
def expire (field : CollectibleField α) (entry : α ×ₗ Nat) (rest : List (α ×ₗ Nat)) :
    CollectibleField α :=
  let popped := { field with respawns := rest }
  if popped.dueAt (ofLex entry).2 = (ofLex entry).1 then release popped (ofLex entry).2 else popped

def drain (now : α) : List (α ×ₗ Nat) → CollectibleField α → CollectibleField α
  | [], field => field
  | entry :: rest, field =>
      if (ofLex entry).1 ≤ now then drain now rest (expire field entry rest) else field

def refresh (field : CollectibleField α) (now : α) : CollectibleField α :=
  drain now field.respawns field

/-! The sweep -/

def distSquared (start stop : Point α) : α := ∑ axis, (stop axis - start axis) ^ 2

/-- How far along the segment the nearest point lies. -/
def along (point start stop : Point α) : α :=
  let length := ∑ axis, (stop axis - start axis) * (stop axis - start axis)
  if length ≠ 0 then
    max 0 (min 1
      ((∑ axis, (point axis - start axis) * (stop axis - start axis)) / length))
  else 0

def segmentDistanceSquared (point start stop : Point α) : α :=
  ∑ axis, (point axis - start axis - (stop axis - start axis) * along point start stop) ^ 2

def low (start stop : Point α) : Point α := fun axis => min (start axis) (stop axis) - radius

def high (start stop : Point α) : Point α := fun axis => max (start axis) (stop axis) + radius

def candidates (field : CollectibleField α) (start stop : Point α) : List Nat :=
  (Grid.box (Grid.cellOf cellSize (low start stop))
    (Grid.cellOf cellSize (high start stop))).flatMap field.cells

/-- The glyphs among these that are there and within reach of the segment, with their
distances. -/
def nearby (field : CollectibleField α) (start stop : Point α) (glyphs : List Nat) :
    List (α ×ₗ Nat) :=
  ((glyphs.filter fun glyph => field.dueAt glyph = 0).map fun glyph =>
    toLex (segmentDistanceSquared (field.position glyph) start stop, glyph)).filter
      fun entry => (ofLex entry).1 ≤ radius * radius

def claim (now : α) (field : CollectibleField α) (glyph : Nat) : CollectibleField α :=
  { field with
      due := field.due.set glyph (now + respawnSeconds)
      taken := field.taken.modify (glyph / 8) fun byte => byte ||| bit glyph
      respawns := field.respawns.orderedInsert (· ≤ ·) (toLex (now + respawnSeconds, glyph))
      revision := field.revision + 1 }

/-- The glyphs that one step takes out of those within reach. -/
def chosen (found : List (α ×ₗ Nat)) (maximum : Nat) : List Nat :=
  ((found.insertionSort (· ≤ ·)).take maximum).map fun entry => (ofLex entry).2

def claimAll (now : α) (field : CollectibleField α) (glyphs : List Nat) : CollectibleField α :=
  glyphs.foldl (claim now) field

/-- A step that the checks at the head of `collect` let through. -/
def Legal (start stop : Point α) (maximum : Int) : Prop :=
  1 ≤ maximum ∧ maximum ≤ maxPerStep ∧ distSquared start stop ≤ cellSize * cellSize

instance (start stop : Point α) (maximum : Int) : Decidable (Legal start stop maximum) :=
  inferInstanceAs (Decidable (_ ∧ _ ∧ _))

def collect (field : CollectibleField α) (start stop : Point α) (now : α) (maximum : Int) :
    Except Failure (CollectibleField α × List Nat) := do
  require (Legal start stop maximum) "invalid_collection_step"
  let fresh := refresh field now
  let claimed := chosen (nearby fresh start stop (candidates fresh start stop)) maximum.toNat
  return (claimAll now fresh claimed, claimed)

/-- The same step with every glyph of the field as a candidate. -/
def scan (field : CollectibleField α) (start stop : Point α) (now : α) (maximum : Int) :
    Except Failure (CollectibleField α × List Nat) := do
  require (Legal start stop maximum) "invalid_collection_step"
  let fresh := refresh field now
  let claimed :=
    chosen (nearby fresh start stop (List.range fresh.positions.length)) maximum.toNat
  return (claimAll now fresh claimed, claimed)

/-! The index loses no glyph -/

theorem along_bounds (point start stop : Point α) :
    0 ≤ along point start stop ∧ along point start stop ≤ 1 := by
  unfold along
  dsimp only
  split
  · exact ⟨le_max_left _ _, max_le zero_le_one (min_le_left _ _)⟩
  · exact ⟨le_refl 0, zero_le_one⟩

/-- A point of the segment is between its ends on every axis. -/
theorem between {first last part : α} (bounds : 0 ≤ part ∧ part ≤ 1) :
    min first last ≤ first + (last - first) * part ∧
      first + (last - first) * part ≤ max first last := by
  rcases le_total first last with up | down
  · rw [min_eq_left up, max_eq_right up]
    constructor <;> nlinarith [mul_nonneg (sub_nonneg.mpr up) bounds.1,
      mul_le_mul_of_nonneg_left bounds.2 (sub_nonneg.mpr up)]
  · rw [min_eq_right down, max_eq_left down]
    constructor <;> nlinarith [mul_nonneg (sub_nonneg.mpr down) bounds.1,
      mul_le_mul_of_nonneg_left bounds.2 (sub_nonneg.mpr down)]

/-- A glyph within reach lies in the box around the segment. -/
theorem within_reach {point start stop : Point α}
    (reach : segmentDistanceSquared point start stop ≤ radius * radius) (axis : Fin 3) :
    low start stop axis ≤ point axis ∧ point axis ≤ high start stop axis := by
  have least : (point axis - start axis - (stop axis - start axis) * along point start stop) ^ 2 ≤
      segmentDistanceSquared point start stop := by
    apply Finset.single_le_sum (f := fun axis => (point axis - start axis -
      (stop axis - start axis) * along point start stop) ^ 2)
    · exact fun other _ => sq_nonneg _
    · exact Finset.mem_univ axis
  have close : |point axis - start axis - (stop axis - start axis) * along point start stop| ≤
      (radius : α) := by
    apply abs_le_of_sq_le_sq _ (by norm_num [radius])
    rw [pow_two (radius : α)]
    exact least.trans reach
  have middle : min (start axis) (stop axis) ≤
        start axis + (stop axis - start axis) * along point start stop ∧
      start axis + (stop axis - start axis) * along point start stop ≤
        max (start axis) (stop axis) := between (along_bounds point start stop)
  obtain ⟨left, right⟩ := abs_le.mp close
  constructor
  · have below := middle.1
    unfold low
    linarith
  · have above := middle.2
    unfold high
    linarith

/-- Up to order, the candidates of the box are the glyphs whose cell it holds. -/
theorem candidates_perm (field : CollectibleField α) (start stop : Point α) :
    (candidates field start stop).Perm ((List.range field.positions.length).filter fun glyph =>
      Grid.cellOf cellSize (field.position glyph) ∈ Grid.box (Grid.cellOf cellSize (low start stop))
        (Grid.cellOf cellSize (high start stop))) := by
  unfold candidates
  rw [field.indexed]
  exact Grid.probe_perm _ (Grid.nodup_box _ _)

theorem nearby_perm (field : CollectibleField α) (start stop : Point α) :
    (nearby field start stop (candidates field start stop)).Perm
      (nearby field start stop (List.range field.positions.length)) := by
  refine ((((candidates_perm field start stop).filter _).map _).filter _).trans ?_
  rw [List.filter_filter]
  -- Every glyph that the box leaves out is farther away than the reach.
  have outside : ∀ glyph, segmentDistanceSquared (field.position glyph) start stop ≤
      radius * radius → Grid.cellOf cellSize (field.position glyph) ∈
        Grid.box (Grid.cellOf cellSize (low start stop))
          (Grid.cellOf cellSize (high start stop)) := by
    intro glyph reach
    rw [Grid.mem_box]
    intro axis
    exact Grid.cellOf_within (by norm_num [cellSize]) axis (within_reach reach axis)
  unfold nearby
  rw [List.filter_map, List.filter_map, List.filter_filter, List.filter_filter]
  apply List.Perm.of_eq
  congr 1
  apply List.filter_congr
  intro glyph _
  by_cases reach : segmentDistanceSquared (field.position glyph) start stop ≤ radius * radius
  · simp [reach, outside glyph reach]
  · simp [reach]

theorem chosen_perm {found others : List (α ×ₗ Nat)} (same : found.Perm others) (maximum : Nat) :
    chosen found maximum = chosen others maximum := by
  have sorted : found.insertionSort (· ≤ ·) = others.insertionSort (· ≤ ·) := by
    have first := List.pairwise_insertionSort (· ≤ ·) found
    have second := List.pairwise_insertionSort (· ≤ ·) others
    exact List.Perm.eq_of_pairwise' first second
      (((List.perm_insertionSort _ _).trans same).trans (List.perm_insertionSort _ _).symm)
  rw [chosen, sorted, chosen]

theorem collect_eq_scan (field : CollectibleField α) (start stop : Point α) (now : α)
    (maximum : Int) : collect field start stop now maximum = scan field start stop now maximum := by
  unfold collect scan
  simp only [chosen_perm (nearby_perm (refresh field now) start stop)]

end MsgServer.Collectibles
