import Mathlib.Algebra.Order.Floor.Ring
import Mathlib.Data.Fin.VecNotation
import Mathlib.Data.Fintype.Basic
import Mathlib.Data.List.Perm.Subperm
import Mathlib.Tactic.FinCases

/-!
Items in the cells of a cubic grid. Probing a box of cells gives, up to order, the items
whose cell is in the box, and a box that reaches to the cells of both ends of an interval on
every axis holds the cell of every point between them.
-/

namespace Library.Grid

variable {ι κ : Type} [DecidableEq κ]

/-- One item appended to the list of its cell. -/
def place (key : ι → κ) (cells : κ → List ι) (item : ι) : κ → List ι :=
  fun cell => if cell = key item then cells cell ++ [item] else cells cell

def index (key : ι → κ) (items : List ι) : κ → List ι := items.foldl (place key) fun _ => []

theorem foldl_place (key : ι → κ) (items : List ι) (cells : κ → List ι) (cell : κ) :
    items.foldl (place key) cells cell = cells cell ++ items.filter fun item => key item = cell := by
  induction items generalizing cells with
  | nil => simp
  | cons item rest ih =>
      rw [List.foldl_cons, ih]
      by_cases here : cell = key item
      · simp [place, here]
      · simp [place, here, Ne.symm here]

theorem index_eq (key : ι → κ) (items : List ι) (cell : κ) :
    index key items cell = items.filter fun item => key item = cell := by
  rw [index, foldl_place, List.nil_append]

/-- Distinct cells give every item once. -/
theorem probe_perm [DecidableEq ι] (key : ι → κ) {items : List ι} {cells : List κ}
    (once : cells.Nodup) :
    (cells.flatMap (index key items)).Perm (items.filter fun item => key item ∈ cells) := by
  induction cells with
  | nil => simp
  | cons cell rest ih =>
      obtain ⟨fresh, once⟩ := List.nodup_cons.mp once
      rw [List.flatMap_cons, index_eq]
      refine ((ih once).append_left _).trans ?_
      -- What is in the first cell and what is in the others part the items.
      have parts := List.filter_append_perm (fun item => decide (key item = cell))
        (items.filter fun item => key item ∈ cell :: rest)
      rw [List.filter_filter, List.filter_filter] at parts
      convert parts using 2
      · apply List.filter_congr
        intro item _
        by_cases here : key item = cell <;> simp [here]
      · apply List.filter_congr
        intro item _
        by_cases here : key item = cell
        · simp [here, fresh]
        · simp [here]

/-! Boxes of cells -/

abbrev Cell := Fin 3 → Int

/-- The whole numbers from the first to the last. -/
def interval (first last : Int) : List Int :=
  (List.range (last + 1 - first).toNat).map fun step : Nat => first + (step : Int)

theorem mem_interval {first last value : Int} :
    value ∈ interval first last ↔ first ≤ value ∧ value ≤ last := by
  simp only [interval, List.mem_map, List.mem_range]
  constructor
  · rintro ⟨step, low, rfl⟩
    omega
  · rintro ⟨low, high⟩
    exact ⟨(value - first).toNat, by omega, by omega⟩

theorem nodup_interval (first last : Int) : (interval first last).Nodup := by
  apply List.Nodup.map
  · intro left right same
    simpa using same
  · exact List.nodup_range

def box (low high : Cell) : List Cell :=
  (interval (low 0) (high 0)).flatMap fun x => (interval (low 1) (high 1)).flatMap fun y =>
    (interval (low 2) (high 2)).map fun z => ![x, y, z]

theorem mem_box {low high cell : Cell} :
    cell ∈ box low high ↔ ∀ axis, low axis ≤ cell axis ∧ cell axis ≤ high axis := by
  simp only [box, List.mem_flatMap, List.mem_map, mem_interval]
  constructor
  · rintro ⟨x, xs, y, ys, z, zs, rfl⟩ axis
    fin_cases axis
    · exact xs
    · exact ys
    · exact zs
  · intro within
    refine ⟨cell 0, within 0, cell 1, within 1, cell 2, within 2, ?_⟩
    funext axis
    fin_cases axis <;> rfl

theorem nodup_box (low high : Cell) : (box low high).Nodup := by
  rw [box, List.nodup_flatMap]
  refine ⟨fun x _ => ?_, ?_⟩
  · rw [List.nodup_flatMap]
    refine ⟨fun y _ => ?_, ?_⟩
    · apply (nodup_interval _ _).map
      intro left right same
      simpa using congrFun same 2
    · refine (nodup_interval _ _).imp fun differ => ?_
      intro cell first second
      simp only [List.mem_map] at first second
      obtain ⟨z, _, rfl⟩ := first
      obtain ⟨w, _, same⟩ := second
      exact differ (by simpa using (congrFun same 1).symm)
  · refine (nodup_interval _ _).imp fun differ => ?_
    intro cell first second
    simp only [List.mem_flatMap, List.mem_map] at first second
    obtain ⟨_, _, _, _, rfl⟩ := first
    obtain ⟨_, _, _, _, same⟩ := second
    exact differ (by simpa using (congrFun same 0).symm)

/-! The cell of a point -/

variable {α : Type} [Field α] [LinearOrder α] [IsStrictOrderedRing α] [FloorRing α]

/-- The cell of a point in a grid of this edge. -/
def cellOf (edge : α) (point : Fin 3 → α) : Cell := fun axis => ⌊point axis / edge⌋

theorem cellOf_within {edge : α} (positive : 0 < edge) {low high point : Fin 3 → α} (axis : Fin 3)
    (within : low axis ≤ point axis ∧ point axis ≤ high axis) :
    cellOf edge low axis ≤ cellOf edge point axis ∧
      cellOf edge point axis ≤ cellOf edge high axis :=
  ⟨Int.floor_le_floor (div_le_div_of_nonneg_right within.1 positive.le),
    Int.floor_le_floor (div_le_div_of_nonneg_right within.2 positive.le)⟩

end Library.Grid
