import Mathlib.Data.List.Infix
import Mathlib.Tactic.Common
import MsgServer.Core.Models
import MsgServer.Library.EditDistance

/-!
The bounded edit distance of core/search_query.py, row by row. A row holds the distances of
one beginning of the left text from every beginning of the right one.
-/

namespace MsgServer.Spelling

open Library.EditDistance

variable {α : Type} [DecidableEq α]

/-- The cells of a row behind its first one; `last` is the cell before. -/
def cells (char : α) : Nat → List α → List Nat → List Nat
  | last, target :: rest, diagonal :: above :: previous =>
      let cell := min (min (last + 1) (above + 1)) (diagonal + if char = target then 0 else 1)
      cell :: cells char cell rest (above :: previous)
  | _, _, _ => []

/-- The loop over the left text. -/
def rows (right : List α) (maximum : Nat) : List α → Nat → List Nat → Nat
  | [], _, previous => previous.getLast?.getD 0
  | char :: rest, index, previous =>
      let current := index :: cells char index right previous
      if maximum < current.min?.getD 0 then maximum + 1
      else rows right maximum rest (index + 1) current

def spellingDistance (left right : List α) (maximum : Nat) : Nat :=
  if maximum < ((left.length : Int) - right.length).natAbs then maximum + 1
  else rows right maximum left 1 (List.range (right.length + 1))

/-! The rows -/

theorem inits_cons_eq (text : List α) : ∃ more, text.inits = [] :: more := by
  cases text with
  | nil => exact ⟨[], rfl⟩
  | cons first rest => exact ⟨_, List.inits_cons first rest⟩

theorem getLast?_inits (text : List α) : text.inits.getLast? = some text := by
  induction text with
  | nil => rfl
  | cons first rest ih =>
      obtain ⟨more, shape⟩ := inits_cons_eq rest
      rw [List.inits_cons, List.getLast?_cons, List.getLast?_map, ih]
      rfl

theorem range_inits (right : List α) :
    List.range (right.length + 1) = right.inits.map (distance []) := by
  induction right with
  | nil => simp
  | cons first rest ih =>
      rw [List.length_cons, List.range_succ_eq_map, ih, List.inits_cons]
      simp

theorem cells_eq (char : α) (done front rest : List α) :
    cells char (distance (done ++ [char]) front) rest
        (rest.inits.map fun more => distance done (front ++ more)) =
      rest.inits.tail.map fun more => distance (done ++ [char]) (front ++ more) := by
  induction rest generalizing front with
  | nil => rfl
  | cons target rest ih =>
      have later := ih (front ++ [target])
      obtain ⟨more, shape⟩ := inits_cons_eq rest
      rw [List.inits_cons, List.tail_cons, List.map_cons, List.map_map]
      rw [shape] at later ⊢
      simp only [List.map_cons, List.append_assoc, List.singleton_append, List.append_nil,
        List.tail_cons, Function.comp_def] at later ⊢
      rw [cells]
      have cell := distance_concat done front char target
      rw [price] at cell
      rw [← cell]
      rw [later, List.map_map]
      rfl

theorem row_eq (char : α) (done right : List α) :
    (done.length + 1) :: cells char (done.length + 1) right (right.inits.map (distance done)) =
      right.inits.map (distance (done ++ [char])) := by
  have cellsEq := cells_eq char done [] right
  simp only [List.nil_append, distance_nil, List.length_append, List.length_singleton] at cellsEq
  obtain ⟨more, shape⟩ := inits_cons_eq right
  rw [cellsEq, shape]
  simp

/-- The cut: every beginning of the right text is further away than the maximum. -/
theorem cut_iff (done right : List α) (maximum : Nat) :
    maximum < (right.inits.map (distance done)).min?.getD 0 ↔
      ∀ start, start <+: right → maximum < distance done start := by
  cases least : (right.inits.map (distance done)).min? with
  | none =>
      obtain ⟨more, shape⟩ := inits_cons_eq right
      rw [List.min?_eq_none_iff, shape] at least
      cases least
  | some cell =>
      have bounds : maximum + 1 ≤ cell ↔ ∀ other, other ∈ right.inits.map (distance done) →
          maximum + 1 ≤ other := List.le_min?_iff least
      rw [Option.getD_some]
      constructor
      · intro far start begins
        exact bounds.mp far _ (List.mem_map_of_mem ((List.mem_inits _ _).mpr begins))
      · intro far
        refine bounds.mpr fun other member => ?_
        obtain ⟨start, listed, rfl⟩ := List.mem_map.mp member
        exact far start ((List.mem_inits _ _).mp listed)

/-- Some beginning of the right text is within the maximum. -/
def Near (left right : List α) (maximum : Nat) : Prop :=
  ∃ start, start <+: right ∧ distance left start ≤ maximum

theorem not_near {left right : List α} {maximum : Nat} :
    ¬ Near left right maximum ↔ ∀ start, start <+: right → maximum < distance left start := by
  simp [Near]

/-- Rows only move away. -/
theorem Near.front {front back right : List α} {maximum : Nat}
    (near : Near (front ++ back) right maximum) : Near front right maximum := by
  by_contra far
  obtain ⟨start, begins, small⟩ := near
  have further : maximum < distance (front ++ back) start :=
    far_from_fronts fun other shorter => not_near.mp far other (shorter.trans begins)
  omega

theorem rows_eq (done rest right : List α) (maximum : Nat) :
    (Near (done ++ rest) right maximum ∨ rest = [] →
      rows right maximum rest (done.length + 1) (right.inits.map (distance done)) =
        distance (done ++ rest) right) ∧
    (¬ Near (done ++ rest) right maximum ∧ rest ≠ [] →
      rows right maximum rest (done.length + 1) (right.inits.map (distance done)) =
        maximum + 1) := by
  induction rest generalizing done with
  | nil =>
      rw [rows, List.getLast?_map, getLast?_inits]
      simp
  | cons char rest ih =>
      have next := ih (done ++ [char])
      simp only [List.length_append, List.length_singleton, List.append_assoc,
        List.singleton_append] at next
      rw [rows, row_eq]
      by_cases near : Near (done ++ [char]) right maximum
      · have goesOn : ¬ maximum < (right.inits.map (distance (done ++ [char]))).min?.getD 0 := by
          rw [cut_iff, ← not_near]
          simpa using near
        simp only [goesOn, if_false]
        constructor
        · rintro (there | none)
          · exact next.1 (.inl there)
          · cases none
        · rintro ⟨far, -⟩
          refine next.2 ⟨far, ?_⟩
          rintro rfl
          exact far near
      · have cut : maximum < (right.inits.map (distance (done ++ [char]))).min?.getD 0 :=
          (cut_iff _ _ _).mpr (not_near.mp near)
        have far : ¬ Near (done ++ char :: rest) right maximum := by
          intro there
          rw [← List.singleton_append, ← List.append_assoc] at there
          exact near there.front
        simp only [cut, if_true]
        constructor
        · rintro (there | none)
          · exact absurd there far
          · cases none
        · exact fun _ => trivial

theorem distance_of_apart {left right : List α} {maximum : Nat}
    (apart : maximum < ((left.length : Int) - right.length).natAbs) :
    maximum < distance left right := by
  have bounds := length_le_distance left right
  omega

theorem spellingDistance_near {left right : List α} {maximum : Nat}
    (close : ¬ maximum < ((left.length : Int) - right.length).natAbs)
    (near : Near left right maximum) :
    spellingDistance left right maximum = distance left right := by
  rw [spellingDistance, if_neg close, range_inits]
  exact (rows_eq [] left right maximum).1 (.inl near)

theorem spellingDistance_far {left right : List α} {maximum : Nat}
    (far : maximum < ((left.length : Int) - right.length).natAbs ∨ ¬ Near left right maximum) :
    spellingDistance left right maximum = maximum + 1 := by
  rw [spellingDistance]
  split
  · rfl
  · rename_i close
    have notNear := far.resolve_left close
    rw [range_inits]
    refine (rows_eq [] left right maximum).2 ⟨notNear, ?_⟩
    rintro rfl
    exact notNear ⟨[], List.nil_prefix, by simp⟩

/-- The bounded distance is the distance cut at the one over-budget value exactly where the
distance is at most that value, the lengths are too far apart, or no beginning of the right
text is within the maximum. -/
theorem bounded_distance (left right : List α) (maximum : Nat) :
    spellingDistance left right maximum = min (distance left right) (maximum + 1) ↔
      distance left right ≤ maximum + 1 ∨
      maximum < ((left.length : Int) - right.length).natAbs ∨
      ∀ start, start <+: right → maximum < distance left start := by
  rw [← not_near]
  by_cases far : maximum < ((left.length : Int) - right.length).natAbs ∨
      ¬ Near left right maximum
  · have further : maximum < distance left right := by
      rcases far with apart | notNear
      · exact distance_of_apart apart
      · exact not_near.mp notNear right (List.prefix_refl _)
    rw [spellingDistance_far far]
    constructor
    · exact fun _ => .inr far
    · intro _
      omega
  · have close : ¬ maximum < ((left.length : Int) - right.length).natAbs := fun apart =>
      far (.inl apart)
    have near : Near left right maximum := by
      by_contra notNear
      exact far (.inr notNear)
    rw [spellingDistance_near close near]
    constructor
    · intro same
      left
      omega
    · rintro (small | other)
      · omega
      · exact absurd other far

/-- Three edits away, but a beginning is one edit away: the distance is given as it is. -/
theorem distance_beyond_sentinel :
    spellingDistance "abc".toList "acxy".toList 1 = 3 ∧
      spellingDistance "abc".toList "acxy".toList 1 ≠
        min (distance "abc".toList "acxy".toList) (1 + 1) := by
  have value : spellingDistance "abc".toList "acxy".toList 1 = 3 := by decide +kernel
  have cut : min (distance "abc".toList "acxy".toList) (1 + 1) = 2 := by
    simp [distance, price]
  constructor
  · exact value
  · rw [value, cut]
    decide

end MsgServer.Spelling
