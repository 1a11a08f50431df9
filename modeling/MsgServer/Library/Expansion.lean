import Mathlib.Data.List.Basic
import Mathlib.Data.List.Infix
import Mathlib.Tactic.Common

/-!
Lists whose items each expand to a list. A range of the expanded list goes back to the least
range of whole items whose expansion covers it; the item that a border of the range falls in
is found by how far the beginnings of the list reach.
-/

namespace Library.Expansion

variable {α β : Type} (expand : α → List β)

/-- How far the expansion of the first items reaches. -/
def reach (items : List α) (count : Nat) : Nat := ((items.take count).flatMap expand).length

structure Covers (items : List α) (low high first last : Nat) : Prop where
  order : first ≤ last
  inside : last ≤ items.length
  below : reach expand items first ≤ low
  above : high ≤ reach expand items last

structure Least (items : List α) (low high first last : Nat) : Prop where
  covers : Covers expand items low high first last
  least : ∀ other upper, Covers expand items low high other upper → other ≤ first ∧ last ≤ upper

variable {expand} {items : List α}

@[simp] theorem reach_zero : reach expand items 0 = 0 := by simp [reach]

theorem reach_length : reach expand items items.length = (items.flatMap expand).length := by
  rw [reach, List.take_length]

theorem reach_append {front rest : List α} :
    reach expand (front ++ rest) front.length = (front.flatMap expand).length := by
  rw [reach, List.take_left]

theorem reach_cons {front rest : List α} {item : α} :
    reach expand (front ++ item :: rest) (front.length + 1) =
      reach expand (front ++ item :: rest) front.length + (expand item).length := by
  have first : (front ++ item :: rest).take (front.length + 1) = front ++ [item] := by
    rw [List.take_length_add_append, List.take_succ_cons, List.take_zero]
  rw [reach_append, reach, first, List.flatMap_append, List.length_append, List.flatMap_singleton]

theorem reach_mono {low high : Nat} (order : low ≤ high) :
    reach expand items low ≤ reach expand items high := by
  obtain ⟨more, rfl⟩ := Nat.exists_eq_add_of_le order
  rw [reach, reach, List.take_add, List.flatMap_append, List.length_append]
  exact Nat.le_add_right _ _

theorem lt_of_reach (expand : α → List β) (items : List α) {low high : Nat}
    (less : reach expand items low < reach expand items high) :
    low < high := by
  apply Nat.lt_of_not_le
  intro order
  exact Nat.not_lt.mpr (reach_mono order) less

/-- The items that the two borders fall in are the first and the last of the least range. -/
theorem least_of_borders {low high first last : Nat} (some : low < high)
    (firstBelow : reach expand items first ≤ low) (firstAbove : low < reach expand items (first + 1))
    (lastBelow : reach expand items last < high) (lastAbove : high ≤ reach expand items (last + 1))
    (inside : last < items.length) : Least expand items low high first (last + 1) := by
  have order : first < last + 1 := by
    apply lt_of_reach expand items
    omega
  constructor
  · exact ⟨Nat.le_of_lt order, inside, firstBelow, lastAbove⟩
  · intro other upper covers
    have left : other < first + 1 := lt_of_reach expand items (Nat.lt_of_le_of_lt covers.below firstAbove)
    have right : last < upper := lt_of_reach expand items (Nat.lt_of_lt_of_le lastBelow covers.above)
    exact ⟨Nat.le_of_lt_succ left, right⟩

/-- What stands in the range is part of the expansion of the items that cover it. -/
theorem Covers.infix {part : List β} {low first last : Nat}
    (covers : Covers expand items low (low + part.length) first last)
    (stands : part <+: (items.flatMap expand).drop low) :
    part <:+: ((items.take last).drop first).flatMap expand := by
  have below := covers.below
  have above := covers.above
  obtain ⟨tail, stands⟩ := stands
  -- the expansion in three parts: before the first item, of the range and behind it
  have front : items.take last = items.take first ++ (items.take last).drop first := by
    have cut := List.take_append_drop first (items.take last)
    rw [List.take_take, Nat.min_eq_left covers.order] at cut
    exact cut.symm
  have parts : items.flatMap expand =
      (items.take first).flatMap expand ++ ((items.take last).drop first).flatMap expand ++
        (items.drop last).flatMap expand := by
    rw [← List.flatMap_append, ← front, ← List.flatMap_append, List.take_append_drop]
  have size : reach expand items last = ((items.take first).flatMap expand).length +
      (((items.take last).drop first).flatMap expand).length := by
    rw [reach, ← List.length_append, ← List.flatMap_append, ← front]
  rw [reach] at below
  rw [size] at above
  generalize ((items.take last).drop first).flatMap expand = middle at parts above ⊢
  generalize (items.take first).flatMap expand = before at parts below above
  have start : low - before.length ≤ middle.length := by omega
  rw [parts, List.append_assoc, List.drop_append, List.drop_eq_nil_of_le below, List.nil_append,
    List.drop_append_of_le_length start] at stands
  have within : part <+: middle.drop (low - before.length) := by
    apply List.prefix_of_prefix_length_le ⟨tail, stands⟩ (List.prefix_append _ _)
    rw [List.length_drop]
    omega
  exact within.isInfix.trans (List.drop_suffix _ _).isInfix

end Library.Expansion
