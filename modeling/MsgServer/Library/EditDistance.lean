import Mathlib.Data.List.Basic
import Mathlib.Order.MinMax

/-!
The edit distance of Levenshtein. `Edits left right n` is a way of turning one list into the
other with `n` insertions, deletions and changes; `distance` is the least such number. Edits
compose side by side and read the same from the back, so the recurrence of the distance also
holds at the ends of the lists.
-/

namespace Library.EditDistance

variable {α : Type}

inductive Edits : List α → List α → Nat → Prop
  | nil : Edits [] [] 0
  | keep (item : α) {left right : List α} {n : Nat} : Edits left right n →
      Edits (item :: left) (item :: right) n
  | change (old new : α) {left right : List α} {n : Nat} : Edits left right n →
      Edits (old :: left) (new :: right) (n + 1)
  | insert (new : α) {left right : List α} {n : Nat} : Edits left right n →
      Edits left (new :: right) (n + 1)
  | delete (old : α) {left right : List α} {n : Nat} : Edits left right n →
      Edits (old :: left) right (n + 1)

theorem Edits.length {left right : List α} {n : Nat} (edits : Edits left right n) :
    left.length ≤ right.length + n ∧ right.length ≤ left.length + n := by
  induction edits with
  | nil => simp
  | keep _ _ ih | change _ _ _ ih | insert _ _ ih | delete _ _ ih =>
      simp only [List.length_cons]
      omega

theorem Edits.append {left right more others : List α} {n m : Nat}
    (edits : Edits left right n) (later : Edits more others m) :
    Edits (left ++ more) (right ++ others) (n + m) := by
  induction edits with
  | nil => simpa using later
  | keep item _ ih => exact .keep item ih
  | change old new _ ih =>
      rw [Nat.add_right_comm]
      exact .change old new ih
  | insert new _ ih =>
      rw [Nat.add_right_comm]
      exact .insert new ih
  | delete old _ ih =>
      rw [Nat.add_right_comm]
      exact .delete old ih

theorem Edits.reverse {left right : List α} {n : Nat} (edits : Edits left right n) :
    Edits left.reverse right.reverse n := by
  induction edits with
  | nil => exact .nil
  | keep item _ ih =>
      rw [List.reverse_cons, List.reverse_cons]
      exact ih.append (.keep item .nil)
  | change old new _ ih =>
      rw [List.reverse_cons, List.reverse_cons]
      exact ih.append (.change old new .nil)
  | insert new _ ih =>
      rw [List.reverse_cons]
      simpa using ih.append (.insert new .nil)
  | delete old _ ih =>
      rw [List.reverse_cons]
      simpa using ih.append (.delete old .nil)

/-- What turns a list into another one turns a beginning of it into a beginning. -/
theorem Edits.front {left front back right : List α} {n : Nat} (edits : Edits left right n)
    (parts : left = front ++ back) :
    ∃ start, start <+: right ∧ ∃ m ≤ n, Edits front start m := by
  induction edits generalizing front with
  | nil =>
      obtain ⟨rfl, rfl⟩ := List.append_eq_nil_iff.mp parts.symm
      exact ⟨[], List.prefix_refl _, 0, Nat.le_refl _, .nil⟩
  | @keep item left right n _ ih =>
      cases front with
      | nil => exact ⟨[], List.nil_prefix, 0, Nat.zero_le _, .nil⟩
      | cons first front =>
          obtain ⟨rfl, rest⟩ := List.cons.inj parts
          obtain ⟨start, begins, m, small, found⟩ := ih rest
          exact ⟨item :: start, List.cons_prefix_cons.mpr ⟨rfl, begins⟩, m, small, .keep item found⟩
  | @change old new left right n _ ih =>
      cases front with
      | nil => exact ⟨[], List.nil_prefix, 0, Nat.zero_le _, .nil⟩
      | cons first front =>
          obtain ⟨rfl, rest⟩ := List.cons.inj parts
          obtain ⟨start, begins, m, small, found⟩ := ih rest
          exact ⟨new :: start, List.cons_prefix_cons.mpr ⟨rfl, begins⟩, m + 1,
            Nat.succ_le_succ small, .change old new found⟩
  | @insert new left right n _ ih =>
      obtain ⟨start, begins, m, small, found⟩ := ih parts
      exact ⟨new :: start, List.cons_prefix_cons.mpr ⟨rfl, begins⟩, m + 1,
        Nat.succ_le_succ small, .insert new found⟩
  | @delete old left right n _ ih =>
      cases front with
      | nil => exact ⟨[], List.nil_prefix, 0, Nat.zero_le _, .nil⟩
      | cons first front =>
          obtain ⟨rfl, rest⟩ := List.cons.inj parts
          obtain ⟨start, begins, m, small, found⟩ := ih rest
          exact ⟨start, begins, m + 1, Nat.succ_le_succ small, .delete old found⟩

theorem Edits.deletes (left : List α) : Edits left [] left.length := by
  induction left with
  | nil => exact .nil
  | cons old _ ih => exact .delete old ih

theorem Edits.inserts (right : List α) : Edits [] right right.length := by
  induction right with
  | nil => exact .nil
  | cons new _ ih => exact .insert new ih

variable [DecidableEq α]

/-- The price of putting one item in the place of another. -/
def price (old new : α) : Nat := if old = new then 0 else 1

def distance : List α → List α → Nat
  | [], right => right.length
  | left, [] => left.length
  | old :: left, new :: right =>
      min (min (distance (old :: left) right + 1) (distance left (new :: right) + 1))
        (distance left right + price old new)
termination_by left right => left.length + right.length

@[simp] theorem distance_nil (left : List α) : distance left [] = left.length := by
  cases left <;> simp [distance]

@[simp] theorem nil_distance (right : List α) : distance [] right = right.length := by
  rw [distance]

theorem distance_cons (old new : α) (left right : List α) :
    distance (old :: left) (new :: right) =
      min (min (distance (old :: left) right + 1) (distance left (new :: right) + 1))
        (distance left right + price old new) := by
  rw [distance]

theorem edits_distance (left right : List α) : Edits left right (distance left right) := by
  induction left, right using distance.induct with
  | case1 right =>
      rw [nil_distance]
      exact Edits.inserts right
  | case2 left _ =>
      rw [distance_nil]
      exact Edits.deletes left
  | case3 old left new right inserted deleted changed =>
      rw [distance_cons]
      rcases min_choice (min (distance (old :: left) right + 1)
        (distance left (new :: right) + 1)) (distance left right + price old new) with
        first | last
      · rw [first]
        rcases min_choice (distance (old :: left) right + 1)
          (distance left (new :: right) + 1) with here | here
        · rw [here]
          exact .insert new inserted
        · rw [here]
          exact .delete old deleted
      · rw [last]
        by_cases same : old = new
        · subst same
          simpa [price] using Edits.keep old changed
        · simpa [price, same] using Edits.change old new changed

theorem distance_le {left right : List α} {n : Nat} (edits : Edits left right n) :
    distance left right ≤ n := by
  induction edits with
  | nil => simp
  | keep item _ ih =>
      rw [distance_cons]
      simp only [price, if_true]
      omega
  | change old new _ ih =>
      rw [distance_cons]
      unfold price
      split <;> omega
  | @insert new left right n _ ih =>
      cases left with
      | nil =>
          rw [nil_distance] at ih ⊢
          exact Nat.succ_le_succ ih
      | cons old left =>
          rw [distance_cons]
          omega
  | @delete old left right n _ ih =>
      cases right with
      | nil =>
          rw [distance_nil] at ih ⊢
          exact Nat.succ_le_succ ih
      | cons new right =>
          rw [distance_cons]
          omega

theorem distance_reverse (left right : List α) :
    distance left.reverse right.reverse = distance left right := by
  apply Nat.le_antisymm
  · exact distance_le (edits_distance left right).reverse
  · have back := (edits_distance left.reverse right.reverse).reverse
    rw [List.reverse_reverse, List.reverse_reverse] at back
    exact distance_le back

/-- The recurrence at the ends. -/
theorem distance_concat (left right : List α) (old new : α) :
    distance (left ++ [old]) (right ++ [new]) =
      min (min (distance (left ++ [old]) right + 1) (distance left (right ++ [new]) + 1))
        (distance left right + price old new) := by
  rw [← distance_reverse (left ++ [old]), ← distance_reverse (left ++ [old]) right,
    ← distance_reverse left (right ++ [new]), ← distance_reverse left right]
  simp only [List.reverse_append, List.reverse_singleton, List.singleton_append]
  exact distance_cons old new left.reverse right.reverse

theorem length_le_distance (left right : List α) :
    left.length ≤ right.length + distance left right ∧
      right.length ≤ left.length + distance left right :=
  (edits_distance left right).length

/-- What is far from every beginning stays far when the other list grows. -/
theorem far_from_fronts {front back right : List α} {bound : Nat}
    (far : ∀ start, start <+: right → bound < distance front start) :
    bound < distance (front ++ back) right := by
  obtain ⟨start, begins, m, small, edits⟩ := (edits_distance (front ++ back) right).front rfl
  have near := distance_le edits
  have := far start begins
  omega

end Library.EditDistance
