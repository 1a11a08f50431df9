import Mathlib.Algebra.Order.BigOperators.Group.List
import Mathlib.Algebra.Order.Group.Nat
import MsgServer.Library.Table

/-!
Sums and counts over the rows of a keyed table. An insert adds the measure of the new
row; a rewrite of one row that does not increase its measure does not increase the sum.
Rows are counted by their keys: a table counts no more rows than another in which every
row it counts has a counted row of the same key.
-/

namespace Library.Table

variable {κ ρ : Type} {key : ρ → κ}

def total (table : Table key) (measure : ρ → Nat) : Nat := (table.rows.map measure).sum

@[simp] theorem total_empty (measure : ρ → Nat) : (empty : Table key).total measure = 0 := rfl

def count (table : Table key) (test : ρ → Bool) : Nat := (table.rows.filter test).length

theorem count_le_add {table next : Table key} {test : ρ → Bool} (extra : List κ)
    (covered : ∀ row ∈ next.rows, test row = true →
      key row ∈ extra ∨ ∃ old ∈ table.rows, key old = key row ∧ test old = true) :
    next.count test ≤ table.count test + extra.length := by
  have unique : ((next.rows.filter test).map key).Nodup :=
    next.unique.sublist (List.filter_sublist.map key)
  have inside : (next.rows.filter test).map key ⊆ (table.rows.filter test).map key ++ extra := by
    intro wanted member
    obtain ⟨row, kept, rfl⟩ := List.mem_map.mp member
    obtain ⟨present, passes⟩ := List.mem_filter.mp kept
    rcases covered row present passes with added | ⟨old, before, same, passed⟩
    · exact List.mem_append_right _ added
    · rw [← same]
      exact List.mem_append_left _ (List.mem_map_of_mem (List.mem_filter.mpr ⟨before, passed⟩))
  have bound := List.Nodup.length_le_of_subset unique inside
  simpa [count] using bound

theorem count_le {table next : Table key} {test : ρ → Bool}
    (covered : ∀ row ∈ next.rows, test row = true →
      ∃ old ∈ table.rows, key old = key row ∧ test old = true) :
    next.count test ≤ table.count test :=
  count_le_add [] fun row member passes => Or.inr (covered row member passes)

variable [DecidableEq κ]

theorem total_insert {table next : Table key} {row : ρ} (inserted : table.insert row = some next)
    (measure : ρ → Nat) : next.total measure = table.total measure + measure row := by
  simp [total, insert_rows inserted]

theorem total_modify_le {table : Table key} {wanted : κ} {change : ρ → ρ} {measure : ρ → Nat}
    (shrinks : ∀ row, table.find? wanted = some row →
      measure (rekeyed key change row) ≤ measure row) :
    (table.modify wanted change).total measure ≤ table.total measure := by
  unfold total modify
  rw [List.map_map]
  apply List.sum_le_sum
  intro row member
  show measure (changeAt key wanted change row) ≤ measure row
  unfold changeAt
  split
  · rename_i here
    apply shrinks
    rw [← here]
    exact (mem_iff_find? table row).mp member
  · exact le_rfl

end Library.Table
