import Mathlib.Data.List.MinMax
import Mathlib.Data.List.Perm.Subperm

/-!
Greedy selection by a key that depends on what was picked before. Each turn takes the item
of the least key. Where no two items have one key in any state, the order in which the items
were listed makes no difference.
-/

namespace Library.Greedy

variable {σ α κ : Type} [DecidableEq α] [LinearOrder κ]

def pick (key : σ → α → κ) (note : σ → α → σ) : Nat → σ → List α → List α
  | 0, _, _ => []
  | turns + 1, state, pending =>
      match pending.argmin (key state) with
      | none => []
      | some best => best :: pick key note turns (note state best) (pending.erase best)

/-- No two of the items have one key. -/
def Told (key : σ → α → κ) (items : List α) : Prop :=
  ∀ state, ∀ left ∈ items, ∀ right ∈ items, key state left = key state right → left = right

variable {key : σ → α → κ} {note : σ → α → σ} {turns : Nat} {state : σ} {items others : List α}

theorem Told.erase (told : Told key items) (item : α) : Told key (items.erase item) :=
  fun state left inLeft right inRight =>
    told state left (List.mem_of_mem_erase inLeft) right (List.mem_of_mem_erase inRight)

theorem pick_none (none : items.argmin (key state) = none) :
    pick key note (turns + 1) state items = [] := by
  rw [pick, none]

theorem pick_some {best : α} (found : items.argmin (key state) = some best) :
    pick key note (turns + 1) state items =
      best :: pick key note turns (note state best) (items.erase best) := by
  rw [pick, found]

theorem argmin_perm (told : Told key items) (same : items.Perm others) :
    items.argmin (key state) = others.argmin (key state) := by
  cases left : items.argmin (key state) with
  | none =>
      obtain rfl := List.argmin_eq_none.mp left
      obtain rfl := same.nil_eq
      exact left.symm
  | some item =>
      cases right : others.argmin (key state) with
      | none =>
          obtain rfl := List.argmin_eq_none.mp right
          obtain rfl := same.eq_nil
          exact absurd left (by simp)
      | some other =>
          have inLeft := List.argmin_mem left
          have inRight := same.mem_iff.mpr (List.argmin_mem right)
          have below := List.le_of_mem_argmin inRight left
          have above := List.le_of_mem_argmin (same.mem_iff.mp inLeft) right
          rw [told state item inLeft other inRight (le_antisymm below above)]

/-- The picks do not depend on the order of the items. -/
theorem pick_perm (told : Told key items) (same : items.Perm others) :
    pick key note turns state items = pick key note turns state others := by
  induction turns generalizing state items others with
  | zero => rfl
  | succ turns ih =>
      have best : items.argmin (key state) = others.argmin (key state) := argmin_perm told same
      cases found : items.argmin (key state) with
      | none => rw [pick_none found, pick_none (best.symm.trans found)]
      | some item =>
          rw [pick_some found, pick_some (best.symm.trans found)]
          rw [ih (told.erase item) (same.erase item)]

/-- Every pick is one of the items, and none is picked more often than it is listed. -/
theorem pick_subperm (key : σ → α → κ) (note : σ → α → σ) (turns : Nat) (state : σ)
    (items : List α) : (pick key note turns state items).Subperm items := by
  induction turns generalizing state items with
  | zero => exact List.nil_subperm
  | succ turns ih =>
      cases found : items.argmin (key state) with
      | none =>
          rw [pick_none found]
          exact List.nil_subperm
      | some item =>
          rw [pick_some found]
          have back := (List.perm_cons_erase (List.argmin_mem found)).symm
          exact ((List.subperm_cons item).mpr (ih _ _)).trans back.subperm

theorem pick_length (key : σ → α → κ) (note : σ → α → σ) (turns : Nat) (state : σ)
    (items : List α) : (pick key note turns state items).length = min turns items.length := by
  induction turns generalizing state items with
  | zero => simp [pick]
  | succ turns ih =>
      cases found : items.argmin (key state) with
      | none =>
          obtain rfl := List.argmin_eq_none.mp found
          simp [pick_none found]
      | some item =>
          have member := List.argmin_mem found
          have positive := List.length_pos_of_mem member
          rw [pick_some found, List.length_cons, ih, List.length_erase_of_mem member]
          omega

/-- One more turn only adds a pick at the end. -/
theorem pick_prefix (key : σ → α → κ) (note : σ → α → σ) (turns : Nat) (state : σ)
    (items : List α) :
    pick key note turns state items <+: pick key note (turns + 1) state items := by
  induction turns generalizing state items with
  | zero => exact List.nil_prefix
  | succ turns ih =>
      cases found : items.argmin (key state) with
      | none =>
          rw [pick_none found]
          exact List.nil_prefix
      | some item =>
          rw [pick_some found, pick_some found]
          exact List.cons_prefix_cons.mpr ⟨rfl, ih _ _⟩

end Library.Greedy
