import Mathlib.Data.List.Basic
import Mathlib.Logic.ExistsUnique

/-!
Rows that belong to owners, where an owner marks one of its rows. In an orderly list no
owner marks two rows and a marked row is in use. What a list may do without losing its
order is to take the mark off rows, and to mark or add one row of an owner that has none
marked.
-/

namespace Library

structure Marking (ρ ω : Type) where
  owner : ρ → ω
  marked : ρ → Bool
  inUse : ρ → Bool

namespace Marking

variable {ρ ω : Type} {marking : Marking ρ ω} {rows next : List ρ}

structure Orderly (marking : Marking ρ ω) (rows : List ρ) : Prop where
  single : ∀ left ∈ rows, ∀ right ∈ rows, marking.owner left = marking.owner right →
    marking.marked left = true → marking.marked right = true → left = right
  used : ∀ row ∈ rows, marking.marked row = true → marking.inUse row = true

/-- The marked row of an owner. -/
def Chosen (marking : Marking ρ ω) (rows : List ρ) (owner : ω) (row : ρ) : Prop :=
  row ∈ rows ∧ marking.owner row = owner ∧ marking.marked row = true

theorem Orderly.nil : marking.Orderly [] := by
  constructor
  · intro left absent
    cases absent
  · intro row absent
    cases absent

/-- One row is new, and the only marked one of its owner if it is marked. -/
theorem Orderly.adding {fresh : ρ} (orderly : marking.Orderly rows)
    (source : ∀ row ∈ next, row ∈ rows ∨ row = fresh)
    (alone : marking.marked fresh = true → ∀ row ∈ rows, marking.owner row = marking.owner fresh →
      marking.marked row = false)
    (used : marking.marked fresh = true → marking.inUse fresh = true) : marking.Orderly next := by
  constructor
  · intro left inLeft right inRight same isLeft isRight
    rcases source left inLeft with oldLeft | rfl
    · rcases source right inRight with oldRight | rfl
      · exact orderly.single left oldLeft right oldRight same isLeft isRight
      · rw [alone isRight left oldLeft same] at isLeft
        cases isLeft
    · rcases source right inRight with oldRight | rfl
      · rw [alone isLeft right oldRight same.symm] at isRight
        cases isRight
      · rfl
  · intro row inside isMarked
    rcases source row inside with old | rfl
    · exact orderly.used row old isMarked
    · exact used isMarked

/-- Every row is as it was, or not marked. -/
theorem Orderly.unmarking (orderly : marking.Orderly rows)
    (source : ∀ row ∈ next, row ∈ rows ∨ marking.marked row = false) : marking.Orderly next := by
  have old : ∀ row ∈ next, marking.marked row = true → row ∈ rows := by
    intro row inside isMarked
    rcases source row inside with older | unmarked
    · exact older
    · rw [unmarked] at isMarked
      cases isMarked
  constructor
  · intro left inLeft right inRight same isLeft isRight
    exact orderly.single left (old left inLeft isLeft) right (old right inRight isRight) same
      isLeft isRight
  · intro row inside isMarked
    exact orderly.used row (old row inside isMarked) isMarked

theorem Chosen.unique {owner : ω} {left right : ρ} (orderly : marking.Orderly rows)
    (isLeft : marking.Chosen rows owner left) (isRight : marking.Chosen rows owner right) :
    left = right :=
  orderly.single left isLeft.1 right isRight.1 (isLeft.2.1.trans isRight.2.1.symm) isLeft.2.2
    isRight.2.2

end Marking

end Library
