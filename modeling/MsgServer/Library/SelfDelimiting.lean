import Mathlib.Data.List.Basic

/-!
Texts that tell where they end. A code is self-delimiting before certain rests when a text
that begins with the code of a value determines the value and the rest.
-/

namespace Library.SelfDelimiting

variable {σ α β : Type}

/-- A stretch of letters that pass a test ends at the first one that does not. -/
theorem split_stretch (test : σ → Bool) {left right s t : List σ}
    (leftAll : ∀ letter ∈ left, test letter = true) (rightAll : ∀ letter ∈ right, test letter = true)
    (leftEnd : ∀ letter ∈ s.head?, test letter = false)
    (rightEnd : ∀ letter ∈ t.head?, test letter = false) (same : left ++ s = right ++ t) :
    left = right ∧ s = t := by
  induction left generalizing right with
  | nil =>
      cases right with
      | nil => exact ⟨rfl, same⟩
      | cons letter rest =>
          rw [List.nil_append] at same
          have stops := leftEnd letter (by simp [same])
          rw [rightAll letter List.mem_cons_self] at stops
          cases stops
  | cons letter rest ih =>
      cases right with
      | nil =>
          rw [List.nil_append] at same
          have stops := rightEnd letter (by simp [← same])
          rw [leftAll letter List.mem_cons_self] at stops
          cases stops
      | cons other more =>
          rw [List.cons_append, List.cons_append, List.cons.injEq] at same
          obtain ⟨rfl, tails⟩ := same
          obtain ⟨rfl, ends⟩ := ih (fun item inside => leftAll item (List.mem_cons_of_mem _ inside))
            (fun item inside => rightAll item (List.mem_cons_of_mem _ inside)) tails
          exact ⟨rfl, ends⟩

/-- Codes of letters that a reader takes off one by one, up to a mark that no code begins
with, determine the letters. -/
theorem split_codes (code : α → List σ) (read : List σ → Option (α × List σ)) (mark : σ)
    (reads : ∀ letter rest, read (code letter ++ rest) = some (letter, rest))
    (apart : ∀ letter, (code letter).head? ≠ some mark) (filled : ∀ letter, code letter ≠ [])
    {left right : List α} {s t : List σ}
    (same : left.flatMap code ++ mark :: s = right.flatMap code ++ mark :: t) :
    left = right ∧ s = t := by
  have first : ∀ letter (rest : List σ) more, code letter ++ rest ≠ mark :: more := by
    intro letter rest more equal
    cases shape : code letter with
    | nil => exact filled letter shape
    | cons head tail =>
        rw [shape, List.cons_append, List.cons.injEq] at equal
        apply apart letter
        rw [shape, List.head?_cons, equal.1]
  induction left generalizing right with
  | nil =>
      cases right with
      | nil =>
          rw [List.flatMap_nil, List.nil_append, List.nil_append, List.cons.injEq] at same
          exact ⟨rfl, same.2⟩
      | cons letter rest =>
          rw [List.flatMap_cons, List.append_assoc] at same
          exact absurd same.symm (first _ _ _)
  | cons letter rest ih =>
      cases right with
      | nil =>
          rw [List.flatMap_cons, List.append_assoc] at same
          exact absurd same (first _ _ _)
      | cons other more =>
          rw [List.flatMap_cons, List.flatMap_cons, List.append_assoc, List.append_assoc] at same
          have taken := congrArg read same
          rw [reads, reads, Option.some.injEq, Prod.mk.injEq] at taken
          obtain ⟨rfl, tails⟩ := taken
          obtain ⟨rfl, ends⟩ := ih tails
          exact ⟨rfl, ends⟩

end Library.SelfDelimiting
