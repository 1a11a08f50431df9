import Mathlib.Data.List.GetD
import Mathlib.Tactic.Common
import MsgServer.Core.PatchLaw
import MsgServer.Library.Borders

/-!
The search for the context of a hunk, and the contextual replacement. The table of the search
holds the longest border of every beginning of the needle; what the search finds are the
first two places where the needle occurs, overlapping ones included.
-/

namespace MsgServer.TextPatch

open Library Library.Borders

/-! The search for a sequence of lines -/

section

variable {needle : List Text} {table : List Nat}

/-- The table is right for the beginnings up to a length. -/
def Borders (needle : List Text) (table : List Nat) (length : Nat) : Prop :=
  ∀ last < length, Longest needle (needle.take (last + 1)) last (table.getD last 0)

theorem fallback_candidate {bound : Nat} (borders : Borders needle table bound)
    {text : List Text} {item : Text} {turns j : Nat} (enough : j ≤ turns)
    (candidate : Candidate needle text item bound j) :
    Candidate needle text item bound (fallback needle table item turns j) ∧
      (fallback needle table item turns j = 0 ∨
        needle[fallback needle table item turns j]? = some item) := by
  induction turns generalizing j with
  | zero =>
      obtain rfl : j = 0 := Nat.le_zero.mp enough
      exact ⟨candidate, .inl rfl⟩
  | succ turns ih =>
      rw [fallback]
      by_cases done : j = 0 ∨ needle[j]? = some item
      · rw [if_pos done]
        exact ⟨candidate, done⟩
      · rw [if_neg done]
        rw [not_or] at done
        obtain ⟨less, rfl⟩ := Nat.exists_eq_succ_of_ne_zero done.1
        have inside := candidate.le
        have border := borders less (by omega)
        rw [Nat.succ_sub_one]
        have shorter := border.le
        exact ih (by omega) (candidate.next done.2 border)

/-- One more item: the longest beginning that ends the longer text. -/
theorem advance_longest {bound : Nat} (borders : Borders needle table bound)
    (inside : bound < needle.length) {text : List Text} {j : Nat}
    (longest : Longest needle text bound j) (item : Text) :
    Longest needle (text ++ [item]) (bound + 1) (advance needle table item j) := by
  obtain ⟨candidate, stops⟩ :=
    fallback_candidate borders (Nat.le_refl j) (longest.candidate item)
  rw [advance]
  generalize fallback needle table item j j = next at candidate stops
  by_cases continues : needle[next]? = some item
  · rw [if_pos continues]
    exact candidate.continued inside continues
  · rw [if_neg continues]
    obtain rfl := stops.resolve_right continues
    exact candidate.lost inside continues

theorem table_fold (front rest : List Text) (shape : needle = front ++ rest)
    {bound j : Nat} (size : front.length = bound + 1) (length : table.length = bound + 1)
    (borders : Borders needle table (bound + 1)) (longest : Longest needle front bound j) :
    Borders needle (rest.foldl (fun (table, j) item =>
      let j := advance needle table item j
      (table ++ [j], j)) (table, j)).1 needle.length := by
  induction rest generalizing front table bound j with
  | nil =>
      rw [List.append_nil] at shape
      rw [shape, size, ← shape]
      exact borders
  | cons item rest ih =>
      have inside : bound + 1 < needle.length := by
        rw [shape, List.length_append, size, List.length_cons]
        omega
      have shorter : Borders needle table bound := fun last low => borders last (by omega)
      have next := advance_longest shorter (by omega) longest item
      rw [List.foldl_cons]
      have beginning : needle.take (bound + 1 + 1) = front ++ [item] := by
        rw [shape, List.append_cons, List.take_left' (by simp [size])]
      have longer : Borders needle (table ++ [advance needle table item j]) (bound + 1 + 1) := by
        intro last low
        by_cases newest : last = bound + 1
        · subst newest
          rw [beginning, List.getD_append_right _ _ _ _ (Nat.le_of_eq length), length,
            Nat.sub_self]
          exact next
        · rw [List.getD_append _ _ _ _ (by omega)]
          exact borders last (by omega)
      have newShape : needle = front ++ [item] ++ rest := by
        rw [shape, List.append_assoc]
        rfl
      have newSize : (front ++ [item]).length = bound + 1 + 1 := by simp [size]
      have newLength : (table ++ [advance needle table item j]).length = bound + 1 + 1 := by
        simp [length]
      exact ih (front ++ [item]) newShape newSize newLength longer next

theorem prefixTable_borders (filled : needle ≠ []) :
    Borders needle (prefixTable needle) needle.length := by
  obtain ⟨first, rest, rfl⟩ := List.exists_cons_of_ne_nil filled
  have start : Longest (first :: rest) [first] 0 0 := by
    refine ⟨Nat.le_refl _, List.nil_suffix, fun other low _ => low⟩
  refine table_fold [first] rest rfl rfl rfl ?_ start
  intro last low
  obtain rfl : last = 0 := Nat.lt_one_iff.mp low
  exact start

/-- The search through the lines behind those that were seen. -/
theorem sequenceFrom_eq {bound : Nat} (size : needle.length = bound + 1)
    (borders : Borders needle table needle.length) (seen rest : List Text) {j : Nat}
    (longest : Longest needle seen bound j) {found : List Nat} (few : found.length ≤ 1) :
    sequenceFrom needle table rest seen.length j found =
      (found ++ endings needle seen rest).take 2 := by
  induction rest generalizing seen j found with
  | nil =>
      rw [sequenceFrom, endings, List.append_nil, List.take_of_length_le (by omega)]
  | cons line rest ih =>
      have shorter : Borders needle table bound := fun last low => borders last (by omega)
      have next := advance_longest shorter (by omega) longest line
      have later (state : Nat) (before : List Nat) (small : before.length ≤ 1)
          (reached : Longest needle (seen ++ [line]) bound state) :
          sequenceFrom needle table rest (seen.length + 1) state before =
            (before ++ endings needle (seen ++ [line]) rest).take 2 := by
        simpa using ih (seen ++ [line]) reached small
      rw [sequenceFrom, endings]
      generalize advance needle table line j = reached at next
      have most : Longest needle (seen ++ [line]) needle.length reached := size ▸ next
      simp only
      by_cases ends : needle <:+ seen ++ [line]
      · have whole : reached = needle.length := most.whole_iff.mpr ends
        have border := borders bound (by omega)
        have all : needle.take (bound + 1) = needle := List.take_of_length_le (by omega)
        rw [all] at border
        rw [if_pos whole, if_pos ends, whole]
        have shape : found ++ (seen.length + 1 - needle.length) ::
            endings needle (seen ++ [line]) rest =
              found ++ [seen.length + 1 - needle.length] ++
                endings needle (seen ++ [line]) rest := List.append_cons ..
        by_cases second : (found ++ [seen.length + 1 - needle.length]).length = 2
        · rw [if_pos second, shape, List.take_left' second]
        · rw [if_neg second, shape]
          have one : (found ++ [seen.length + 1 - needle.length]).length ≤ 1 := by
            rw [List.length_append, List.length_singleton] at second ⊢
            omega
          have back : needle.length - 1 = bound := by omega
          rw [back]
          exact later _ _ one (border.behind size ends)
      · have part : reached ≠ needle.length := fun whole => ends (most.whole_iff.mp whole)
        rw [if_neg part, if_neg ends]
        exact later _ _ few (next.shorten (size ▸ part))

theorem sequenceMatches_eq (filled : needle ≠ []) (lines : List Text) :
    sequenceMatches lines needle = (endings needle [] lines).take 2 := by
  obtain ⟨bound, size⟩ : ∃ bound, needle.length = bound + 1 :=
    Nat.exists_eq_succ_of_ne_zero fun zero => filled (List.length_eq_zero_iff.mp zero)
  exact sequenceFrom_eq size (prefixTable_borders filled) [] lines
    (longest_nil needle (by omega)) (Nat.zero_le _)

/-- The search finds one place exactly where the needle occurs once. -/
theorem sequenceMatches_iff (filled : needle ≠ []) (lines : List Text) (place : Nat) :
    sequenceMatches lines needle = [place] ↔ OccursOnce needle lines place := by
  rw [sequenceMatches_eq filled]
  exact take_endings_iff filled lines place

/-- The search agrees with the one that tries every place, as far as the second find. -/
theorem first_two_occurrences (filled : needle ≠ []) (lines : List Text) :
    sequenceMatches lines needle = (occurrences needle lines 0).take 2 := by
  rw [sequenceMatches_eq filled, endings_eq_occurrences filled]

theorem first_two_occurrences_periodic :
    sequenceMatches (List.replicate 4 ['a']) [['a'], ['a']] =
      (occurrences [['a'], ['a']] (List.replicate 4 ['a']) 0).take 2 :=
  first_two_occurrences (by decide) _

end

end MsgServer.TextPatch
