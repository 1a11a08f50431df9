import Mathlib.Data.List.Infix
import Mathlib.Tactic.Common

/-!
Quoted stretches of a text: between marks where an inner mark is written twice, and up to
the first place of a pair of items.
-/

namespace Library.Quoting

variable {α : Type}

/-- Every mark of the text is written twice. -/
inductive Doubled (mark : α) : List α → Prop
  | nil : Doubled mark []
  | plain {item : α} {body : List α} (differs : item ≠ mark) (rest : Doubled mark body) :
      Doubled mark (item :: body)
  | pair {body : List α} (rest : Doubled mark body) : Doubled mark (mark :: mark :: body)

/-- A text behind a mark: up to the mark that closes it, or the whole text. -/
theorem doubled_split (mark : α) : ∀ text : List α,
    (∃ body rest, text = body ++ mark :: rest ∧ Doubled mark body ∧ rest.head? ≠ some mark) ∨
      Doubled mark text
  | [] => .inr .nil
  | [item] => by
      by_cases here : item = mark
      · subst here
        exact .inl ⟨[], [], rfl, .nil, by simp⟩
      · exact .inr (.plain here .nil)
  | item :: next :: rest => by
      by_cases here : item = mark
      · subst here
        by_cases twice : next = item
        · subst twice
          rcases doubled_split next rest with ⟨body, more, rfl, doubled, closed⟩ | whole
          · exact .inl ⟨next :: next :: body, more, rfl, .pair doubled, closed⟩
          · exact .inr (.pair whole)
        · exact .inl ⟨[], next :: rest, rfl, .nil, by simpa using twice⟩
      · rcases doubled_split mark (next :: rest) with ⟨body, more, same, doubled, closed⟩ | whole
        · refine .inl ⟨item :: body, more, ?_, .plain here doubled, closed⟩
          rw [same]
          rfl
        · exact .inr (.plain here whole)

/-! The first place of a pair -/

theorem pair_free_cons {first second item : α} {rest : List α} :
    ¬ [first, second] <:+: item :: rest ↔
      ¬ (item = first ∧ rest.head? = some second) ∧ ¬ [first, second] <:+: rest := by
  rw [List.infix_cons_iff, not_or, List.cons_prefix_cons]
  have head : [second] <+: rest ↔ rest.head? = some second := by
    cases rest with
    | nil => simp
    | cons next more => simp [List.cons_prefix_cons, eq_comm]
  rw [head, @eq_comm _ first]

theorem pair_split [DecidableEq α] (first second : α) (text : List α) :
    (∃ body rest, text = body ++ first :: second :: rest ∧
        ¬ [first, second] <:+: body ++ [first]) ∨
      ¬ [first, second] <:+: text := by
  induction text with
  | nil => exact .inr (by simp)
  | cons item text ih =>
      by_cases here : item = first ∧ text.head? = some second
      · obtain ⟨rfl, next⟩ := here
        obtain ⟨rest, rfl⟩ := List.head?_eq_some_iff.mp next
        refine .inl ⟨[], rest, rfl, fun inside => ?_⟩
        have size := inside.length_le
        simp at size
      · rcases ih with ⟨body, rest, rfl, free⟩ | free
        · refine .inl ⟨item :: body, rest, rfl, ?_⟩
          -- The item before the pair has the same neighbour with the pair cut in two.
          have neighbour : (body ++ [first]).head? =
              (body ++ first :: second :: rest).head? := by
            cases body <;> rfl
          exact pair_free_cons.mpr ⟨neighbour ▸ here, free⟩
        · exact .inr (pair_free_cons.mpr ⟨here, free⟩)

end Library.Quoting
