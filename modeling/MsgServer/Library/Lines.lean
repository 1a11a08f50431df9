import Mathlib.Data.List.Basic

/-!
Lines of a text that keep their end mark. A text splits into lines that each end with the
mark except perhaps the last, and joining lines loses their borders exactly where one of
them is empty or an inner one lacks its mark.
-/

namespace Library.Lines

variable {α : Type} (mark : α)

def Ended (line : List α) : Prop := line.getLast? = some mark

/-- At most one mark, and that at the end. -/
def IsLine (line : List α) : Prop := mark ∉ line.dropLast

/-- The lines of a text in their order: none is empty and each but the last is ended. -/
structure Unbroken (lines : List (List α)) : Prop where
  filled : ∀ line ∈ lines, line ≠ []
  ended : ∀ line ∈ lines.dropLast, Ended mark line

variable [DecidableEq α]

instance (line : List α) : Decidable (Ended mark line) := by
  unfold Ended
  infer_instance

def split : List α → List (List α)
  | [] => []
  | first :: rest =>
      if first = mark then [first] :: split rest
      else
        match split rest with
        | [] => [[first]]
        | line :: lines => (first :: line) :: lines

variable {mark}

@[simp] theorem flatten_split (text : List α) : (split mark text).flatten = text := by
  induction text with
  | nil => rfl
  | cons first rest ih =>
      rw [split]
      split
      · simp [ih]
      · cases found : split mark rest with
        | nil =>
            rw [found] at ih
            simp [← ih]
        | cons line lines =>
            rw [found] at ih
            simp [← ih]

omit [DecidableEq α] in
theorem unbroken_nil : Unbroken mark ([] : List (List α)) := ⟨by simp, by simp⟩

omit [DecidableEq α] in
theorem unbroken_singleton {line : List α} : Unbroken mark [line] ↔ line ≠ [] :=
  ⟨fun unbroken => unbroken.filled line (List.mem_singleton_self _),
    fun filled => ⟨by simpa using filled, by simp⟩⟩

omit [DecidableEq α] in
theorem unbroken_cons {line next : List α} {rest : List (List α)} :
    Unbroken mark (line :: next :: rest) ↔
      line ≠ [] ∧ Ended mark line ∧ Unbroken mark (next :: rest) := by
  constructor
  · intro unbroken
    refine ⟨unbroken.filled line (List.mem_cons_self ..),
      unbroken.ended line (by simp), ?_, ?_⟩
    · exact fun other member => unbroken.filled other (List.mem_cons_of_mem _ member)
    · exact fun other member => unbroken.ended other (List.mem_cons_of_mem _ member)
  · rintro ⟨filled, ended, later⟩
    constructor
    · intro other member
      rcases List.mem_cons.mp member with rfl | inRest
      · exact filled
      · exact later.filled other inRest
    · intro other member
      rw [List.dropLast_cons_of_ne_nil (List.cons_ne_nil _ _)] at member
      rcases List.mem_cons.mp member with rfl | inRest
      · exact ended
      · exact later.ended other inRest

omit [DecidableEq α] in
/-- Two runs of lines follow each other where the first ends its last line. -/
theorem unbroken_append {front back : List (List α)} :
    Unbroken mark (front ++ back) ↔ Unbroken mark front ∧ Unbroken mark back ∧
      (back ≠ [] → ∀ line ∈ front.getLast?, Ended mark line) := by
  induction front with
  | nil => simp [unbroken_nil]
  | cons line rest ih =>
      cases rest with
      | nil =>
          cases back with
          | nil => simp [unbroken_nil]
          | cons next more =>
              rw [List.singleton_append, unbroken_cons, unbroken_singleton]
              simp
              tauto
      | cons second rest =>
          rw [List.cons_append, List.cons_append, unbroken_cons, unbroken_cons,
            ← List.cons_append, ih]
          simp only [List.getLast?_cons_cons]
          tauto

theorem split_ne_nil {text : List α} (filled : text ≠ []) : split mark text ≠ [] := by
  intro none
  have joined : (split mark text).flatten = text := flatten_split text
  rw [none] at joined
  exact filled joined.symm

/-- What the lines of a text look like. -/
theorem split_lines (text : List α) :
    Unbroken mark (split mark text) ∧ ∀ line ∈ split mark text, IsLine mark line := by
  induction text with
  | nil => exact ⟨unbroken_nil, by simp [split]⟩
  | cons first rest ih =>
      obtain ⟨unbroken, lines⟩ := ih
      rw [split]
      split
      · rename_i same
        constructor
        · cases found : split mark rest with
          | nil => exact unbroken_singleton.mpr (List.cons_ne_nil _ _)
          | cons next more =>
              exact unbroken_cons.mpr ⟨List.cons_ne_nil _ _, by simp [Ended, same],
                found ▸ unbroken⟩
        · intro line member
          rcases List.mem_cons.mp member with rfl | later
          · simp [IsLine]
          · exact lines line later
      · rename_i other
        cases found : split mark rest with
        | nil => exact ⟨unbroken_singleton.mpr (List.cons_ne_nil _ _), by simp [IsLine]⟩
        | cons line more =>
            rw [found] at unbroken lines
            have filled := unbroken.filled line (List.mem_cons_self ..)
            obtain ⟨inner, last, rfl⟩ : ∃ inner last, line = inner ++ [last] :=
              ⟨line.dropLast, line.getLast filled, (List.dropLast_append_getLast filled).symm⟩
            have here := lines _ (List.mem_cons_self ..)
            rw [IsLine, List.dropLast_concat] at here
            constructor
            · cases more with
              | nil => exact unbroken_singleton.mpr (List.cons_ne_nil _ _)
              | cons next more =>
                  obtain ⟨-, ended, later⟩ := unbroken_cons.mp unbroken
                  refine unbroken_cons.mpr ⟨List.cons_ne_nil _ _, ?_, later⟩
                  rw [Ended, ← List.cons_append, List.getLast?_concat]
                  rwa [Ended, List.getLast?_concat] at ended
            · intro candidate member
              rcases List.mem_cons.mp member with rfl | later
              · rw [IsLine, ← List.cons_append, List.dropLast_concat]
                simp only [List.mem_cons, not_or]
                exact ⟨fun same => other same.symm, here⟩
              · exact lines candidate (List.mem_cons_of_mem _ later)

theorem split_line_append {inner text : List α} (free : mark ∉ inner) :
    split mark (inner ++ mark :: text) = (inner ++ [mark]) :: split mark text := by
  induction inner with
  | nil => simp [split]
  | cons first rest ih =>
      simp only [List.mem_cons, not_or] at free
      have other : first ≠ mark := fun same => free.1 same.symm
      simp only [List.cons_append, split, if_neg other, ih free.2]

theorem split_line {line : List α} (isLine : IsLine mark line) (filled : line ≠ []) :
    split mark line = [line] := by
  induction line with
  | nil => exact absurd rfl filled
  | cons first rest ih =>
      cases rest with
      | nil =>
          simp only [split]
          split <;> rfl
      | cons second rest =>
          rw [IsLine, List.dropLast_cons_of_ne_nil (List.cons_ne_nil _ _), List.mem_cons,
            not_or] at isLine
          have other : first ≠ mark := fun same => isLine.1 same.symm
          rw [split, if_neg other, ih isLine.2 (List.cons_ne_nil _ _)]

/-- Joined lines split at their borders again exactly where they are unbroken. -/
theorem split_flatten_iff {lines : List (List α)} (isLine : ∀ line ∈ lines, IsLine mark line) :
    split mark lines.flatten = lines ↔ Unbroken mark lines := by
  constructor
  · intro same
    rw [← same]
    exact (split_lines _).1
  · intro unbroken
    induction lines with
    | nil => rfl
    | cons line rest ih =>
        have here := isLine line (List.mem_cons_self ..)
        cases rest with
        | nil =>
            have filled := unbroken_singleton.mp unbroken
            simpa using split_line here filled
        | cons next more =>
            obtain ⟨filled, ended, later⟩ := unbroken_cons.mp unbroken
            have smaller := ih (fun other member => isLine other (List.mem_cons_of_mem _ member))
              later
            obtain ⟨inner, last, rfl⟩ : ∃ inner last, line = inner ++ [last] :=
              ⟨line.dropLast, line.getLast filled, (List.dropLast_append_getLast filled).symm⟩
            rw [IsLine, List.dropLast_concat] at here
            rw [Ended, List.getLast?_concat, Option.some.injEq] at ended
            subst ended
            rw [List.flatten_cons, List.append_assoc, List.singleton_append,
              split_line_append here, smaller]

/-! Where lines start -/

/-- The position behind the first so many marks. -/
def behind (mark : α) : Nat → List α → Nat
  | 0, _ => 0
  | _ + 1, [] => 0
  | marks + 1, first :: rest =>
      1 + if first = mark then behind mark marks rest else behind mark (marks + 1) rest

@[simp] theorem behind_zero (text : List α) : behind mark 0 text = 0 := by
  cases text <;> rfl

theorem behind_append_low {marks : Nat} {front : List α} (low : marks ≤ front.count mark)
    (back : List α) : behind mark marks (front ++ back) = behind mark marks front := by
  induction front generalizing marks with
  | nil =>
      obtain rfl : marks = 0 := by simpa using low
      simp
  | cons first rest ih =>
      cases marks with
      | zero => simp
      | succ marks =>
          rw [List.cons_append, behind, behind]
          by_cases same : first = mark
          · rw [if_pos same, if_pos same]
            subst same
            rw [List.count_cons_self] at low
            rw [ih (by omega)]
          · rw [if_neg same, if_neg same]
            rw [List.count_cons_of_ne same] at low
            rw [ih low]

theorem behind_append_high {marks : Nat} {front : List α} (high : front.count mark < marks)
    (back : List α) : behind mark marks (front ++ back) =
      front.length + behind mark (marks - front.count mark) back := by
  induction front generalizing marks with
  | nil => simp
  | cons first rest ih =>
      cases marks with
      | zero => exact absurd high (Nat.not_lt_zero _)
      | succ marks =>
          rw [List.cons_append, behind, List.length_cons]
          by_cases same : first = mark
          · subst same
            rw [List.count_cons_self] at high ⊢
            rw [if_pos rfl, ih (by omega), Nat.add_sub_add_right]
            omega
          · rw [List.count_cons_of_ne same] at high ⊢
            rw [if_neg same, ih high]
            omega

/-- Behind so many marks the line of that number starts. -/
theorem behind_eq {marks : Nat} {text : List α} (low : marks ≤ text.count mark) :
    behind mark marks text = ((split mark text).take marks).flatten.length := by
  induction text generalizing marks with
  | nil =>
      obtain rfl : marks = 0 := by simpa using low
      rfl
  | cons first rest ih =>
      cases marks with
      | zero => simp
      | succ marks =>
          rw [behind, split]
          by_cases same : first = mark
          · subst same
            rw [List.count_cons_self] at low
            rw [if_pos rfl, if_pos rfl, ih (by omega)]
            simp [Nat.add_comm]
          · rw [List.count_cons_of_ne same] at low
            rw [if_neg same, if_neg same, ih low]
            cases found : split mark rest with
            | nil =>
                have none : rest = [] := by
                  rw [← flatten_split rest, found]
                  rfl
                rw [none] at low
                exact absurd low (by simp)
            | cons line lines =>
                simp only [List.take_succ_cons, List.flatten_cons, List.length_append,
                  List.length_cons]
                omega

theorem length_split (text : List α) :
    (split mark text).length + (if text.getLast? = some mark then 1 else 0) =
      text.count mark + if text = [] then 0 else 1 := by
  induction text with
  | nil => rfl
  | cons first rest ih =>
      have last : (first :: rest).getLast? = if rest = [] then some first else rest.getLast? := by
        cases rest with
        | nil => rfl
        | cons second more => rw [List.getLast?_cons_cons, if_neg (List.cons_ne_nil _ _)]
      rw [last, split, if_neg (List.cons_ne_nil _ _)]
      by_cases none : rest = []
      · subst none
        by_cases same : first = mark <;> simp [same, split]
      · rw [if_neg none] at ih ⊢
        by_cases same : first = mark
        · subst same
          rw [if_pos rfl, List.count_cons_self, List.length_cons]
          omega
        · rw [if_neg same, List.count_cons_of_ne same]
          cases found : split mark rest with
          | nil => exact absurd found (split_ne_nil none)
          | cons line lines =>
              rw [found] at ih
              exact ih

end Library.Lines
