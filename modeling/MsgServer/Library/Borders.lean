import Mathlib.Data.List.Basic
import Mathlib.Data.List.Infix
import Mathlib.Data.List.Nodup
import Mathlib.Data.List.Perm.Basic
import Mathlib.Tactic.Common

/-!
Occurrences of one list in another, overlapping ones included, and the longest beginning of
a needle that ends a text. A text that grows by one item leaves a longest beginning that is
at most one longer; where that fails, the next candidate is the longest shorter beginning
that ends the one before.
-/

namespace Library.Borders

variable {α : Type}

def Occurs (needle text : List α) (place : Nat) : Prop :=
  place ≤ text.length ∧ needle <+: text.drop place

/-- The one place where the needle occurs. -/
def OccursOnce (needle text : List α) (place : Nat) : Prop :=
  Occurs needle text place ∧ ∀ other, Occurs needle text other → other = place

/-- The longest beginning of the needle, of a bounded length, that ends a text. -/
structure Longest (needle text : List α) (bound length : Nat) : Prop where
  le : length ≤ bound
  ends : needle.take length <:+ text
  most : ∀ other ≤ bound, needle.take other <:+ text → other ≤ length

theorem longest_nil (needle : List α) {bound : Nat} (small : bound ≤ needle.length) :
    Longest needle [] bound 0 := by
  refine ⟨Nat.zero_le _, List.nil_suffix, ?_⟩
  intro other low ends
  have none : needle.take other = [] := List.suffix_nil.mp ends
  have size := congrArg List.length none
  rw [List.length_take, List.length_nil] at size
  omega

/-- A longer beginning ends a longer text where its own beginning ended the shorter one. -/
theorem take_succ_suffix {needle text : List α} {item : α} {length : Nat}
    (inside : length < needle.length) :
    needle.take (length + 1) <:+ text ++ [item] ↔
      needle.take length <:+ text ∧ needle[length]? = some item := by
  have shape : needle.take (length + 1) = needle.take length ++ [needle[length]] :=
    List.take_succ_eq_append_getElem inside
  rw [shape, List.getElem?_eq_getElem inside, Option.some.injEq]
  constructor
  · rintro ⟨front, same⟩
    rw [← List.append_assoc] at same
    obtain ⟨first, last⟩ := List.append_inj' same rfl
    exact ⟨⟨front, first⟩, List.singleton_inj.mp last⟩
  · rintro ⟨⟨front, rfl⟩, rfl⟩
    exact ⟨front, by rw [List.append_assoc]⟩

/-- A shorter beginning that ends the text ends the longer one. -/
theorem take_suffix_take {needle text : List α} {low high : Nat} (order : low ≤ high)
    (lowEnds : needle.take low <:+ text) (highEnds : needle.take high <:+ text) :
    needle.take low <:+ needle.take high := by
  apply List.suffix_of_suffix_length_le lowEnds highEnds
  rw [List.length_take, List.length_take]
  omega

/-- A candidate for the beginning that the next item makes longer. -/
structure Candidate (needle text : List α) (item : α) (bound length : Nat) : Prop where
  le : length ≤ bound
  ends : needle.take length <:+ text
  most : ∀ other ≤ bound, needle.take other <:+ text → needle[other]? = some item →
    other ≤ length

theorem Longest.candidate {needle text : List α} {bound length : Nat}
    (longest : Longest needle text bound length) (item : α) :
    Candidate needle text item bound length :=
  ⟨longest.le, longest.ends, fun other low ends _ => longest.most other low ends⟩

/-- A candidate that the item does not continue gives way to its longest shorter ending. -/
theorem Candidate.next {needle text : List α} {item : α} {bound length shorter : Nat}
    (candidate : Candidate needle text item bound (length + 1))
    (stops : needle[length + 1]? ≠ some item)
    (border : Longest needle (needle.take (length + 1)) length shorter) :
    Candidate needle text item bound shorter := by
  have below := border.le
  have inside := candidate.le
  refine ⟨by omega, border.ends.trans candidate.ends, ?_⟩
  intro other low ends continues
  have small := candidate.most other low ends continues
  have different : other ≠ length + 1 := by
    rintro rfl
    exact stops continues
  exact border.most other (by omega) (take_suffix_take small ends candidate.ends)

theorem Candidate.continued {needle text : List α} {item : α} {bound length : Nat}
    (candidate : Candidate needle text item bound length) (inside : bound < needle.length)
    (continues : needle[length]? = some item) :
    Longest needle (text ++ [item]) (bound + 1) (length + 1) := by
  have low := candidate.le
  refine ⟨by omega, (take_succ_suffix (by omega)).mpr ⟨candidate.ends, continues⟩, ?_⟩
  intro other small ends
  cases other with
  | zero => exact Nat.zero_le _
  | succ other =>
      obtain ⟨shorter, here⟩ := (take_succ_suffix (by omega)).mp ends
      exact Nat.succ_le_succ (candidate.most other (by omega) shorter here)

theorem Candidate.lost {needle text : List α} {item : α} {bound : Nat}
    (candidate : Candidate needle text item bound 0) (inside : bound < needle.length)
    (stops : needle[0]? ≠ some item) : Longest needle (text ++ [item]) (bound + 1) 0 := by
  refine ⟨Nat.zero_le _, List.nil_suffix, ?_⟩
  intro other small ends
  cases other with
  | zero => exact Nat.le_refl _
  | succ other =>
      obtain ⟨shorter, here⟩ := (take_succ_suffix (by omega)).mp ends
      have zero : other = 0 := Nat.le_zero.mp (candidate.most other (by omega) shorter here)
      subst zero
      exact absurd here stops

/-- A longest beginning that is the whole needle: the needle ends the text there. -/
theorem Longest.whole_iff {needle text : List α} {length : Nat}
    (longest : Longest needle text needle.length length) :
    length = needle.length ↔ needle <:+ text := by
  constructor
  · rintro rfl
    simpa using longest.ends
  · intro ends
    have most := longest.most needle.length (Nat.le_refl _) (by simpa using ends)
    exact Nat.le_antisymm longest.le most

/-- A longest beginning that is not whole is the longest of the shorter ones. -/
theorem Longest.shorten {needle text : List α} {bound length : Nat}
    (longest : Longest needle text (bound + 1) length) (different : length ≠ bound + 1) :
    Longest needle text bound length := by
  have low := longest.le
  exact ⟨by omega, longest.ends, fun other small => longest.most other (by omega)⟩

/-- Behind the whole needle the longest shorter ending of the needle is the next one. -/
theorem Longest.behind {needle text : List α} {bound shorter : Nat}
    (whole : needle.length = bound + 1) (ends : needle <:+ text)
    (border : Longest needle needle bound shorter) :
    Longest needle text bound shorter := by
  refine ⟨border.le, border.ends.trans ends, ?_⟩
  intro other low otherEnds
  apply border.most other low
  have smaller : needle.take other <:+ needle.take needle.length :=
    take_suffix_take (by omega) otherEnds (by simpa using ends)
  simpa using smaller

/-! Occurrences by their ends -/

theorem occurs_iff_ends {needle : List α} (seen rest : List α) (filled : needle ≠ []) :
    Occurs needle (seen ++ rest) (seen.length - needle.length) ∧
      needle.length ≤ seen.length ↔ needle <:+ seen := by
  have positive := List.length_pos_iff.mpr filled
  constructor
  · rintro ⟨⟨-, begins⟩, fits⟩
    rw [List.drop_append_of_le_length (by omega)] at begins
    have same : needle = seen.drop (seen.length - needle.length) := by
      have short : needle <+: seen.drop (seen.length - needle.length) := by
        refine List.prefix_of_prefix_length_le begins (List.prefix_append _ _) ?_
        rw [List.length_drop]
        omega
      apply short.eq_of_length
      rw [List.length_drop]
      omega
    rw [same]
    exact List.drop_suffix _ _
  · rintro ⟨front, rfl⟩
    have size : (front ++ needle).length - needle.length = front.length := by simp
    rw [size]
    refine ⟨⟨by simp, ?_⟩, by simp⟩
    rw [List.append_assoc, List.drop_left]
    exact List.prefix_append _ _

/-- Where the needle ends behind a seen text, by its places. -/
def endings [DecidableEq α] (needle : List α) : List α → List α → List Nat
  | _, [] => []
  | seen, item :: rest =>
      if needle <:+ seen ++ [item] then
        (seen.length + 1 - needle.length) :: endings needle (seen ++ [item]) rest
      else endings needle (seen ++ [item]) rest

theorem mem_endings [DecidableEq α] {needle : List α} (filled : needle ≠ [])
    (seen rest : List α) (place : Nat) :
    place ∈ endings needle seen rest ↔
      Occurs needle (seen ++ rest) place ∧ seen.length < place + needle.length := by
  induction rest generalizing seen with
  | nil =>
      rw [endings, List.append_nil]
      constructor
      · intro member
        cases member
      · rintro ⟨⟨low, begins⟩, past⟩
        have size := begins.length_le
        rw [List.length_drop] at size
        omega
  | cons item rest ih =>
      have later := ih (seen ++ [item])
      rw [List.append_assoc, List.singleton_append, List.length_append,
        List.length_singleton] at later
      have here : Occurs needle (seen ++ item :: rest) (seen.length + 1 - needle.length) ∧
          needle.length ≤ seen.length + 1 ↔ needle <:+ seen ++ [item] := by
        simpa using occurs_iff_ends (seen ++ [item]) rest filled
      rw [endings]
      by_cases ends : needle <:+ seen ++ [item]
      · obtain ⟨occurs, fits⟩ := here.mpr ends
        rw [if_pos ends, List.mem_cons, later]
        constructor
        · rintro (rfl | ⟨found, past⟩)
          · exact ⟨occurs, by omega⟩
          · exact ⟨found, by omega⟩
        · rintro ⟨found, past⟩
          by_cases same : place = seen.length + 1 - needle.length
          · exact .inl same
          · exact .inr ⟨found, by omega⟩
      · rw [if_neg ends, later]
        constructor
        · rintro ⟨found, past⟩
          exact ⟨found, by omega⟩
        · rintro ⟨found, past⟩
          refine ⟨found, ?_⟩
          by_contra early
          have same : place = seen.length + 1 - needle.length := by omega
          exact ends (here.mp ⟨same ▸ found, by omega⟩)

theorem endings_ascending [DecidableEq α] {needle : List α} (filled : needle ≠ [])
    (seen rest : List α) : (endings needle seen rest).Pairwise fun left right => left < right := by
  induction rest generalizing seen with
  | nil => exact List.Pairwise.nil
  | cons item rest ih =>
      rw [endings]
      split
      · rename_i ends
        have fits := ends.length_le
        rw [List.length_append, List.length_singleton] at fits
        refine List.pairwise_cons.mpr ⟨?_, ih _⟩
        intro other member
        have past := ((mem_endings filled _ _ _).mp member).2
        rw [List.length_append, List.length_singleton] at past
        omega
      · exact ih _

/-- Of the first two endings there is one exactly where the needle occurs once. -/
theorem take_endings_iff [DecidableEq α] {needle : List α} (filled : needle ≠ [])
    (text : List α) (place : Nat) :
    (endings needle [] text).take 2 = [place] ↔ OccursOnce needle text place := by
  have members (other : Nat) : other ∈ endings needle [] text ↔ Occurs needle text other := by
    have positive := List.length_pos_iff.mpr filled
    rw [mem_endings filled, List.nil_append, List.length_nil]
    exact ⟨And.left, fun occurs => ⟨occurs, by omega⟩⟩
  have ascending := endings_ascending filled [] text
  rw [OccursOnce, ← members place]
  simp only [← members]
  generalize endings needle [] text = places at ascending ⊢
  cases places with
  | nil => simp
  | cons first rest =>
      cases rest with
      | nil =>
          rw [List.take_of_length_le (by simp)]
          constructor
          · intro same
            obtain rfl := List.singleton_inj.mp same
            exact ⟨List.mem_singleton_self _, fun other => List.mem_singleton.mp⟩
          · rintro ⟨member, -⟩
            rw [List.mem_singleton.mp member]
      | cons second more =>
          constructor
          · intro same
            cases same
          · rintro ⟨-, only⟩
            have less := List.rel_of_pairwise_cons ascending (List.mem_cons_self ..)
            have one := only first (List.mem_cons_self ..)
            have two := only second (by simp)
            omega

/-! Occurrences from one place on -/

def occurrences [DecidableEq α] (needle text : List α) (start : Nat) : List Nat :=
  (List.range' start (text.length + 1 - start)).filter fun place =>
    needle.isPrefixOf (text.drop place)

theorem mem_occurrences [DecidableEq α] {needle text : List α} {start place : Nat} :
    place ∈ occurrences needle text start ↔ start ≤ place ∧ Occurs needle text place := by
  rw [occurrences, List.mem_filter, List.mem_range'_1, List.isPrefixOf_iff_prefix, Occurs]
  constructor
  · rintro ⟨⟨low, high⟩, begins⟩
    exact ⟨low, by omega, begins⟩
  · rintro ⟨low, high, begins⟩
    exact ⟨⟨low, by omega⟩, begins⟩

theorem occurrences_ascending [DecidableEq α] (needle text : List α) (start : Nat) :
    (occurrences needle text start).Pairwise fun left right => left < right :=
  List.Pairwise.filter _ List.pairwise_lt_range'

/-- The ends of the occurrences, in the order of the text, give the places of a search that
tries every place. -/
theorem endings_eq_occurrences [DecidableEq α] {needle : List α} (filled : needle ≠ [])
    (text : List α) : endings needle [] text = occurrences needle text 0 := by
  have positive := List.length_pos_iff.mpr filled
  have ascending := endings_ascending filled [] text
  have naive := occurrences_ascending needle text 0
  have members : ∀ place, place ∈ endings needle [] text ↔ place ∈ occurrences needle text 0 := by
    intro place
    rw [mem_endings filled, mem_occurrences, List.nil_append, List.length_nil]
    constructor
    · rintro ⟨occurs, -⟩
      exact ⟨Nat.zero_le _, occurs⟩
    · rintro ⟨-, occurs⟩
      exact ⟨occurs, by omega⟩
  have apart : ∀ {places : List Nat}, places.Pairwise (fun left right => left < right) →
      places.Nodup := fun sorted => sorted.imp fun less => Nat.ne_of_lt less
  have perm := (List.perm_ext_iff_of_nodup (apart ascending) (apart naive)).mpr members
  exact perm.eq_of_pairwise (fun left right _ _ less more => absurd less (Nat.lt_asymm more))
    ascending naive

theorem filter_range_find (test : Nat → Bool) (start size : Nat) :
    (List.range' start size).filter test =
      match (List.range' start size).find? test with
      | none => []
      | some found =>
          found :: (List.range' (found + 1) (start + size - (found + 1))).filter test := by
  induction size generalizing start with
  | zero => rfl
  | succ size ih =>
      rw [List.range'_succ]
      cases here : test start with
      | true =>
          have left : start + (size + 1) - (start + 1) = size := by omega
          rw [List.filter_cons_of_pos here, List.find?_cons_of_pos here]
          simp only [left]
      | false =>
          have shift : start + 1 + size = start + (size + 1) := by omega
          have skips : ¬ test start = true := by simp [here]
          rw [List.filter_cons_of_neg skips, List.find?_cons_of_neg skips, ih, shift]

theorem occurrences_nodup [DecidableEq α] (needle text : List α) (start : Nat) :
    (occurrences needle text start).Nodup :=
  List.Nodup.filter _ List.nodup_range'

/-- A list without duplicates has one member exactly where all its members are that one. -/
theorem eq_singleton_iff {places : List Nat} (nodup : places.Nodup) (place : Nat) :
    places = [place] ↔ place ∈ places ∧ ∀ other ∈ places, other = place := by
  constructor
  · rintro rfl
    exact ⟨List.mem_singleton_self _, fun other => List.mem_singleton.mp⟩
  · rintro ⟨member, only⟩
    apply List.perm_singleton.mp
    apply (List.perm_ext_iff_of_nodup nodup (List.nodup_singleton _)).mpr
    intro other
    rw [List.mem_singleton]
    constructor
    · exact only other
    · rintro rfl
      exact member

/-- The parts of a needle occur one behind the other. -/
theorem occurs_append {front back text : List α} {place : Nat} :
    Occurs (front ++ back) text place ↔
      Occurs front text place ∧ Occurs back text (place + front.length) := by
  constructor
  · rintro ⟨low, rest, same⟩
    have size := congrArg List.length same
    simp only [List.length_append, List.length_drop] at size
    refine ⟨⟨low, back ++ rest, by rw [← same, List.append_assoc]⟩, by omega, rest, ?_⟩
    rw [← List.drop_drop, ← same, List.append_assoc, List.drop_left]
  · rintro ⟨⟨low, rest, same⟩, -, more, behind⟩
    refine ⟨low, more, ?_⟩
    rw [← List.drop_drop, ← same, List.drop_left] at behind
    rw [← same, ← behind, List.append_assoc]

end Library.Borders
