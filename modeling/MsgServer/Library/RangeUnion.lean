import Mathlib.Data.Set.Card
import Mathlib.Order.Interval.Finset.Nat
import MsgServer.Library.Ranges

/-!
The union of half-open ranges, read from the left: a range that starts inside or at the end
of the last one extends it. What comes out is ordered with room between its ranges, and the
sum of their lengths is the number of points that are covered.
-/

namespace Library.Ranges

/-- Some room between every two ranges. -/
def Apart (ranges : List Range) : Prop := ranges.Pairwise fun left right => left.2 < right.1

def ByStart (ranges : List Range) : Prop := ranges.Pairwise fun left right => left.1 ≤ right.1

/-- The union of a range and of ranges that start no earlier. -/
def join (last : Range) : List Range → List Range
  | [] => [last]
  | range :: rest =>
      if range.1 ≤ last.2 then join (last.1, max range.2 last.2) rest
      else last :: join range rest

def total (ranges : List Range) : Nat := (ranges.map fun range => range.2 - range.1).sum

variable {last : Range} {rest : List Range}

theorem covers_nil (point : Nat) : ¬ Covers [] point := by simp [Covers]

theorem join_touching {range : Range} (touching : range.1 ≤ last.2) :
    join last (range :: rest) = join (last.1, max range.2 last.2) rest := by
  rw [join, if_pos touching]

theorem join_apart {range : Range} (apart : ¬ range.1 ≤ last.2) :
    join last (range :: rest) = last :: join range rest := by
  rw [join, if_neg apart]

/-- A range that was extended still starts no later than the rest. -/
theorem ByStart.joined {range : Range} (ordered : ByStart (last :: range :: rest)) :
    ByStart ((last.1, max range.2 last.2) :: rest) := by
  refine List.pairwise_cons.mpr ⟨?_, ordered.of_cons.of_cons⟩
  intro other member
  exact List.rel_of_pairwise_cons ordered (List.mem_cons_of_mem _ member)

theorem join_covers (last : Range) (rest : List Range) (ordered : ByStart (last :: rest))
    (point : Nat) : Covers (join last rest) point ↔ Covers (last :: rest) point := by
  induction rest generalizing last with
  | nil => rfl
  | cons range rest ih =>
      have first := List.rel_of_pairwise_cons ordered (List.mem_cons_self ..)
      by_cases touching : range.1 ≤ last.2
      · have later := ordered.joined
        rw [join_touching touching, ih _ later, covers_cons, covers_cons, covers_cons]
        constructor
        · rintro (⟨low, high⟩ | there)
          · by_cases here : point < last.2
            · exact .inl ⟨low, here⟩
            · exact .inr (.inl ⟨by omega, by omega⟩)
          · exact .inr (.inr there)
        · rintro (⟨low, high⟩ | ⟨low, high⟩ | there)
          · exact .inl ⟨low, by omega⟩
          · exact .inl ⟨by omega, by omega⟩
          · exact .inr there
      · rw [join_apart touching, covers_cons, ih _ ordered.of_cons]
        exact covers_cons.symm

/-- The first range that comes out starts with the first that went in. -/
theorem join_starts (last : Range) (rest : List Range) (ordered : ByStart (last :: rest)) :
    ∀ range ∈ join last rest, last.1 ≤ range.1 := by
  induction rest generalizing last with
  | nil => simp [join]
  | cons range rest ih =>
      have first := List.rel_of_pairwise_cons ordered (List.mem_cons_self ..)
      intro other member
      by_cases touching : range.1 ≤ last.2
      · have later := ordered.joined
        rw [join_touching touching] at member
        exact ih _ later other member
      · rw [join_apart touching] at member
        rcases List.mem_cons.mp member with rfl | inRest
        · exact Nat.le_refl _
        · exact Nat.le_trans first (ih _ ordered.of_cons other inRest)

theorem join_apart_all (last : Range) (rest : List Range) (ordered : ByStart (last :: rest)) :
    Apart (join last rest) := by
  induction rest generalizing last with
  | nil => exact List.pairwise_singleton _ _
  | cons range rest ih =>
      by_cases touching : range.1 ≤ last.2
      · have later := ordered.joined
        rw [join_touching touching]
        exact ih _ later
      · rw [join_apart touching]
        refine List.pairwise_cons.mpr ⟨?_, ih _ ordered.of_cons⟩
        intro other member
        have := join_starts range rest ordered.of_cons other member
        omega

/-- What every range has and an extension keeps, the ranges that come out have. -/
theorem join_forall {good : Range → Prop}
    (keeps : ∀ last range, good last → good range → good (last.1, max range.2 last.2))
    (last : Range) (rest : List Range) (all : ∀ range ∈ last :: rest, good range) :
    ∀ range ∈ join last rest, good range := by
  induction rest generalizing last with
  | nil => simpa [join] using all
  | cons range rest ih =>
      have here := all last (List.mem_cons_self ..)
      have next := all range (by simp)
      have later : ∀ other ∈ rest, good other := fun other member =>
        all other (by simp [member])
      by_cases touching : range.1 ≤ last.2
      · rw [join_touching touching]
        apply ih
        intro other member
        rcases List.mem_cons.mp member with rfl | inRest
        · exact keeps last range here next
        · exact later other inRest
      · rw [join_apart touching]
        intro other member
        rcases List.mem_cons.mp member with rfl | inRest
        · exact here
        · refine ih range ?_ other inRest
          intro other member
          rcases List.mem_cons.mp member with rfl | inRest
          · exact next
          · exact later other inRest

/-- Ranges with room between them count every point once. -/
theorem total_eq_ncard {ranges : List Range} (apart : Apart ranges)
    (proper : ∀ range ∈ ranges, range.1 ≤ range.2) :
    total ranges = Set.ncard {point | Covers ranges point} := by
  suffices finite : {point | Covers ranges point}.Finite ∧
      total ranges = Set.ncard {point | Covers ranges point} from finite.2
  induction ranges with
  | nil => simp [total, covers_nil]
  | cons range rest ih =>
      obtain ⟨finite, same⟩ := ih apart.of_cons fun other member =>
        proper other (List.mem_cons_of_mem _ member)
      have split : {point | Covers (range :: rest) point} =
          Set.Ico range.1 range.2 ∪ {point | Covers rest point} := by
        ext point
        exact covers_cons
      have disjoint : Disjoint (Set.Ico range.1 range.2) {point | Covers rest point} := by
        rw [Set.disjoint_left]
        rintro point ⟨-, high⟩ ⟨other, member, low, -⟩
        have := List.rel_of_pairwise_cons apart member
        omega
      have width : Set.ncard (Set.Ico range.1 range.2) = range.2 - range.1 := by
        rw [← Finset.coe_Ico, Set.ncard_coe_finset, Nat.card_Ico]
      rw [split]
      refine ⟨(Set.finite_Ico _ _).union finite, ?_⟩
      rw [Set.ncard_union_eq disjoint (Set.finite_Ico _ _) finite, width, ← same]
      rfl

/-- One range over an interval that is covered whole. -/
theorem whole_iff {ranges : List Range} {size : Nat} (apart : Apart ranges)
    (between : Between 0 size ranges) (filled : ranges ≠ []) :
    ranges = [(0, size)] ↔ ∀ point < size, Covers ranges point := by
  constructor
  · rintro rfl point small
    exact ⟨(0, size), List.mem_singleton_self _, Nat.zero_le _, small⟩
  · intro covered
    cases ranges with
    | nil => exact absurd rfl filled
    | cons range rest =>
        obtain ⟨-, proper, high⟩ := between range (List.mem_cons_self ..)
        have late : ∀ other ∈ rest, range.2 < other.1 := fun other member =>
          List.rel_of_pairwise_cons apart member
        have starts : range.1 = 0 := by
          rcases covers_cons.mp (covered 0 (by omega)) with ⟨low, -⟩ | ⟨other, member, low, -⟩
          · omega
          · have := late other member
            omega
        have stops : range.2 = size := by
          by_contra short
          rcases covers_cons.mp (covered range.2 (by omega)) with
            ⟨-, here⟩ | ⟨other, member, low, -⟩
          · omega
          · have := late other member
            omega
        have none : rest = [] := by
          refine List.eq_nil_iff_forall_not_mem.mpr fun other member => ?_
          have := late other member
          have := between other (List.mem_cons_of_mem _ member)
          omega
        rw [none, ← starts, ← stops]

end Library.Ranges
