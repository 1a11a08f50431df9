import Mathlib.Data.List.Basic

/-!
Half-open ranges of natural numbers: which points a list of ranges covers, the maximal
gaps it leaves, and when it tiles an interval. A list in ascending order is read once from
the left; what the reading finds is what the definitions over points say.
-/

namespace Library.Ranges

/-- From the first component up to the second, which is not in the range. -/
abbrev Range := Nat × Nat

def Covers (ranges : List Range) (point : Nat) : Prop :=
  ∃ range ∈ ranges, range.1 ≤ point ∧ point < range.2

def Ascending (ranges : List Range) : Prop :=
  ranges.Pairwise fun left right => left.2 ≤ right.1

/-- Non-empty ranges inside an interval. -/
def Between (start stop : Nat) (ranges : List Range) : Prop :=
  ∀ range ∈ ranges, start ≤ range.1 ∧ range.1 < range.2 ∧ range.2 ≤ stop

/-- A free range of an interval that can be extended on neither side. -/
structure MaximalGap (start stop : Nat) (ranges : List Range) (gap : Range) : Prop where
  proper : gap.1 < gap.2
  low : start ≤ gap.1
  high : gap.2 ≤ stop
  free : ∀ point, gap.1 ≤ point → point < gap.2 → ¬ Covers ranges point
  left : gap.1 = start ∨ Covers ranges (gap.1 - 1)
  right : gap.2 = stop ∨ Covers ranges gap.2

/-- The free ranges that one reading from the left finds. -/
def gaps (stop : Nat) : Nat → List Range → List Range
  | start, [] => if start < stop then [(start, stop)] else []
  | start, range :: rest =>
      (if start < range.1 then [(start, range.1)] else []) ++
        gaps stop (max start range.2) rest

/-- Each range starts where the one before it stops. -/
def Tiles : Nat → List Range → Nat → Prop
  | start, [], stop => start = stop
  | start, range :: rest, stop => range.1 = start ∧ Tiles range.2 rest stop

variable {start stop : Nat} {range : Range} {rest ranges : List Range}

theorem covers_cons {point : Nat} : Covers (range :: rest) point ↔
    range.1 ≤ point ∧ point < range.2 ∨ Covers rest point := by
  simp [Covers]

theorem Between.tail (ascending : Ascending (range :: rest))
    (between : Between start stop (range :: rest)) : Between range.2 stop rest := by
  intro other member
  have inside := between other (List.mem_cons_of_mem _ member)
  exact ⟨List.rel_of_pairwise_cons ascending member, inside.2⟩

theorem not_covers_low (between : Between start stop ranges) {point : Nat}
    (low : point < start) : ¬ Covers ranges point := by
  rintro ⟨range, member, from', -⟩
  have := (between range member).1
  omega

/-- A range that is read first leaves the gap before it and the gaps after it. -/
theorem maximalGap_cons (ascending : Ascending (range :: rest))
    (between : Between start stop (range :: rest)) (gap : Range) :
    MaximalGap start stop (range :: rest) gap ↔
      start < range.1 ∧ gap = (start, range.1) ∨ MaximalGap range.2 stop rest gap := by
  have tail := Between.tail ascending between
  obtain ⟨above, filled, below⟩ := between range (List.mem_cons_self ..)
  have before {point : Nat} (low : point < range.2) : ¬ Covers rest point :=
    not_covers_low tail low
  constructor
  · intro found
    by_cases early : gap.1 < range.1
    · -- nothing before the range is covered, so the gap is the one in front of it
      have from' : gap.1 = start := by
        rcases found.left with same | covered
        · exact same
        · rcases covers_cons.mp covered with ⟨here, -⟩ | there
          · omega
          · exact absurd there (before (by omega))
      have until' : gap.2 ≤ range.1 := by
        by_contra beyond
        exact found.free range.1 (by omega) (by omega) (covers_cons.mpr (.inl ⟨Nat.le_refl _, filled⟩))
      have to' : gap.2 = range.1 := by
        rcases found.right with same | covered
        · omega
        · rcases covers_cons.mp covered with ⟨here, -⟩ | there
          · omega
          · exact absurd there (before (by omega))
      exact .inl ⟨by omega, Prod.ext from' to'⟩
    · have past : range.2 ≤ gap.1 := by
        by_contra inside
        exact found.free gap.1 (Nat.le_refl _) found.proper
          (covers_cons.mpr (.inl ⟨by omega, by omega⟩))
      refine .inr ⟨found.proper, past, found.high, ?_, ?_, ?_⟩
      · intro point from' until' covered
        exact found.free point from' until' (covers_cons.mpr (.inr covered))
      · by_cases touching : gap.1 = range.2
        · exact .inl touching
        · rcases found.left with same | covered
          · omega
          · rcases covers_cons.mp covered with ⟨-, here⟩ | there
            · omega
            · exact .inr there
      · rcases found.right with same | covered
        · exact .inl same
        · have := found.proper
          rcases covers_cons.mp covered with ⟨-, here⟩ | there
          · omega
          · exact .inr there
  · rintro (⟨free, rfl⟩ | found)
    · refine ⟨free, Nat.le_refl _, by omega, ?_, .inl rfl, ?_⟩
      · intro point from' until' covered
        rcases covers_cons.mp covered with ⟨here, -⟩ | there
        · exact absurd here (Nat.not_le.mpr until')
        · exact before (Nat.lt_trans until' filled) there
      · exact .inr (covers_cons.mpr (.inl ⟨Nat.le_refl _, filled⟩))
    · have low := found.low
      have proper := found.proper
      refine ⟨proper, by omega, found.high, ?_, ?_, ?_⟩
      · intro point from' until' covered
        rcases covers_cons.mp covered with ⟨-, here⟩ | there
        · omega
        · exact found.free point from' until' there
      · rcases found.left with same | covered
        · exact .inr (covers_cons.mpr (.inl ⟨by omega, by omega⟩))
        · exact .inr (covers_cons.mpr (.inr covered))
      · rcases found.right with same | covered
        · exact .inl same
        · exact .inr (covers_cons.mpr (.inr covered))

/-- The reading finds the maximal gaps and nothing else. -/
theorem mem_gaps (ascending : Ascending ranges) (between : Between start stop ranges)
    (gap : Range) : gap ∈ gaps stop start ranges ↔ MaximalGap start stop ranges gap := by
  induction ranges generalizing start with
  | nil =>
      have nothing (point : Nat) : ¬ Covers [] point := by simp [Covers]
      simp only [gaps]
      constructor
      · intro member
        split at member
        · obtain rfl := List.mem_singleton.mp member
          exact ⟨‹_›, Nat.le_refl _, Nat.le_refl _, fun point _ _ => nothing point, .inl rfl, .inl rfl⟩
        · simp at member
      · intro found
        have proper := found.proper
        have from' : gap.1 = start := found.left.resolve_right (nothing _)
        have to' : gap.2 = stop := found.right.resolve_right (nothing _)
        rw [if_pos (by omega)]
        exact List.mem_singleton.mpr (Prod.ext from' to')
  | cons range rest ih =>
      obtain ⟨above, filled, -⟩ := between range (List.mem_cons_self ..)
      have furthest : max start range.2 = range.2 := by omega
      have later := ih ascending.of_cons (Between.tail ascending between)
      rw [gaps, furthest, List.mem_append, later, maximalGap_cons ascending between]
      split
      · simp [*]
      · simp [*]

/-- The gaps stand in ascending order and no two of them touch. -/
theorem gaps_apart (ascending : Ascending ranges) (between : Between start stop ranges) :
    (gaps stop start ranges).Pairwise fun left right => left.2 < right.1 := by
  induction ranges generalizing start with
  | nil =>
      simp only [gaps]
      split <;> simp
  | cons range rest ih =>
      obtain ⟨above, filled, -⟩ := between range (List.mem_cons_self ..)
      have furthest : max start range.2 = range.2 := by omega
      have tail := Between.tail ascending between
      rw [gaps, furthest, List.pairwise_append]
      refine ⟨by split <;> simp, ih ascending.of_cons tail, ?_⟩
      intro earlier first later second
      have beyond := ((mem_gaps ascending.of_cons tail later).mp second).low
      split at first
      · obtain rfl := List.mem_singleton.mp first
        exact Nat.lt_of_lt_of_le filled beyond
      · simp at first

/-- Reading again from the start of a gap, over the ranges that reach beyond it, finds that
gap and those after it. -/
theorem gaps_resume (ascending : Ascending ranges) (between : Between start stop ranges)
    {front back : List Range} {gap : Range}
    (found : gaps stop start ranges = front ++ gap :: back) :
    gaps stop gap.1 (ranges.filter fun range => gap.1 < range.2) = gap :: back := by
  induction ranges generalizing start front with
  | nil =>
      simp only [gaps] at found
      split at found
      · have alone : front = [] ∧ gap = (start, stop) ∧ back = [] := by
          cases front with
          | nil => simpa [eq_comm] using found
          | cons _ _ => simp at found
        obtain ⟨-, rfl, rfl⟩ := alone
        rw [List.filter_nil, gaps, if_pos ‹_›]
      · simp at found
  | cons range rest ih =>
      obtain ⟨above, filled, -⟩ := between range (List.mem_cons_self ..)
      have furthest : max start range.2 = range.2 := by omega
      have tail := Between.tail ascending between
      have member : gap ∈ gaps stop start (range :: rest) := by
        rw [found]
        simp
      have whole := found
      rw [gaps, furthest] at found
      by_cases free : start < range.1
      · rw [if_pos free] at found
        cases front with
        | nil =>
            -- the first gap: every range is read again
            simp only [List.nil_append, List.singleton_append, List.cons.injEq] at found
            obtain ⟨rfl, rfl⟩ := found
            have all : (range :: rest).filter (fun other => start < other.2) =
                range :: rest := by
              refine List.filter_eq_self.mpr fun other listed => ?_
              have := between other listed
              exact decide_eq_true (by omega)
            simp only [all, whole, List.nil_append]
        | cons first front =>
            simp only [List.cons_append, List.nil_append, List.cons.injEq] at found
            have later : gap ∈ gaps stop range.2 rest := by
              rw [found.2]
              simp
            have low := ((mem_gaps ascending.of_cons tail gap).mp later).low
            rw [List.filter_cons_of_neg (by simpa using low)]
            exact ih ascending.of_cons tail found.2
      · simp only [if_neg free, List.nil_append] at found
        have later : gap ∈ gaps stop range.2 rest := by
          rw [found]
          simp
        have low := ((mem_gaps ascending.of_cons tail gap).mp later).low
        rw [List.filter_cons_of_neg (by simpa using low)]
        exact ih ascending.of_cons tail found

theorem Tiles.le (tiled : Tiles start ranges stop)
    (filled : ∀ range ∈ ranges, range.1 < range.2) : start ≤ stop := by
  induction ranges generalizing start with
  | nil => exact Nat.le_of_eq tiled
  | cons range rest ih =>
      obtain ⟨rfl, later⟩ := tiled
      have proper := filled range (List.mem_cons_self ..)
      have := ih later fun other member => filled other (List.mem_cons_of_mem _ member)
      omega

theorem Tiles.inside (tiled : Tiles start ranges stop)
    (filled : ∀ range ∈ ranges, range.1 < range.2) {inner : Range} (member : inner ∈ ranges) :
    inner.2 ≤ stop := by
  induction ranges generalizing start with
  | nil => simp at member
  | cons range rest ih =>
      have restFilled : ∀ other ∈ rest, other.1 < other.2 := fun other listed =>
        filled other (List.mem_cons_of_mem _ listed)
      rcases List.mem_cons.mp member with rfl | later
      · exact tiled.2.le restFilled
      · exact ih tiled.2 restFilled later

/-- Ranges in ascending order tile an interval if they cover it and nothing else. -/
theorem tiles_iff (ascending : Ascending ranges) (filled : ∀ range ∈ ranges, range.1 < range.2)
    (from' : ∀ range ∈ ranges, start ≤ range.1) (ordered : start ≤ stop) :
    Tiles start ranges stop ↔
      ∀ point, Covers ranges point ↔ start ≤ point ∧ point < stop := by
  induction ranges generalizing start with
  | nil =>
      simp only [Tiles, Covers, List.not_mem_nil, false_and, exists_false, false_iff]
      constructor
      · intro same point
        omega
      · intro none
        have := none start
        omega
  | cons range rest ih =>
      have proper := filled range (List.mem_cons_self ..)
      have above := from' range (List.mem_cons_self ..)
      have later : ∀ other ∈ rest, range.2 ≤ other.1 := fun other member =>
        List.rel_of_pairwise_cons ascending member
      have restFilled : ∀ other ∈ rest, other.1 < other.2 := fun other member =>
        filled other (List.mem_cons_of_mem _ member)
      have beyond (point : Nat) (covered : Covers rest point) : range.2 ≤ point := by
        obtain ⟨other, member, reached, -⟩ := covered
        exact Nat.le_trans (later other member) reached
      rw [Tiles]
      constructor
      · rintro ⟨rfl, tiled⟩ point
        have wide := tiled.le restFilled
        have smaller := (ih ascending.of_cons restFilled later wide).mp tiled point
        rw [covers_cons, smaller]
        omega
      · intro covered
        have first : range.1 < stop :=
          ((covered range.1).mp (covers_cons.mpr (.inl ⟨Nat.le_refl _, proper⟩))).2
        have last : range.2 - 1 < stop :=
          ((covered (range.2 - 1)).mp (covers_cons.mpr (.inl ⟨by omega, by omega⟩))).2
        have begins : range.1 = start := by
          rcases covers_cons.mp ((covered start).mpr ⟨Nat.le_refl _, by omega⟩) with here | there
          · omega
          · have := beyond start there
            omega
        refine ⟨begins, (ih ascending.of_cons restFilled later (by omega)).mpr ?_⟩
        intro point
        constructor
        · intro reached
          have inside := (covered point).mp (covers_cons.mpr (.inr reached))
          exact ⟨beyond point reached, inside.2⟩
        · rintro ⟨low, high⟩
          rcases covers_cons.mp ((covered point).mpr ⟨by omega, high⟩) with here | there
          · omega
          · exact there

end Library.Ranges
