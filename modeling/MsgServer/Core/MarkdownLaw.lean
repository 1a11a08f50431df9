import Mathlib.Tactic.Common
import MsgServer.Core.Markdown

/-!
Where the blocks and sections of a Markdown source lie, and what a structured edit leaves
alone.
-/

namespace MsgServer.TextPatch

open Library

variable {unicode : Unicode}

/-! The lines of a source -/

@[simp] theorem flatten_markdownLines (source : Text) :
    (markdownLines source).flatten = source := by
  induction source using markdownLines.induct with
  | case1 => rfl
  | case2 rest ih => simp [markdownLines, ih]
  | case3 first rest other ends ih =>
      rw [markdownLines, if_pos ends]
      · simp [ih]
      · exact other
  | case4 first rest other inner found ih =>
      rw [markdownLines, if_neg inner]
      · rw [found] at ih ⊢
        simp [← ih]
      · exact other
  | case5 first rest other inner line lines found ih =>
      rw [markdownLines, if_neg inner]
      · rw [found] at ih ⊢
        simp [← ih]
      · exact other

theorem markdownLines_other {first : Char} {rest : Text}
    (inner : ¬ (first = '\r' ∨ first = '\n')) :
    markdownLines (first :: rest) =
      match markdownLines rest with
      | [] => [[first]]
      | line :: lines => (first :: line) :: lines := by
  have apart : ∀ more, first = '\r' → rest = '\n' :: more → False :=
    fun _ return' _ => inner (.inl return')
  exact (markdownLines.eq_3 first rest apart).trans (if_neg inner)

theorem markdownLines_end {first : Char} {rest : Text} (ends : first = '\r' ∨ first = '\n')
    (alone : first = '\r' → rest.head? ≠ some '\n') :
    markdownLines (first :: rest) = [first] :: markdownLines rest := by
  rw [markdownLines, if_pos ends]
  rintro more rfl rfl
  exact alone rfl rfl

theorem markdownLines_filled (source : Text) : ∀ line ∈ markdownLines source, line ≠ [] := by
  induction source using markdownLines.induct with
  | case1 => simp [markdownLines]
  | case2 rest ih => simpa [markdownLines] using ih
  | case3 first rest other ends ih =>
      rw [markdownLines, if_pos ends]
      · simpa using ih
      · exact other
  | case4 first rest other inner found ih =>
      rw [markdownLines_other inner, found]
      simp
  | case5 first rest other inner line lines found ih =>
      rw [found] at ih
      rw [markdownLines_other inner, found]
      intro other member
      rcases List.mem_cons.mp member with rfl | later
      · exact List.cons_ne_nil _ _
      · exact ih other (List.mem_cons_of_mem _ later)

/-- A first line that starts with some character starts the text. -/
theorem head_flatten_take (source : Text) (n : Nat) :
    ((markdownLines source).take n).flatten.head? = none ∨
      ((markdownLines source).take n).flatten.head? = source.head? := by
  cases n with
  | zero => simp
  | succ n =>
      have whole := flatten_markdownLines source
      have filled := markdownLines_filled source
      cases lines : markdownLines source with
      | nil => simp
      | cons line rest =>
          rw [lines] at whole filled
          have some' := filled line (List.mem_cons_self ..)
          right
          rw [← whole, List.take_succ_cons, List.flatten_cons, List.flatten_cons,
            List.head?_append_of_ne_nil _ some', List.head?_append_of_ne_nil _ some']

/-- The first lines of a source are the lines of their own text. -/
theorem markdownLines_take (source : Text) (n : Nat) :
    markdownLines ((markdownLines source).take n).flatten = (markdownLines source).take n := by
  induction source using markdownLines.induct generalizing n with
  | case1 => simp [markdownLines]
  | case2 rest ih =>
      cases n with
      | zero => rfl
      | succ n => simp [markdownLines, ih]
  | case3 first rest other ends ih =>
      have alone : first = '\r' → rest.head? ≠ some '\n' := by
        rintro rfl starts
        obtain ⟨more, rfl⟩ := List.head?_eq_some_iff.mp starts
        exact other more rfl rfl
      rw [markdownLines_end ends alone]
      cases n with
      | zero => rfl
      | succ n =>
          rw [List.take_succ_cons, List.flatten_cons, List.singleton_append,
            markdownLines_end ends, ih]
          intro return' starts
          rcases head_flatten_take rest n with none | same
          · rw [none] at starts
            cases starts
          · exact alone return' (same ▸ starts)
  | case4 first rest other inner found ih =>
      rw [markdownLines_other inner, found]
      cases n with
      | zero => rfl
      | succ n =>
          have alone : markdownLines [first] = [[first]] := by
            rw [markdownLines_other inner]
            rfl
          simpa using alone
  | case5 first rest other inner line lines found ih =>
      rw [markdownLines_other inner, found]
      cases n with
      | zero => rfl
      | succ n =>
          have smaller := ih (n + 1)
          rw [found, List.take_succ_cons, List.flatten_cons] at smaller
          rw [List.take_succ_cons, List.flatten_cons, List.cons_append,
            markdownLines_other inner, smaller]

/-- The last lines of a source are the lines of their own text. -/
theorem markdownLines_drop (source : Text) (n : Nat) :
    markdownLines ((markdownLines source).drop n).flatten = (markdownLines source).drop n := by
  induction source using markdownLines.induct generalizing n with
  | case1 => simp [markdownLines]
  | case2 rest ih =>
      cases n with
      | zero => simp
      | succ n => simpa [markdownLines] using ih n
  | case3 first rest other ends ih =>
      cases n with
      | zero => simp
      | succ n =>
          rw [markdownLines, if_pos ends]
          · simpa using ih n
          · exact other
  | case4 first rest other inner found ih =>
      cases n with
      | zero => simp
      | succ n =>
          rw [markdownLines_other inner, found]
          simp [markdownLines]
  | case5 first rest other inner line lines found ih =>
      cases n with
      | zero => simp
      | succ n =>
          have smaller := ih (n + 1)
          rw [found] at smaller
          rw [markdownLines_other inner, found]
          exact smaller

/-! Where the lines stand -/

theorem offset_append (front : List Text) (back : List Text) (n : Nat) :
    offset (front ++ back) (front.length + n) =
      front.flatten.length + (back.take n).flatten.length := by
  rw [offset, List.take_length_add_append, List.flatten_append, List.length_append]

theorem offset_zero (front : List Text) (back : List Text) :
    offset (front ++ back) front.length = front.flatten.length := by
  simpa using offset_append front back 0

theorem offset_le {lines : List Text} {i j : Nat} (order : i ≤ j) :
    offset lines i ≤ offset lines j := by
  obtain ⟨n, rfl⟩ := Nat.exists_eq_add_of_le order
  rw [offset, offset, List.take_add, List.flatten_append, List.length_append]
  exact Nat.le_add_right _ _

theorem offset_lt {lines : List Text} (filled : ∀ line ∈ lines, line ≠ []) {i j : Nat}
    (order : i < j) (inside : j ≤ lines.length) : offset lines i < offset lines j := by
  have next : offset lines i < offset lines (i + 1) := by
    have here : i < lines.length := by omega
    rw [offset, offset, List.take_succ_eq_append_getElem here, List.flatten_append,
      List.length_append]
    have some' := List.length_pos_iff.mpr (filled lines[i] (List.getElem_mem here))
    simpa using some'
  exact Nat.lt_of_lt_of_le next (offset_le order)

theorem offset_end (source : Text) :
    offset (markdownLines source) (markdownLines source).length = source.length := by
  rw [offset, List.take_length, flatten_markdownLines]

/-- The text between two places where lines start. -/
theorem slice_offset {source : Text} {i j : Nat} (order : i ≤ j) :
    slice source (offset (markdownLines source) i) (offset (markdownLines source) j) =
      (((markdownLines source).drop i).take (j - i)).flatten := by
  obtain ⟨n, rfl⟩ := Nat.exists_eq_add_of_le order
  generalize same : markdownLines source = lines
  have whole : source = (lines.take i).flatten ++
      (((lines.drop i).take n).flatten ++ ((lines.drop i).drop n).flatten) := by
    rw [← List.flatten_append, List.take_append_drop, ← List.flatten_append,
      List.take_append_drop, ← same, flatten_markdownLines]
  have wide : offset lines (i + n) - offset lines i = ((lines.drop i).take n).flatten.length := by
    rw [offset, offset, List.take_add, List.flatten_append, List.length_append]
    omega
  rw [slice, wide, Nat.add_sub_cancel_left]
  conv_lhs => rw [whole]
  rw [offset, List.drop_left, List.take_left]

/-! The blocks -/

theorem fenced_le (unicode : Unicode) (marker : Text) (lines : List Text) :
    fenced unicode marker lines ≤ lines.length := by
  induction lines with
  | nil => exact Nat.le_refl _
  | cons line rest ih =>
      rw [fenced, List.length_cons]
      split <;> omega

theorem paragraph_le (unicode : Unicode) (lines : List Text) : paragraph unicode lines ≤ lines.length := by
  induction lines with
  | nil => exact Nat.le_refl _
  | cons line rest ih =>
      rw [paragraph, List.length_cons]
      split
      · omega
      · split <;> omega

theorem headingAt_taken {line : Text} {rest : List Text} {level taken : Nat}
    (found : headingAt line rest = some (level, taken)) :
    1 ≤ taken ∧ taken ≤ rest.length + 1 := by
  unfold headingAt at found
  split at found
  · cases found
    omega
  · rename_i under
    split at found
    · cases found
    · cases found
      cases rest with
      | nil => cases under
      | cons next more => simp
  · cases found

/-- A block takes its first line and only lines that there are. -/
theorem blockAt_taken (unicode : Unicode) (line : Text) (rest : List Text) (at' : Nat) :
    1 ≤ (blockAt unicode line rest at').1 ∧
      (blockAt unicode line rest at').1 ≤ rest.length + 1 := by
  unfold blockAt
  split
  · rename_i marker _
    have := fenced_le unicode marker rest
    constructor <;> simp only <;> omega
  · split
    · exact headingAt_taken ‹_›
    · have := paragraph_le unicode rest
      constructor <;> simp only <;> omega

theorem blockAt_heading {line : Text} {rest : List Text} {at' : Nat} {heading : Heading}
    (found : (blockAt unicode line rest at').2 = some heading) :
    heading.offset = at' ∧ heading.title = titleOf unicode line := by
  unfold blockAt at found
  split at found
  · cases found
  · split at found
    · cases found
      exact ⟨rfl, rfl⟩
    · cases found

/-- A block over whole lines, from one up to another. -/
structure Over (unicode : Unicode) (lines : List Text) (block : Block) (i j : Nat) : Prop where
  order : i < j
  inside : j ≤ lines.length
  start : block.start = offset lines i
  stop : block.stop = offset lines j
  heading : ∀ heading, block.heading = some heading →
    heading.offset = block.start ∧ lines[i]?.map (titleOf unicode) = some heading.title

/-- What the scan finds behind some lines, of which the last block takes a few more. -/
structure Scanned (unicode : Unicode) (lines : List Text) (from' : Nat) (blocks : List Block) :
    Prop where
  stretch : ∀ block ∈ blocks, ∃ i j, from' ≤ i ∧ Over unicode lines block i j
  ascending : blocks.Pairwise fun left right => left.stop ≤ right.start
  covered : ∀ i line, from' ≤ i → lines[i]? = some line → isBlank unicode line = false →
    ∃ block ∈ blocks, block.start ≤ offset lines i ∧ offset lines (i + 1) ≤ block.stop

theorem scanBlocks_scanned (front rest : List Text) (taken : Nat) :
    Scanned unicode (front ++ rest) (front.length + taken)
      (scanBlocks unicode rest taken front.flatten.length) := by
  induction rest generalizing front taken with
  | nil =>
      refine ⟨by simp [scanBlocks], List.Pairwise.nil, ?_⟩
      intro i line low found
      rw [List.append_nil] at found
      have := (List.getElem?_eq_some_iff.mp found).1
      omega
  | cons line rest ih =>
      have shift (taken : Nat) := ih (front ++ [line]) taken
      simp only [List.append_assoc, List.singleton_append, List.length_append,
        List.length_singleton, List.flatten_append, List.flatten_singleton] at shift
      cases taken with
      | succ taken =>
          have later := shift taken
          rw [Nat.add_assoc, Nat.add_comm 1 taken] at later
          exact later
      | zero =>
          rw [scanBlocks]
          split
          · -- a blank line is passed over
            rename_i blank
            have later := shift 0
            refine ⟨?_, later.ascending, ?_⟩
            · intro block member
              obtain ⟨i, j, low, stretch⟩ := later.stretch block member
              exact ⟨i, j, by omega, stretch⟩
            · intro i other low found filled
              by_cases here : i = front.length
              · subst here
                rw [List.getElem?_append_right (Nat.le_refl _), Nat.sub_self] at found
                cases found
                rw [blank] at filled
                cases filled
              · exact later.covered i other (by omega) found filled
          · obtain ⟨positive, inside⟩ :=
              blockAt_taken unicode line rest front.flatten.length
            have heads : ∀ heading,
                (blockAt unicode line rest front.flatten.length).2 = some heading →
                heading.offset = front.flatten.length ∧ heading.title = titleOf unicode line :=
              fun _ => blockAt_heading
            generalize blockAt unicode line rest front.flatten.length = found at positive inside heads
            obtain ⟨taken, heading⟩ := found
            simp only at positive inside heads ⊢
            have later := shift (taken - 1)
            have next : front.length + 1 + (taken - 1) = front.length + taken := by omega
            rw [next] at later
            let block : Block :=
              { start := front.flatten.length
                stop := front.flatten.length + ((line :: rest).take taken).flatten.length
                heading }
            have here : Over unicode (front ++ line :: rest) block front.length
                (front.length + taken) := by
              refine ⟨by omega, by simp; omega, (offset_zero _ _).symm,
                (offset_append _ _ _).symm, ?_⟩
              intro found same
              obtain ⟨start, title⟩ := heads found same
              refine ⟨start, ?_⟩
              rw [List.getElem?_append_right (Nat.le_refl _), Nat.sub_self, title]
              rfl
            refine ⟨?_, ?_, ?_⟩
            · intro other member
              rcases List.mem_cons.mp member with rfl | inRest
              · exact ⟨front.length, front.length + taken, Nat.le_refl _, here⟩
              · obtain ⟨i, j, low, stretch⟩ := later.stretch other inRest
                exact ⟨i, j, by omega, stretch⟩
            · refine List.pairwise_cons.mpr ⟨?_, later.ascending⟩
              intro other member
              obtain ⟨i, j, low, stretch⟩ := later.stretch other member
              have ends : block.stop = offset (front ++ line :: rest) (front.length + taken) :=
                here.stop
              change block.stop ≤ other.start
              rw [ends, stretch.start]
              exact offset_le low
            · intro i other low found filled
              by_cases inBlock : i < front.length + taken
              · refine ⟨block, List.mem_cons_self .., ?_, ?_⟩
                · rw [here.start]
                  exact offset_le (by omega)
                · rw [here.stop]
                  exact offset_le (by omega)
              · obtain ⟨block, member, covers⟩ := later.covered i other (by omega) found filled
                exact ⟨block, List.mem_cons_of_mem _ member, covers⟩

theorem blocks_scanned (lines : List Text) :
    Scanned unicode lines 0 (scanBlocks unicode lines 0 0) :=
  scanBlocks_scanned [] lines 0

/-! The sections -/

variable {source : Text}

/-- The lines of a stretch of a source are the lines of its own text. -/
theorem markdownLines_stretch (source : Text) (i n : Nat) :
    markdownLines (((markdownLines source).drop i).take n).flatten =
      ((markdownLines source).drop i).take n := by
  have behind := markdownLines_drop source i
  have front := markdownLines_take ((markdownLines source).drop i).flatten n
  rwa [behind] at front

/-- A section over whole lines, the first of which gives its title. -/
structure SectionOver (unicode : Unicode) (source : Text) (entry : Heading × Nat × Nat)
    (i k : Nat) : Prop where
  order : i < k
  inside : k ≤ (markdownLines source).length
  span : entry.2 = (offset (markdownLines source) i, offset (markdownLines source) k)
  title : (markdownLines source)[i]?.map (titleOf unicode) = some entry.1.title

theorem heading_over {blocks : List Block}
    (stretch : ∀ block ∈ blocks, ∃ i j, Over unicode (markdownLines source) block i j)
    {heading : Heading} (member : heading ∈ blocks.filterMap Block.heading) :
    ∃ block ∈ blocks, ∃ i j, Over unicode (markdownLines source) block i j ∧
      heading.offset = block.start := by
  obtain ⟨block, listed, same⟩ := List.mem_filterMap.mp member
  obtain ⟨i, j, stands⟩ := stretch block listed
  exact ⟨block, listed, i, j, stands, (stands.heading heading same).1⟩

/-- A section reaches from the start of its heading to a later one or to the end. -/
theorem section_over {blocks : List Block}
    (stretch : ∀ block ∈ blocks, ∃ i j, Over unicode (markdownLines source) block i j)
    (ascending : blocks.Pairwise fun left right => left.stop ≤ right.start)
    {entry : Heading × Nat × Nat}
    (member : entry ∈ sections source (blocks.filterMap Block.heading)) :
    ∃ i k, SectionOver unicode source entry i k := by
  induction blocks with
  | nil => simp [sections] at member
  | cons block rest ih =>
      have restOver : ∀ other ∈ rest, ∃ i j, Over unicode (markdownLines source) other i j :=
        fun other listed => stretch other (List.mem_cons_of_mem _ listed)
      cases found : block.heading with
      | none =>
          rw [List.filterMap_cons_none found] at member
          exact ih restOver ascending.of_cons member
      | some heading =>
          rw [List.filterMap_cons_some found, sections] at member
          rcases List.mem_cons.mp member with rfl | later
          · obtain ⟨i, j, stands⟩ := stretch block (List.mem_cons_self ..)
            obtain ⟨starts, title⟩ := stands.heading heading found
            have begins : heading.offset = offset (markdownLines source) i :=
              starts.trans stands.start
            have order := stands.order
            have inside := stands.inside
            cases next : (rest.filterMap Block.heading).find? fun next =>
                next.level ≤ heading.level with
            | none =>
                have ends : sectionEnd source heading (rest.filterMap Block.heading) =
                    source.length := by
                  rw [sectionEnd, next]
                refine ⟨i, (markdownLines source).length, by omega, Nat.le_refl _, ?_, title⟩
                rw [ends, begins, offset_end]
            | some closing =>
                have ends : sectionEnd source heading (rest.filterMap Block.heading) =
                    closing.offset := by
                  rw [sectionEnd, next]
                obtain ⟨other, listed, i', j', behind, same⟩ :=
                  heading_over restOver (List.mem_of_find?_eq_some next)
                have apart := List.rel_of_pairwise_cons ascending listed
                rw [stands.stop, behind.start] at apart
                have beyond : i < i' := by
                  by_contra before
                  have low : offset (markdownLines source) i' ≤
                      offset (markdownLines source) i := offset_le (by omega)
                  have := offset_lt (markdownLines_filled source) order inside
                  omega
                refine ⟨i, i', beyond, ?_, ?_, title⟩
                · exact Nat.le_of_lt (Nat.lt_of_lt_of_le behind.order behind.inside)
                · rw [ends, begins, same, behind.start]
          · exact ih restOver ascending.of_cons later

/-- Sections of one text have one title. -/
theorem section_title {left right : Heading × Nat × Nat} {i k i' k' : Nat}
    (leftOver : SectionOver unicode source left i k)
    (rightOver : SectionOver unicode source right i' k')
    (same : slice source left.2.1 left.2.2 = slice source right.2.1 right.2.2) :
    left.1.title = right.1.title := by
  rw [leftOver.span, rightOver.span, slice_offset (Nat.le_of_lt leftOver.order),
    slice_offset (Nat.le_of_lt rightOver.order)] at same
  have lines := congrArg markdownLines same
  rw [markdownLines_stretch, markdownLines_stretch] at lines
  have first (at' stop : Nat) (order : at' < stop) :
      (((markdownLines source).drop at').take (stop - at'))[0]? =
        (markdownLines source)[at']? := by
    rw [List.getElem?_take_of_lt (by omega), List.getElem?_drop, Nat.add_zero]
  have heads : (markdownLines source)[i]? = (markdownLines source)[i']? := by
    rw [← first i k leftOver.order, ← first i' k' rightOver.order, lines]
  have titles := leftOver.title
  rw [heads, rightOver.title] at titles
  exact (Option.some.inj titles).symm

/-! The law -/

/-- What an edit names: the block of its digest, or the section of its title. There is only
one, and for a title only one of that text. -/
def Meant (digest : Text → String) (source : Text) (headings : List Heading)
    (blocks : List (Nat × Nat)) (start stop : Nat) : StructuredPatch → Prop
  | .heading wanted _ _ => ∃ heading, (heading, start, stop) ∈ sections source headings ∧
      heading.title = wanted ∧
      ∀ other ∈ sections source headings, other.1.title = wanted ∨
        slice source other.2.1 other.2.2 = slice source start stop →
        other = (heading, start, stop)
  | .block wanted _ => (start, stop) ∈ blocks ∧
      ∀ other ∈ blocks, digest (slice source other.1 other.2) = wanted → other = (start, stop)

theorem structured_ok {digest : Text → String} {headings : List Heading}
    {blocks : List (Nat × Nat)} {patch : StructuredPatch} {result : Text}
    (accepted : (match candidates digest source headings blocks patch with
      | [] => .error { code := "patch_no_match" }
      | (start, stop) :: more => do
          require (more = []) "patch_ambiguous"
          require (digest (slice source start stop) = patch.digest) "patch_no_match"
          return source.take start ++ patch.replacement ++ source.drop stop :
        Except Failure Text) = .ok result) :
    ∃ start stop, candidates digest source headings blocks patch = [(start, stop)] ∧
      digest (slice source start stop) = patch.digest ∧
      result = source.take start ++ patch.replacement ++ source.drop stop := by
  cases found : candidates digest source headings blocks patch with
  | nil =>
      rw [found] at accepted
      cases accepted
  | cons span more =>
      obtain ⟨start, stop⟩ := span
      rw [found] at accepted
      simp only [Program.except_bind_ok, require_ok, exists_const, Program.except_pure,
        Except.ok.injEq] at accepted
      obtain ⟨rfl, same, rfl⟩ := accepted
      exact ⟨start, stop, rfl, same, rfl⟩

theorem candidates_block {digest : Text → String} {headings : List Heading}
    {blocks : List (Nat × Nat)} {wanted : String} {replacement : Text} {start stop : Nat}
    (alone : candidates digest source headings blocks (.block wanted replacement) =
      [(start, stop)]) :
    (start, stop) ∈ blocks ∧
      ∀ other ∈ blocks, digest (slice source other.1 other.2) = wanted →
        other = (start, stop) := by
  have members (other : Nat × Nat) := congrArg (other ∈ ·) alone
  simp only [candidates, List.mem_filter, decide_eq_true_eq, List.mem_singleton, eq_iff_iff]
    at members
  constructor
  · exact ((members (start, stop)).mpr rfl).1
  · intro other listed same
    exact (members other).mp ⟨listed, same⟩

theorem candidates_heading {digest : Text → String} {headings : List Heading}
    {blocks : List (Nat × Nat)} {wanted replacement : Text} {wantedDigest : String}
    {start stop : Nat}
    (alone : candidates digest source headings blocks
      (.heading wanted wantedDigest replacement) = [(start, stop)]) :
    ∃ heading, (heading, start, stop) ∈ sections source headings ∧ heading.title = wanted ∧
      ∀ other ∈ sections source headings, other.1.title = wanted →
        other = (heading, start, stop) := by
  obtain ⟨entry, listed, span⟩ := List.map_eq_singleton_iff.mp alone
  obtain ⟨heading, _⟩ := entry
  cases span
  have members (other : Heading × Nat × Nat) := congrArg (other ∈ ·) listed
  simp only [List.mem_filter, decide_eq_true_eq, List.mem_singleton, eq_iff_iff] at members
  obtain ⟨member, title⟩ := (members (heading, start, stop)).mpr rfl
  refine ⟨heading, member, title, ?_⟩
  intro other inside same
  exact (members other).mp ⟨inside, same⟩

/-- The blocks of a source are disjoint, ascending stretches of whole lines that cover every
line that is not blank, and every heading starts one; a structured edit that is accepted
replaces the one block or section that it names and leaves the rest of the source. -/
theorem structured_patch_local (unicode : Unicode) (digest : Text → String) (source : Text) :
    let lines := markdownLines source
    lines.flatten = source ∧
    (∀ headings blocks, markdown unicode source = .ok (headings, blocks) →
      blocks.Pairwise (fun left right => left.2 ≤ right.1) ∧
      (∀ span ∈ blocks, span.1 < span.2 ∧ ∃ i j, i < j ∧ j ≤ lines.length ∧
        span = (offset lines i, offset lines j)) ∧
      (∀ i line, lines[i]? = some line → isBlank unicode line = false →
        ∃ span ∈ blocks, span.1 ≤ offset lines i ∧ offset lines (i + 1) ≤ span.2) ∧
      ∀ heading ∈ headings, ∃ span ∈ blocks, span.1 = heading.offset) ∧
    ∀ patch result, structured unicode digest source patch = .ok result →
      ∃ headings blocks start stop, markdown unicode source = .ok (headings, blocks) ∧
        start < stop ∧ stop ≤ source.length ∧
        digest (slice source start stop) = patch.digest ∧
        Meant digest source headings blocks start stop patch ∧
        result = source.take start ++ patch.replacement ++ source.drop stop := by
  intro lines
  have scanned : Scanned unicode lines 0 (scanBlocks unicode lines 0 0) := blocks_scanned lines
  have filled := markdownLines_filled source
  have spans {headings : List Heading} {blocks : List (Nat × Nat)}
      (done : markdown unicode source = .ok (headings, blocks)) :
      headings = (scanBlocks unicode lines 0 0).filterMap Block.heading ∧
        blocks = (scanBlocks unicode lines 0 0).map fun block => (block.start, block.stop) := by
    simp only [markdown, Program.except_bind_ok, require_ok, exists_const,
      Program.except_pure, Except.ok.injEq, Prod.mk.injEq] at done
    exact ⟨done.2.2.1.symm, done.2.2.2.symm⟩
  have stretch : ∀ block ∈ scanBlocks unicode lines 0 0, ∃ i j, Over unicode lines block i j := by
    intro block member
    obtain ⟨i, j, -, stands⟩ := scanned.stretch block member
    exact ⟨i, j, stands⟩
  have whole {span : Nat × Nat} (member : span ∈ (scanBlocks unicode lines 0 0).map
      fun block => (block.start, block.stop)) : span.1 < span.2 ∧ ∃ i j, i < j ∧
        j ≤ lines.length ∧ span = (offset lines i, offset lines j) := by
    obtain ⟨block, listed, rfl⟩ := List.mem_map.mp member
    obtain ⟨i, j, stands⟩ := stretch block listed
    have ordered : offset lines i < offset lines j :=
      offset_lt filled stands.order stands.inside
    simp only [stands.start, stands.stop]
    exact ⟨ordered, i, j, stands.order, stands.inside, rfl⟩
  refine ⟨flatten_markdownLines source, ?_, ?_⟩
  · intro headings blocks done
    obtain ⟨rfl, rfl⟩ := spans done
    refine ⟨List.pairwise_map.mpr scanned.ascending, fun span member => whole member, ?_, ?_⟩
    · intro i line found some'
      obtain ⟨block, member, covers⟩ := scanned.covered i line (Nat.zero_le _) found some'
      exact ⟨_, List.mem_map_of_mem member, covers⟩
    · intro heading member
      obtain ⟨block, listed, -, -, -, starts⟩ := heading_over stretch member
      exact ⟨_, List.mem_map_of_mem listed, starts.symm⟩
  · intro patch result accepted
    simp only [structured, Program.except_bind_ok] at accepted
    obtain ⟨⟨headings, blocks⟩, done, accepted⟩ := accepted
    obtain ⟨rfl, rfl⟩ := spans done
    obtain ⟨start, stop, alone, same, rfl⟩ := structured_ok accepted
    refine ⟨_, _, start, stop, done, ?_⟩
    cases patch with
    | block wanted replacement =>
        have only := candidates_block alone
        obtain ⟨ordered, i, j, -, inside, span⟩ := whole only.1
        have low : offset lines j ≤ source.length :=
          offset_end source ▸ offset_le inside
        obtain ⟨rfl, rfl⟩ := Prod.mk.inj span
        exact ⟨ordered, low, same, only, rfl⟩
    | heading wanted wantedDigest replacement =>
        obtain ⟨heading, member, title, only⟩ := candidates_heading alone
        have stands := fun entry (listed : entry ∈ sections source _) =>
          section_over stretch scanned.ascending listed
        obtain ⟨i, k, section'⟩ := stands _ member
        have span := section'.span
        have ordered : offset lines i < offset lines k :=
          offset_lt filled section'.order section'.inside
        have low : offset lines k ≤ source.length :=
          offset_end source ▸ offset_le section'.inside
        obtain ⟨rfl, rfl⟩ := Prod.mk.inj span
        refine ⟨ordered, low, same, ⟨heading, member, title, ?_⟩, rfl⟩
        intro other listed either
        rcases either with titled | text
        · exact only other listed titled
        · -- a section of that text has the title of its first line
          obtain ⟨i', k', other'⟩ := stands other listed
          exact only other listed ((section_title other' section' text).trans title)

end MsgServer.TextPatch
