import Mathlib.Tactic.Common
import MsgServer.Core.TextPatch

/-!
When an edit replaces lines by lines. The edit joins the lines that it keeps and the lines
of the hunks; the joined text has just these lines unless one of them is empty or an inner
one lacks its newline.
-/

namespace MsgServer.TextPatch

open Library Library.Lines

/-! The lines of a parsed hunk -/

theorem isLine_tail {line : Text} (isLine : IsLine '\n' line) : IsLine '\n' line.tail := by
  cases line with
  | nil => exact isLine
  | cons first rest =>
      cases rest with
      | nil => simp [IsLine]
      | cons second rest =>
          rw [IsLine, List.dropLast_cons_of_ne_nil (List.cons_ne_nil _ _), List.mem_cons,
            not_or] at isLine
          exact isLine.2

theorem isLine_unterminate {side : List Text} (lines : ∀ line ∈ side, IsLine '\n' line) :
    ∀ line ∈ unterminate side, IsLine '\n' line := by
  intro line member
  rcases List.mem_append.mp member with kept | last
  · exact lines line ((List.dropLast_sublist _).mem kept)
  · cases found : side.getLast? with
    | none => simp [found] at last
    | some ending =>
        simp only [found, Option.map_some, Option.toList_some, List.mem_singleton] at last
        subst last
        have here := lines ending (List.mem_of_getLast? found)
        intro member
        exact here ((List.dropLast_sublist _).mem member)

theorem bodyLine_new {hunk next : OpenHunk} {line : Text} (isLine : IsLine '\n' line)
    (lines : ∀ line ∈ hunk.new, IsLine '\n' line) (done : bodyLine hunk line = .ok next) :
    ∀ line ∈ next.new, IsLine '\n' line := by
  unfold bodyLine at done
  split at done
  · unfold marker at done
    split at done
    · cases done
    · simp only [Program.except_bind_ok, require_ok, exists_const, Program.except_pure,
        Except.ok.injEq] at done
      obtain ⟨-, -, rfl⟩ := done
      simp only
      split
      · exact isLine_unterminate lines
      · exact lines
  · simp only [Program.except_bind_ok, require_ok, exists_const, Program.except_pure,
      Except.ok.injEq] at done
    obtain ⟨-, -, -, rfl⟩ := done
    simp only
    split
    · intro other member
      rcases List.mem_append.mp member with kept | now
      · exact lines other kept
      · exact List.mem_singleton.mp now ▸ isLine_tail isLine
    · exact lines

theorem closeHunk_new {hunk : OpenHunk} {closed : Hunk} (done : closeHunk hunk = .ok closed) :
    closed.new = hunk.new := by
  simp only [closeHunk, Program.except_bind_ok, require_ok, exists_const, Program.except_pure,
    Except.ok.injEq] at done
  rw [← done.2]

variable {unicode : Unicode}

theorem openHunk_new {line : Text} {found : List Hunk} {hunk : OpenHunk}
    (done : openHunk unicode line found = .ok hunk) : hunk.new = [] := by
  unfold openHunk at done
  split at done
  · cases done
  · simp only [Program.except_bind_ok, require_ok, exists_const, Program.except_pure,
      Except.ok.injEq] at done
    rw [← done.2.2]

/-- Every new line of a hunk that the parser accepts has its newline at the end if at all. -/
theorem scan_lines {lines : List Text} {current : Option OpenHunk} {found result : List Hunk}
    (isLine : ∀ line ∈ lines, IsLine '\n' line)
    (opened : ∀ hunk ∈ current, ∀ line ∈ hunk.new, IsLine '\n' line)
    (closed : ∀ hunk ∈ found, ∀ line ∈ hunk.new, IsLine '\n' line)
    (done : scan unicode lines current found = .ok result) :
    ∀ hunk ∈ result, ∀ line ∈ hunk.new, IsLine '\n' line := by
  have grown {found : List Hunk} {hunk : OpenHunk} {last : Hunk}
      (before : ∀ hunk ∈ found, ∀ line ∈ hunk.new, IsLine '\n' line)
      (lines : ∀ line ∈ hunk.new, IsLine '\n' line) (ends : closeHunk hunk = .ok last) :
      ∀ hunk ∈ found ++ [last], ∀ line ∈ hunk.new, IsLine '\n' line := by
    intro other member
    rcases List.mem_append.mp member with old | new
    · exact before other old
    · rw [List.mem_singleton.mp new, closeHunk_new ends]
      exact lines
  induction lines generalizing current found with
  | nil =>
      cases current with
      | none =>
          cases done
          exact closed
      | some hunk =>
          simp only [scan, Program.except_bind_ok, Program.except_pure, Except.ok.injEq] at done
          obtain ⟨last, ends, rfl⟩ := done
          exact grown closed (opened hunk rfl) ends
  | cons line rest ih =>
      have restLines : ∀ other ∈ rest, IsLine '\n' other := fun other member =>
        isLine other (List.mem_cons_of_mem _ member)
      have fresh {hunk : OpenHunk} (none : hunk.new = []) :
          ∀ other ∈ some hunk, ∀ line ∈ other.new, IsLine '\n' line := by
        rintro _ ⟨⟩
        simp [none]
      cases current with
      | none =>
          simp only [scan, Program.except_bind_ok] at done
          obtain ⟨hunk, opens, done⟩ := done
          exact ih restLines (fresh (openHunk_new opens)) closed done
      | some hunk =>
          rw [scan] at done
          split at done
          · simp only [Program.except_bind_ok] at done
            obtain ⟨last, ends, next, opens, done⟩ := done
            exact ih restLines (fresh (openHunk_new opens))
              (grown closed (opened hunk rfl) ends) done
          · simp only [Program.except_bind_ok] at done
            obtain ⟨next, read, done⟩ := done
            refine ih restLines ?_ closed done
            rintro _ ⟨⟩
            exact bodyLine_new (isLine line (List.mem_cons_self ..)) (opened hunk rfl) read

theorem hunks_lines {diff : Text} {found : List Hunk} (parsed : hunks unicode diff = .ok found) :
    ∀ hunk ∈ found, ∀ line ∈ hunk.new, IsLine '\n' line := by
  simp only [hunks, Program.except_bind_ok, require_ok, exists_const, Program.except_pure,
    Except.ok.injEq] at parsed
  obtain ⟨-, lines, skipped, result, done, -, rfl⟩ := parsed
  have whole : ∀ line ∈ diffLines diff, IsLine '\n' line := (split_lines diff).2
  have kept : ∀ line ∈ lines, line ∈ diffLines diff := by
    unfold skipFiles at skipped
    split at skipped
    · rename_i first rest same
      split at skipped
      · split at skipped
        · simp only [Program.except_bind_ok, require_ok, exists_const, Program.except_pure,
            Except.ok.injEq] at skipped
          obtain ⟨-, rfl⟩ := skipped
          intro line member
          rw [same]
          exact List.mem_cons_of_mem _ (List.mem_cons_of_mem _ member)
        · cases skipped
      · cases skipped
        exact fun _ member => member
    · cases skipped
      exact fun _ member => member
  exact scan_lines (fun line member => whole line (kept line member)) (by simp) (by simp) done

/-! The lines of an edit -/

/-- The place of a hunk among the lines: its own, or where its context stands. -/
def place (lines : List Text) (rebase : Bool) (hunk : Hunk) : Nat :=
  if rebase then (sequenceMatches lines hunk.old).headD 0 else hunk.oldStart

/-- The lines from one on, with the old lines of every hunk replaced by its new ones. -/
def replaced (lines : List Text) : Nat → List (Nat × Hunk) → List Text
  | last, [] => lines.drop last
  | last, (start, hunk) :: rest =>
      (lines.drop last).take (start - last) ++ hunk.new ++
        replaced lines (start + hunk.old.length) rest

/-- What the edit has checked: hunks stand one after the other over their old lines, and new
lines without a newline at their end stand at the end of the source. -/
def Fits (lines : List Text) : Nat → List (Nat × Hunk) → Prop
  | last, [] => last ≤ lines.length
  | last, (start, hunk) :: rest =>
      last ≤ start ∧ start ≤ lines.length ∧
      (lines.drop start).take hunk.old.length = hunk.old ∧
      ((∀ line ∈ hunk.new.getLast?, EndsLine line) ∨
        start + hunk.old.length = lines.length) ∧
      Fits lines (start + hunk.old.length) rest

theorem locate_ok {lines : List Text} {rebase : Bool} {hunk : Hunk} {delta : Int} {start : Nat}
    (found : locate lines rebase hunk delta = .ok start) :
    start = place lines rebase hunk ∧ (rebase → hunk.old ≠ []) := by
  unfold locate at found
  split at found
  · rename_i moves
    simp only [Program.except_bind_ok, require_ok, exists_const] at found
    obtain ⟨filled, found⟩ := found
    split at found
    · cases found
    · rename_i first more at'
      simp only [Program.except_bind_ok, require_ok, exists_const, Program.except_pure,
        Except.ok.injEq] at found
      obtain ⟨-, rfl⟩ := found
      exact ⟨by simp [place, moves, at'], fun _ => filled⟩
  · rename_i stays
    simp only [Program.except_bind_ok, require_ok, exists_const, Program.except_pure,
      Except.ok.injEq] at found
    exact ⟨by simp [place, stays, found.2], fun moves => absurd moves stays⟩

theorem edit_ok {lines : List Text} {rebase : Bool} {found : List Hunk} {last : Nat}
    {delta : Int} {result : List Text} (low : last ≤ lines.length)
    (done : edit lines rebase found last delta = .ok result) :
    let placed := found.map fun hunk => (place lines rebase hunk, hunk)
    result = replaced lines last placed ∧ Fits lines last placed ∧
      (rebase → ∀ hunk ∈ found, hunk.old ≠ []) := by
  induction found generalizing last delta result with
  | nil =>
      cases done
      exact ⟨rfl, low, by simp⟩
  | cons hunk rest ih =>
      simp only [edit, Program.except_bind_ok, require_ok, exists_const, Program.except_pure,
        Except.ok.injEq] at done
      obtain ⟨start, located, ⟨after', inside⟩, same, ended, more, later, rfl⟩ := done
      obtain ⟨rfl, filled⟩ := locate_ok located
      have stop : place lines rebase hunk + hunk.old.length ≤ lines.length := by
        have length := congrArg List.length same
        rw [List.length_take, List.length_drop] at length
        omega
      obtain ⟨rfl, fits, restFilled⟩ := ih stop later
      refine ⟨rfl, ⟨after', inside, same, ended, fits⟩, ?_⟩
      intro moves other member
      rcases List.mem_cons.mp member with rfl | inRest
      · exact filled moves
      · exact restFilled moves other inRest

/-- No line of the new sides is empty and only the last of one side lacks its newline. -/
structure Tidy (hunk : Hunk) : Prop where
  filled : ∀ line ∈ hunk.new, line ≠ []
  ended : ∀ line ∈ hunk.new.dropLast, EndsLine line

/-- A last line of the source without a newline, as far as it is still to be kept, has no
new lines inserted behind it. -/
def Closed (lines : List Text) (last : Nat) (placed : List (Nat × Hunk)) : Prop :=
  (∃ line ∈ lines.getLast?, ¬ EndsLine line) → last < lines.length →
    ∀ earlier start hunk later, placed = earlier ++ (start, hunk) :: later →
      hunk.old = [] → start = lines.length → hunk.new ≠ [] →
      ∃ before ∈ earlier, before.2.old ≠ [] ∧
        before.1 + before.2.old.length = lines.length

/-- Behind new lines that lack their newline no hunk adds any. -/
def Final (hunks : List Hunk) : Prop :=
  hunks.Pairwise fun earlier later =>
    (∃ line ∈ earlier.new.getLast?, ¬ EndsLine line) → later.new = []

variable {lines : List Text}

theorem tidy_iff {hunk : Hunk} : Tidy hunk ↔ Unbroken '\n' hunk.new :=
  ⟨fun tidy => ⟨tidy.filled, tidy.ended⟩, fun unbroken => ⟨unbroken.filled, unbroken.ended⟩⟩

theorem fits_low {last : Nat} {placed : List (Nat × Hunk)} (fits : Fits lines last placed) :
    last ≤ lines.length := by
  cases placed with
  | nil => exact fits
  | cons first rest => exact Nat.le_trans fits.1 fits.2.1

/-- At the end of the source only insertions fit. -/
theorem fits_end {placed : List (Nat × Hunk)} (fits : Fits lines lines.length placed) :
    replaced lines lines.length placed = placed.flatMap (fun entry => entry.2.new) ∧
      ∀ entry ∈ placed, entry.1 = lines.length ∧ entry.2.old = [] := by
  induction placed with
  | nil => simp [replaced]
  | cons entry rest ih =>
      obtain ⟨start, hunk⟩ := entry
      obtain ⟨low, high, same, -, later⟩ := fits
      obtain rfl : start = lines.length := Nat.le_antisymm high low
      have none : hunk.old = [] := by
        rw [← same, List.drop_length, List.take_nil]
      rw [none, List.length_nil, Nat.add_zero] at later
      obtain ⟨news, olds⟩ := ih later
      constructor
      · simp [replaced, none, news]
      · intro entry member
        rcases List.mem_cons.mp member with rfl | inRest
        · exact ⟨rfl, none⟩
        · exact olds entry inRest

/-- The first hunk uses up the last line of the source, or does not come near it. -/
theorem closed_cons {last start : Nat} {hunk : Hunk} {rest : List (Nat × Hunk)}
    (fits : Fits lines last ((start, hunk) :: rest))
    (away : last < lines.length → start < lines.length) :
    Closed lines last ((start, hunk) :: rest) ↔
      Closed lines (start + hunk.old.length) rest := by
  obtain ⟨low, high, -, -, later⟩ := fits
  have stop := fits_low later
  constructor
  · intro closed open' before earlier place other more same none at' filled
    have inside : last < lines.length := by omega
    obtain ⟨found, member, some', reaches⟩ := closed open' inside ((start, hunk) :: earlier)
      place other more (by rw [same]; rfl) none at' filled
    rcases List.mem_cons.mp member with rfl | inEarlier
    · simp only at reaches
      omega
    · exact ⟨found, inEarlier, some', reaches⟩
  · intro closed open' before earlier place other more same none at' filled
    cases earlier with
    | nil =>
        simp only [List.nil_append, List.cons.injEq, Prod.mk.injEq] at same
        have := away before
        omega
    | cons first earlier =>
        simp only [List.cons_append, List.cons.injEq] at same
        obtain ⟨rfl, same⟩ := same
        by_cases inside : start + hunk.old.length < lines.length
        · obtain ⟨found, member, rest⟩ :=
            closed open' inside earlier place other more same none at' filled
          exact ⟨found, List.mem_cons_of_mem _ member, rest⟩
        · refine ⟨(start, hunk), List.mem_cons_self .., ?_, by simp only; omega⟩
          rintro empty
          have := away before
          rw [empty, List.length_nil] at inside
          omega

theorem final_cons {start : Nat} {hunk : Hunk} {rest : List (Nat × Hunk)}
    (fits : Fits lines (start + hunk.old.length) rest)
    (ended : (∀ line ∈ hunk.new.getLast?, EndsLine line) ∨
      start + hunk.old.length = lines.length) :
    (replaced lines (start + hunk.old.length) rest ≠ [] →
        ∀ line ∈ hunk.new.getLast?, EndsLine line) ↔
      ((∃ line ∈ hunk.new.getLast?, ¬ EndsLine line) → ∀ entry ∈ rest, entry.2.new = []) := by
  by_cases closes : ∀ line ∈ hunk.new.getLast?, EndsLine line
  · constructor
    · rintro _ ⟨line, listed, open'⟩
      exact absurd (closes line listed) open'
    · exact fun _ _ => closes
  · have atEnd := ended.resolve_left closes
    rw [atEnd] at fits ⊢
    obtain ⟨news, -⟩ := fits_end fits
    have open' : ∃ line ∈ hunk.new.getLast?, ¬ EndsLine line := by simpa using closes
    rw [news]
    constructor
    · intro held _ entry member
      by_contra some'
      refine closes (held ?_)
      intro none
      exact some' (List.flatMap_eq_nil_iff.mp none entry member)
    · intro held filled
      exact absurd (List.flatMap_eq_nil_iff.mpr (held open')) filled

/-- Behind a last line without a newline nothing may be inserted at all. -/
theorem closed_end {last : Nat} {placed : List (Nat × Hunk)}
    (fits : ∀ entry ∈ placed, entry.1 = lines.length ∧ entry.2.old = [])
    (open' : ∃ line ∈ lines.getLast?, ¬ EndsLine line) (before : last < lines.length) :
    Closed lines last placed ↔ ∀ entry ∈ placed, entry.2.new = [] := by
  constructor
  · intro closed entry member
    by_contra filled
    obtain ⟨earlier, later, same⟩ := List.append_of_mem member
    obtain ⟨at', none⟩ := fits entry member
    obtain ⟨found, listed, some', -⟩ :=
      closed open' before earlier entry.1 entry.2 later same none at' filled
    have inPlaced : found ∈ placed := by
      rw [same]
      exact List.mem_append_left _ listed
    exact some' (fits found inPlaced).2
  · intro empty _ _ earlier start hunk later same _ _ filled
    have member : (start, hunk) ∈ placed := by
      rw [same]
      simp
    exact absurd (empty (start, hunk) member) filled

/-- The lines that an edit leaves are unbroken exactly where its hunks are tidy and nothing
is written behind a line without a newline. -/
theorem unbroken_replaced (unbroken : Unbroken '\n' lines) {last : Nat}
    {placed : List (Nat × Hunk)} (fits : Fits lines last placed) :
    Unbroken '\n' (replaced lines last placed) ↔
      (∀ entry ∈ placed, Tidy entry.2) ∧ Final (placed.map Prod.snd) ∧
        Closed lines last placed := by
  have suffix' (from' : Nat) : Unbroken '\n' (lines.drop from') := by
    have whole := unbroken
    rw [← List.take_append_drop from' lines] at whole
    exact (unbroken_append.mp whole).2.1
  induction placed generalizing last with
  | nil =>
      simp only [replaced, List.not_mem_nil, false_imp_iff, implies_true, true_and, Final,
        List.map_nil, List.Pairwise.nil, suffix', true_iff]
      rintro - - earlier start hunk later same
      simp at same
  | cons entry rest ih =>
      obtain ⟨start, hunk⟩ := entry
      obtain ⟨low, high, same, ended, later⟩ := fits
      have kept : lines.drop last =
          (lines.drop last).take (start - last) ++ lines.drop start := by
        have shift : lines.drop start = (lines.drop last).drop (start - last) := by
          rw [List.drop_drop, Nat.add_sub_cancel' low]
        rw [shift, List.take_append_drop]
      have keptUnbroken := suffix' last
      rw [kept] at keptUnbroken
      obtain ⟨front, -, border⟩ := unbroken_append.mp keptUnbroken
      have restIff : Unbroken '\n' (replaced lines (start + hunk.old.length) rest) ↔
          (∀ entry ∈ rest, Tidy entry.2) ∧ Final (rest.map Prod.snd) ∧
            Closed lines (start + hunk.old.length) rest := ih later
      have tidyHunk : Tidy hunk ↔ Unbroken '\n' hunk.new := tidy_iff
      rw [replaced, List.append_assoc, unbroken_append, unbroken_append, restIff,
        final_cons later ended, ← tidyHunk]
      simp only [List.forall_mem_cons, Final, List.map_cons, List.pairwise_cons,
        List.forall_mem_map]
      by_cases keeps : ∀ line ∈ ((lines.drop last).take (start - last)).getLast?, EndsLine line
      · -- the kept lines may be followed by anything
        have closedIff : Closed lines last ((start, hunk) :: rest) ↔
            Closed lines (start + hunk.old.length) rest := by
          by_cases open' : ∃ line ∈ lines.getLast?, ¬ EndsLine line
          · refine closed_cons ⟨low, high, same, ended, later⟩ fun before => ?_
            by_contra beyond
            have atEnd : start = lines.length := by omega
            obtain ⟨line, listed, notEnded⟩ := open'
            have all : (lines.drop last).take (start - last) = lines.drop last :=
              List.take_of_length_le (by rw [List.length_drop]; omega)
            rw [all, List.getLast?_drop, if_neg (by omega)] at keeps
            exact notEnded (keeps line listed)
          · exact ⟨fun _ some' => absurd some' open', fun _ some' => absurd some' open'⟩
        rw [closedIff]
        constructor
        · rintro ⟨-, ⟨tidy, ⟨tidies, final, closed⟩, behind⟩, -⟩
          exact ⟨⟨tidy, tidies⟩, ⟨fun entry member open' => behind open' entry member, final⟩,
            closed⟩
        · rintro ⟨⟨tidy, tidies⟩, ⟨behind, final⟩, closed⟩
          exact ⟨front, ⟨tidy, ⟨tidies, final, closed⟩,
            fun open' entry member => behind entry member open'⟩, fun _ => keeps⟩
      · -- the kept lines end in the last line of the source, which lacks its newline
        have atEnd : start = lines.length := by
          by_contra inside
          refine keeps (border ?_)
          intro none
          have := List.drop_eq_nil_iff.mp none
          omega
        subst atEnd
        have whole : (lines.drop last).take (lines.length - last) = lines.drop last :=
          List.take_of_length_le (Nat.le_of_eq List.length_drop)
        rw [whole] at keeps front ⊢
        have before : last < lines.length := by
          by_contra past
          rw [List.drop_of_length_le (by omega)] at keeps
          simp at keeps
        have open' : ∃ line ∈ lines.getLast?, ¬ EndsLine line := by
          rw [List.getLast?_drop, if_neg (by omega)] at keeps
          simpa using keeps
        have none : hunk.old = [] := by
          rw [← same, List.drop_length, List.take_nil]
        rw [none, List.length_nil, Nat.add_zero] at later ⊢
        obtain ⟨news, olds⟩ := fits_end later
        have placedEnd : ∀ entry ∈ (lines.length, hunk) :: rest,
            entry.1 = lines.length ∧ entry.2.old = [] := by
          intro entry member
          rcases List.mem_cons.mp member with rfl | inRest
          · exact ⟨rfl, none⟩
          · exact olds entry inRest
        have closedIff := closed_end placedEnd open' before
        have emptyIff : (hunk.new ++ rest.flatMap (fun entry => entry.2.new) ≠ [] →
            ∀ line ∈ (lines.drop last).getLast?, EndsLine line) ↔
            ∀ entry ∈ (lines.length, hunk) :: rest, entry.2.new = [] := by
          rw [List.forall_mem_cons, ← List.flatMap_eq_nil_iff, ← List.append_eq_nil_iff]
          constructor
          · intro held
            by_contra filled
            exact keeps (held filled)
          · exact fun empty filled => absurd empty filled
        rw [news, emptyIff, closedIff]
        constructor
        · rintro ⟨-, ⟨tidy, ⟨tidies, final, -⟩, behind⟩, empty⟩
          exact ⟨⟨tidy, tidies⟩, ⟨fun entry member open' => behind open' entry member, final⟩,
            empty⟩
        · rintro ⟨⟨tidy, tidies⟩, ⟨behind, final⟩, empty⟩
          have closed : Closed lines lines.length rest := fun _ beyond =>
            absurd beyond (Nat.lt_irrefl _)
          exact ⟨front, ⟨tidy, ⟨tidies, final, closed⟩,
            fun open' entry member => behind entry member open'⟩, empty⟩

theorem replaced_lines (isLine : ∀ line ∈ lines, IsLine '\n' line) {last : Nat}
    {placed : List (Nat × Hunk)}
    (news : ∀ entry ∈ placed, ∀ line ∈ entry.2.new, IsLine '\n' line) :
    ∀ line ∈ replaced lines last placed, IsLine '\n' line := by
  induction placed generalizing last with
  | nil => exact fun line member => isLine line (List.mem_of_mem_drop member)
  | cons entry rest ih =>
      intro line member
      rcases List.mem_append.mp member with front | later
      · rcases List.mem_append.mp front with kept | new
        · exact isLine line (List.mem_of_mem_drop (List.mem_of_mem_take kept))
        · exact news entry (List.mem_cons_self ..) line new
      · exact ih (fun other listed => news other (List.mem_cons_of_mem _ listed)) line later

/-- When the hunks of a diff cannot run lines of the result together. -/
structure Unjoined (lines : List Text) (hunks : List Hunk) : Prop where
  tidy : ∀ hunk ∈ hunks, Tidy hunk
  final : Final hunks
  closed : (∃ line ∈ lines.getLast?, ¬ EndsLine line) →
    ∀ earlier hunk later, hunks = earlier ++ hunk :: later →
      hunk.old = [] → hunk.oldStart = lines.length → hunk.new ≠ [] →
      ∃ before ∈ earlier, before.old ≠ [] ∧
        before.oldStart + before.old.length = lines.length

/-- The condition is about the diff itself: an edit that relocates its hunks takes none
without old lines. -/
theorem closed_placed {found : List Hunk} {rebase : Bool}
    (filled : rebase → ∀ hunk ∈ found, hunk.old ≠ []) :
    Closed lines 0 (found.map fun hunk => (place lines rebase hunk, hunk)) ↔
      ((∃ line ∈ lines.getLast?, ¬ EndsLine line) →
        ∀ earlier hunk later, found = earlier ++ hunk :: later →
          hunk.old = [] → hunk.oldStart = lines.length → hunk.new ≠ [] →
          ∃ before ∈ earlier, before.old ≠ [] ∧
            before.oldStart + before.old.length = lines.length) := by
  cases rebase with
  | true =>
      have some' := filled rfl
      constructor
      · rintro - - earlier hunk later rfl none
        exact absurd none (some' hunk (by simp))
      · rintro - - - earlier start hunk later same none
        have member : (start, hunk) ∈
            found.map fun hunk => (place lines true hunk, hunk) := by
          rw [same]
          simp
        obtain ⟨_, listed, equal⟩ := List.mem_map.mp member
        cases equal
        exact absurd none (some' hunk listed)
  | false =>
      have atOwn (hunk : Hunk) : place lines false hunk = hunk.oldStart := rfl
      simp only [atOwn]
      constructor
      · intro closed open' earlier hunk later same none at' new
        have before : 0 < lines.length := by
          obtain ⟨line, listed, -⟩ := open'
          exact List.length_pos_iff.mpr (List.ne_nil_of_mem (List.mem_of_getLast? listed))
        obtain ⟨entry, member, some', reaches⟩ := closed open' before
          (earlier.map fun hunk => (hunk.oldStart, hunk)) hunk.oldStart hunk
          (later.map fun hunk => (hunk.oldStart, hunk)) (by rw [same]; simp) none at' new
        obtain ⟨other, listed, rfl⟩ := List.mem_map.mp member
        exact ⟨other, listed, some', reaches⟩
      · intro closed open' _ earlier start hunk later same none at' new
        obtain ⟨first, rest, rfl, rfl, restSame⟩ := List.map_eq_append_iff.mp same
        obtain ⟨head, tail, rfl, headSame, -⟩ := List.map_eq_cons_iff.mp restSame
        obtain ⟨rfl, rfl⟩ := Prod.mk.inj headSame
        obtain ⟨other, listed, some', reaches⟩ :=
          closed open' first _ tail rfl none at' new
        exact ⟨(other.oldStart, other), List.mem_map_of_mem listed, some', reaches⟩

theorem applyUnified_ok {source diff result : Text} {baseSource : Option Text}
    {found : List Hunk} (parsed : hunks unicode diff = .ok found)
    (accepted : applyUnified unicode source diff baseSource = .ok result) :
    unified source found baseSource.isSome = .ok result := by
  cases baseSource with
  | none =>
      simp only [applyUnified, applyDirect, parsed, Program.except_bind_ok, require_ok,
        exists_const, Program.except_pure, Except.ok.injEq] at accepted
      obtain ⟨⟨⟩, -, -, _, rfl, edited, done, -, rfl⟩ := accepted
      exact done
  | some base =>
      simp only [applyUnified, parsed, Program.except_bind_ok, require_ok, exists_const,
        Program.except_pure, Except.ok.injEq] at accepted
      obtain ⟨⟨⟩, -, -, -, -, -, _, rfl, -, -, edited, done, -, rfl⟩ := accepted
      exact done

def ascii : Unicode where
  digit := fun char => if char.isDigit then some (char.toNat - 48) else none
  isSpace := fun char => char = ' ' ∨ ('\t' ≤ char ∧ char ≤ '\r')

def appending : Text := "@@ -1,0 +2 @@\n+b\n".toList

def appendingHunk : Hunk :=
  { oldStart := 1, newStart := 1, old := [], new := ["b\n".toList] }

end MsgServer.TextPatch
