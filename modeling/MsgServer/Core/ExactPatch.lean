import MsgServer.Core.Anchors
import MsgServer.Core.Markdown

/-!
The contextual replacement of core/text_patch.py and the anchors of both kinds of patch. The
loop goes through every occurrence of the exact text, overlapping ones included, and keeps
those that stand between the text before and the text after.
-/

namespace MsgServer.TextPatch

open Library Library.Borders

/-- `source.find(exact, start)`; an empty text is also found behind the last character. -/
def find (source exact : Text) (start : Nat) : Option Nat :=
  (List.range' start (source.length + 1 - start)).find? fun place =>
    exact.isPrefixOf (source.drop place)

/-- `source.startswith(part, place)`. -/
abbrev StartsAt (source part : Text) (place : Nat) : Prop :=
  place ≤ source.length ∧ part <+: source.drop place

/-- The condition on a candidate. -/
def Anchored (source exact before after : Text) (index : Nat) : Prop :=
  before.length ≤ index ∧ StartsAt source before (index - before.length) ∧
    StartsAt source after (index + exact.length)

instance (source exact before after : Text) (index : Nat) :
    Decidable (Anchored source exact before after index) :=
  inferInstanceAs (Decidable (_ ∧ _ ∧ _))

/-- The loop over the candidates; `start` grows in every turn, so as many turns as the source
has places are enough. -/
def search (source exact before after : Text) :
    Nat → Nat → Nat → Option Nat → Except Failure (Option Nat)
  | 0, _, _, found => .ok found
  | turns + 1, start, candidates, found =>
      match find source exact start with
      | none => .ok found
      | some index => do
          require (candidates + 1 ≤ patchCandidateLimit) "patch_too_complex"
          if Anchored source exact before after index then do
            require (found = none) "patch_ambiguous"
            search source exact before after turns (index + 1) (candidates + 1) (some index)
          else search source exact before after turns (index + 1) (candidates + 1) found

def applyTextPatch (source exact replacement before after : Text) : Except Failure Text := do
  require (exact ≠ []) "patch_exact_required"
  let found ← search source exact before after (source.length + 1) 0 0 none
  match found with
  | none => .error { code := "patch_no_match" }
  | some index => do
      let result := source.take index ++ replacement ++ source.drop (index + exact.length)
      require (encodedLength result ≤ patchLimit) "patch_too_large"
      return result

/-! The loop of the contextual replacement -/

variable {source exact before after : Text}

theorem occurrences_find (start : Nat) :
    occurrences exact source start =
      match find source exact start with
      | none => []
      | some index => index :: occurrences exact source (index + 1) := by
  rw [occurrences, filter_range_find, ← find]
  cases found : find source exact start with
  | none => rfl
  | some index =>
      -- The place found is among those searched, so both ranges end behind the source.
      have inside := List.mem_of_find?_eq_some found
      have bounds := List.mem_range'_1.mp inside
      have same : start + (source.length + 1 - start) = source.length + 1 := by omega
      simp only [same, occurrences]

/-- The occurrences that stand between the text before and the text after. -/
def anchors (source exact before after : Text) (start : Nat) : List Nat :=
  (occurrences exact source start).filter fun index => Anchored source exact before after index

theorem toList_eq_iff {left right : Option Nat} : left.toList = right.toList ↔ left = right := by
  constructor
  · intro same
    have heads := congrArg List.head? same
    rwa [Option.head?_toList, Option.head?_toList] at heads
  · exact congrArg Option.toList

theorem search_ok {turns start candidates : Nat} {found result : Option Nat}
    (enough : source.length + 1 ≤ start + turns) (few : candidates ≤ patchCandidateLimit) :
    search source exact before after turns start candidates found = .ok result ↔
      candidates + (occurrences exact source start).length ≤ patchCandidateLimit ∧
        found.toList ++ anchors source exact before after start = result.toList := by
  induction turns generalizing start candidates found with
  | zero =>
      have none' : occurrences exact source start = [] := by
        have size : source.length + 1 - start = 0 := by omega
        rw [occurrences, size]
        rfl
      rw [search, anchors, none', List.filter_nil, List.append_nil, Except.ok.injEq,
        toList_eq_iff]
      exact ⟨fun same => ⟨few, same⟩, And.right⟩
  | succ turns ih =>
      rw [search, anchors, occurrences_find]
      cases located : find source exact start with
      | none =>
          simp only [List.filter_nil, List.append_nil, Except.ok.injEq, toList_eq_iff]
          exact ⟨fun same => ⟨few, same⟩, And.right⟩
      | some index =>
          have low : start ≤ index :=
            (List.mem_range'_1.mp (List.mem_of_find?_eq_some located)).1
          have further : source.length + 1 ≤ index + 1 + turns := by omega
          have turn (found : Option Nat) (fits : candidates + 1 ≤ patchCandidateLimit) :
              search source exact before after turns (index + 1) (candidates + 1) found =
                  .ok result ↔
                candidates + 1 + (occurrences exact source (index + 1)).length ≤
                    patchCandidateLimit ∧
                  found.toList ++ anchors source exact before after (index + 1) =
                    result.toList :=
            ih further fits
          simp only [Program.except_bind_ok, require_ok, exists_const, List.length_cons]
          by_cases here : Anchored source exact before after index
          · -- A second anchor: the loop stops, and no list of one holds both.
            rw [if_pos here, List.filter_cons_of_pos (by simpa using here), ← anchors]
            simp only [Program.except_bind_ok, require_ok, exists_const]
            constructor
            · rintro ⟨fits, rfl, later⟩
              obtain ⟨all, same⟩ := (turn _ fits).mp later
              exact ⟨by omega, same⟩
            · rintro ⟨all, same⟩
              have fits : candidates + 1 ≤ patchCandidateLimit := by omega
              have first : found = none := by
                cases found with
                | none => rfl
                | some earlier => cases result <;> simp at same
              subst first
              exact ⟨fits, rfl, (turn _ fits).mpr ⟨by omega, same⟩⟩
          · rw [if_neg here, List.filter_cons_of_neg (by simpa using here), ← anchors]
            constructor
            · rintro ⟨fits, later⟩
              obtain ⟨all, same⟩ := (turn _ fits).mp later
              exact ⟨by omega, same⟩
            · rintro ⟨all, same⟩
              have fits : candidates + 1 ≤ patchCandidateLimit := by omega
              exact ⟨fits, (turn _ fits).mpr ⟨by omega, same⟩⟩

/-- An anchor is an occurrence of the three texts together. -/
theorem mem_anchors {index : Nat} :
    index ∈ anchors source exact before after 0 ↔
      ∃ place, index = place + before.length ∧
        Occurs (before ++ exact ++ after) source place := by
  rw [anchors, List.mem_filter, mem_occurrences, decide_eq_true_iff]
  constructor
  · rintro ⟨⟨-, here⟩, long, front, back⟩
    refine ⟨index - before.length, by omega, occurs_append.mpr ⟨?_, ?_⟩⟩
    · have place : index - before.length + before.length = index := by omega
      exact occurs_append.mpr ⟨front, place.symm ▸ here⟩
    · have place : index - before.length + (before ++ exact).length =
          index + exact.length := by
        rw [List.length_append]
        omega
      exact place.symm ▸ back
  · rintro ⟨place, rfl, occurs⟩
    obtain ⟨front, back⟩ := occurs_append.mp occurs
    obtain ⟨first, here⟩ := occurs_append.mp front
    rw [List.length_append, ← Nat.add_assoc] at back
    refine ⟨⟨Nat.zero_le _, here⟩, Nat.le_add_left _ _, ?_, back⟩
    rw [Nat.add_sub_cancel]
    exact first

theorem anchors_singleton_iff {place : Nat} :
    anchors source exact before after 0 = [place + before.length] ↔
      OccursOnce (before ++ exact ++ after) source place := by
  have nodup : (anchors source exact before after 0).Nodup :=
    List.Nodup.filter _ (occurrences_nodup exact source 0)
  rw [eq_singleton_iff nodup, mem_anchors, OccursOnce]
  constructor
  · rintro ⟨⟨same, shift, occurs⟩, only⟩
    obtain rfl : place = same := Nat.add_right_cancel shift
    refine ⟨occurs, fun other there => ?_⟩
    exact Nat.add_right_cancel (only _ (mem_anchors.mpr ⟨other, rfl, there⟩))
  · rintro ⟨occurs, only⟩
    refine ⟨⟨place, rfl, occurs⟩, fun other member => ?_⟩
    obtain ⟨there, rfl, found⟩ := mem_anchors.mp member
    rw [only there found]

/-- The replacement succeeds exactly where the anchor occurs once, within the limits on the
candidates and on the result; only the exact text is changed. -/
theorem applyTextPatch_ok {replacement result : Text} :
    applyTextPatch source exact replacement before after = .ok result ↔
      exact ≠ [] ∧ (occurrences exact source 0).length ≤ patchCandidateLimit ∧
      ∃ place, OccursOnce (before ++ exact ++ after) source place ∧
        result = source.take (place + before.length) ++ replacement ++
          source.drop (place + before.length + exact.length) ∧
        encodedLength result ≤ patchLimit := by
  have loop (found : Option Nat) :
      search source exact before after (source.length + 1) 0 0 none = .ok found ↔
        (occurrences exact source 0).length ≤ patchCandidateLimit ∧
          anchors source exact before after 0 = found.toList := by
    have whole : search source exact before after (source.length + 1) 0 0 none = .ok found ↔ _ :=
      search_ok (by omega) (Nat.zero_le _)
    rwa [Option.toList_none, List.nil_append, Nat.zero_add] at whole
  simp only [applyTextPatch, Program.except_bind_ok, require_ok, exists_const, loop]
  constructor
  · rintro ⟨filled, found, ⟨few, only⟩, done⟩
    cases found with
    | none => cases done
    | some index =>
        simp only [Program.except_bind_ok, require_ok, exists_const, Program.except_pure,
          Except.ok.injEq] at done
        obtain ⟨small, rfl⟩ := done
        have member : index ∈ anchors source exact before after 0 := by
          rw [only]
          exact List.mem_singleton_self _
        obtain ⟨place, rfl, -⟩ := mem_anchors.mp member
        exact ⟨filled, few, place, anchors_singleton_iff.mp only, rfl, small⟩
  · rintro ⟨filled, few, place, once, rfl, small⟩
    refine ⟨filled, some (place + before.length), ⟨few, anchors_singleton_iff.mpr once⟩, ?_⟩
    simp only [Program.except_bind_ok, require_ok, exists_const, Program.except_pure]
    exact ⟨small, trivial⟩

/-! The anchors of a relocated diff -/

theorem locate_once {lines : List Text} {hunk : Hunk} {delta : Int} {start : Nat}
    (found : locate lines true hunk delta = .ok start) :
    hunk.old ≠ [] ∧ OccursOnce hunk.old lines start := by
  simp only [locate, if_pos, Program.except_bind_ok, require_ok, exists_const] at found
  obtain ⟨filled, found⟩ := found
  split at found
  · cases found
  · rename_i first more located
    simp only [Program.except_bind_ok, require_ok, exists_const, Program.except_pure,
      Except.ok.injEq] at found
    obtain ⟨rfl, rfl⟩ := found
    exact ⟨filled, (sequenceMatches_iff filled lines first).mp located⟩

theorem edit_once {lines : List Text} {found : List Hunk} {last : Nat} {delta : Int}
    {result : List Text} (done : edit lines true found last delta = .ok result) :
    ∀ hunk ∈ found, hunk.old ≠ [] ∧ OccursOnce hunk.old lines (place lines true hunk) := by
  induction found generalizing last delta result with
  | nil =>
      intro hunk member
      cases member
  | cons hunk rest ih =>
      simp only [edit, Program.except_bind_ok, require_ok, exists_const, Program.except_pure]
        at done
      obtain ⟨start, located, -, -, -, more, later, -⟩ := done
      have here := (locate_ok located).1
      intro other member
      rcases List.mem_cons.mp member with rfl | inRest
      · rw [← here]
        exact locate_once located
      · exact ih later other inRest

/-- A relocated diff: every hunk has a context that stands once in the base and once in the
source, the hunks stand one behind the other, and the rest of the source is kept. -/
structure Relocated (base source : Text) (found : List Hunk) (placed : List (Nat × Hunk))
    (result : Text) : Prop where
  hunks : placed.map Prod.snd = found
  filled : ∀ entry ∈ placed, entry.2.old ≠ []
  inBase : ∀ entry ∈ placed, ∃ place, OccursOnce entry.2.old (diffLines base) place
  inSource : ∀ entry ∈ placed, OccursOnce entry.2.old (diffLines source) entry.1
  fits : Fits (diffLines source) 0 placed
  changed : result = (replaced (diffLines source) 0 placed).flatten

variable {unicode : Unicode}

theorem applyUnified_relocated {base diff result : Text}
    (accepted : applyUnified unicode source diff (some base) = .ok result) :
    ∃ found placed, TextPatch.hunks unicode diff = .ok found ∧
      Relocated base source found placed result := by
  simp only [applyUnified, unified, Program.except_bind_ok, require_ok, exists_const,
    Program.except_pure, Except.ok.injEq] at accepted
  obtain ⟨-, -, -, -, -, -, found, parsed, -, ⟨-, -, old, inBase, -⟩, edited,
    ⟨-, -, lines, inSource, rfl⟩, -, rfl⟩ := accepted
  obtain ⟨rfl, fits, -⟩ := edit_ok (Nat.zero_le _) inSource
  have oldOnce := edit_once inBase
  have newOnce := edit_once inSource
  refine ⟨found, found.map fun hunk => (place (diffLines source) true hunk, hunk), parsed,
    by simp [Function.comp_def], ?_, ?_, ?_, fits, rfl⟩
  · exact List.forall_mem_map.mpr fun hunk member => (newOnce hunk member).1
  · exact List.forall_mem_map.mpr fun hunk member => ⟨_, (oldOnce hunk member).2⟩
  · exact List.forall_mem_map.mpr fun hunk member => (newOnce hunk member).2

/-- Anchors are unambiguous: the contextual replacement has one place for its anchor, and a
relocated hunk has one place for its context in either text. -/
theorem anchors_unambiguous :
    (∀ source exact replacement before after result : Text,
      applyTextPatch source exact replacement before after = .ok result ↔
        exact ≠ [] ∧ (occurrences exact source 0).length ≤ patchCandidateLimit ∧
        ∃ place, OccursOnce (before ++ exact ++ after) source place ∧
          result = source.take (place + before.length) ++ replacement ++
            source.drop (place + before.length + exact.length) ∧
          encodedLength result ≤ patchLimit) ∧
    (∀ (unicode : Unicode) (base source diff result : Text),
      applyUnified unicode source diff (some base) = .ok result →
      ∃ found placed, TextPatch.hunks unicode diff = .ok found ∧
        Relocated base source found placed result) :=
  ⟨fun _ _ _ _ _ _ => applyTextPatch_ok, fun _ _ _ _ _ => applyUnified_relocated⟩

/-- A line that was moved is found again behind the lines put before it. -/
theorem anchors_unambiguous_sample :
    ∃ found placed, TextPatch.hunks ascii "@@ -1 +1 @@\n-b\n+c\n".toList = .ok found ∧
      Relocated "b\n".toList "a\nb\n".toList found placed "a\nc\n".toList :=
  anchors_unambiguous.2 ascii "b\n".toList "a\nb\n".toList "@@ -1 +1 @@\n-b\n+c\n".toList
    "a\nc\n".toList (by decide +kernel)

/-- An empty exact text is refused, also between a text before that occurs once and nothing
after it. -/
theorem empty_exact_refused :
    OccursOnce ("a".toList ++ [] ++ []) "a".toList 0 ∧
      ∀ replacement result,
        applyTextPatch "a".toList [] replacement "a".toList [] ≠ .ok result := by
  constructor
  · refine ⟨⟨Nat.zero_le _, List.prefix_refl _⟩, ?_⟩
    rintro other ⟨-, begins⟩
    have size := begins.length_le
    simp at size
    omega
  · intro replacement result done
    exact (applyTextPatch_ok.mp done).1 rfl

end MsgServer.TextPatch
