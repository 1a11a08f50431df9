import Mathlib.Data.List.Sort
import Mathlib.Tactic.Common
import MsgServer.Plugins.ReadingProofs

/-!
What the ranges of a reading cover: the lines of a content however it is cut into chunks, the
union of any ranges, and the statements that are complete.
-/

namespace MsgServer.Readings

open Library Library.Ranges Library.Lines Contents

/-! Lines -/

theorem findLines_spec (wanted : List Nat) (scan : Scan) (position : Nat) (rest : Bytes) :
    findLines wanted scan position rest =
      { scan with
        line := scan.line + rest.count newline
        starts := fun line =>
          if scan.line < line ∧ line ≤ scan.line + rest.count newline ∧ line ∈ wanted then
            some (scan.offset + position + behind newline (line - scan.line) rest)
          else scan.starts line } := by
  induction rest generalizing scan position with
  | nil =>
      rw [findLines, Scan.mk.injEq]
      refine ⟨by simp, rfl, rfl, ?_⟩
      funext line
      rw [if_neg]
      simp only [List.count_nil]
      omega
  | cons byte rest ih =>
      rw [findLines]
      by_cases same : byte = newline
      · subst same
        rw [if_pos rfl, ih, Scan.mk.injEq, List.count_cons_self]
        refine ⟨by simp only; omega, rfl, rfl, ?_⟩
        funext line
        simp only
        by_cases next : line = scan.line + 1
        · -- the line that the newline opens
          subst next
          have skip : ¬ (scan.line + 1 < scan.line + 1 ∧
              scan.line + 1 ≤ scan.line + 1 + rest.count newline ∧
              scan.line + 1 ∈ wanted) := fun bounds => Nat.lt_irrefl _ bounds.1
          rw [if_neg skip, Nat.add_sub_cancel_left, behind, if_pos rfl, behind_zero]
          by_cases asked : scan.line + 1 ∈ wanted
          · have here : scan.line < scan.line + 1 ∧
                scan.line + 1 ≤ scan.line + (rest.count newline + 1) ∧
                scan.line + 1 ∈ wanted := ⟨by omega, by omega, asked⟩
            rw [if_pos asked, if_pos here, Function.update_self, Nat.add_assoc]
          · have out : ¬ (scan.line < scan.line + 1 ∧
                scan.line + 1 ≤ scan.line + (rest.count newline + 1) ∧
                scan.line + 1 ∈ wanted) := fun bounds => asked bounds.2.2
            rw [if_neg asked, if_neg out]
        · have kept : (if scan.line + 1 ∈ wanted then
              Function.update scan.starts (scan.line + 1)
                (some (scan.offset + (position + 1))) else scan.starts) line =
              scan.starts line := by
            split
            · exact Function.update_of_ne next ..
            · rfl
          rw [kept]
          by_cases later : scan.line + 1 < line ∧
              line ≤ scan.line + 1 + rest.count newline ∧ line ∈ wanted
          · have here : scan.line < line ∧ line ≤ scan.line + (rest.count newline + 1) ∧
                line ∈ wanted := ⟨by omega, by omega, later.2.2⟩
            obtain ⟨more, shape⟩ : ∃ more, line - scan.line = more + 1 :=
              ⟨line - scan.line - 1, by omega⟩
            have less : line - (scan.line + 1) = more := by omega
            rw [if_pos later, if_pos here, shape, less, behind, if_pos rfl]
            congr 1
            omega
          · have out : ¬ (scan.line < line ∧ line ≤ scan.line + (rest.count newline + 1) ∧
                line ∈ wanted) := fun bounds => later ⟨by omega, by omega, bounds.2.2⟩
            rw [if_neg later, if_neg out]
      · rw [if_neg same, ih, Scan.mk.injEq, List.count_cons_of_ne same]
        refine ⟨rfl, rfl, rfl, ?_⟩
        funext line
        by_cases found : scan.line < line ∧ line ≤ scan.line + rest.count newline ∧
            line ∈ wanted
        · obtain ⟨more, shape⟩ : ∃ more, line - scan.line = more + 1 :=
            ⟨line - scan.line - 1, by omega⟩
          rw [if_pos found, if_pos found, shape, behind, if_neg same]
          congr 1
          omega
        · rw [if_neg found, if_neg found]

/-- What the scan knows after some bytes, in whatever chunks they came. -/
structure Read (wanted : List Nat) (done : Bytes) (scan : Scan) : Prop where
  line : scan.line = 1 + done.count newline
  offset : scan.offset = done.length
  ended : scan.endsNewline = decide (done.getLast? = some newline)
  starts : ∀ line, scan.starts line =
    if line = 1 then some 0
    else if 1 < line ∧ line ≤ 1 + done.count newline ∧ line ∈ wanted then
      some (behind newline (line - 1) done)
    else none

theorem read_first (wanted : List Nat) : Read wanted [] Scan.first := by
  refine ⟨rfl, rfl, rfl, fun line => ?_⟩
  have out : ¬ (1 < line ∧ line ≤ 1 + ([] : Bytes).count newline ∧ line ∈ wanted) := by
    rw [List.count_nil]
    omega
  rw [if_neg out]
  rfl

theorem Read.chunk {wanted : List Nat} {done : Bytes} {scan : Scan}
    (read : Read wanted done scan) (chunk : Bytes) :
    Read wanted (done ++ chunk) (readChunk wanted scan chunk) := by
  rw [readChunk, findLines_spec]
  constructor
  · simp only [List.count_append, read.line]
    omega
  · simp only [List.length_append, read.offset]
  · simp only [read.ended]
    by_cases none : chunk = []
    · rw [if_pos none, none, List.append_nil]
    · rw [if_neg none, List.getLast?_append_of_ne_nil _ none]
  · intro line
    simp only [read.line, read.offset, read.starts, List.count_append]
    by_cases first : line = 1
    · subst first
      have out : ¬ (1 + done.count newline < 1 ∧
          1 ≤ 1 + done.count newline + chunk.count newline ∧ 1 ∈ wanted) := by omega
      rw [if_neg out, if_pos rfl, if_pos rfl]
    · rw [if_neg first, if_neg first]
      by_cases asked : line ∈ wanted
      · by_cases early : line ≤ 1 + done.count newline
        · rw [if_neg (by omega), behind_append_low (by omega)]
          by_cases real : 1 < line
          · rw [if_pos ⟨real, early, asked⟩, if_pos ⟨real, by omega, asked⟩]
          · rw [if_neg (by omega), if_neg (by omega)]
        · by_cases late : line ≤ 1 + (done.count newline + chunk.count newline)
          · rw [if_pos ⟨by omega, by omega, asked⟩, if_pos ⟨by omega, late, asked⟩,
              behind_append_high (by omega), Nat.add_zero, Nat.sub_sub]
          · rw [if_neg (by omega), if_neg (by omega), if_neg (by omega)]
      · simp [asked]

theorem read_chunks (wanted : List Nat) (chunks : List Bytes) {done : Bytes} {scan : Scan}
    (read : Read wanted done scan) :
    Read wanted (done ++ chunks.flatten) (chunks.foldl (readChunk wanted) scan) := by
  induction chunks generalizing done scan with
  | nil => simpa using read
  | cons chunk rest ih =>
      have next := ih (read.chunk chunk)
      rwa [List.append_assoc] at next

theorem mapM_congr {α β : Type} {items : List α} {left right : α → Except Failure β}
    (same : ∀ item ∈ items, left item = right item) : items.mapM left = items.mapM right := by
  induction items with
  | nil => rfl
  | cons item rest ih =>
      rw [List.mapM_cons, List.mapM_cons, same item (List.mem_cons_self ..),
        ih fun other member => same other (List.mem_cons_of_mem _ member)]

/-- Where the line of a number starts, and the end of the text behind the last line. -/
def lineStart (lines : List Bytes) (line : Nat) : Nat := (lines.take (line - 1)).flatten.length

/-- The ranges of selected lines of a text that is split at its newlines. -/
def selectLines (lines : List Bytes) (selections : List Range) : Except Failure (List Range) :=
  selections.mapM fun part => do
    require (1 ≤ part.1 ∧ part.1 ≤ part.2 ∧ part.2 ≤ lines.length) "reading_line_range_invalid"
    return (lineStart lines part.1, lineStart lines (part.2 + 1))

section

variable {wanted : List Nat} {content : Bytes} {scan : Scan}

/-- The count of the lines. -/
theorem Read.count (read : Read wanted content scan) :
    (if scan.offset = 0 then 0 else scan.line - scan.endsNewline.toNat) =
      (split newline content).length := by
  have sizes : (split newline content).length +
      (if content.getLast? = some newline then 1 else 0) =
        content.count newline + if content = [] then 0 else 1 := length_split content
  rw [read.offset, read.line, read.ended]
  by_cases none : content = []
  · subst none
    rfl
  · have some' : content.length ≠ 0 := fun zero => none (List.length_eq_zero_iff.mp zero)
    rw [if_neg none] at sizes
    rw [if_neg some']
    by_cases ends : content.getLast? = some newline
    · rw [if_pos ends] at sizes
      simp only [ends, decide_true, Bool.toNat_true]
      omega
    · rw [if_neg ends] at sizes
      simp only [ends, decide_false, Bool.toNat_false]
      omega

/-- There is a line of every number up to the count of newlines, and at most one more. -/
theorem split_bounds (content : Bytes) :
    content.count newline ≤ (split newline content).length ∧
      (split newline content).length ≤ content.count newline + 1 := by
  have sizes : (split newline content).length +
      (if content.getLast? = some newline then 1 else 0) =
        content.count newline + if content = [] then 0 else 1 := length_split content
  by_cases none : content = []
  · subst none
    simp [split]
  · rw [if_neg none] at sizes
    split at sizes <;> omega

theorem Read.start (read : Read wanted content scan) {line : Nat} (asked : line ∈ wanted)
    (first : 1 ≤ line) (last : line ≤ (split newline content).length) :
    scan.starts line = some (lineStart (split newline content) line) := by
  have bounds := split_bounds content
  rw [read.starts, lineStart]
  by_cases one : line = 1
  · subst one
    rfl
  · rw [if_neg one, if_pos ⟨by omega, by omega, asked⟩, behind_eq (by omega)]

theorem Read.stop (read : Read wanted content scan) {line : Nat} (asked : line + 1 ∈ wanted)
    (first : 1 ≤ line) (last : line ≤ (split newline content).length) :
    (scan.starts (line + 1)).getD scan.offset =
      lineStart (split newline content) (line + 1) := by
  have bounds := split_bounds content
  rw [read.starts, lineStart, if_neg (by omega), Nat.add_sub_cancel]
  by_cases ended : line ≤ content.count newline
  · rw [if_pos ⟨by omega, by omega, asked⟩, behind_eq ended]
    rfl
  · -- the last line has no newline, and its end is the end of the content
    have whole : (split newline content).length ≤ line := by omega
    rw [if_neg (by omega), List.take_of_length_le whole, flatten_split]
    exact read.offset

end

/-- Chunks make no difference to the lines of a content. -/
theorem lineRanges_eq (mediaType : String) (chunks : List Bytes) (selections : List Range) :
    lineRanges mediaType chunks selections = (do
      require (mediaType = "text/plain" ∨ mediaType = "text/markdown") "text_source_required"
      selectLines (split newline chunks.flatten) selections) := by
  rw [lineRanges]
  congr 1
  funext _
  have read := read_chunks (selections.flatMap fun part => [part.1, part.2 + 1]) chunks
    (read_first _)
  rw [List.nil_append] at read
  apply mapM_congr
  intro part member
  have asked : part.1 ∈ (selections.flatMap fun part => [part.1, part.2 + 1]) ∧
      part.2 + 1 ∈ (selections.flatMap fun part => [part.1, part.2 + 1]) := by
    constructor <;> exact List.mem_flatMap.mpr ⟨part, member, by simp⟩
  rw [read.count]
  by_cases fits : 1 ≤ part.1 ∧ part.1 ≤ part.2 ∧
      part.2 ≤ (split newline chunks.flatten).length
  · obtain ⟨first, ordered, last⟩ := fits
    simp only [require_true _ (And.intro first (And.intro ordered last)),
      Program.except_ok_bind, read.start asked.1 first (Nat.le_trans ordered last),
      read.stop asked.2 (Nat.le_trans first ordered) last, requireRow]
  · simp only [require, Program.ensure, fits, if_false, Program.except_error_bind]

/-! Unions -/

theorem mergeInto_concat (front : List Range) (last range : Range) :
    mergeInto (front ++ [last]) range =
      if range.1 ≤ last.2 then front ++ [(last.1, max range.2 last.2)]
      else front ++ [last] ++ [range] := by
  rw [mergeInto, List.getLast?_concat, List.dropLast_concat]

theorem foldl_mergeInto (front : List Range) (last : Range) (rest : List Range) :
    rest.foldl mergeInto (front ++ [last]) = front ++ join last rest := by
  induction rest generalizing front last with
  | nil => rfl
  | cons range rest ih =>
      rw [List.foldl_cons, mergeInto_concat]
      by_cases touching : range.1 ≤ last.2
      · rw [if_pos touching, join_touching touching]
        exact ih front _
      · rw [if_neg touching, join_apart touching, ih (front ++ [last]) range,
          List.append_assoc, List.singleton_append]

theorem pairLe_total (left right : Range) : (pairLe left right || pairLe right left) = true := by
  simp only [pairLe, Bool.or_eq_true, Bool.and_eq_true, decide_eq_true_eq]
  omega

theorem pairLe_trans (first second third : Range) (low : pairLe first second = true)
    (high : pairLe second third = true) : pairLe first third = true := by
  simp only [pairLe, Bool.or_eq_true, Bool.and_eq_true, decide_eq_true_eq] at low high ⊢
  omega

theorem pairLe_antisymm {left right : Range} (low : pairLe left right = true)
    (high : pairLe right left = true) : left = right := by
  simp only [pairLe, Bool.or_eq_true, Bool.and_eq_true, decide_eq_true_eq] at low high
  exact Prod.ext (by omega) (by omega)

theorem sorted_byStart (ranges : List Range) : ByStart (ranges.mergeSort pairLe) := by
  have sorted := List.pairwise_mergeSort pairLe_trans pairLe_total ranges
  refine sorted.imp fun ordered => ?_
  simp only [pairLe, Bool.or_eq_true, Bool.and_eq_true, decide_eq_true_eq] at ordered
  omega

/-- What `merge_ranges` gives, read from the sorted ranges. -/
theorem mergeRanges_cases (ranges : List Range) :
    ranges = [] ∧ mergeRanges ranges = [] ∨
      ∃ first rest, ranges.mergeSort pairLe = first :: rest ∧
        mergeRanges ranges = join first rest := by
  rw [mergeRanges]
  have same := List.mergeSort_perm ranges pairLe
  cases shape : ranges.mergeSort pairLe with
  | nil =>
      rw [shape] at same
      exact .inl ⟨same.nil_eq.symm, rfl⟩
  | cons first rest => exact .inr ⟨first, rest, rfl, foldl_mergeInto [] first rest⟩

theorem covers_perm {left right : List Range} (same : left.Perm right) (point : Nat) :
    Covers left point ↔ Covers right point := by
  simp only [Covers, same.mem_iff]

theorem mergeRanges_apart (ranges : List Range) : Apart (mergeRanges ranges) := by
  rcases mergeRanges_cases ranges with ⟨-, none⟩ | ⟨first, rest, sorted, shape⟩
  · rw [none]
    exact List.Pairwise.nil
  · rw [shape]
    exact join_apart_all first rest (sorted ▸ sorted_byStart ranges)

theorem mergeRanges_covers (ranges : List Range) (point : Nat) :
    Covers (mergeRanges ranges) point ↔ Covers ranges point := by
  rcases mergeRanges_cases ranges with ⟨rfl, none⟩ | ⟨first, rest, sorted, shape⟩
  · rw [none]
  · rw [shape, join_covers first rest (sorted ▸ sorted_byStart ranges), ← sorted]
    exact covers_perm (List.mergeSort_perm ranges pairLe) point

theorem mergeRanges_forall {good : Range → Prop}
    (keeps : ∀ last range, good last → good range → good (last.1, max range.2 last.2))
    {ranges : List Range} (all : ∀ range ∈ ranges, good range) :
    ∀ range ∈ mergeRanges ranges, good range := by
  rcases mergeRanges_cases ranges with ⟨rfl, none⟩ | ⟨first, rest, sorted, shape⟩
  · simp [none]
  · rw [shape]
    apply join_forall keeps
    intro range member
    rw [← sorted, List.mem_mergeSort] at member
    exact all range member

theorem mergeRanges_proper {ranges : List Range}
    (proper : ∀ range ∈ ranges, range.1 ≤ range.2) :
    ∀ range ∈ mergeRanges ranges, range.1 ≤ range.2 := by
  apply mergeRanges_forall _ proper
  intro last range here _
  exact Nat.le_trans here (Nat.le_max_right _ _)

theorem mergeRanges_filled {ranges : List Range} (filled : ranges ≠ []) :
    mergeRanges ranges ≠ [] := by
  obtain ⟨range, rest, rfl⟩ := List.exists_cons_of_ne_nil filled
  intro none
  rcases mergeRanges_cases (range :: rest) with ⟨empty, -⟩ | ⟨first, more, -, shape⟩
  · cases empty
  · rw [none] at shape
    induction more generalizing first with
    | nil => cases shape
    | cons next more ih =>
        rw [join] at shape
        split at shape
        · exact ih _ shape
        · cases shape

/-- The order in which the ranges arrive does not matter. -/
theorem mergeRanges_perm {ranges others : List Range} (same : ranges.Perm others) :
    mergeRanges others = mergeRanges ranges := by
  have sorted : others.mergeSort pairLe = ranges.mergeSort pairLe := by
    have between := ((List.mergeSort_perm others pairLe).trans same.symm).trans
      (List.mergeSort_perm ranges pairLe).symm
    refine between.eq_of_pairwise ?_ (List.pairwise_mergeSort pairLe_trans pairLe_total _)
      (List.pairwise_mergeSort pairLe_trans pairLe_total _)
    intro left right _ _ low high
    exact pairLe_antisymm low high
  rw [mergeRanges, mergeRanges, sorted]

/-! Statements -/

/-- A statement is complete where its parts cover the content, and counts its bytes once. -/
structure Truthful (record : Record) : Prop where
  complete : record.complete = true ↔ ∀ point < record.byteLength,
    ∃ part ∈ record.parts, part.start ≤ point ∧ point < part.stop
  covered : record.coveredBytes =
    Set.ncard {point | ∃ part ∈ record.parts, part.start ≤ point ∧ point < part.stop}

variable {hash : Hash} {claimOf : List Part → String → String}

theorem covers_parts (parts : List Part) (point : Nat) :
    Covers (parts.map Part.range) point ↔
      ∃ part ∈ parts, part.start ≤ point ∧ point < part.stop := by
  simp [Covers, Part.range]

theorem describe_bounds {revision : Revision} {ranges : List Range} {parts : List Part}
    (done : describe hash revision ranges = .ok parts) :
    ∀ range ∈ ranges, range.1 < range.2 ∧ range.2 ≤ revision.size := by
  unfold describe at done
  induction ranges generalizing parts with
  | nil => simp
  | cons range rest ih =>
      rw [List.mapM_cons] at done
      simp only [Program.except_bind_ok, describePart, require_ok, exists_const] at done
      obtain ⟨_, ⟨inside, -⟩, others, later, -⟩ := done
      intro other member
      rcases List.mem_cons.mp member with rfl | inRest
      · exact inside
      · exact ih later other inRest

theorem recordOf_truthful {call : Call} {subject : String} {revision : Revision}
    {described : List Part}
    (done : describe hash revision (call.arguments.parts.map Part.range) = .ok described) :
    Truthful (recordOf call subject revision) := by
  have bounds := describe_bounds done
  have between : Between 0 revision.size
      (mergeRanges (call.arguments.parts.map Part.range)) := by
    apply mergeRanges_forall
    · intro last range here there
      omega
    · exact fun range member => ⟨Nat.zero_le _, bounds range member⟩
  have filled : call.arguments.parts.map Part.range ≠ [] := by
    intro none
    have some' := call.arguments.admitted.1
    rw [List.map_eq_nil_iff.mp none] at some'
    exact absurd some' (by decide)
  have apart := mergeRanges_apart (call.arguments.parts.map Part.range)
  constructor
  · have whole := whole_iff apart between (mergeRanges_filled filled)
    simp only [mergeRanges_covers, covers_parts] at whole
    rw [recordOf, decide_eq_true_iff]
    exact whole
  · have counted := total_eq_ncard apart fun range member =>
      Nat.le_of_lt (between range member).2.1
    simp only [mergeRanges_covers, covers_parts] at counted
    exact counted

/-- What an accepted call returns: the row that was there, or a new one. -/
theorem prove_ok {call : Call} {state next : Table ReadingRow.key} {record : Record}
    (done : prove hash claimOf call state = .ok (next, record)) :
    (next = state ∧ ∃ row ∈ state.rows, row.body = record) ∨
      Truthful record ∧ ∃ row, row.body = record ∧ state.insert row = some next := by
  simp only [prove, Program.except_bind_ok, require_ok, exists_const] at done
  obtain ⟨subject, -, -, -, revision, -, _, -, -, described, parts, -, done⟩ := done
  split at done
  · rename_i row found
    cases done
    exact .inl ⟨rfl, row, Table.find?_mem found, rfl⟩
  · simp only [Program.except_bind_ok, insertRow_ok, Program.except_pure, Except.ok.injEq,
      Prod.mk.injEq] at done
    obtain ⟨_, -, table, inserted, rfl, rfl⟩ := done
    right
    refine ⟨?_, _, rfl, inserted⟩
    have truthful : Truthful (recordOf call subject revision) := recordOf_truthful parts
    split
    · exact ⟨truthful.complete, truthful.covered⟩
    · exact truthful

theorem step_truthful (call : Call) (state : Table ReadingRow.key)
    (all : ∀ row ∈ state.rows, Truthful row.body) :
    ∀ row ∈ (step hash claimOf call state).rows, Truthful row.body := by
  intro row member
  rw [step] at member
  cases done : prove hash claimOf call state with
  | error failure =>
      rw [done] at member
      exact all row member
  | ok outcome =>
      obtain ⟨next, record⟩ := outcome
      rw [done] at member
      rcases prove_ok done with ⟨rfl, -⟩ | ⟨truthful, new, rfl, inserted⟩
      · exact all row member
      · rcases (Table.mem_insert inserted row).mp member with older | rfl
        · exact all row older
        · exact truthful

/-- The union of ranges in any order, the statements that any run of `reading_prove` stores,
and the lines of a content in any chunks. -/
theorem reading_coverage (hash : Hash) (claimOf : List Part → String → String) :
    (∀ ranges : List Range, (∀ range ∈ ranges, range.1 ≤ range.2) →
      (mergeRanges ranges).Pairwise (fun left right => left.2 < right.1) ∧
      (∀ range ∈ mergeRanges ranges, range.1 ≤ range.2) ∧
      (∀ point, Covers (mergeRanges ranges) point ↔ Covers ranges point) ∧
      coveredBytes (mergeRanges ranges) = Set.ncard {point | Covers ranges point} ∧
      ∀ others, ranges.Perm others → mergeRanges others = mergeRanges ranges) ∧
    (∀ state, Run.Reachable (step hash claimOf) Table.empty state →
      ∀ row ∈ state.rows, Truthful row.body) ∧
    ∀ mediaType chunks selections, lineRanges mediaType chunks selections = (do
      require (mediaType = "text/plain" ∨ mediaType = "text/markdown") "text_source_required"
      selectLines (split newline chunks.flatten) selections) := by
  refine ⟨?_, ?_, lineRanges_eq⟩
  · intro ranges proper
    have apart := mergeRanges_apart ranges
    have properAll := mergeRanges_proper proper
    have counted := total_eq_ncard apart properAll
    simp only [mergeRanges_covers] at counted
    exact ⟨apart, properAll, mergeRanges_covers ranges, counted, fun _ => mergeRanges_perm⟩
  · intro state reached
    exact Run.reachable_invariant (step hash claimOf) (by simp [Table.empty]) step_truthful reached

end MsgServer.Readings
