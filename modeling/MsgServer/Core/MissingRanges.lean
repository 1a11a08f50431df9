import MsgServer.Core.TransferSeal

/-!
The pages of `status`: following the cursors from the start, under any limits, lists the
maximal gaps between the chunks of an upload once and in order.
-/

namespace MsgServer.Transfers

open Library Library.Run Library.Ranges Contents

/-- A decimal cursor is read as the number it was written for. -/
theorem cursorOffset_decimal {number : Nat} (small : number < 2 ^ 63) :
    cursorOffset (decimal number) = .ok number := by
  have text : (decimal number).toList = Nat.toDigits 10 number := String.toList_ofList
  have digits : (Nat.toDigits 10 number).all Char.isDigit = true :=
    List.all_eq_true.mpr fun _ member =>
      Nat.isDigit_of_mem_toDigits (by decide) (by decide) member
  have length : (Nat.toDigits 10 number).length ≤ 19 :=
    (Nat.length_toDigits_le_iff (by decide) (by decide)).mpr (by omega)
  simp only [cursorOffset, text, Program.except_bind_ok, require_ok, exists_const,
    Program.except_pure, Except.ok.injEq]
  exact ⟨⟨Nat.length_toDigits_pos, length, digits⟩, Nat.ofDigitChars_ten_toDigits⟩

theorem pageOf_append {limit : Nat} {gaps more : List Range} (full : limit < gaps.length) :
    pageOf limit (gaps ++ more) = pageOf limit gaps := by
  rw [pageOf, pageOf, List.take_append_of_le_length (Nat.le_of_lt full),
    List.getElem?_append_left full]

/-- The loop stops early only when its page is decided. -/
theorem gather_page (limit size : Nat) (rows : List ChunkRow) (position : Nat)
    (found : List Range) :
    gather limit size rows position found =
      pageOf limit (found ++ gaps size position (rows.map ChunkRow.range)) := by
  induction rows generalizing position found with
  | nil =>
      rw [gather, List.map_nil, gaps]
      split <;> simp
  | cons row rest ih =>
      have step : gaps size position ((row :: rest).map ChunkRow.range) =
          (if position < row.offset then [(position, row.offset)] else []) ++
            gaps size (max position (row.offset + row.length)) (rest.map ChunkRow.range) := rfl
      rw [gather, step]
      split
      · simp only [ih, ← List.append_assoc]
        split
        · rename_i full
          exact (pageOf_append full).symm
        · rfl
      · rw [ih, List.nil_append]

/-- The chunks of a transfer as its pages need them. -/
structure Laid (state : State) (id : String) (size : Nat) : Prop where
  filled : ∀ chunk ∈ state.chunks.rows, chunk.transferId = id → 0 < chunk.length
  bounded : ∀ chunk ∈ state.chunks.rows, chunk.transferId = id →
    chunk.offset + chunk.length < 2 ^ 63
  inside : ∀ chunk ∈ state.chunks.rows, chunk.transferId = id →
    chunk.offset + chunk.length ≤ size
  apart : ∀ left ∈ state.chunks.rows, ∀ right ∈ state.chunks.rows, left.transferId = id →
    right.transferId = id → left ≠ right →
    left.range.2 ≤ right.range.1 ∨ right.range.2 ≤ left.range.1

/-- Every run lays the chunks of an upload out within its declared size. -/
theorem laid_run (hash : Hash) (ttl : Nat) (steps : List Step) {id : String}
    {row : TransferRow} {size : Nat}
    (found : (run (step hash ttl) steps start).transfers.find? id = some row)
    (declared : row.session.expectedSize = some size) :
    Laid (run (step hash ttl) steps start) id size := by
  have arranged : Arranged hash (run (step hash ttl) steps start) := arranged_run ttl steps
  refine ⟨fun chunk member _ => arranged.filled chunk member,
    fun chunk member _ => arranged.bounded chunk member, ?_,
    fun left inLeft right inRight leftOf rightOf => arranged.apart left inLeft right inRight
      (leftOf.trans rightOf.symm)⟩
  intro chunk member same
  obtain ⟨other, stored, holds⟩ := arranged.known chunk member
  rw [same, found] at stored
  cases stored
  exact holds.inside size declared

/-- The ranges of the chunks of one transfer, in ascending order. -/
def ranges (state : State) (id : String) : List Range :=
  (chunksOf state.chunks id).map ChunkRow.range

section Pages

variable {state : State} {id : String} {size : Nat} (laid : Laid state id size)

include laid

theorem ranges_between : Between 0 size (ranges state id) := by
  intro range member
  obtain ⟨chunk, listed, rfl⟩ := List.mem_map.mp member
  obtain ⟨stored, same⟩ := mem_chunksOf.mp listed
  have filled := laid.filled chunk stored same
  refine ⟨Nat.zero_le _, ?_, laid.inside chunk stored same⟩
  simp only [ChunkRow.range]
  omega

theorem ranges_ascending : Ascending (ranges state id) :=
  chunksOf_ascending laid.filled laid.apart

/-- The gaps that are still to be listed, and the cursor that stands for them. -/
def AtGap (state : State) (id : String) (size : Nat) (cursor : Option String)
    (rest : List Range) : Prop :=
  cursor = none ∧ rest = gaps size 0 (ranges state id) ∨
    ∃ front gap back, gaps size 0 (ranges state id) = front ++ rest ∧ rest = gap :: back ∧
      cursor = some (decimal gap.1)

/-- A gap starts at the start of the upload or where a chunk ends. -/
theorem gap_start {gap : Range} (member : gap ∈ gaps size 0 (ranges state id)) :
    gap.1 ≤ size ∧ gap.1 < 2 ^ 63 := by
  have maximal :=
    (mem_gaps (ranges_ascending laid) (ranges_between laid) gap).mp member
  have proper := maximal.proper
  have high := maximal.high
  refine ⟨by omega, ?_⟩
  rcases maximal.left with first | ⟨range, listed, -, reaches⟩
  · omega
  · obtain ⟨chunk, stored, rfl⟩ := List.mem_map.mp listed
    obtain ⟨held, same⟩ := mem_chunksOf.mp stored
    have bounded := laid.bounded chunk held same
    have free := maximal.free
    simp only [ChunkRow.range] at reaches
    omega

theorem missingRanges_page {row : TransferRow} {cursor : Option Nat} {limit : Nat}
    (found : state.transfers.find? id = some row)
    (declared : row.session.expectedSize = some size) (allowed : 1 ≤ limit ∧ limit ≤ 500)
    (low : cursor.getD 0 ≤ size) :
    missingRanges state id cursor limit = .ok (pageOf limit
      (gaps size (cursor.getD 0)
        ((ranges state id).filter fun range => cursor.getD 0 < range.2))) := by
  have filtered : ((chunksOf state.chunks id).filter fun row =>
      cursor.getD 0 < row.offset + row.length).map ChunkRow.range =
      (ranges state id).filter fun range => cursor.getD 0 < range.2 := by
    rw [ranges, List.filter_map]
    rfl
  simp only [missingRanges, Program.except_bind_ok, requireRow_ok, require_ok, exists_const,
    Program.except_pure, Except.ok.injEq]
  refine ⟨row, found, size, declared, allowed, low, ?_⟩
  rw [gather_page, List.nil_append, filtered]

/-- A call of `status` answers with the page that starts at its cursor. -/
theorem status_page {env : Environment} {row : TransferRow} {cursor : Option String}
    {limit : Nat} {rest : List Range} (goes : continuing env state id true = .ok row)
    (upload : row.session.direction = .upload) (ongoing : row.session.state ≠ .sealed)
    (declared : row.session.expectedSize = some size) (allowed : 1 ≤ limit ∧ limit ≤ 500)
    (at' : AtGap state id size cursor rest) :
    status env state id cursor limit = .ok (pageOf limit rest) := by
  have found := (continuing_ok.mp goes).1
  have missing : ¬ (row.session.direction = .download ∨ row.session.state = .sealed) := by
    simp [upload, ongoing]
  have sized : ¬ row.session.expectedSize = none := by simp [declared]
  simp only [status, Program.except_bind_ok, require_ok, exists_const, goes, Except.ok.injEq]
  refine ⟨row, rfl, allowed, ?_⟩
  rcases at' with ⟨rfl, rfl⟩ | ⟨front, gap, back, whole, rfl, rfl⟩
  · refine ⟨none, rfl, ?_⟩
    rw [if_neg missing, if_neg sized,
      missingRanges_page laid found declared allowed (Nat.zero_le _)]
    have all : ((ranges state id).filter fun range => 0 < range.2) = ranges state id := by
      refine List.filter_eq_self.mpr fun range member => ?_
      have := ranges_between laid range member
      exact decide_eq_true (by omega)
    simp only [Option.getD_none, all]
  · have member : gap ∈ gaps size 0 (ranges state id) := by
      rw [whole]
      simp
    obtain ⟨low, small⟩ := gap_start laid member
    refine ⟨some gap.1, ?_, ?_⟩
    · have inside : gap.1 < 2 ^ 63 ∧ ∀ size ∈ row.session.expectedSize, gap.1 ≤ size := by
        refine ⟨small, ?_⟩
        rw [declared]
        rintro _ ⟨⟩
        exact low
      simp only [cursorPosition, cursorOffset_decimal small, Program.except_bind_ok,
        require_ok, exists_const, Except.ok.injEq]
      exact ⟨gap.1, rfl, inside, rfl⟩
    · have page : missingRanges state id (some gap.1) limit = .ok (pageOf limit
          (gaps size gap.1 ((ranges state id).filter fun range => gap.1 < range.2))) :=
        missingRanges_page laid found declared allowed low
      rw [if_neg missing, if_neg sized, page,
        gaps_resume (ranges_ascending laid) (ranges_between laid) whole]

end Pages

/-- The pages that a client reads by following the cursors, and the last cursor. -/
def follow (state : State) (id : String) : List (Environment × Nat) → Option String →
    Except Failure (List Range × Option String)
  | [], cursor => .ok ([], cursor)
  | (env, limit) :: calls, cursor => do
      let page ← status env state id cursor limit
      match page.nextCursor with
      | none => return (page.items, none)
      | some next => do
          let (items, last) ← follow state id calls (some next)
          return (page.items ++ items, last)

theorem follow_gaps {state : State} {id : String} {size : Nat} (laid : Laid state id size)
    {row : TransferRow} (upload : row.session.direction = .upload)
    (ongoing : row.session.state ≠ .sealed) (declared : row.session.expectedSize = some size)
    {calls : List (Environment × Nat)}
    (admitted : ∀ call ∈ calls, continuing call.1 state id true = .ok row ∧
      1 ≤ call.2 ∧ call.2 ≤ 500)
    {cursor : Option String} {rest : List Range} (at' : AtGap state id size cursor rest)
    (called : calls ≠ []) (enough : rest.length ≤ calls.length) :
    follow state id calls cursor = .ok (rest, none) := by
  induction calls generalizing cursor rest with
  | nil => exact absurd rfl called
  | cons call calls ih =>
      obtain ⟨env, limit⟩ := call
      obtain ⟨goes, allowed⟩ := admitted (env, limit) (List.mem_cons_self ..)
      have page := status_page laid goes upload ongoing declared allowed at'
      simp only [follow, page, Program.except_bind_ok, Except.ok.injEq]
      refine ⟨pageOf limit rest, rfl, ?_⟩
      by_cases last : rest.length ≤ limit
      · have only' : pageOf limit rest = { items := rest, nextCursor := none } := by
          rw [pageOf, List.getElem?_eq_none last, List.take_of_length_le last]
          rfl
        rw [only']
        rfl
      · -- the next page starts at the first gap that this one leaves out
        have more : limit < rest.length := Nat.lt_of_not_le last
        have next : pageOf limit rest =
            { items := rest.take limit, nextCursor := some (decimal rest[limit].1) } := by
          rw [pageOf, List.getElem?_eq_getElem more]
          rfl
        have dropped : rest.drop limit = rest[limit] :: rest.drop (limit + 1) :=
          List.drop_eq_getElem_cons more
        have after : AtGap state id size (some (decimal rest[limit].1)) (rest.drop limit) := by
          have split' : rest = rest.take limit ++ rest.drop limit :=
            (List.take_append_drop limit rest).symm
          rcases at' with ⟨-, whole⟩ | ⟨front, gap, back, whole, -, -⟩
          · exact .inr ⟨rest.take limit, _, _, whole ▸ split', dropped, rfl⟩
          · refine .inr ⟨front ++ rest.take limit, _, _, ?_, dropped, rfl⟩
            rw [whole, List.append_assoc, ← split']
        have length : (rest.drop limit).length ≤ calls.length := by
          rw [List.length_drop]
          simp only [List.length_cons] at enough
          omega
        have some' : calls ≠ [] := by
          rintro rfl
          rw [List.length_drop, List.length_nil] at length
          omega
        have later := ih (fun call member => admitted call (List.mem_cons_of_mem _ member))
          after some' length
        simp only [next, later, Program.except_bind_ok, Except.ok.injEq]
        refine ⟨(rest.drop limit, none), rfl, ?_⟩
        simp only [List.take_append_drop]
        rfl

/-- Under any limits, following the cursors lists the maximal gaps between the chunks of an
open upload, once each and in order, and ends. -/
theorem missing_pages {state : State} {id : String} {size : Nat} {row : TransferRow}
    (laid : Laid state id size) (upload : row.session.direction = .upload)
    (ongoing : row.session.state ≠ .sealed) (declared : row.session.expectedSize = some size) :
    let listed := gaps size 0 (ranges state id)
    (∀ gap, gap ∈ listed ↔ MaximalGap 0 size (ranges state id) gap) ∧
    listed.Pairwise (fun left right => left.2 < right.1) ∧
    ∀ calls : List (Environment × Nat),
      (∀ call ∈ calls, continuing call.1 state id true = .ok row ∧
        1 ≤ call.2 ∧ call.2 ≤ 500) →
      calls ≠ [] → listed.length ≤ calls.length →
      follow state id calls none = .ok (listed, none) := by
  have ascending := ranges_ascending laid
  have between := ranges_between laid
  exact ⟨mem_gaps ascending between, gaps_apart ascending between,
    fun _ admitted called enough =>
      follow_gaps laid upload ongoing declared admitted (.inl ⟨rfl, rfl⟩) called enough⟩

theorem missing_pages_sample :
    follow (uploaded (some 10)) "tr_1" [(owner, 1)] none = .ok ([(2, 10)], none) := by
  have found : (uploaded (some 10)).transfers.find? "tr_1" = some (uploadedRow (some 10)) := by
    decide +kernel
  have laid : Laid (uploaded (some 10)) "tr_1" 10 := laid_run sampleHash 86400 _ found rfl
  have ongoing : (uploadedRow (some 10)).session.state ≠ .sealed := by decide
  have goes : continuing owner (uploaded (some 10)) "tr_1" true =
      .ok (uploadedRow (some 10)) := by decide +kernel
  have pages := (missing_pages laid rfl ongoing rfl).2.2 [(owner, 1)] (by simpa using goes)
    (by simp) (by decide +kernel)
  have listed : gaps 10 0 (ranges (uploaded (some 10)) "tr_1") = [(2, 10)] := by
    decide +kernel
  rw [listed] at pages
  exact pages

end MsgServer.Transfers
