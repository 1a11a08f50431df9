import MsgServer.Core.TransferChunks

/-!
What `put` and `seal` answer in a state that a run reaches: identical bytes are taken again
without a change, a conflicting range is refused, and an upload is sealed exactly when its
chunks tile the final size with the final digest.
-/

namespace MsgServer.Transfers

open Library Library.Run Library.Ranges Contents

variable {hash : Hash}

theorem singleton_of_forall {α : Type} {list : List α} {value : α} (distinct : list.Nodup)
    (member : value ∈ list) (only : ∀ other ∈ list, other = value) : list = [value] := by
  cases list with
  | nil => simp at member
  | cons first rest =>
      obtain rfl := only first (List.mem_cons_self ..)
      cases rest with
      | nil => rfl
      | cons second rest =>
          obtain rfl := only second (List.mem_cons_of_mem _ (List.mem_cons_self ..))
          simp at distinct

section States

variable {state : State} (arranged : Arranged hash state)

include arranged

/-- Nothing else meets the range of a stored chunk. -/
theorem overlapping_stored {chunk : ChunkRow} (member : chunk ∈ state.chunks.rows) :
    overlapping state.chunks chunk.transferId chunk.offset (chunk.offset + chunk.length) =
      [chunk] := by
  have filled := arranged.filled chunk member
  refine singleton_of_forall (state.chunks.unique.of_map.filter _) ?_ ?_
  · exact List.mem_filter.mpr ⟨member, decide_eq_true ⟨rfl, by omega, by omega⟩⟩
  · intro other met
    obtain ⟨stored, meets⟩ := List.mem_filter.mp met
    simp only [decide_eq_true_eq] at meets
    by_contra different
    have := arranged.apart other stored chunk member meets.1 different
    simp only [ChunkRow.range] at this
    omega

/-- Bytes with the range and digest of a stored chunk are answered with that chunk. -/
theorem put_again {env : Environment} {chunk : ChunkRow} {row : TransferRow} {data : Bytes}
    (member : chunk ∈ state.chunks.rows)
    (goes : continuing env state chunk.transferId false = .ok row)
    (length : data.length = chunk.length)
    (digest : hash.digest data = chunk.body.content.digest) :
    put hash env state chunk.transferId chunk.offset data (hash.digest data) =
      (.ok chunk.body, state) := by
  have filled := arranged.filled chunk member
  have bounded := arranged.bounded chunk member
  have alone := overlapping_stored arranged member
  obtain ⟨found, stored, holds⟩ := arranged.known chunk member
  obtain rfl : found = row :=
    Option.some.inj (stored.symm.trans (continuing_ok.mp goes).1)
  have some' : data ≠ [] := by
    rintro rfl
    simp only [List.length_nil] at length
    omega
  have low : chunk.offset < 2 ^ 63 := by omega
  have admitted : putAdmitted hash env state chunk.transferId chunk.offset data
      (hash.digest data) = .ok (found, some chunk.body) := by
    simp only [putAdmitted, length, alone, goes, Program.except_bind_ok, require_ok,
      exists_const, Except.ok.injEq, Program.except_pure, Prod.mk.injEq, true_and, and_true]
    exact ⟨hash.wellFormed data, low, some', found, rfl, holds.upload, holds.small, bounded,
      holds.inside, digest.symm, rfl⟩
  rw [put, admitted]

omit arranged in
/-- A range that meets a stored chunk of other bytes or of another range is refused. -/
theorem put_conflict {env : Environment} {chunk : ChunkRow} {offset : Nat} {data : Bytes}
    {digest : String} (member : chunk ∈ state.chunks.rows)
    (meets : chunk.offset < offset + data.length ∧ offset < chunk.offset + chunk.length)
    (other : ¬ (chunk.offset = offset ∧ chunk.length = data.length ∧
      chunk.body.content.digest = digest)) :
    ∃ failure, put hash env state chunk.transferId offset data digest =
      (.error failure, state) := by
  have listed : chunk ∈
      overlapping state.chunks chunk.transferId offset (offset + data.length) :=
    List.mem_filter.mpr ⟨member, decide_eq_true ⟨rfl, meets⟩⟩
  cases admitted : putAdmitted hash env state chunk.transferId offset data digest with
  | error failure => exact ⟨failure, by rw [put, admitted]⟩
  | ok entry =>
      exfalso
      simp only [putAdmitted, Program.except_bind_ok, require_ok, exists_const] at admitted
      obtain ⟨-, -, -, -, row, -, -, -, -, -, rest⟩ := admitted
      split at rest
      · rename_i none
        rw [none] at listed
        simp at listed
      · rename_i first more found
        simp only [Program.except_bind_ok, require_ok, exists_const] at rest
        obtain ⟨⟨rfl, same⟩, -⟩ := rest
        rw [found, List.mem_singleton] at listed
        exact other (listed ▸ same)

/-! Sealing -/

/-- The declared facts of a transfer, if any, are the final ones. -/
def Declared (row : TransferRow) (finalSize : Nat) (finalDigest : String) : Prop :=
  (∀ size ∈ row.session.expectedSize, finalSize = size) ∧
    ∀ digest ∈ row.session.expectedDigest, finalDigest = digest

/-- The chunks cover the bytes below the final size and no others, and read one after the
other they have the final digest. -/
def Complete (hash : Hash) (state : State) (id : String) (finalSize : Nat)
    (finalDigest : String) : Prop :=
  (∀ byte, Covers ((chunksOf state.chunks id).map ChunkRow.range) byte ↔ byte < finalSize) ∧
    ∃ data, pieces state.contents (chunksOf state.chunks id) = .ok data ∧
      finalDigest = hash.digest data

/-- No two of the byte strings that were put have one digest, the assembled ones included. -/
def Collisionless (hash : Hash) (state : State) (id : String) : Prop :=
  Distinct hash state.contents.seen ∧
    ∀ data, pieces state.contents (chunksOf state.chunks id) = .ok data →
      Distinct hash (data :: state.contents.seen)

theorem covers_iff (id : String) (size : Nat) :
    (∀ byte, Covers ((chunksOf state.chunks id).map ChunkRow.range) byte ↔ byte < size) ↔
      contiguous 0 (chunksOf state.chunks id) = .ok size := by
  rw [contiguous_ok, tiles_iff (ascending arranged id) (fun _ => range_filled arranged)
    (fun _ _ => Nat.zero_le _) (Nat.zero_le _)]
  simp

variable {env : Environment} {id : String} {row : TransferRow} {finalSize : Nat}
  {finalDigest : String}

theorem seal_complete (goes : continuing env state id false = .ok row)
    (upload : row.session.direction = .upload)
    (distinct : Distinct hash state.contents.seen) {output : Option ResourceRef}
    (done : (seal' hash env state id finalSize finalDigest).1 = .ok output) :
    Declared row finalSize finalDigest ∧ Complete hash state id finalSize finalDigest := by
  have named := continuing_id goes
  rw [seal'] at done
  split at done
  · cases done
  · rename_i again admitted
    simp only [sealAdmitted, Program.except_bind_ok, require_ok, exists_const, goes,
      Except.ok.injEq] at admitted
    obtain ⟨-, -, found, rfl, sizes, digests, rest⟩ := admitted
    split at rest
    · rename_i isSealed
      obtain ⟨data, -, -, size, digest, -, -, -, follow, read⟩ :=
        arranged.published id row (continuing_ok.mp goes).1 isSealed upload
      obtain rfl := sizes data.length size
      obtain rfl := digests _ digest
      rw [named] at follow read
      exact ⟨⟨sizes, digests⟩, (covers_iff arranged id data.length).mpr follow, data,
        read distinct, rfl⟩
    · simp [Program.except_bind_ok] at rest
  · rename_i again admitted
    obtain ⟨goes', sizes, digests, isOpen⟩ := sealAdmitted_new admitted
    obtain rfl : row = again := Except.ok.inj (goes.symm.trans goes')
    simp only [upload, sealUpload] at done
    split at done
    · cases done
    · rename_i blob contents finished
      obtain ⟨data, follow, read, -, stored⟩ := assembled_ok finished
      obtain ⟨expects, -, -⟩ := put_ok stored
      rw [named] at follow read
      exact ⟨⟨sizes, digests⟩, (covers_iff arranged id finalSize).mpr follow, data, read,
        expects⟩

theorem seal_succeeds (goes : continuing env state id false = .ok row)
    (upload : row.session.direction = .upload)
    (declared : Declared row finalSize finalDigest) (written : env.written = .ok ())
    (pinned : env.pinned = .ok ()) (publishes : ∀ blob, ∃ output, env.publish blob = .ok output)
    (collisionless : Collisionless hash state id)
    (complete : Complete hash state id finalSize finalDigest) :
    ∃ output, (seal' hash env state id finalSize finalDigest).1 = .ok output := by
  have named := continuing_id goes
  obtain ⟨stored, -, -, ongoing, -⟩ := continuing_ok.mp goes
  obtain ⟨covered, data, read, digest⟩ := complete
  have follow := (covers_iff arranged id finalSize).mp covered
  have length : data.length = finalSize := by
    have := pieces_length follow (fun chunk member => sized arranged member) read
    omega
  have small : finalSize < 2 ^ 63 := by
    by_cases empty : finalSize = 0
    · omega
    · obtain ⟨range, member, -, last⟩ := (covered (finalSize - 1)).mpr (by omega)
      obtain ⟨chunk, listed, rfl⟩ := List.mem_map.mp member
      have := arranged.bounded chunk (mem_chunksOf.mp listed).1
      simp only [ChunkRow.range] at last
      omega
  have valid : isDigest finalDigest := digest ▸ hash.wellFormed data
  by_cases isSealed : row.session.state = .sealed
  · obtain ⟨bytes, output, -, size, known, -, -, -, -, -⟩ :=
      arranged.published id row stored isSealed upload
    have same : row.session.expectedSize = some finalSize ∧
        row.session.expectedDigest = some finalDigest := by
      rw [size, known, declared.1 _ size, declared.2 _ known]
      exact ⟨rfl, rfl⟩
    have admitted : sealAdmitted env state id finalSize finalDigest = .ok (row, true) := by
      simp only [sealAdmitted, goes, Program.except_bind_ok, require_ok, exists_const,
        Except.ok.injEq]
      refine ⟨valid, small, row, rfl, declared.1, declared.2, ?_⟩
      simp only [if_pos isSealed, Program.except_bind_ok, require_ok, exists_const]
      exact ⟨same, rfl⟩
    exact ⟨row.session.output, by rw [seal', admitted]⟩
  · have isOpen : row.session.state = .open' := by
      rcases ongoing with never | ⟨notCancelled, notExpired⟩
      · cases never
      · cases state' : row.session.state <;> simp_all
    have admitted : sealAdmitted env state id finalSize finalDigest = .ok (row, false) := by
      simp only [sealAdmitted, goes, Program.except_bind_ok, require_ok, exists_const,
        Except.ok.injEq]
      refine ⟨valid, small, row, rfl, declared.1, declared.2, ?_⟩
      simp only [if_neg isSealed, Program.except_bind_ok, require_ok, exists_const]
      exact ⟨isOpen, rfl⟩
    obtain ⟨blob, contents, put⟩ : ∃ blob contents, Contents.put hash state.contents data
        row.mediaType finalDigest = .ok (blob, contents) :=
      put_total arranged.sound digest (collisionless.2 data read)
    have assembles : assembled hash env state row finalSize finalDigest =
        .ok (blob, contents) := by
      simp only [assembled, named, Program.except_bind_ok, require_ok, exists_const]
      exact ⟨finalSize, follow, rfl, data, read, (), written, put⟩
    obtain ⟨-, rfl, -⟩ := put_ok put
    obtain ⟨output, published⟩ := publishes
      { digest := hash.digest data, size := data.length, mediaType := row.mediaType }
    let after := state.transfers.modify row.session.id fun stored =>
      { stored with session := sealedSession row.session finalSize finalDigest output }
    have saved : saveTransfer state.transfers
        (sealedSession row.session finalSize finalDigest output) row.session.generation =
        .ok after :=
      saveTransfer_read (named ▸ stored) rfl rfl
    have finishes : publishing env state row.session finalSize finalDigest
        { digest := hash.digest data, size := data.length, mediaType := row.mediaType } =
        .ok (output, after) := by
      simp only [publishing, Program.except_bind_ok, require_ok, exists_const]
      exact ⟨length, (), pinned, output, published, after, saved, rfl⟩
    refine ⟨some output, ?_⟩
    rw [seal', admitted]
    simp only [upload, sealUpload, assembles, finishes]

/-- What a successful call leaves: a sealed upload with the output it answers, the same
chunks, and bytes in the content store that no digest confuses. -/
theorem seal_saves (goes : continuing env state id false = .ok row)
    (upload : row.session.direction = .upload) (collisionless : Collisionless hash state id)
    {output : Option ResourceRef}
    (done : (seal' hash env state id finalSize finalDigest).1 = .ok output) :
    let next := (seal' hash env state id finalSize finalDigest).2
    (∃ saved, next.transfers.find? id = some saved ∧ saved.session.state = .sealed ∧
      saved.session.direction = .upload ∧ saved.session.output = output ∧
      saved.session.expectedSize = some finalSize ∧
      saved.session.expectedDigest = some finalDigest) ∧
    next.chunks = state.chunks ∧ next.received = state.received ∧
    Distinct hash next.contents.seen := by
  have named := continuing_id goes
  have stored := (continuing_ok.mp goes).1
  have declared := (seal_complete arranged goes upload collisionless.1 done).1
  rw [seal'] at done ⊢
  split at done
  · cases done
  · rename_i again admitted
    simp only [Except.ok.injEq] at done
    simp only [sealAdmitted, Program.except_bind_ok, require_ok, exists_const, goes,
      Except.ok.injEq] at admitted
    obtain ⟨-, -, found, rfl, sizes, digests, rest⟩ := admitted
    split at rest
    · rename_i isSealed
      simp only [Program.except_bind_ok, require_ok, exists_const, Program.except_pure,
        Except.ok.injEq, Prod.mk.injEq, and_true] at rest
      obtain ⟨⟨size, digest⟩, rfl⟩ := rest
      exact ⟨⟨row, stored, isSealed, upload, done, size, digest⟩, rfl, rfl, collisionless.1⟩
    · simp [Program.except_bind_ok] at rest
  · rename_i again admitted
    obtain ⟨goes', -, -, isOpen⟩ := sealAdmitted_new admitted
    obtain rfl : row = again := Except.ok.inj (goes.symm.trans goes')
    simp only [upload, sealUpload] at done ⊢
    split at done
    · cases done
    · rename_i blob contents finished
      obtain ⟨data, follow, read, -, put⟩ := assembled_ok finished
      obtain ⟨-, -, seen, -, -⟩ := put_ok put
      rw [named] at read
      have distinct : Distinct hash contents.seen := seen ▸ collisionless.2 data read
      split at done
      · cases done
      · rename_i reference transfers saves
        simp only [Except.ok.injEq] at done
        subst done
        simp only [publishing, Program.except_bind_ok, require_ok, exists_const,
          Program.except_pure, Except.ok.injEq, Prod.mk.injEq] at saves
        obtain ⟨-, -, -, answered, -, rows, kept, rfl, rfl⟩ := saves
        let session := sealedSession row.session finalSize finalDigest answered
        refine ⟨⟨{ row with session }, ?_, rfl, upload, rfl, rfl, rfl⟩, rfl, rfl, distinct⟩
        have found : state.transfers.find? row.session.id = some row := named ▸ stored
        have same : session.id = row.session.id := rfl
        rw [saveTransfer_ok kept]
        exact (find?_saved found same id).trans (if_pos named.symm)

omit arranged in
/-- The bytes of each chunk stand at its offset. -/
theorem pieces_placed {store : Store} {rows : List ChunkRow} {low high : Nat} {data : Bytes}
    (follow : contiguous low rows = .ok high)
    (sized : ∀ chunk ∈ rows, chunk.body.content.size = chunk.length)
    (read : pieces store rows = .ok data) {chunk : ChunkRow} (member : chunk ∈ rows)
    {bytes : Bytes} (here : Contents.read store chunk.body.content = .ok bytes) :
    low ≤ chunk.offset ∧ (data.drop (chunk.offset - low)).take bytes.length = bytes := by
  induction rows generalizing low data with
  | nil => simp at member
  | cons first rest ih =>
      simp only [contiguous, Program.except_bind_ok, require_ok, exists_const] at follow
      obtain ⟨rfl, follow⟩ := follow
      simp only [pieces, Program.except_bind_ok, Program.except_pure, Except.ok.injEq] at read
      obtain ⟨front, readFirst, back, readRest, rfl⟩ := read
      have length : front.length = first.length :=
        (read_length readFirst).trans (sized first (List.mem_cons_self ..))
      rcases List.mem_cons.mp member with rfl | later
      · obtain rfl := Except.ok.inj (here.symm.trans readFirst)
        simp
      · obtain ⟨beyond, placed⟩ := ih follow (fun other listed =>
          sized other (List.mem_cons_of_mem _ listed)) readRest later
        refine ⟨by omega, ?_⟩
        have shift : chunk.offset - first.offset =
            front.length + (chunk.offset - (first.offset + first.length)) := by omega
        rw [shift, List.drop_append, List.drop_eq_nil_of_le (by omega), List.nil_append]
        simpa using placed

/-- What is read from a publication: the chunks in the order of their offsets, with the
bytes that arrived at each offset in their place. -/
def PublishedContent (hash : Hash) (before after : State) (id : String)
    (output : Option ResourceRef) (finalSize : Nat) (finalDigest : String) : Prop :=
  ∃ (data : Bytes) (reference : ResourceRef) (blob : BlobRef),
    output = some reference ∧ (reference, blob) ∈ after.published ∧
    blob.digest = finalDigest ∧ blob.size = finalSize ∧
    Contents.read after.contents blob = .ok data ∧ hash.digest data = finalDigest ∧
    pieces after.contents (chunksOf before.chunks id) = .ok data ∧
    ∀ offset bytes, (id, offset, bytes) ∈ before.received →
      (data.drop offset).take bytes.length = bytes

omit arranged in
theorem published_content {next : State} (arranged : Arranged hash next)
    (distinct : Distinct hash next.contents.seen) {saved : TransferRow}
    (found : next.transfers.find? id = some saved) (isSealed : saved.session.state = .sealed)
    (upload : saved.session.direction = .upload)
    (size : saved.session.expectedSize = some finalSize)
    (digest : saved.session.expectedDigest = some finalDigest) :
    PublishedContent hash next next id saved.session.output finalSize finalDigest := by
  have named : saved.key = id := Table.find?_key found
  obtain ⟨data, output, mediaType, length, known, answered, listed, kept, follow, read⟩ :=
    arranged.published id saved found isSealed upload
  obtain rfl := Option.some.inj (size.symm.trans length)
  obtain rfl := Option.some.inj (digest.symm.trans known)
  have pieces' := read distinct
  rw [show saved.session.id = id from named] at follow pieces'
  refine ⟨data, output, _, answered, listed, rfl, rfl,
    read_kept arranged.sound kept distinct mediaType, rfl, pieces', ?_⟩
  intro offset bytes arrived
  obtain ⟨stored, held⟩ := arranged.noted id offset bytes arrived
  have member : chunkRow hash id offset bytes ∈ chunksOf next.chunks id :=
    mem_chunksOf.mpr ⟨stored, rfl⟩
  exact (pieces_placed follow (fun chunk listed => sized arranged listed) pieces' member
    (read_kept arranged.sound held distinct _)).2

end States

/-- Over every run: the chunks of a transfer lie apart; bytes with the range and digest of a
stored chunk are answered with it and change nothing, and any other range that meets it is
refused and changes nothing; a call of `seal` that the publication does not refuse
succeeds exactly when the declared facts agree and the chunks tile the final size with the
final digest, and what it publishes is those chunks in the order of their offsets. -/
theorem chunked_transfer (hash : Hash) (ttl : Nat) (steps : List Step) :
    let state := run (step hash ttl) steps start
    (∀ left ∈ state.chunks.rows, ∀ right ∈ state.chunks.rows,
      left.transferId = right.transferId → left ≠ right →
      left.range.2 ≤ right.range.1 ∨ right.range.2 ≤ left.range.1) ∧
    (∀ env row data, ∀ chunk ∈ state.chunks.rows,
      continuing env state chunk.transferId false = .ok row → data.length = chunk.length →
      hash.digest data = chunk.body.content.digest →
      put hash env state chunk.transferId chunk.offset data (hash.digest data) =
        (.ok chunk.body, state)) ∧
    (∀ env offset data digest, ∀ chunk ∈ state.chunks.rows,
      chunk.offset < offset + data.length ∧ offset < chunk.offset + chunk.length →
      ¬ (chunk.offset = offset ∧ chunk.length = data.length ∧
        chunk.body.content.digest = digest) →
      ∃ failure, put hash env state chunk.transferId offset data digest =
        (.error failure, state)) ∧
    ∀ env id row finalSize finalDigest, continuing env state id false = .ok row →
      row.session.direction = .upload → Collisionless hash state id →
      let (answer, next) := seal' hash env state id finalSize finalDigest
      (env.written = .ok () → env.pinned = .ok () →
        (∀ blob, ∃ output, env.publish blob = .ok output) →
        ((∃ output, answer = .ok output) ↔
          Declared row finalSize finalDigest ∧ Complete hash state id finalSize finalDigest)) ∧
      ∀ output, answer = .ok output →
        PublishedContent hash state next id output finalSize finalDigest := by
  intro state
  have arranged : Arranged hash state := arranged_run ttl steps
  refine ⟨arranged.apart, fun env row data chunk member goes length digest =>
    put_again arranged member goes length digest,
    fun env offset data digest chunk member meets other => put_conflict member meets other, ?_⟩
  intro env id row finalSize finalDigest goes upload collisionless
  constructor
  · intro written pinned publishes
    constructor
    · rintro ⟨output, done⟩
      exact seal_complete arranged goes upload collisionless.1 done
    · rintro ⟨declared, complete⟩
      exact seal_succeeds arranged goes upload declared written pinned publishes collisionless
        complete
  · intro output done
    have moved : Arranged hash (seal' hash env state id finalSize finalDigest).2 := by
      have moves : (seal' hash env state id finalSize finalDigest).2 = state ∨
          Move hash state (seal' hash env state id finalSize finalDigest).2 := seal_move
      rcases moves with same | move
      · exact same.symm ▸ arranged
      · exact arranged_move arranged move
    obtain ⟨⟨saved, found, isSealed, isUpload, answered, size, digest⟩, chunks, received,
      distinct⟩ := seal_saves arranged goes upload collisionless done
    have content := published_content moved distinct found isSealed isUpload size digest
    rw [PublishedContent, chunks, received, answered] at content
    exact content

/-! A transfer of two bytes -/

def greeting : Bytes := [104, 105]

def sampleDigest (data : Bytes) : String :=
  if data = greeting then
    "sha256:8f434346648f6b96df89dda901c5176b10a6d83961dd3c1ac88b59b2dc327aa4"
  else "sha256:0000000000000000000000000000000000000000000000000000000000000000"

def sampleHash : Hash where
  digest := sampleDigest
  wellFormed := by
    intro data
    unfold sampleDigest isDigest
    split
    · -- a long literal is read in pieces
      have spelled : "sha256:8f434346648f6b96df89dda901c5176b10a6d83961dd3c1ac88b59b2dc327aa4" =
          "sha256:8f434346648f6b96df89" ++ "dda901c5176b10a6d83961dd3c" ++ "1ac88b59b2dc327aa4" := rfl
      rw [spelled, String.toList_append, String.toList_append]
      decide +kernel
    · have spelled : "sha256:0000000000000000000000000000000000000000000000000000000000000000" =
          String.ofList ("sha256:".toList ++ List.replicate 64 '0') := rfl
      rw [spelled, String.toList_ofList]
      decide +kernel

def owner : Environment where
  now := 0
  subject := some "u_owner"
  access := .ok ()
  written := .ok ()
  pinned := .ok ()
  publish := fun _ => .ok ⟨"f_new", some "v_new"⟩

def uploading (size : Option Nat) : List Step :=
  [.open' owner
    { id := "tr_1", direction := .upload, size, digest := none, expiresAt := 100
      mediaType := "text/plain", partBytes := 65536, target := .ok ⟨"t_files", none⟩
      content := none },
   .put owner "tr_1" 0 greeting (sampleDigest greeting)]

def uploaded (size : Option Nat) : State := run (step sampleHash 86400) (uploading size) start

def uploadedRow (size : Option Nat) : TransferRow where
  session :=
    { id := "tr_1", subjectId := "u_owner", direction := .upload, state := .open'
      target := ⟨"t_files", none⟩, expectedSize := size, expectedDigest := none
      expiresAt := 100, generation := 1 }
  partBytes := 65536
  mediaType := "text/plain"

theorem uploaded_complete (size : Option Nat)
    (follow : contiguous 0 (chunksOf (uploaded size).chunks "tr_1") = .ok 2)
    (read : pieces (uploaded size).contents (chunksOf (uploaded size).chunks "tr_1") =
      .ok greeting) :
    Complete sampleHash (uploaded size) "tr_1" 2 (sampleDigest greeting) :=
  ⟨(covers_iff (arranged_run 86400 (uploading size)) "tr_1" 2).mpr follow, greeting, read, rfl⟩

theorem chunked_transfer_sample :
    ∃ output, (seal' sampleHash owner (uploaded none) "tr_1" 2 (sampleDigest greeting)).1 =
      .ok output := by
  have read : pieces (uploaded none).contents (chunksOf (uploaded none).chunks "tr_1") =
      .ok greeting := by decide +kernel
  have seen : (uploaded none).contents.seen = [greeting] := by decide +kernel
  have collisionless : Collisionless sampleHash (uploaded none) "tr_1" := by
    rw [Collisionless, seen, read]
    refine ⟨by simp [Distinct], fun data same => ?_⟩
    obtain rfl := Except.ok.inj same
    simp [Distinct]
  have answers := (chunked_transfer sampleHash 86400 (uploading none)).2.2.2 owner "tr_1"
    (uploadedRow none) 2 (sampleDigest greeting) (by decide +kernel) rfl collisionless
  exact (answers.1 rfl rfl fun _ => ⟨_, rfl⟩).mpr
    ⟨⟨by simp [uploadedRow], by simp [uploadedRow]⟩,
      uploaded_complete none (by decide +kernel) read⟩

/-- A transfer that declared ten bytes is not sealed at two, though its chunks tile them. -/
theorem short_of_declared :
    Complete sampleHash (uploaded (some 10)) "tr_1" 2 (sampleDigest greeting) ∧
      (seal' sampleHash owner (uploaded (some 10)) "tr_1" 2 (sampleDigest greeting)).1 =
        .error { code := "final_size_mismatch" } :=
  ⟨uploaded_complete (some 10) (by decide +kernel) (by decide +kernel), by decide +kernel⟩

end MsgServer.Transfers
