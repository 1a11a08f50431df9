import MsgServer.Core.Transfer

/-!
Runs of the transfers. Every step makes one of a few moves; the invariant that the moves
keep says how the chunks of a transfer lie, which bytes stand behind them, and what a
sealed upload has published.
-/

namespace MsgServer.Transfers

open Library Library.Run Library.Ranges Contents

variable {hash : Hash}

/-! What the statements do -/

theorem continuing_ok {env : Environment} {state : State} {id : String}
    {allowCancelled : Bool} {row : TransferRow} :
    continuing env state id allowCancelled = .ok row ↔
      state.transfers.find? id = some row ∧ env.subject = some row.session.subjectId ∧
      env.now < row.session.expiresAt ∧
      (allowCancelled ∨ (row.session.state ≠ .cancelled ∧ row.session.state ≠ .expired)) ∧
      env.access = .ok () := by
  simp only [continuing, Program.except_bind_ok, requireRow_ok, require_ok, exists_const,
    Program.except_pure, Except.ok.injEq]
  constructor
  · rintro ⟨found, stored, owner, alive, ongoing, ⟨⟩, access, rfl⟩
    exact ⟨stored, owner, alive, ongoing, access⟩
  · rintro ⟨stored, owner, alive, ongoing, access⟩
    exact ⟨row, stored, owner, alive, ongoing, (), access, rfl⟩

theorem continuing_id {env : Environment} {state : State} {id : String}
    {allowCancelled : Bool} {row : TransferRow}
    (admitted : continuing env state id allowCancelled = .ok row) : row.session.id = id := by
  have same : row.key = id := Table.find?_key (continuing_ok.mp admitted).1
  exact same

theorem saveTransfer_ok {transfers next : Table TransferRow.key} {session : TransferSession}
    {generation : Nat} (saved : saveTransfer transfers session generation = .ok next) :
    next = transfers.modify session.id fun row => { row with session } := by
  simp only [saveTransfer, Program.except_bind_ok, require_ok, exists_const,
    Program.except_pure, Except.ok.injEq] at saved
  exact saved.2.2.symm

/-- Saving the session that was just read always finds its generation. -/
theorem saveTransfer_read {transfers : Table TransferRow.key} {row : TransferRow}
    {session : TransferSession} (found : transfers.find? row.session.id = some row)
    (same : session.id = row.session.id)
    (next : session.generation = row.session.generation + 1) :
    saveTransfer transfers session row.session.generation =
      .ok (transfers.modify session.id fun row => { row with session }) := by
  have stored : (transfers.find? session.id).map (fun row => row.session.generation) =
      some row.session.generation := by
    rw [same, found]
    rfl
  simp only [saveTransfer, require_true _ next, require_true _ stored]
  rfl

theorem overlapping_empty {chunks : Table ChunkRow.key} {id : String} {low high : Nat} :
    overlapping chunks id low high = [] ↔ ∀ row ∈ chunks.rows, row.transferId = id →
      high ≤ row.offset ∨ row.offset + row.length ≤ low := by
  simp only [overlapping, List.filter_eq_nil_iff, decide_eq_true_eq, not_and]
  constructor
  · intro none row member same
    have := none row member same
    omega
  · intro apart row member same
    have := apart row member same
    omega

theorem contiguous_ok {rows : List ChunkRow} {low high : Nat} :
    contiguous low rows = .ok high ↔ Tiles low (rows.map ChunkRow.range) high := by
  induction rows generalizing low with
  | nil => simp [contiguous, Tiles]
  | cons row rest ih =>
      simp [contiguous, Program.except_bind_ok, Tiles, ChunkRow.range, ih]

theorem mem_chunksOf {chunks : Table ChunkRow.key} {id : String} {row : ChunkRow} :
    row ∈ chunksOf chunks id ↔ row ∈ chunks.rows ∧ row.transferId = id := by
  rw [chunksOf, (List.mergeSort_perm _ _).mem_iff, List.mem_filter, decide_eq_true_eq]

/-- Chunks that are pairwise apart stand in ascending order once they are sorted. -/
theorem chunksOf_ascending {chunks : Table ChunkRow.key} {id : String}
    (filled : ∀ row ∈ chunks.rows, row.transferId = id → 0 < row.length)
    (apart : ∀ left ∈ chunks.rows, ∀ right ∈ chunks.rows, left.transferId = id →
      right.transferId = id → left ≠ right →
      left.range.2 ≤ right.range.1 ∨ right.range.2 ≤ left.range.1) :
    Ascending ((chunksOf chunks id).map ChunkRow.range) := by
  have sorted : (chunksOf chunks id).Pairwise fun left right => left.offset ≤ right.offset := by
    have ordered : (chunksOf chunks id).Pairwise fun left right =>
        decide (left.offset ≤ right.offset) = true :=
      List.pairwise_mergeSort (by simp; omega) (by simp; omega) _
    simpa using ordered
  have distinct : (chunksOf chunks id).Nodup :=
    ((List.mergeSort_perm _ _).nodup_iff).mpr (chunks.unique.of_map.filter _)
  refine List.pairwise_map.mpr ((sorted.and distinct).imp_of_mem ?_)
  rintro left right inLeft inRight ⟨order, different⟩
  obtain ⟨leftStored, leftOf⟩ := mem_chunksOf.mp inLeft
  obtain ⟨rightStored, rightOf⟩ := mem_chunksOf.mp inRight
  have proper := filled right rightStored rightOf
  rcases apart left leftStored right rightStored leftOf rightOf different with before | after
  · exact before
  · simp only [ChunkRow.range] at after ⊢
    omega

/-! The moves -/

/-- The content store after writes, whatever became of the calls that made them. -/
structure Grown (hash : Hash) (old new : Store) : Prop where
  sound : Sound hash old → Sound hash new
  keeps : ∀ data, Keeps hash old data → Keeps hash new data
  distinct : Distinct hash new.seen → Distinct hash old.seen

theorem Grown.refl (store : Store) : Grown hash store store :=
  ⟨id, fun _ => id, id⟩

theorem put_grown {old new : Store} {data : Bytes} {mediaType expected : String}
    {blob : BlobRef} (done : Contents.put hash old data mediaType expected = .ok (blob, new)) :
    Grown hash old new :=
  ⟨fun sound => put_sound sound done, fun _ kept => kept.put done, put_distinct done⟩

def octets (hash : Hash) (data : Bytes) : BlobRef :=
  { digest := hash.digest data, size := data.length, mediaType := "application/octet-stream" }

def chunkRow (hash : Hash) (id : String) (offset : Nat) (data : Bytes) : ChunkRow :=
  { transferId := id, offset, length := data.length
    body := { transferId := id, offset, content := octets hash data } }

/-- A chunk that may be stored now. -/
structure Storable (state : State) (row : TransferRow) (offset : Nat) (data : Bytes) :
    Prop where
  found : state.transfers.find? row.session.id = some row
  upload : row.session.direction = .upload
  isOpen : row.session.state = .open'
  filled : data ≠ []
  small : data.length ≤ row.partBytes
  bounded : offset + data.length < 2 ^ 63
  inside : ∀ size ∈ row.session.expectedSize, offset + data.length ≤ size
  free : ∀ chunk ∈ state.chunks.rows, chunk.transferId = row.session.id →
    offset + data.length ≤ chunk.offset ∨ chunk.offset + chunk.length ≤ offset

inductive Move (hash : Hash) (state : State) : State → Prop
  | written {contents : Store} : Grown hash state.contents contents →
      Move hash state { state with contents }
  | opened {row : TransferRow} {transfers : Table TransferRow.key} :
      state.transfers.insert row = some transfers → row.session.state = .open' →
      Move hash state { state with transfers }
  | cancelled {row : TransferRow} :
      state.transfers.find? row.session.id = some row → row.session.state = .open' →
      Move hash state { state with
        transfers := state.transfers.modify row.session.id fun stored =>
          { stored with session := { row.session with
              state := .cancelled, generation := row.session.generation + 1 } } }
  | received {row : TransferRow} {offset : Nat} {data : Bytes} {contents : Store}
      {chunks : Table ChunkRow.key} :
      Storable state row offset data → Grown hash state.contents contents →
      Keeps hash contents data →
      state.chunks.insert (chunkRow hash row.session.id offset data) = some chunks →
      Move hash state { state with
        chunks, contents
        transfers := state.transfers.modify row.session.id fun stored =>
          { stored with session := { row.session with
              generation := row.session.generation + 1 } }
        received := (row.session.id, offset, data) :: state.received }
  | released {row : TransferRow} {size : Nat} {digest : String} {output : ResourceRef} :
      state.transfers.find? row.session.id = some row → row.session.state = .open' →
      row.session.direction = .download →
      Move hash state { state with
        transfers := state.transfers.modify row.session.id fun stored =>
          { stored with session := sealedSession row.session size digest output } }
  | published {row : TransferRow} {data : Bytes} {contents : Store} {output : ResourceRef} :
      state.transfers.find? row.session.id = some row → row.session.state = .open' →
      row.session.direction = .upload →
      (∀ size ∈ row.session.expectedSize, data.length = size) →
      Grown hash state.contents contents → Keeps hash contents data →
      contiguous 0 (chunksOf state.chunks row.session.id) = .ok data.length →
      pieces state.contents (chunksOf state.chunks row.session.id) = .ok data →
      Move hash state { state with
        contents
        transfers := state.transfers.modify row.session.id fun stored =>
          { stored with
            session := sealedSession row.session data.length (hash.digest data) output }
        published := (output,
          { digest := hash.digest data, size := data.length, mediaType := row.mediaType }) ::
            state.published }
  | expired (now : Nat) : Move hash state (expire now state)

theorem read_length {store : Store} {blob : BlobRef} {data : Bytes}
    (done : Contents.read store blob = .ok data) : data.length = blob.size := by
  simp only [Contents.read, Program.except_bind_ok, requireRow_ok, require_ok,
    exists_const] at done
  obtain ⟨entry, -, -, done⟩ := done
  cases entry with
  | git object size =>
      simp only [Program.except_bind_ok, require_ok, exists_const, Program.except_pure,
        Except.ok.injEq] at done
      exact done.2 ▸ done.1
  | binary size =>
      simp only [Program.except_bind_ok, requireRow_ok, require_ok, exists_const,
        Program.except_pure, Except.ok.injEq] at done
      obtain ⟨file, -, long, rfl⟩ := done
      exact List.length_take_of_le long

/-- Chunks that follow each other hold as many bytes as they span. -/
theorem pieces_length {store : Store} {rows : List ChunkRow} {low high : Nat} {data : Bytes}
    (follow : contiguous low rows = .ok high)
    (sized : ∀ row ∈ rows, row.body.content.size = row.length)
    (read : pieces store rows = .ok data) : low + data.length = high := by
  induction rows generalizing low data with
  | nil =>
      simp only [contiguous, pieces, Except.ok.injEq] at follow read
      subst read follow
      rfl
  | cons row rest ih =>
      simp only [contiguous, Program.except_bind_ok, require_ok, exists_const] at follow
      simp only [pieces, Program.except_bind_ok, Program.except_pure, Except.ok.injEq] at read
      obtain ⟨first, readFirst, more, readMore, rfl⟩ := read
      have length := read_length readFirst
      rw [sized row (List.mem_cons_self ..)] at length
      have later := ih follow.2 (fun other member =>
        sized other (List.mem_cons_of_mem _ member)) readMore
      rw [List.length_append]
      omega

/-! Which move a call makes -/

section Calls

variable {env : Environment} {state : State} {id : String}

/-- What `put` has checked before it decides whether the chunk is there already. -/
structure PutChecked (hash : Hash) (env : Environment) (state : State) (id : String)
    (offset : Nat) (data : Bytes) (digest : String) (row : TransferRow) : Prop where
  digest : hash.digest data = digest
  filled : data ≠ []
  continuing : continuing env state id false = .ok row
  upload : row.session.direction = .upload
  small : data.length ≤ row.partBytes
  bounded : offset + data.length < 2 ^ 63
  inside : ∀ size ∈ row.session.expectedSize, offset + data.length ≤ size

variable {offset : Nat} {data : Bytes} {digest : String} {row : TransferRow}

theorem putAdmitted_new
    (admitted : putAdmitted hash env state id offset data digest = .ok (row, none)) :
    PutChecked hash env state id offset data digest row ∧
      overlapping state.chunks id offset (offset + data.length) = [] ∧
      row.session.state = .open' := by
  simp only [putAdmitted, Program.except_bind_ok, require_ok, exists_const] at admitted
  obtain ⟨-, -, filled, same, found, goes, upload, small, bounded, inside, rest⟩ := admitted
  split at rest
  · simp only [Program.except_bind_ok, require_ok, exists_const, Program.except_pure,
      Except.ok.injEq, Prod.mk.injEq, and_true] at rest
    obtain ⟨isOpen, -, rfl⟩ := rest
    exact ⟨⟨same, filled, goes, upload, small, bounded, inside⟩, ‹_›, isOpen⟩
  · simp [Program.except_bind_ok] at rest

theorem put_move : (put hash env state id offset data digest).2 = state ∨
    Move hash state (put hash env state id offset data digest).2 := by
  rw [put]
  split
  · exact .inl rfl
  · exact .inl rfl
  · rename_i row admitted
    obtain ⟨checked, none, isOpen⟩ := putAdmitted_new admitted
    have named := continuing_id checked.continuing
    have storable : Storable state row offset data :=
      { found := by rw [named]; exact (continuing_ok.mp checked.continuing).1
        upload := checked.upload
        isOpen
        filled := checked.filled
        small := checked.small
        bounded := checked.bounded
        inside := checked.inside
        free := fun chunk member same =>
          overlapping_empty.mp none chunk member (same.trans named) }
    split
    · exact .inl rfl
    · rename_i blob contents stored
      cases writes : env.written with
      | error failure => simp [writes, Except.bind] at stored
      | ok done =>
          simp only [writes, Except.bind] at stored
          obtain ⟨-, rfl, -⟩ := put_ok stored
          right
          simp only
          split
          · exact Move.written (put_grown stored)
          · rename_i chunks transfers rows
            have size : (octets hash data).size = data.length := rfl
            simp only [putRows, putChunk, Program.except_bind_ok, none, Program.except_pure,
              Except.ok.injEq, Prod.mk.injEq, insertRow_ok] at rows
            obtain ⟨-, -, inserted, fresh, saved, kept, rfl, rfl⟩ := rows
            rw [saveTransfer_ok kept]
            subst named
            exact Move.received storable (put_grown stored) (put_keeps stored) fresh

theorem assembled_ok {finalSize : Nat} {finalDigest : String} {blob : BlobRef}
    {contents : Store}
    (done : assembled hash env state row finalSize finalDigest = .ok (blob, contents)) :
    ∃ data, contiguous 0 (chunksOf state.chunks row.session.id) = .ok finalSize ∧
      pieces state.contents (chunksOf state.chunks row.session.id) = .ok data ∧
      env.written = .ok () ∧
      Contents.put hash state.contents data row.mediaType finalDigest = .ok (blob, contents) := by
  simp only [assembled, Program.except_bind_ok, require_ok, exists_const] at done
  obtain ⟨position, follow, rfl, data, read, ⟨⟩, writes, stored⟩ := done
  exact ⟨data, follow, read, writes, stored⟩

theorem sealAdmitted_new {finalSize : Nat} {finalDigest : String}
    (admitted : sealAdmitted env state id finalSize finalDigest = .ok (row, false)) :
    continuing env state id false = .ok row ∧
      (∀ size ∈ row.session.expectedSize, finalSize = size) ∧
      (∀ digest ∈ row.session.expectedDigest, finalDigest = digest) ∧
      row.session.state = .open' := by
  simp only [sealAdmitted, Program.except_bind_ok, require_ok, exists_const] at admitted
  obtain ⟨-, -, found, goes, sizes, digests, rest⟩ := admitted
  split at rest
  · simp [Program.except_bind_ok] at rest
  · simp only [Program.except_bind_ok, require_ok, exists_const, Program.except_pure,
      Except.ok.injEq, Prod.mk.injEq, and_true] at rest
    obtain ⟨isOpen, rfl⟩ := rest
    exact ⟨goes, sizes, digests, isOpen⟩

theorem seal_move {finalSize : Nat} {finalDigest : String} :
    (seal' hash env state id finalSize finalDigest).2 = state ∨
      Move hash state (seal' hash env state id finalSize finalDigest).2 := by
  rw [seal']
  split
  · exact .inl rfl
  · exact .inl rfl
  · rename_i row admitted
    obtain ⟨goes, sizes, -, isOpen⟩ := sealAdmitted_new admitted
    have found : state.transfers.find? row.session.id = some row := by
      rw [continuing_id goes]
      exact (continuing_ok.mp goes).1
    split
    · rename_i download
      rw [sealDownload]
      split
      · exact .inl rfl
      · rename_i transfers saved
        rw [saveTransfer_ok saved]
        exact .inr (Move.released found isOpen download)
    · rename_i upload
      rw [sealUpload]
      split
      · exact .inl rfl
      · rename_i blob contents done
        obtain ⟨data, follow, read, -, stored⟩ := assembled_ok done
        obtain ⟨expects, rfl, -⟩ := put_ok stored
        right
        split
        · exact Move.written (put_grown stored)
        · rename_i output transfers saved
          simp only [publishing, Program.except_bind_ok, require_ok, exists_const,
            Program.except_pure, Except.ok.injEq, Prod.mk.injEq] at saved
          obtain ⟨rfl, -, -, published, -, rows, kept, rfl, rfl⟩ := saved
          rw [saveTransfer_ok kept, expects]
          exact Move.published found isOpen upload sizes (put_grown stored) (put_keeps stored)
            follow read

theorem open_move {ttl : Nat} {opening : Opening} {next : State}
    (done : open' ttl env state opening = .ok next) : Move hash state next := by
  simp only [open', Program.except_bind_ok, requireRow_ok, require_ok, exists_const,
    insertRow_ok, Program.except_pure, Except.ok.injEq] at done
  obtain ⟨subject, -, -, -, -, -, -, -, target, -, -, -, transfers, inserted, rfl⟩ := done
  refine Move.opened inserted ?_
  unfold openedRow
  split <;> rfl

theorem cancel_move {next : State} (done : cancel env state id = .ok next) :
    next = state ∨ Move hash state next := by
  simp only [cancel, Program.except_bind_ok] at done
  obtain ⟨row, goes, done⟩ := done
  have found : state.transfers.find? row.session.id = some row := by
    rw [continuing_id goes]
    exact (continuing_ok.mp goes).1
  split at done
  · exact .inl (Except.ok.inj done).symm
  · simp only [Program.except_bind_ok, require_ok, exists_const, Program.except_pure,
      Except.ok.injEq] at done
    obtain ⟨isOpen, transfers, saved, rfl⟩ := done
    rw [saveTransfer_ok saved]
    exact .inr (Move.cancelled found isOpen)

end Calls

theorem step_move (ttl : Nat) (next : Step) (state : State) :
    step hash ttl next state = state ∨ Move hash state (step hash ttl next state) := by
  cases next with
  | open' env opening =>
      simp only [step]
      cases done : open' ttl env state opening with
      | ok next => exact .inr (open_move done)
      | error failure => exact .inl rfl
  | put env id offset data digest => exact put_move
  | seal' env id finalSize finalDigest => exact seal_move
  | cancel env id =>
      simp only [step]
      cases done : cancel env state id with
      | ok next => exact cancel_move done
      | error failure => exact .inl rfl
  | expire now => exact .inr (Move.expired now)

end MsgServer.Transfers
