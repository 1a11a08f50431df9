import MsgServer.Core.TransferRuns

/-!
The invariant of the transfers: chunks of one transfer lie apart, inside the declared size,
and stand for bytes that arrived; a sealed upload has published its chunks in order.
-/

namespace MsgServer.Transfers

open Library Library.Run Library.Ranges Contents

variable {hash : Hash}

/-- The chunk stands for bytes that arrived and are kept. -/
structure Arrived (hash : Hash) (state : State) (chunk : ChunkRow) (data : Bytes) : Prop where
  noted : (chunk.transferId, chunk.offset, data) ∈ state.received
  kept : Keeps hash state.contents data
  shape : chunk = chunkRow hash chunk.transferId chunk.offset data

/-- A transfer to which a chunk may belong. -/
structure Holds (row : TransferRow) (chunk : ChunkRow) : Prop where
  upload : row.session.direction = .upload
  small : chunk.length ≤ row.partBytes
  inside : ∀ size ∈ row.session.expectedSize, chunk.offset + chunk.length ≤ size

/-- A sealed upload has published the bytes of its chunks, which tile its size. -/
def Published (hash : Hash) (state : State) (row : TransferRow) : Prop :=
  ∃ (data : Bytes) (output : ResourceRef) (mediaType : String),
    row.session.expectedSize = some data.length ∧
    row.session.expectedDigest = some (hash.digest data) ∧
    row.session.output = some output ∧
    (output, { digest := hash.digest data, size := data.length, mediaType }) ∈
      state.published ∧
    Keeps hash state.contents data ∧
    contiguous 0 (chunksOf state.chunks row.session.id) = .ok data.length ∧
    (Distinct hash state.contents.seen →
      pieces state.contents (chunksOf state.chunks row.session.id) = .ok data)

structure Arranged (hash : Hash) (state : State) : Prop where
  sound : Sound hash state.contents
  known : ∀ chunk ∈ state.chunks.rows, ∃ row,
    state.transfers.find? chunk.transferId = some row ∧ Holds row chunk
  filled : ∀ chunk ∈ state.chunks.rows, 0 < chunk.length
  bounded : ∀ chunk ∈ state.chunks.rows, chunk.offset + chunk.length < 2 ^ 63
  apart : ∀ left ∈ state.chunks.rows, ∀ right ∈ state.chunks.rows,
    left.transferId = right.transferId → left ≠ right →
    left.range.2 ≤ right.range.1 ∨ right.range.2 ≤ left.range.1
  arrived : ∀ chunk ∈ state.chunks.rows, ∃ data, Arrived hash state chunk data
  noted : ∀ id offset data, (id, offset, data) ∈ state.received →
    chunkRow hash id offset data ∈ state.chunks.rows ∧ Keeps hash state.contents data
  published : ∀ id row, state.transfers.find? id = some row → row.session.state = .sealed →
    row.session.direction = .upload → Published hash state row

theorem arranged_start : Arranged hash start where
  sound := sound_empty
  known := by simp [start, Table.empty]
  filled := by simp [start, Table.empty]
  bounded := by simp [start, Table.empty]
  apart := by simp [start, Table.empty]
  arrived := by simp [start, Table.empty]
  noted := by simp [start]
  published := by simp [start, Table.empty, Table.find?]

/-! The bytes behind the chunks -/

theorem read_arrived {state : State} (sound : Sound hash state.contents)
    (distinct : Distinct hash state.contents.seen) {chunk : ChunkRow} {data : Bytes}
    (arrived : Arrived hash state chunk data) :
    Contents.read state.contents chunk.body.content = .ok data := by
  rw [arrived.shape]
  exact read_kept sound arrived.kept distinct _

/-- Further writes leave the bytes of the chunks as they are. -/
theorem pieces_grown {state : State} {contents : Store} (sound : Sound hash state.contents)
    (grown : Grown hash state.contents contents) (distinct : Distinct hash contents.seen)
    {rows : List ChunkRow} (arrived : ∀ chunk ∈ rows, ∃ data, Arrived hash state chunk data) :
    pieces contents rows = pieces state.contents rows := by
  induction rows with
  | nil => rfl
  | cons chunk rest ih =>
      obtain ⟨data, here⟩ := arrived chunk (List.mem_cons_self ..)
      have before := read_arrived sound (grown.distinct distinct) here
      have after : Contents.read contents chunk.body.content = .ok data := by
        rw [here.shape]
        exact read_kept (grown.sound sound) (grown.keeps data here.kept) distinct _
      rw [pieces, pieces, before, after,
        ih fun other member => arrived other (List.mem_cons_of_mem _ member)]

theorem Arrived.grown {state : State} {contents : Store}
    (grown : Grown hash state.contents contents) {chunk : ChunkRow} {data : Bytes}
    (arrived : Arrived hash state chunk data) :
    Arrived hash { state with contents } chunk data :=
  ⟨arrived.noted, grown.keeps data arrived.kept, arrived.shape⟩

/-! Tables after a move -/

/-- The table after one session was saved. -/
theorem find?_saved {transfers : Table TransferRow.key} {row : TransferRow}
    {session : TransferSession} (found : transfers.find? row.session.id = some row)
    (same : session.id = row.session.id) (id : String) :
    (transfers.modify row.session.id fun stored => { stored with session }).find? id =
      if id = row.session.id then some { row with session } else transfers.find? id := by
  rw [Table.find?_modify]
  split
  · subst id
    have key : TransferRow.key { row with session } = TransferRow.key row := same
    rw [found, Option.map_some, Table.rekeyed_of_key key]
  · rfl

theorem chunksOf_insert {chunks next : Table ChunkRow.key} {chunk : ChunkRow} {id : String}
    (inserted : chunks.insert chunk = some next) (other : chunk.transferId ≠ id) :
    chunksOf next id = chunksOf chunks id := by
  simp [chunksOf, Table.insert_rows inserted, List.filter_append, other]

theorem chunksOf_keep {chunks : Table ChunkRow.key} {test : ChunkRow → Bool} {id : String}
    (kept : ∀ chunk ∈ chunks.rows, chunk.transferId = id → test chunk) :
    chunksOf (chunks.keep test) id = chunksOf chunks id := by
  have same : ((chunks.rows.filter test).filter fun chunk => chunk.transferId = id) =
      chunks.rows.filter fun chunk => chunk.transferId = id := by
    rw [List.filter_filter]
    refine List.filter_congr fun chunk member => ?_
    by_cases here : chunk.transferId = id
    · simp [here, kept chunk member here]
    · simp [here]
  rw [chunksOf, chunksOf, Table.keep, same]

/-- What a move leaves of a published upload. -/
theorem Published.frame {state next : State} {row : TransferRow}
    (arranged : Arranged hash state) (published : Published hash state row)
    (grown : Grown hash state.contents next.contents)
    (listed : ∀ entry ∈ state.published, entry ∈ next.published)
    (chunks : chunksOf next.chunks row.session.id = chunksOf state.chunks row.session.id) :
    Published hash next row := by
  obtain ⟨data, output, mediaType, size, digest, saved, entry, kept, follow, read⟩ := published
  refine ⟨data, output, mediaType, size, digest, saved, listed _ entry, grown.keeps _ kept,
    chunks ▸ follow, fun distinct => ?_⟩
  rw [chunks, pieces_grown arranged.sound grown distinct
    fun chunk member => arranged.arrived chunk (mem_chunksOf.mp member).1]
  exact read (grown.distinct distinct)

/-! Every move keeps the invariant -/

section Moves

variable {state : State} (arranged : Arranged hash state)

include arranged

theorem arranged_written {contents : Store} (grown : Grown hash state.contents contents) :
    Arranged hash { state with contents } where
  sound := grown.sound arranged.sound
  known := arranged.known
  filled := arranged.filled
  bounded := arranged.bounded
  apart := arranged.apart
  arrived := by
    intro chunk member
    obtain ⟨data, arrived⟩ := arranged.arrived chunk member
    exact ⟨data, arrived.grown grown⟩
  noted := by
    intro id offset data listed
    obtain ⟨stored, kept⟩ := arranged.noted id offset data listed
    exact ⟨stored, grown.keeps data kept⟩
  published := fun id row found isSealed upload =>
    (arranged.published id row found isSealed upload).frame arranged grown (fun _ listed => listed) rfl

theorem arranged_opened {row : TransferRow} {transfers : Table TransferRow.key}
    (inserted : state.transfers.insert row = some transfers)
    (isOpen : row.session.state = .open') : Arranged hash { state with transfers } where
  sound := arranged.sound
  known := by
    intro chunk member
    obtain ⟨found, stored, holds⟩ := arranged.known chunk member
    refine ⟨found, ?_, holds⟩
    rw [Table.find?_insert inserted, if_neg, stored]
    intro same
    have fresh := Table.insert_fresh inserted
    rw [same, stored] at fresh
    cases fresh
  filled := arranged.filled
  bounded := arranged.bounded
  apart := arranged.apart
  arrived := by
    intro chunk member
    obtain ⟨data, arrived⟩ := arranged.arrived chunk member
    exact ⟨data, arrived.noted, arrived.kept, arrived.shape⟩
  noted := arranged.noted
  published := by
    intro id other found isSealed upload
    rw [Table.find?_insert inserted] at found
    split at found
    · cases found
      rw [isOpen] at isSealed
      cases isSealed
    · exact (arranged.published id other found isSealed upload).frame arranged
        (Grown.refl _) (fun _ listed => listed) rfl

/-- A session is saved: its chunks still belong to it, and it is not a sealed upload
unless it has published. -/
theorem arranged_saved {row : TransferRow} {session : TransferSession}
    {published : List (ResourceRef × BlobRef)}
    (found : state.transfers.find? row.session.id = some row)
    (same : session.id = row.session.id)
    (holds : ∀ chunk ∈ state.chunks.rows, chunk.transferId = row.session.id →
      Holds row chunk → Holds { row with session } chunk)
    (listed : ∀ entry ∈ state.published, entry ∈ published)
    (fresh : session.state = .sealed → session.direction = .upload →
      Published hash { state with published } { row with session }) :
    Arranged hash { state with
      transfers := state.transfers.modify row.session.id fun stored => { stored with session }
      published } where
  sound := arranged.sound
  known := by
    intro chunk member
    obtain ⟨before, stored, held⟩ := arranged.known chunk member
    simp only [find?_saved found same]
    split
    · rename_i here
      rw [here, found] at stored
      cases stored
      exact ⟨_, rfl, holds chunk member here held⟩
    · exact ⟨before, stored, held⟩
  filled := arranged.filled
  bounded := arranged.bounded
  apart := arranged.apart
  arrived := by
    intro chunk member
    obtain ⟨data, arrived⟩ := arranged.arrived chunk member
    exact ⟨data, arrived.noted, arrived.kept, arrived.shape⟩
  noted := arranged.noted
  published := by
    intro id other stored isSealed upload
    rw [find?_saved found same] at stored
    split at stored
    · cases stored
      exact fresh isSealed upload
    · exact (arranged.published id other stored isSealed upload).frame arranged
        (Grown.refl _) listed rfl

/-- A chunk is stored in the gap it fits in. -/
theorem arranged_chunk {row : TransferRow} {offset : Nat} {data : Bytes}
    {chunks : Table ChunkRow.key} (storable : Storable state row offset data)
    (kept : Keeps hash state.contents data)
    (inserted : state.chunks.insert (chunkRow hash row.session.id offset data) = some chunks) :
    Arranged hash { state with
      chunks, received := (row.session.id, offset, data) :: state.received } where
  sound := arranged.sound
  known := by
    intro chunk member
    rcases (Table.mem_insert inserted chunk).mp member with old | rfl
    · exact arranged.known chunk old
    · exact ⟨row, storable.found, storable.upload, storable.small, storable.inside⟩
  filled := by
    intro chunk member
    rcases (Table.mem_insert inserted chunk).mp member with old | rfl
    · exact arranged.filled chunk old
    · exact List.length_pos_iff.mpr storable.filled
  bounded := by
    intro chunk member
    rcases (Table.mem_insert inserted chunk).mp member with old | rfl
    · exact arranged.bounded chunk old
    · exact storable.bounded
  apart := by
    intro left inLeft right inRight same different
    rcases (Table.mem_insert inserted left).mp inLeft with oldLeft | rfl
    · rcases (Table.mem_insert inserted right).mp inRight with oldRight | rfl
      · exact arranged.apart left oldLeft right oldRight same different
      · exact (storable.free left oldLeft same).symm
    · rcases (Table.mem_insert inserted right).mp inRight with oldRight | rfl
      · exact storable.free right oldRight same.symm
      · exact absurd rfl different
  arrived := by
    intro chunk member
    rcases (Table.mem_insert inserted chunk).mp member with old | rfl
    · obtain ⟨bytes, arrived⟩ := arranged.arrived chunk old
      exact ⟨bytes, List.mem_cons_of_mem _ arrived.noted, arrived.kept, arrived.shape⟩
    · exact ⟨data, List.mem_cons_self .., kept, rfl⟩
  noted := by
    intro id place bytes listed
    rcases List.mem_cons.mp listed with now | before
    · cases now
      exact ⟨(Table.mem_insert inserted _).mpr (.inr rfl), kept⟩
    · obtain ⟨stored, held⟩ := arranged.noted id place bytes before
      exact ⟨(Table.mem_insert inserted _).mpr (.inl stored), held⟩
  published := by
    intro id other found isSealed upload
    have elsewhere : (chunkRow hash row.session.id offset data).transferId ≠
        other.session.id := by
      intro same
      have named : other.key = id := Table.find?_key found
      have here : row.session.id = id := Eq.trans same named
      have stored := storable.found
      rw [here] at stored
      rw [stored] at found
      cases found
      rw [storable.isOpen] at isSealed
      cases isSealed
    exact (arranged.published id other found isSealed upload).frame arranged (Grown.refl _)
      (fun _ listed => listed) (chunksOf_insert inserted elsewhere)

theorem ascending (id : String) : Ascending ((chunksOf state.chunks id).map ChunkRow.range) :=
  chunksOf_ascending (fun chunk member _ => arranged.filled chunk member)
    fun left inLeft right inRight leftOf rightOf =>
      arranged.apart left inLeft right inRight (leftOf.trans rightOf.symm)

theorem sized {id : String} {chunk : ChunkRow} (member : chunk ∈ chunksOf state.chunks id) :
    chunk.body.content.size = chunk.length := by
  obtain ⟨data, arrived⟩ := arranged.arrived chunk (mem_chunksOf.mp member).1
  rw [arrived.shape]
  rfl

theorem range_filled {id : String} {range : Range}
    (member : range ∈ (chunksOf state.chunks id).map ChunkRow.range) : range.1 < range.2 := by
  obtain ⟨chunk, listed, rfl⟩ := List.mem_map.mp member
  have := arranged.filled chunk (mem_chunksOf.mp listed).1
  simp only [ChunkRow.range]
  omega

theorem arranged_published {row : TransferRow} {data : Bytes} {output : ResourceRef}
    (found : state.transfers.find? row.session.id = some row)
    (kept : Keeps hash state.contents data)
    (follow : contiguous 0 (chunksOf state.chunks row.session.id) = .ok data.length)
    (read : Distinct hash state.contents.seen →
      pieces state.contents (chunksOf state.chunks row.session.id) = .ok data) :
    Arranged hash { state with
      transfers := state.transfers.modify row.session.id fun stored =>
        { stored with
          session := sealedSession row.session data.length (hash.digest data) output }
      published := (output,
        { digest := hash.digest data, size := data.length, mediaType := row.mediaType }) ::
          state.published } := by
  refine arranged_saved arranged found rfl ?_ (fun _ listed => List.mem_cons_of_mem _ listed) ?_
  · -- the chunks tile the final size, so none reaches beyond it
    intro chunk member here held
    refine ⟨held.upload, held.small, ?_⟩
    intro size declared
    obtain rfl := Option.some.inj declared
    have listed : chunk.range ∈ (chunksOf state.chunks row.session.id).map ChunkRow.range :=
      List.mem_map_of_mem (mem_chunksOf.mpr ⟨member, here⟩)
    exact (contiguous_ok.mp follow).inside (fun _ => range_filled arranged) listed
  · intro _ _
    exact ⟨data, output, row.mediaType, rfl, rfl, rfl, List.mem_cons_self .., kept, follow, read⟩

omit arranged in
theorem expireRow_key (now : Nat) (row : TransferRow) : (expireRow now row).key = row.key := by
  unfold expireRow
  split <;> rfl

omit arranged in
theorem find?_expire (now : Nat) (id : String) :
    (expire now state).transfers.find? id = (state.transfers.find? id).map (expireRow now) :=
  Table.find?_rewrite _ _ (expireRow_key now) id

omit arranged in
theorem outlived_listed {now : Nat} {id : String} {row : TransferRow}
    (found : state.transfers.find? id = some row) :
    id ∈ outlivedIds now state ↔ outlived now row := by
  have named : row.key = id := Table.find?_key found
  simp only [outlivedIds, List.mem_map, List.mem_filter, decide_eq_true_eq]
  constructor
  · rintro ⟨other, ⟨member, past⟩, same⟩
    have equal := Table.eq_of_key_eq member (Table.find?_mem found) (same.trans named.symm)
    exact equal ▸ past
  · intro past
    exact ⟨row, ⟨Table.find?_mem found, past⟩, named⟩

theorem arranged_expired (now : Nat) : Arranged hash (expire now state) := by
  have remains {chunk : ChunkRow} (member : chunk ∈ (expire now state).chunks.rows) :
      chunk ∈ state.chunks.rows ∧ chunk.transferId ∉ outlivedIds now state := by
    simpa [expire, Table.keep] using member
  refine
    { sound := arranged.sound, known := ?_, filled := ?_, bounded := ?_, apart := ?_
      arrived := ?_, noted := ?_, published := ?_ }
  · intro chunk member
    obtain ⟨before, alive⟩ := remains member
    obtain ⟨row, found, holds⟩ := arranged.known chunk before
    have same : expireRow now row = row := if_neg fun past =>
      alive ((outlived_listed found).mpr past)
    refine ⟨row, ?_, holds⟩
    rw [find?_expire, found, Option.map_some, same]
  · exact fun chunk member => arranged.filled chunk (remains member).1
  · exact fun chunk member => arranged.bounded chunk (remains member).1
  · exact fun left inLeft right inRight =>
      arranged.apart left (remains inLeft).1 right (remains inRight).1
  · intro chunk member
    obtain ⟨before, alive⟩ := remains member
    obtain ⟨data, arrived⟩ := arranged.arrived chunk before
    exact ⟨data, List.mem_filter.mpr ⟨arrived.noted, by simpa using alive⟩, arrived.kept,
      arrived.shape⟩
  · intro id offset data listed
    obtain ⟨before, alive⟩ := List.mem_filter.mp listed
    obtain ⟨stored, kept⟩ := arranged.noted id offset data before
    exact ⟨List.mem_filter.mpr ⟨stored, alive⟩, kept⟩
  · intro id row found isSealed upload
    rw [find?_expire] at found
    obtain ⟨before, stored, rfl⟩ := Option.map_eq_some_iff.mp found
    have named : before.key = id := Table.find?_key stored
    by_cases past : outlived now before
    · simp [expireRow, past] at isSealed
    · have same : expireRow now before = before := if_neg past
      rw [same] at isSealed upload ⊢
      refine (arranged.published id before stored isSealed upload).frame arranged
        (Grown.refl _) (fun _ listed => listed) (chunksOf_keep fun chunk _ here => ?_)
      have there : chunk.transferId = id := here.trans named
      have alive : id ∉ outlivedIds now state := fun listed =>
        past ((outlived_listed stored).mp listed)
      simpa [there] using alive

theorem arranged_move {next : State} (move : Move hash state next) : Arranged hash next := by
  cases move with
  | written grown => exact arranged_written arranged grown
  | opened inserted isOpen => exact arranged_opened arranged inserted isOpen
  | cancelled found isOpen =>
      exact arranged_saved arranged found rfl
        (fun _ _ _ held => ⟨held.upload, held.small, held.inside⟩) (fun _ listed => listed)
        (fun isSealed => by cases isSealed)
  | @received row offset data contents chunks storable grown kept inserted =>
      have wider := arranged_written arranged grown
      have room : Storable { state with contents } row offset data :=
        ⟨storable.found, storable.upload, storable.isOpen, storable.filled, storable.small,
          storable.bounded, storable.inside, storable.free⟩
      have stored := arranged_chunk wider room kept inserted
      refine arranged_saved stored storable.found rfl
        (fun _ _ _ held => ⟨held.upload, held.small, held.inside⟩) (fun _ listed => listed) ?_
      intro isSealed
      rw [storable.isOpen] at isSealed
      cases isSealed
  | released found isOpen download =>
      refine arranged_saved arranged found rfl ?_ (fun _ listed => listed) ?_
      · intro chunk member here held
        have upload := held.upload
        rw [download] at upload
        cases upload
      · intro _ upload
        simp only [sealedSession] at upload
        rw [download] at upload
        cases upload
  | published found isOpen upload sizes grown kept follow read =>
      have wider := arranged_written arranged grown
      refine arranged_published wider found kept follow fun distinct => ?_
      rw [← read]
      exact pieces_grown arranged.sound grown distinct
        fun chunk member => arranged.arrived chunk (mem_chunksOf.mp member).1
  | expired now => exact arranged_expired arranged now

end Moves

theorem arranged_run (ttl : Nat) (steps : List Step) :
    Arranged hash (run (step hash ttl) steps start) := by
  refine run_invariant (step hash ttl) (fun next state arranged => ?_) steps start arranged_start
  have moves : step hash ttl next state = state ∨ Move hash state (step hash ttl next state) :=
    step_move ttl next state
  rcases moves with same | move
  · rw [same]
    exact arranged
  · exact arranged_move arranged move

end MsgServer.Transfers
