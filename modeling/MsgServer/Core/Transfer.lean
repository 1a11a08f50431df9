import MsgServer.Core.Contents
import MsgServer.Library.Ranges
import MsgServer.Library.Run

/-!
Byte-range transfers: `open`, `put`, `seal`, `cancel` and `status` of core/transfer.py, the
chunk statements of storage/session.py, and the expiry of workers/maintenance.py. A
database transaction that fails leaves the tables alone; bytes that were already handed to
the content store stay there. `_access`, the target of `open`, the publication and the
disk are answered by the environment of a call. Downloads by `get`, pins and the cleanup
marks are left out.
-/

namespace MsgServer.Transfers

open Library Library.Ranges Contents

inductive Direction where
  | upload | download
  deriving DecidableEq

inductive Phase where
  | open' | sealed | cancelled | expired
  deriving DecidableEq

structure TransferSession where
  id : String
  subjectId : String
  direction : Direction
  state : Phase
  target : ResourceRef
  expectedSize : Option Nat
  expectedDigest : Option String
  expiresAt : Nat
  generation : Nat
  output : Option ResourceRef := none
  deriving DecidableEq

/-- A row of `transfers`: the session, and of its limits those that are read again. -/
structure TransferRow where
  session : TransferSession
  partBytes : Nat
  mediaType : String
  deriving DecidableEq

structure TransferChunk where
  transferId : String
  offset : Nat
  content : BlobRef
  deriving DecidableEq

structure ChunkRow where
  transferId : String
  offset : Nat
  length : Nat
  body : TransferChunk
  deriving DecidableEq

def TransferRow.key (row : TransferRow) : String := row.session.id

def ChunkRow.key (row : ChunkRow) : String × Nat := (row.transferId, row.offset)

def ChunkRow.range (row : ChunkRow) : Range := (row.offset, row.offset + row.length)

/-- An observer notes the bytes with which each chunk that is held first arrived, and what
was handed over for publication. -/
structure State where
  transfers : Table TransferRow.key
  chunks : Table ChunkRow.key
  contents : Store
  received : List (String × Nat × Bytes)
  published : List (ResourceRef × BlobRef)

def start : State where
  transfers := Table.empty
  chunks := Table.empty
  contents := Store.empty
  received := []
  published := []

/-- What a call finds outside the tables: its principal, the clock, the answers of the
authorizer, of the disk and of the publication. -/
structure Environment where
  now : Nat
  subject : Option String
  access : Except Failure Unit
  written : Except Failure Unit
  pinned : Except Failure Unit
  publish : BlobRef → Except Failure ResourceRef

def maxTransfers : Nat := 4096

def maxStagedChunkBytes : Nat := 4 * 1024 * 1024 * 1024

def staged (state : State) : Nat := (state.chunks.rows.map ChunkRow.length).sum

/-- `_session`. -/
def continuing (env : Environment) (state : State) (id : String) (allowCancelled : Bool) :
    Except Failure TransferRow := do
  let row ← requireRow (state.transfers.find? id) "transfer_not_found"
  require (env.subject = some row.session.subjectId) "transfer_owner_required"
  require (env.now < row.session.expiresAt) "transfer_expired"
  require (allowCancelled ∨ (row.session.state ≠ .cancelled ∧ row.session.state ≠ .expired))
    "transfer_closed"
  env.access
  return row

def saveTransfer (transfers : Table TransferRow.key) (session : TransferSession)
    (expectedGeneration : Nat) : Except Failure (Table TransferRow.key) := do
  require (session.generation = expectedGeneration + 1) "invalid_generation"
  require ((transfers.find? session.id).map (fun row => row.session.generation) =
    some expectedGeneration) "generation_conflict"
  return transfers.modify session.id fun row => { row with session }

/-- What a caller asks `open` for, with the target and for a download the content that
the environment resolved. -/
structure Opening where
  id : String
  direction : Direction
  size : Option Nat
  digest : Option String
  expiresAt : Nat
  mediaType : String
  partBytes : Nat
  target : Except Failure ResourceRef
  content : Option BlobRef
  deriving DecidableEq

def mediaTypeAllowed (mediaType : String) : Bool :=
  0 < mediaType.length && mediaType.length ≤ 255 && !mediaType.toList.contains '\r' &&
    !mediaType.toList.contains '\n'

/-- The row that `open` inserts. A download takes its size, digest and media type from the
revision. -/
def openedRow (subject : String) (target : ResourceRef) (opening : Opening) : TransferRow :=
  let session : TransferSession :=
    { id := opening.id, subjectId := subject, direction := opening.direction, state := .open'
      target, expectedSize := opening.size, expectedDigest := opening.digest
      expiresAt := opening.expiresAt, generation := 0 }
  match opening.direction, opening.content with
  | .download, some content =>
      { session := { session with
          expectedSize := some content.size, expectedDigest := some content.digest }
        partBytes := opening.partBytes, mediaType := content.mediaType }
  | _, _ => { session, partBytes := opening.partBytes, mediaType := opening.mediaType }

def open' (ttl : Nat) (env : Environment) (state : State) (opening : Opening) :
    Except Failure State := do
  let subject ← requireRow env.subject "authentication_required"
  require (env.now < opening.expiresAt ∧ opening.expiresAt ≤ env.now + ttl)
    "invalid_transfer_expiry"
  require (∀ size ∈ opening.size, size < 2 ^ 63) "invalid_size"
  require (∀ digest ∈ opening.digest, isDigest digest) "invalid_digest"
  require (mediaTypeAllowed opening.mediaType) "invalid_media_type"
  require (state.transfers.rows.length < maxTransfers) "storage_capacity_exceeded"
  require (staged state ≤ maxStagedChunkBytes) "storage_capacity_exceeded"
  let target ← opening.target
  env.access
  let transfers ← insertRow state.transfers (openedRow subject target opening)
  return { state with transfers }

/-- The rows of a transfer that meet a range. -/
def overlapping (chunks : Table ChunkRow.key) (id : String) (start stop : Nat) :
    List ChunkRow :=
  chunks.rows.filter fun row =>
    row.transferId = id ∧ row.offset < stop ∧ start < row.offset + row.length

variable (hash : Hash)

/-- The checks of `put` before it writes; the chunk is there already where a row of the
same range and digest is. -/
def putAdmitted (env : Environment) (state : State) (id : String) (offset : Nat)
    (data : Bytes) (digest : String) : Except Failure (TransferRow × Option TransferChunk) := do
  require (isDigest digest) "invalid_digest"
  require (offset < 2 ^ 63) "invalid_offset"
  require (data ≠ []) "empty_chunk"
  require (hash.digest data = digest) "chunk_digest_mismatch"
  let row ← continuing env state id false
  require (row.session.direction = .upload) "wrong_transfer_direction"
  require (data.length ≤ row.partBytes) "part_too_large"
  require (offset + data.length < 2 ^ 63) "invalid_offset"
  require (∀ size ∈ row.session.expectedSize, offset + data.length ≤ size)
    "part_out_of_bounds"
  match overlapping state.chunks id offset (offset + data.length) with
  | [] => do
      require (row.session.state = .open') "transfer_closed"
      require (staged state + data.length ≤ maxStagedChunkBytes) "storage_capacity_exceeded"
      return (row, none)
  | first :: more => do
      require (more = [] ∧ first.offset = offset ∧ first.length = data.length ∧
        first.body.content.digest = digest) "chunk_conflict"
      return (row, some first.body)

/-- `put_chunk` of storage/session.py, which looks for an overlap again. -/
def putChunk (chunks : Table ChunkRow.key) (chunk : TransferChunk) :
    Except Failure (Table ChunkRow.key) :=
  match overlapping chunks chunk.transferId chunk.offset
      (chunk.offset + chunk.content.size) with
  | [] => insertRow chunks
      { transferId := chunk.transferId, offset := chunk.offset
        length := chunk.content.size, body := chunk }
  | first :: more => do
      require (more = [] ∧ first.offset = chunk.offset ∧ first.length = chunk.content.size ∧
        first.body.content = chunk.content) "chunk_conflict"
      return chunks

/-- The rows that `put` writes once the bytes are stored. -/
def putRows (env : Environment) (state : State) (session : TransferSession)
    (chunk : TransferChunk) :
    Except Failure (Table ChunkRow.key × Table TransferRow.key) := do
  env.pinned
  let chunks ← putChunk state.chunks chunk
  let transfers ← saveTransfer state.transfers
    { session with generation := session.generation + 1 } session.generation
  return (chunks, transfers)

def put (env : Environment) (state : State) (id : String) (offset : Nat) (data : Bytes)
    (digest : String) : Except Failure TransferChunk × State :=
  match putAdmitted hash env state id offset data digest with
  | .error failure => (.error failure, state)
  | .ok (_, some chunk) => (.ok chunk, state)
  | .ok (row, none) =>
      match env.written.bind fun _ =>
        Contents.put hash state.contents data "application/octet-stream" digest with
      | .error failure => (.error failure, state)
      | .ok (blob, contents) =>
          let chunk : TransferChunk := { transferId := id, offset, content := blob }
          match putRows env state row.session chunk with
          | .error failure => (.error failure, { state with contents })
          | .ok (chunks, transfers) =>
              (.ok chunk,
                { state with
                  chunks, transfers, contents
                  received := (id, offset, data) :: state.received })

/-- `SELECT … FROM chunks WHERE transfer_id=? ORDER BY offset`. -/
def chunksOf (chunks : Table ChunkRow.key) (id : String) : List ChunkRow :=
  (chunks.rows.filter fun row => row.transferId = id).mergeSort fun left right =>
    left.offset ≤ right.offset

/-- The checks of `seal` before it assembles anything, and whether it was sealed before. -/
def sealAdmitted (env : Environment) (state : State) (id : String) (finalSize : Nat)
    (finalDigest : String) : Except Failure (TransferRow × Bool) := do
  require (isDigest finalDigest) "invalid_digest"
  require (finalSize < 2 ^ 63) "invalid_size"
  let row ← continuing env state id false
  require (∀ size ∈ row.session.expectedSize, finalSize = size) "final_size_mismatch"
  require (∀ digest ∈ row.session.expectedDigest, finalDigest = digest)
    "final_digest_mismatch"
  if row.session.state = .sealed then do
    require (row.session.expectedSize = some finalSize ∧
      row.session.expectedDigest = some finalDigest) "seal_conflict"
    return (row, true)
  else do
    require (row.session.state = .open') "transfer_closed"
    return (row, false)

/-- The loop that requires each chunk to start where the one before it ends. -/
def contiguous : Nat → List ChunkRow → Except Failure Nat
  | position, [] => .ok position
  | position, row :: rest => do
      require (row.offset = position) "transfer_incomplete"
      contiguous (row.offset + row.length) rest

/-- `pieces()`: the contents of the chunks one after the other. -/
def pieces (contents : Store) : List ChunkRow → Except Failure Bytes
  | [] => .ok []
  | row :: rest => do
      let data ← Contents.read contents row.body.content
      let more ← pieces contents rest
      return data ++ more

def assembled (env : Environment) (state : State) (row : TransferRow) (finalSize : Nat)
    (finalDigest : String) : Except Failure (BlobRef × Store) := do
  let position ← contiguous 0 (chunksOf state.chunks row.session.id)
  require (position = finalSize) "transfer_incomplete"
  let data ← pieces state.contents (chunksOf state.chunks row.session.id)
  env.written
  Contents.put hash state.contents data row.mediaType finalDigest

def sealedSession (session : TransferSession) (finalSize : Nat) (finalDigest : String)
    (output : ResourceRef) : TransferSession :=
  { session with
    state := .sealed, expectedSize := some finalSize, expectedDigest := some finalDigest
    output := some output, generation := session.generation + 1 }

/-- What `seal` publishes and saves once the bytes are assembled. -/
def publishing (env : Environment) (state : State) (session : TransferSession)
    (finalSize : Nat) (finalDigest : String) (blob : BlobRef) :
    Except Failure (ResourceRef × Table TransferRow.key) := do
  require (blob.size = finalSize) "final_size_mismatch"
  env.pinned
  let output ← env.publish blob
  let transfers ← saveTransfer state.transfers
    (sealedSession session finalSize finalDigest output) session.generation
  return (output, transfers)

/-- A download is sealed without a word about its bytes. -/
def sealDownload (state : State) (session : TransferSession) (finalSize : Nat)
    (finalDigest : String) : Except Failure (Option ResourceRef) × State :=
  match saveTransfer state.transfers
      (sealedSession session finalSize finalDigest session.target) session.generation with
  | .error failure => (.error failure, state)
  | .ok transfers => (.ok (some session.target), { state with transfers })

def sealUpload (env : Environment) (state : State) (row : TransferRow) (finalSize : Nat)
    (finalDigest : String) : Except Failure (Option ResourceRef) × State :=
  match assembled hash env state row finalSize finalDigest with
  | .error failure => (.error failure, state)
  | .ok (blob, contents) =>
      match publishing env state row.session finalSize finalDigest blob with
      | .error failure => (.error failure, { state with contents })
      | .ok (output, transfers) =>
          (.ok (some output),
            { state with
              transfers, contents, published := (output, blob) :: state.published })

def seal' (env : Environment) (state : State) (id : String) (finalSize : Nat)
    (finalDigest : String) : Except Failure (Option ResourceRef) × State :=
  match sealAdmitted env state id finalSize finalDigest with
  | .error failure => (.error failure, state)
  | .ok (row, true) => (.ok row.session.output, state)
  | .ok (row, false) =>
      match row.session.direction with
      | .download => sealDownload state row.session finalSize finalDigest
      | .upload => sealUpload hash env state row finalSize finalDigest

def cancel (env : Environment) (state : State) (id : String) : Except Failure State := do
  let row ← continuing env state id true
  if row.session.state = .cancelled then return state
  else do
    require (row.session.state = .open') "transfer_closed"
    let transfers ← saveTransfer state.transfers
      { row.session with state := .cancelled, generation := row.session.generation + 1 }
      row.session.generation
    return { state with transfers }

def outlived (now : Nat) (row : TransferRow) : Prop :=
  row.session.expiresAt ≤ now ∧ row.session.state ≠ .expired

instance (now : Nat) (row : TransferRow) : Decidable (outlived now row) := by
  unfold outlived
  infer_instance

def expireRow (now : Nat) (row : TransferRow) : TransferRow :=
  if outlived now row then
    { row with
      session := { row.session with
        state := .expired, generation := row.session.generation + 1 } }
  else row

/-- The transfers whose chunks the maintenance deletes. -/
def outlivedIds (now : Nat) (state : State) : List String :=
  (state.transfers.rows.filter fun row => outlived now row).map TransferRow.key

/-- The expiry of the transfers that are over. -/
def expire (now : Nat) (state : State) : State :=
  { state with
    transfers := state.transfers.rewrite (expireRow now)
    chunks := state.chunks.keep fun row => row.transferId ∉ outlivedIds now state
    received := state.received.filter fun entry => entry.1 ∉ outlivedIds now state }

inductive Step where
  | open' (env : Environment) (opening : Opening)
  | put (env : Environment) (id : String) (offset : Nat) (data : Bytes) (digest : String)
  | seal' (env : Environment) (id : String) (finalSize : Nat) (finalDigest : String)
  | cancel (env : Environment) (id : String)
  | expire (now : Nat)

/-- A transaction that fails leaves the state as it was. -/
def orUnchanged (state : State) : Except Failure State → State
  | .ok next => next
  | .error _ => state

def step (ttl : Nat) : Step → State → State
  | .open' env opening, state => orUnchanged state (open' ttl env state opening)
  | .put env id offset data digest, state => (put hash env state id offset data digest).2
  | .seal' env id finalSize finalDigest, state =>
      (seal' hash env state id finalSize finalDigest).2
  | .cancel env id, state => orUnchanged state (cancel env state id)
  | .expire now, state => expire now state

/-! Pages of missing ranges -/

structure Page where
  items : List Range
  nextCursor : Option String
  deriving DecidableEq

def decimal (number : Nat) : String := String.ofList (Nat.toDigits 10 number)

/-- `re.fullmatch(r'[0-9]{1,19}', cursor)` and `int(cursor)`. -/
def cursorOffset (cursor : String) : Except Failure Nat := do
  require (0 < cursor.toList.length ∧ cursor.toList.length ≤ 19 ∧
    cursor.toList.all Char.isDigit) "invalid_cursor"
  return Nat.ofDigitChars 10 cursor.toList 0

/-- The page that the first gaps fill, with the start of the next gap as its cursor. -/
def pageOf (limit : Nat) (gaps : List Range) : Page :=
  { items := gaps.take limit
    nextCursor := (gaps[limit]?).map fun gap => decimal gap.1 }

/-- The loop of `missing_ranges` over the rows, and what follows it. -/
def gather (limit size : Nat) : List ChunkRow → Nat → List Range → Page
  | [], position, gaps =>
      pageOf limit (if position < size then gaps ++ [(position, size)] else gaps)
  | row :: rest, position, gaps =>
      if position < row.offset then
        let gaps := gaps ++ [(position, row.offset)]
        if limit < gaps.length then pageOf limit gaps
        else gather limit size rest (max position (row.offset + row.length)) gaps
      else gather limit size rest (max position (row.offset + row.length)) gaps

def missingRanges (state : State) (id : String) (cursor : Option Nat) (limit : Nat) :
    Except Failure Page := do
  let row ← requireRow (state.transfers.find? id) "transfer_not_found"
  let size ← requireRow row.session.expectedSize "size_required"
  require (1 ≤ limit ∧ limit ≤ 500) "invalid_limit"
  let position := cursor.getD 0
  require (position ≤ size) "invalid_cursor"
  return gather limit size
    ((chunksOf state.chunks id).filter fun row => position < row.offset + row.length)
    position []

/-- The check of a continuation before either projection uses it. -/
def cursorPosition (session : TransferSession) : Option String → Except Failure (Option Nat)
  | none => .ok none
  | some cursor => do
      let offset ← cursorOffset cursor
      require (offset < 2 ^ 63 ∧ ∀ size ∈ session.expectedSize, offset ≤ size) "invalid_cursor"
      return some offset

def status (env : Environment) (state : State) (id : String) (cursor : Option String)
    (limit : Nat) : Except Failure Page := do
  let row ← continuing env state id true
  require (1 ≤ limit ∧ limit ≤ 500) "invalid_limit"
  let offset ← cursorPosition row.session cursor
  if row.session.direction = .download ∨ row.session.state = .sealed then
    return { items := [], nextCursor := none }
  else if row.session.expectedSize = none then
    return { items := [], nextCursor := none }
  else missingRanges state id offset limit

end MsgServer.Transfers
