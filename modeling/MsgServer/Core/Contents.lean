import MsgServer.Core.Models

/-!
The content store of storage/git.py as far as `put` and `read` go: bytes kept under their
digest, as a Git object for text and as a file for everything else. The digest function is
a parameter. Staging files, modes, pins and the division of a stream into pieces are left
out; a write that the operating system refuses is answered by the caller's environment and
leaves nothing behind.
-/

namespace MsgServer.Contents

open Library

abbrev Bytes := List UInt8

structure BlobRef where
  digest : String
  size : Nat
  mediaType : String
  deriving DecidableEq

def isLowerHex (char : Char) : Bool :=
  ('0' ≤ char && char ≤ '9') || ('a' ≤ char && char ≤ 'f')

/-- `re.fullmatch(r'sha256:[0-9a-f]{64}', value)`. -/
def isDigest (value : String) : Bool :=
  value.toList.take 7 = "sha256:".toList && (value.toList.drop 7).length = 64 &&
    (value.toList.drop 7).all isLowerHex

/-- The digest text of a byte string. -/
structure Hash where
  digest : Bytes → String
  wellFormed : ∀ data, isDigest (digest data) = true

inductive Entry where
  | git (object : Bytes) (size : Nat)
  | binary (size : Nat)
  deriving DecidableEq

def Entry.size : Entry → Nat
  | .git _ size => size
  | .binary size => size

/-- `seen` is an observer's note of the byte strings that were ever put. -/
structure Store where
  index : String → Option Entry
  files : String → Option Bytes
  seen : List Bytes

def Store.empty : Store where
  index := fun _ => none
  files := fun _ => none
  seen := []

def isText (mediaType : String) : Bool :=
  "text/".toList.isPrefixOf mediaType.toList ||
    mediaType = "application/json" || mediaType = "application/msg-template"

def Store.setEntry (store : Store) (digest : String) (entry : Entry) : Store :=
  { store with index := fun other => if other = digest then some entry else store.index other }

def Store.setFile (store : Store) (digest : String) (data : Bytes) : Store :=
  { store with files := fun other => if other = digest then some data else store.files other }

def Store.see (store : Store) (data : Bytes) : Store :=
  { store with seen := data :: store.seen }

variable (hash : Hash)

/-- `_file_matches(destination, size, hashed)`. -/
def fileMatches (present : Bytes) (size : Nat) (digest : String) : Prop :=
  present.length = size ∧ hash.digest present = digest

instance (present : Bytes) (size : Nat) (digest : String) :
    Decidable (fileMatches hash present size digest) := by
  unfold fileMatches
  infer_instance

def put (store : Store) (data : Bytes) (mediaType : String) (expectedDigest : String) :
    Except Failure (BlobRef × Store) := do
  let hashed := hash.digest data
  require (expectedDigest = hashed) "digest_mismatch"
  let ref : BlobRef := { digest := hashed, size := data.length, mediaType }
  let store := store.see data
  if isText mediaType then
    return (ref, store.setEntry hashed (.git data data.length))
  else
    match store.files hashed with
    | some present => do
        require (fileMatches hash present data.length hashed) "content_digest_mismatch"
        return (ref, store.setEntry hashed (.binary data.length))
    | none => return (ref, (store.setFile hashed data).setEntry hashed (.binary data.length))

def read (store : Store) (blob : BlobRef) : Except Failure Bytes := do
  let entry ← requireRow (store.index blob.digest) "content_missing"
  require (entry.size = blob.size) "content_size_mismatch"
  match entry with
  | .git object _ => do
      require (object.length = blob.size) "content_truncated"
      return object
  | .binary _ => do
      let file ← requireRow (store.files blob.digest) "content_missing"
      require (blob.size ≤ file.length) "content_truncated"
      return file.take blob.size

/-! What a sound store reads back -/

/-- What the index says is kept, as bytes that were once put under that digest. -/
structure Sound (store : Store) : Prop where
  entries : ∀ digest entry, store.index digest = some entry →
    ∃ data ∈ store.seen, hash.digest data = digest ∧ data.length = entry.size ∧
      match entry with
      | .git object _ => object = data
      | .binary _ => store.files digest = some data
  files : ∀ digest data, store.files digest = some data →
    data ∈ store.seen ∧ hash.digest data = digest

/-- The bytes were put and are still indexed. -/
def Keeps (store : Store) (data : Bytes) : Prop :=
  data ∈ store.seen ∧ ∃ entry, store.index (hash.digest data) = some entry

/-- No two byte strings of the list have one digest. -/
def Distinct (seen : List Bytes) : Prop :=
  ∀ left ∈ seen, ∀ right ∈ seen, hash.digest left = hash.digest right → left = right

variable {hash}

theorem sound_empty : Sound hash Store.empty where
  entries := by simp [Store.empty]
  files := by simp [Store.empty]

/-- Where no digests collide, the bytes that are kept are the bytes that are read. -/
theorem read_kept {store : Store} (sound : Sound hash store) {data : Bytes}
    (kept : Keeps hash store data) (distinct : Distinct hash store.seen) (mediaType : String) :
    read store { digest := hash.digest data, size := data.length, mediaType } = .ok data := by
  obtain ⟨seen, entry, indexed⟩ := kept
  obtain ⟨found, member, same, size, bytes⟩ := sound.entries _ _ indexed
  obtain rfl := distinct found member data seen same
  cases entry with
  | git object stored =>
      simp only [Entry.size] at size
      simp only at bytes
      subst bytes
      simp [read, indexed, Entry.size, ← size, requireRow, require_true]
  | binary stored =>
      simp only [Entry.size] at size
      simp only at bytes
      simp [read, indexed, bytes, Entry.size, ← size, requireRow, require_true]

section Put

variable {store next : Store} {data : Bytes} {mediaType expected : String} {blob : BlobRef}

/-- What a successful write returns and leaves. -/
theorem put_ok (done : put hash store data mediaType expected = .ok (blob, next)) :
    expected = hash.digest data ∧
    blob = { digest := hash.digest data, size := data.length, mediaType } ∧
    next.seen = data :: store.seen ∧
    (∃ entry, next.index (hash.digest data) = some entry) ∧
    ∀ other, (∃ entry, store.index other = some entry) → ∃ entry, next.index other = some entry := by
  have grown (base : Store) (entry : Entry) (other : String)
      (indexed : ∃ entry, base.index other = some entry) :
      ∃ found, (base.setEntry (hash.digest data) entry).index other = some found := by
    obtain ⟨old, found⟩ := indexed
    by_cases same : other = hash.digest data
    · exact ⟨entry, by simp [Store.setEntry, same]⟩
    · exact ⟨old, by simp [Store.setEntry, same, found]⟩
  simp only [put, Program.except_bind_ok, require_ok, exists_const] at done
  obtain ⟨expects, done⟩ := done
  refine ⟨expects, ?_⟩
  split at done
  · cases done
    exact ⟨rfl, rfl, ⟨_, if_pos rfl⟩, fun other indexed => grown (store.see data) _ other indexed⟩
  · split at done
    · simp only [Program.except_bind_ok, require_ok, exists_const] at done
      cases done.2
      exact ⟨rfl, rfl, ⟨_, if_pos rfl⟩, fun other indexed =>
        grown (store.see data) _ other indexed⟩
    · cases done
      exact ⟨rfl, rfl, ⟨_, if_pos rfl⟩, fun other indexed =>
        grown ((store.see data).setFile (hash.digest data) data) _ other indexed⟩

theorem put_keeps (done : put hash store data mediaType expected = .ok (blob, next)) :
    Keeps hash next data := by
  obtain ⟨-, -, seen, indexed, -⟩ := put_ok done
  exact ⟨seen ▸ List.mem_cons_self .., indexed⟩

theorem Keeps.put (done : put hash store data mediaType expected = .ok (blob, next))
    {other : Bytes} (kept : Keeps hash store other) : Keeps hash next other := by
  obtain ⟨-, -, seen, -, indexed⟩ := put_ok done
  exact ⟨seen ▸ List.mem_cons_of_mem _ kept.1, indexed _ kept.2⟩

theorem put_distinct (done : put hash store data mediaType expected = .ok (blob, next))
    (distinct : Distinct hash next.seen) : Distinct hash store.seen := by
  obtain ⟨-, -, seen, -, -⟩ := put_ok done
  intro left inLeft right inRight same
  exact distinct left (seen ▸ List.mem_cons_of_mem _ inLeft) right
    (seen ▸ List.mem_cons_of_mem _ inRight) same

theorem put_sound (sound : Sound hash store)
    (done : put hash store data mediaType expected = .ok (blob, next)) : Sound hash next := by
  have member : data ∈ (store.see data).seen := List.mem_cons_self ..
  have grown {other : Bytes} (seen : other ∈ store.seen) : other ∈ (store.see data).seen :=
    List.mem_cons_of_mem _ seen
  simp only [put, Program.except_bind_ok, require_ok, exists_const] at done
  obtain ⟨-, done⟩ := done
  split at done
  · cases done
    constructor
    · intro digest entry indexed
      simp only [Store.setEntry] at indexed
      split at indexed
      · subst digest
        cases indexed
        exact ⟨data, member, rfl, rfl, rfl⟩
      · obtain ⟨old, seen, rest⟩ := sound.entries digest entry indexed
        exact ⟨old, grown seen, rest⟩
    · intro digest file found
      obtain ⟨seen, same⟩ := sound.files digest file found
      exact ⟨grown seen, same⟩
  · split at done
    · rename_i present atFile
      simp only [Program.except_bind_ok, require_ok, exists_const] at done
      obtain ⟨⟨length, digest⟩, done⟩ := done
      cases done
      constructor
      · intro other entry indexed
        simp only [Store.setEntry] at indexed
        split at indexed
        · subst other
          cases indexed
          exact ⟨present, grown (sound.files _ _ atFile).1, digest, length, atFile⟩
        · obtain ⟨old, seen, rest⟩ := sound.entries other entry indexed
          exact ⟨old, grown seen, rest⟩
      · intro other file found
        obtain ⟨seen, same⟩ := sound.files other file found
        exact ⟨grown seen, same⟩
    · rename_i absent
      cases done
      constructor
      · intro other entry indexed
        simp only [Store.setEntry, Store.setFile] at indexed
        split at indexed
        · subst other
          cases indexed
          exact ⟨data, member, rfl, rfl, if_pos rfl⟩
        · obtain ⟨old, seen, same, size, bytes⟩ := sound.entries other entry indexed
          refine ⟨old, grown seen, same, size, ?_⟩
          cases entry with
          | git object size => exact bytes
          | binary size => exact (if_neg ‹_›).trans bytes
      · intro other file found
        simp only [Store.setEntry, Store.setFile] at found
        split at found
        · subst other
          cases found
          exact ⟨member, rfl⟩
        · obtain ⟨seen, same⟩ := sound.files other file found
          exact ⟨grown seen, same⟩

/-- Where no digests collide, a write is refused for its digest only. -/
theorem put_total (sound : Sound hash store) (expects : expected = hash.digest data)
    (distinct : Distinct hash (data :: store.seen)) :
    ∃ blob next, put hash store data mediaType expected = .ok (blob, next) := by
  simp only [put, expects, require_true]
  split
  · exact ⟨_, _, rfl⟩
  · split
    · rename_i present atFile
      obtain ⟨seen, same⟩ := sound.files _ _ atFile
      obtain rfl := distinct present (List.mem_cons_of_mem _ seen) data (List.mem_cons_self ..) same
      have intact : fileMatches hash present present.length (hash.digest present) := ⟨rfl, rfl⟩
      exact ⟨_, _, by simp only [require_true _ intact]; rfl⟩
    · exact ⟨_, _, rfl⟩

end Put

end MsgServer.Contents
