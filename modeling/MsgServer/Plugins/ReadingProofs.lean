import MsgServer.Core.Contents
import MsgServer.Library.Lines
import MsgServer.Library.RangeUnion
import MsgServer.Library.Run

/-!
plugins/reading_proofs.py: line ranges over the chunks of a content, the union of byte
ranges, and the statement that `reading_prove` writes. What the content store reads is the
bytes of the revision; the access checks, the gates of a topic and the capacity of the table
are answered by the environment of a call, and so are the digest of a statement and its
signature.
-/

namespace MsgServer.Readings

open Library Library.Ranges Contents

/-! Lines -/

/-- `b'\n'`. -/
def newline : UInt8 := 10

/-- What the loops over the chunks know: the current line, the offset of the chunk, whether
the bytes before ended a line, and the offsets where wanted lines start. -/
structure Scan where
  line : Nat
  offset : Nat
  endsNewline : Bool
  starts : Nat → Option Nat

def Scan.first : Scan where
  line := 1
  offset := 0
  endsNewline := false
  starts := fun line => if line = 1 then some 0 else none

/-- The search for newlines in a chunk, `position` bytes of which are behind it. -/
def findLines (wanted : List Nat) (scan : Scan) : Nat → Bytes → Scan
  | _, [] => scan
  | position, byte :: rest =>
      if byte = newline then
        let line := scan.line + 1
        let start := scan.offset + (position + 1)
        findLines wanted
          { scan with
            line
            starts := if line ∈ wanted then Function.update scan.starts line (some start)
              else scan.starts }
          (position + 1) rest
      else findLines wanted scan (position + 1) rest

def readChunk (wanted : List Nat) (scan : Scan) (chunk : Bytes) : Scan :=
  let found := findLines wanted scan 0 chunk
  { found with
    offset := scan.offset + chunk.length
    endsNewline := if chunk = [] then scan.endsNewline
      else decide (chunk.getLast? = some newline) }

def lineRanges (mediaType : String) (chunks : List Bytes) (selections : List Range) :
    Except Failure (List Range) := do
  require (mediaType = "text/plain" ∨ mediaType = "text/markdown") "text_source_required"
  let wanted := selections.flatMap fun part => [part.1, part.2 + 1]
  let scan := chunks.foldl (readChunk wanted) Scan.first
  let count := if scan.offset = 0 then 0 else scan.line - scan.endsNewline.toNat
  selections.mapM fun part => do
    require (1 ≤ part.1 ∧ part.1 ≤ part.2 ∧ part.2 ≤ count) "reading_line_range_invalid"
    let start ← requireRow (scan.starts part.1) "KeyError"
    return (start, (scan.starts (part.2 + 1)).getD scan.offset)

/-! Ranges -/

/-- The order of `sorted` on pairs. -/
def pairLe (left right : Range) : Bool :=
  left.1 < right.1 || (left.1 = right.1 && left.2 ≤ right.2)

def mergeInto (merged : List Range) (range : Range) : List Range :=
  match merged.getLast? with
  | none => [range]
  | some last =>
      if range.1 ≤ last.2 then merged.dropLast ++ [(last.1, max range.2 last.2)]
      else merged ++ [range]

def mergeRanges (ranges : List Range) : List Range :=
  (ranges.mergeSort pairLe).foldl mergeInto []

/-- `sum(end - start for start, end in coverage)`. -/
def coveredBytes (coverage : List Range) : Nat :=
  (coverage.map fun range => range.2 - range.1).sum

/-! Statements -/

structure Part where
  start : Nat
  stop : Nat
  digest : String
  deriving DecidableEq

def Part.range (part : Part) : Range := (part.start, part.stop)

/-- A revision and the bytes of its content. -/
structure Revision where
  id : String
  digest : String
  manifestDigest : String
  data : Bytes

def Revision.size (revision : Revision) : Nat := revision.data.length

structure Record where
  target : ResourceRef
  digest : String
  manifestDigest : String
  byteLength : Nat
  parts : List Part
  coverage : List Range
  coveredBytes : Nat
  complete : Bool
  actor : Option String
  subject : String
  auth : Method
  time : Nat
  note : String
  signature : Option (String × String)
  deriving DecidableEq

structure ReadingRow where
  subject : String
  resource : String
  kind : String
  revision : String
  body : Record
  deriving DecidableEq

def ReadingRow.key (row : ReadingRow) : String × String × String × String :=
  (row.subject, row.resource, row.kind, row.revision)

/-- The arguments that the schema of the operation admits. -/
structure Arguments where
  target : ResourceRef
  digest : String
  parts : List Part
  note : Option String
  admitted : 1 ≤ parts.length ∧ parts.length ≤ 128

/-- A call with the answers of its environment. -/
structure Call where
  principal : Principal
  arguments : Arguments
  now : Nat
  revision : Except Failure Revision
  gates : Except Failure Unit
  capacity : Except Failure Unit
  signature : String × String

variable (hash : Hash) (claimOf : List Part → String → String)

def describePart (revision : Revision) (range : Range) : Except Failure Part := do
  require (range.1 < range.2 ∧ range.2 ≤ revision.size) "reading_range_invalid"
  return {
    start := range.1
    stop := range.2
    digest := hash.digest ((revision.data.drop range.1).take (range.2 - range.1)) }

def describe (revision : Revision) (ranges : List Range) : Except Failure (List Part) :=
  ranges.mapM (describePart hash revision)

def methodName : Method → String
  | .signature => "signature"
  | _ => "token"

/-- The statement without a signature. -/
def recordOf (call : Call) (subject : String) (revision : Revision) : Record :=
  let parts := call.arguments.parts
  let coverage := mergeRanges (parts.map Part.range)
  { target := call.arguments.target
    digest := revision.digest
    manifestDigest := revision.manifestDigest
    byteLength := revision.size
    parts
    coverage
    coveredBytes := coveredBytes coverage
    complete := decide (coverage = [(0, revision.size)])
    actor := call.principal.actor
    subject
    auth := call.principal.method
    time := call.now
    note := call.arguments.note.getD ""
    signature := none }

def prove (call : Call) (state : Table ReadingRow.key) :
    Except Failure (Table ReadingRow.key × Record) := do
  let subject ← requireRow call.principal.subject "authentication_required"
  require (call.principal.method = .signature ∨ call.principal.method = .token)
    "proof_signature_or_token_required"
  require (call.arguments.target.revision ≠ none) "reading_revision_required"
  let revision ← call.revision
  call.gates
  require (call.arguments.digest = revision.digest) "proof_digest_mismatch"
  let parts := call.arguments.parts
  let described ← describe hash revision (parts.map Part.range)
  require (parts = described) "reading_part_digest_mismatch"
  let record := recordOf call subject revision
  let kind := "reading." ++ claimOf parts record.note ++ "." ++ methodName call.principal.method
  match state.find? (subject, call.arguments.target.id, kind, revision.id) with
  | some row => return (state, row.body)
  | none => do
      call.capacity
      let record := if call.principal.method = .signature then
        { record with signature := some call.signature } else record
      let next ← insertRow state
        { subject, resource := call.arguments.target.id, kind, revision := revision.id
          body := record }
      return (next, record)

/-- A refused call leaves the table as it was. -/
def step (call : Call) (state : Table ReadingRow.key) : Table ReadingRow.key :=
  match prove hash claimOf call state with
  | .ok (next, _) => next
  | .error _ => state

end MsgServer.Readings
