import MsgServer.Core.TextWindow

/-!
Reading a text in segments, plugins/discovery.py. A segment is cut behind a whole Markdown
block where one ends in the window, and wherever the window ends otherwise; what the scanner
of lines knows there is handed to the next segment. The content store gives the bytes of the
content.
-/

namespace MsgServer.Segments

open Library Library.Members Codec

/-- The separators of `str.splitlines`. -/
def isLineBreak (char : Char) : Bool :=
  char.toNat ∈ [0x0a, 0x0b, 0x0c, 0x0d, 0x1c, 0x1d, 0x1e, 0x85, 0x2028, 0x2029]

/-- `str.isspace` of one character. -/
def isSpace (char : Char) : Bool :=
  isLineBreak char || char.toNat ∈ [0x09, 0x1f, 0x20, 0xa0, 0x1680, 0x202f, 0x205f, 0x3000] ||
    0x2000 ≤ char.toNat && char.toNat ≤ 0x200a

/-- `text.splitlines(keepends=True)`. -/
def splitlines : Text → List Text
  | [] => []
  | '\r' :: '\n' :: rest => ['\r', '\n'] :: splitlines rest
  | first :: rest =>
      if isLineBreak first then [first] :: splitlines rest
      else
        match splitlines rest with
        | [] => [[first]]
        | line :: lines => (first :: line) :: lines

def strip (text : Text) : Text := ((text.dropWhile isSpace).reverse.dropWhile isSpace).reverse

/-- `stripped.startswith(('```', '~~~'))`. -/
def isMarker (stripped : Text) : Bool :=
  ['`', '`', '`'].isPrefixOf stripped || ['~', '~', '~'].isPrefixOf stripped

/-- `line.endswith('\n')`. -/
def isComplete (line : Text) : Bool := line.getLast? = some '\n'

/-- The variables of the loop over the lines. -/
structure Scan where
  candidate : Option (Nat × Bool × Bool)
  scanned : Nat
  inFence : Bool
  atLineStart : Bool

def Scan.first (fence lineStart : Bool) : Scan where
  candidate := none
  scanned := 0
  inFence := fence
  atLineStart := lineStart

def Scan.line (scan : Scan) (line : Text) : Scan :=
  let complete := isComplete line
  let stripped := strip line
  let next :=
    if scan.atLineStart && isMarker stripped then
      let inFence := !scan.inFence
      { scan with
        inFence
        candidate := if !inFence && complete then
          some (scan.scanned + line.length, inFence, true) else scan.candidate }
    else if !scan.inFence && scan.atLineStart && line.head? = some '#' && scan.scanned ≠ 0 then
      { scan with candidate := some (scan.scanned, scan.inFence, true) }
    else if !scan.inFence && stripped = [] && complete then
      { scan with candidate := some (scan.scanned + line.length, scan.inFence, true) }
    else scan
  { next with scanned := scan.scanned + line.length, atLineStart := complete }

/-- The loop over the decoded characters, `used` bytes of which are taken. -/
def budget (maxBytes : Nat) : Nat → Text → Text
  | _, [] => []
  | used, char :: rest =>
      if used + char.utf8Size > maxBytes then []
      else char :: budget maxBytes (used + char.utf8Size) rest

/-- What a segment is read with: `(offset, fence, line_start, continued)`. -/
structure Position where
  offset : Nat
  fence : Bool
  lineStart : Bool
  continued : Bool
  deriving DecidableEq

def Position.first : Position where
  offset := 0
  fence := false
  lineStart := true
  continued := false

structure Segment where
  byteEnd : Nat
  text : Text
  fence : Bool
  lineStart : Bool
  continued : Bool
  deriving DecidableEq

/-- What the next segment is read with. -/
def Segment.position (segment : Segment) : Position where
  offset := segment.byteEnd
  fence := segment.fence
  lineStart := segment.lineStart
  continued := segment.continued

/-- The cut behind the candidate, which is used where it is not empty. -/
def cut (contentSize offset : Nat) (budget : Text) (scan : Scan) : Nat × Bool × Bool × Bool :=
  let forced := (budget.length, scan.inFence, scan.atLineStart,
    decide (offset + size budget < contentSize))
  match scan.candidate with
  | none => forced
  | some (charEnd, fence, lineStart) =>
      if charEnd > 0 then (charEnd, fence, lineStart, false) else forced

def markdownSegment (content : List UInt8) (offset maxBytes : Nat) (fence lineStart : Bool) :
    Except Failure Segment := do
  require (offset ≤ content.length) "invalid_byte_range"
  let stop := min content.length (offset + maxBytes + 4)
  let decoded ← decodeWindow ((content.drop offset).take (stop - offset))
  let budget := budget maxBytes 0 decoded
  require (budget ≠ [] ∨ offset = content.length) "read_window_too_small"
  let scan := (splitlines budget).foldl Scan.line (Scan.first fence lineStart)
  let (charEnd, fence, lineStart, continued) := cut content.length offset budget scan
  let text := budget.take charEnd
  let byteEnd := offset + size text
  require (byteEnd > offset ∨ offset = content.length) "read_window_too_small"
  return { byteEnd, text, fence, lineStart, continued }

def readAt (content : List UInt8) (maxBytes : Nat) (position : Position) :
    Except Failure Segment :=
  markdownSegment content position.offset maxBytes position.fence position.lineStart

/-- The loop of `previous_segment`. Where the content reaches the target every turn takes a
character, so `target` turns are enough. -/
def replay (content : List UInt8) (maxBytes target : Nat) :
    Nat → Position → Option Position → Except Failure (Position × Option Position)
  | 0, position, previous => .ok (position, previous)
  | turns + 1, position, previous =>
      if position.offset < target then do
        let segment ← readAt content maxBytes position
        require (segment.byteEnd ≤ target) "invalid_cursor"
        replay content maxBytes target turns segment.position (some position)
      else .ok (position, previous)

def previousSegment (content : List UInt8) (target maxBytes : Nat) : Except Failure Position := do
  let (position, previous) ← replay content maxBytes target target .first none
  require (position.offset = target) "invalid_cursor"
  requireRow previous "invalid_cursor"

/-- What `read_segment` answers. The cursors stand for what they hold: the next one holds the
position of this segment beside that of the next. -/
structure Page where
  range : Nat × Nat
  text : Text
  continuedBlock : Bool
  continuesPrevious : Bool
  next : Option (Position × Position)
  prev : Option Position

/-- The position of the segment before, which a cursor may hold already. -/
def previousOf (content : List UInt8) (maxBytes : Nat) (position : Position) :
    Option Position → Except Failure (Option Position)
  | some previous => .ok (if position.offset > 0 then some previous else none)
  | none =>
      if position.offset > 0 then (previousSegment content position.offset maxBytes).map some
      else .ok none

/-- `read_segment` behind the checks of access and of the cursor. -/
def readSegment (maxResponseBytes : Nat) (content : List UInt8) (maxBytes : Nat)
    (position : Position) (previous : Option Position) : Except Failure Page := do
  require (32 ≤ maxBytes ∧ maxBytes ≤ min 8192 (maxResponseBytes / 4)) "query_cost_exceeded"
  let segment ← readAt content maxBytes position
  let prev ← previousOf content maxBytes position previous
  return {
    range := (position.offset, segment.byteEnd)
    text := segment.text
    continuedBlock := segment.continued
    continuesPrevious := position.continued
    next := if segment.byteEnd < content.length then some (segment.position, position) else none
    prev }

/-- Following the cursors of `read_segment` from a position to the end of the content. -/
def readOn (content : List UInt8) (maxBytes : Nat) :
    Nat → Position → Except Failure (List (Position × Segment))
  | 0, _ => .ok []
  | turns + 1, position => do
      let segment ← readAt content maxBytes position
      if segment.byteEnd < content.length then do
        let rest ← readOn content maxBytes turns segment.position
        return (position, segment) :: rest
      else return [(position, segment)]

end MsgServer.Segments
