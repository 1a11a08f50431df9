import MsgServer.Core.TextPatch

/-!
The Markdown scanner and the structured edits of core/text_patch.py. The three patterns are
functions on the text of one line. A block takes a number of lines, and the scan steps over
the lines that the last block took.
-/

namespace MsgServer.TextPatch

open Library

def patchCandidateLimit : Nat := 4096

/-- `re.findall(r'[^\r\n]*(?:\r\n|\r|\n)|[^\r\n]+$', source)`. -/
def markdownLines : Text → List Text
  | [] => []
  | '\r' :: '\n' :: rest => ['\r', '\n'] :: markdownLines rest
  | first :: rest =>
      if first = '\r' ∨ first = '\n' then [first] :: markdownLines rest
      else
        match markdownLines rest with
        | [] => [[first]]
        | line :: lines => (first :: line) :: lines

/-- `offsets[i]`. -/
def offset (lines : List Text) (i : Nat) : Nat := (lines.take i).flatten.length

variable (unicode : Unicode)

/-- `text.strip()`. -/
def strip (text : Text) : Text :=
  ((text.dropWhile unicode.isSpace).reverse.dropWhile unicode.isSpace).reverse

/-- `text.rstrip()`. -/
def stripRight (text : Text) : Text := (text.reverse.dropWhile unicode.isSpace).reverse

def isBlank (line : Text) : Bool := strip unicode (stripEnd line) = []

def isGap (char : Char) : Bool := char = ' ' || char = '\t'

/-- `^ {0,3}`, which fails on a fourth space. -/
def indented (text : Text) : Option Text :=
  let spaces := text.takeWhile fun char => char = ' '
  if spaces.length ≤ 3 then some (text.drop spaces.length) else none

/-- `_ATX`: the number of hashes and the rest behind the gap. -/
def atx (text : Text) : Option (Nat × Text) := do
  let rest ← indented text
  let hashes := rest.takeWhile fun char => char = '#'
  let rest := rest.drop hashes.length
  if 1 ≤ hashes.length ∧ hashes.length ≤ 6 ∧ (rest = [] ∨ rest.head?.any isGap) then
    some (hashes.length, rest.dropWhile isGap)
  else none

/-- `_FENCE`: the marker and the rest. -/
def fence (text : Text) : Option (Text × Text) := do
  let rest ← indented text
  let char ← rest.head?
  let marker := rest.takeWhile fun other => other = char
  if (char = '`' ∨ char = '~') ∧ 3 ≤ marker.length then
    some (marker, rest.drop marker.length)
  else none

/-- `_SETEXT`: the level of an underline. -/
def setext (text : Text) : Option Nat := do
  let rest ← indented text
  let char ← rest.head?
  let tail := (rest.dropWhile fun other => other = char).dropWhile isGap
  if char = '=' ∧ tail = [] then some 1
  else if char = '-' ∧ tail = [] then some 2
  else none

/-- `re.sub(r'[ \t]+#+[ \t]*$', '', title).rstrip()`. -/
def withoutClosing (title : Text) : Text :=
  let open' := (title.reverse.dropWhile isGap).dropWhile fun char => char = '#'
  let hashes := (title.reverse.dropWhile isGap).takeWhile fun char => char = '#'
  if hashes ≠ [] ∧ open'.head?.any isGap then
    stripRight unicode (open'.dropWhile isGap).reverse
  else stripRight unicode title

/-- The title of a heading, which its first line decides. -/
def titleOf (line : Text) : Text :=
  match atx (stripEnd line) with
  | some (_, rest) => withoutClosing unicode (strip unicode rest)
  | none => strip unicode (stripEnd line)

/-- The underline that the following line may be. -/
def underline : List Text → Option Nat
  | [] => none
  | next :: _ => setext (stripEnd next)

/-- A fence that opens a block; a backtick fence has no backtick in its rest. -/
def opensFence (line : Text) : Option Text :=
  match fence (stripEnd line) with
  | some (marker, rest) =>
      if marker.head? = some '`' ∧ '`' ∈ rest then none else some marker
  | none => none

def closesFence (marker line : Text) : Bool :=
  match fence (stripEnd line) with
  | some (closing, rest) =>
      closing.head? = marker.head? && marker.length ≤ closing.length &&
        strip unicode rest = []
  | none => false

/-- How many lines follow an opening fence in its block. -/
def fenced (marker : Text) : List Text → Nat
  | [] => 0
  | line :: rest => if closesFence unicode marker line then 1 else 1 + fenced marker rest

/-- `text.startswith(('    ', '\t'))`. -/
def isCode (text : Text) : Bool :=
  text.take 4 = [' ', ' ', ' ', ' '] || text.head? = some '\t'

/-- The level of the heading that a line and the lines behind it make, and the lines it
takes. -/
def headingAt (line : Text) (rest : List Text) : Option (Nat × Nat) :=
  match atx (stripEnd line), underline rest with
  | some (level, _), _ => some (level, 1)
  | none, some level => if isCode (stripEnd line) then none else some (level, 2)
  | none, none => none

/-- How many lines continue a paragraph. -/
def paragraph : List Text → Nat
  | [] => 0
  | line :: rest =>
      if strip unicode line = [] then 0
      else if (atx (stripEnd line)).isSome ∨ (fence (stripEnd line)).isSome ∨
          (underline rest).isSome then 0
      else 1 + paragraph rest

structure Heading where
  title : Text
  level : Nat
  offset : Nat
  deriving DecidableEq

/-- What starts at a line that is not blank: the lines that the block takes and the heading
that it may be. -/
def blockAt (line : Text) (rest : List Text) (offset : Nat) : Nat × Option Heading :=
  match opensFence line with
  | some marker => (1 + fenced unicode marker rest, none)
  | none =>
      match headingAt line rest with
      | some (level, taken) => (taken, some { title := titleOf unicode line, level, offset })
      | none => (1 + paragraph unicode rest, none)

structure Block where
  start : Nat
  stop : Nat
  heading : Option Heading
  deriving DecidableEq

/-- The loop over the lines. `taken` lines still belong to the last block. -/
def scanBlocks : List Text → Nat → Nat → List Block
  | [], _, _ => []
  | line :: rest, taken + 1, offset => scanBlocks rest taken (offset + line.length)
  | line :: rest, 0, offset =>
      if isBlank unicode line then scanBlocks rest 0 (offset + line.length)
      else
        let (taken, heading) := blockAt unicode line rest offset
        { start := offset, stop := offset + ((line :: rest).take taken).flatten.length
          heading } :: scanBlocks rest (taken - 1) (offset + line.length)

/-- The headings and the spans of the blocks. -/
def markdown (source : Text) : Except Failure (List Heading × List (Nat × Nat)) := do
  let lines := markdownLines source
  require (lines.length ≤ maxLines) "patch_too_complex"
  let blocks := scanBlocks unicode lines 0 0
  require (blocks.length ≤ patchCandidateLimit) "patch_too_complex"
  return (blocks.filterMap Block.heading, blocks.map fun block => (block.start, block.stop))

/-! Structured edits -/

/-- `source[start:end]`. -/
def slice (source : Text) (start stop : Nat) : Text := (source.drop start).take (stop - start)

inductive StructuredPatch where
  | heading (heading : Text) (digest : String) (replacement : Text)
  | block (digest : String) (replacement : Text)
  deriving DecidableEq

def StructuredPatch.digest : StructuredPatch → String
  | .heading _ digest _ => digest
  | .block digest _ => digest

def StructuredPatch.replacement : StructuredPatch → Text
  | .heading _ _ replacement => replacement
  | .block _ replacement => replacement

/-- The end of the section of a heading, given the headings behind it. -/
def sectionEnd (source : Text) (heading : Heading) (later : List Heading) : Nat :=
  match later.find? fun next => next.level ≤ heading.level with
  | some next => next.offset
  | none => source.length

/-- The sections of all headings, each with its heading. -/
def sections (source : Text) : List Heading → List (Heading × Nat × Nat)
  | [] => []
  | heading :: later =>
      (heading, heading.offset, sectionEnd source heading later) :: sections source later

variable (digest : Text → String)

/-- The spans that an edit may mean. -/
def candidates (source : Text) (headings : List Heading) (blocks : List (Nat × Nat)) :
    StructuredPatch → List (Nat × Nat)
  | .heading wanted _ _ =>
      ((sections source headings).filter fun entry => entry.1.title = wanted).map Prod.snd
  | .block wanted _ =>
      blocks.filter fun span => digest (slice source span.1 span.2) = wanted

def structured (source : Text) (patch : StructuredPatch) : Except Failure Text := do
  let (headings, blocks) ← markdown unicode source
  match candidates digest source headings blocks patch with
  | [] => .error { code := "patch_no_match" }
  | (start, stop) :: more => do
      require (more = []) "patch_ambiguous"
      require (digest (slice source start stop) = patch.digest) "patch_no_match"
      return source.take start ++ patch.replacement ++ source.drop stop

end MsgServer.TextPatch
