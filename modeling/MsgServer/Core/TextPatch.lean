import MsgServer.Core.Models
import MsgServer.Library.Lines

/-!
Unified diffs of core/text_patch.py: the lines of a text, the hunks of a diff, the search
for an unchanged context, and the edit. A text is the list of its characters. The decimal
digits that the header pattern admits come from the Unicode tables, which are a parameter;
a number too long for `int` does not match.
-/

namespace MsgServer.TextPatch

open Library Library.Lines

abbrev Text := List Char

/-- The decimal value of a character, and the characters that `str.strip` removes. -/
structure Unicode where
  digit : Char → Option Nat
  isSpace : Char → Bool

def patchLimit : Nat := 1048576

def maxHunks : Nat := 256

def maxLines : Nat := 65536

structure Hunk where
  oldStart : Nat
  newStart : Nat
  old : List Text
  new : List Text
  deriving DecidableEq

/-- `re.findall(r'[^\n]*\n|[^\n]+$', text)`. -/
def diffLines (text : Text) : List Text := split '\n' text

/-- `line.endswith('\n')`. -/
abbrev EndsLine (line : Text) : Prop := Ended '\n' line

/-! The header of a hunk -/

structure Header where
  oldNo : Nat
  oldCount : Nat
  newNo : Nat
  newCount : Nat
  deriving DecidableEq

def after (expected : String) (text : Text) : Option Text :=
  if text.take expected.toList.length = expected.toList then
    some (text.drop expected.toList.length)
  else none

variable (unicode : Unicode)

/-- `(\d+)` and `int`, which takes at most 4300 digits. -/
def number (text : Text) : Option (Nat × Text) :=
  let digits := text.takeWhile fun char => (unicode.digit char).isSome
  if digits = [] ∨ 4300 < digits.length then none
  else some
    (digits.foldl (fun value char => 10 * value + (unicode.digit char).getD 0) 0,
      text.drop digits.length)

/-- `(?:,(\d+))?`, one where it is missing. -/
def count : Text → Option (Nat × Text)
  | ',' :: rest => number unicode rest
  | text => some (1, text)

/-- `(?:[^\r\n]*)\r?\n?\Z`. -/
def endsHeader (text : Text) : Bool :=
  let tail := text.dropWhile fun char => char ≠ '\r' ∧ char ≠ '\n'
  tail = [] ∨ tail = ['\r'] ∨ tail = ['\n'] ∨ tail = ['\r', '\n']

def header (line : Text) : Option Header := do
  let rest ← after "@@ -" line
  let (oldNo, rest) ← number unicode rest
  let (oldCount, rest) ← count unicode rest
  let rest ← after " +" rest
  let (newNo, rest) ← number unicode rest
  let (newCount, rest) ← count unicode rest
  let rest ← after " @@" rest
  if endsHeader rest then some { oldNo, oldCount, newNo, newCount } else none

/-! The lines of a hunk -/

/-- The hunk whose lines are being read: the lines of both sides so far, and the sides of
the previous line as long as a marker may follow it. -/
structure OpenHunk where
  header : Header
  old : List Text
  new : List Text
  previous : Option (Bool × Bool)
  deriving DecidableEq

def invalid {α : Type} : Except Failure α := .error { code := "invalid_unified_patch" }

/-- `line.rstrip('\r\n')`. -/
def stripEnd (line : Text) : Text :=
  (line.reverse.dropWhile fun char => char = '\r' ∨ char = '\n').reverse

def noNewline : Text := "\\ No newline at end of file".toList

/-- `side[-1] = side[-1][:-1]`. -/
def unterminate (side : List Text) : List Text :=
  side.dropLast ++ (side.getLast?.map List.dropLast).toList

def marker (hunk : OpenHunk) : Except Failure OpenHunk :=
  match hunk.previous with
  | none => invalid
  | some (inOld, inNew) => do
      require (inOld → ∀ line ∈ hunk.old.getLast?, EndsLine line) "invalid_unified_patch"
      require (inNew → ∀ line ∈ hunk.new.getLast?, EndsLine line) "invalid_unified_patch"
      return { hunk with
        old := if inOld then unterminate hunk.old else hunk.old
        new := if inNew then unterminate hunk.new else hunk.new
        previous := none }

def bodyLine (hunk : OpenHunk) (line : Text) : Except Failure OpenHunk :=
  if stripEnd line = noNewline then marker hunk
  else do
    require (line.head? = some ' ' ∨ line.head? = some '-' ∨ line.head? = some '+')
      "invalid_unified_patch"
    require (EndsLine line) "invalid_unified_patch"
    require (hunk.old.length < hunk.header.oldCount ∨ hunk.new.length < hunk.header.newCount)
      "invalid_unified_patch"
    let inOld := decide (line.head? ≠ some '+')
    let inNew := decide (line.head? ≠ some '-')
    return { hunk with
      old := if inOld then hunk.old ++ [line.tail] else hunk.old
      new := if inNew then hunk.new ++ [line.tail] else hunk.new
      previous := some (inOld, inNew) }

def openHunk (line : Text) (found : List Hunk) : Except Failure OpenHunk :=
  match header unicode line with
  | none => invalid
  | some header => do
      require (found.length < maxHunks) "invalid_unified_patch"
      require ((header.oldCount ≠ 0 → 0 < header.oldNo) ∧
        (header.newCount ≠ 0 → 0 < header.newNo)) "invalid_unified_patch"
      return { header, old := [], new := [], previous := none }

def closeHunk (hunk : OpenHunk) : Except Failure Hunk := do
  require (hunk.old.length = hunk.header.oldCount ∧ hunk.new.length = hunk.header.newCount)
    "invalid_unified_patch"
  return {
    oldStart := if hunk.header.oldCount = 0 then hunk.header.oldNo else hunk.header.oldNo - 1
    newStart := if hunk.header.newCount = 0 then hunk.header.newNo else hunk.header.newNo - 1
    old := hunk.old
    new := hunk.new }

def startsHunk (line : Text) : Bool := (after "@@ " line).isSome

/-- The two loops over the lines of a diff in one reading: a line goes to the hunk that is
open, or closes it and opens the next one. -/
def scan : List Text → Option OpenHunk → List Hunk → Except Failure (List Hunk)
  | [], none, found => .ok found
  | [], some hunk, found => do
      let closed ← closeHunk hunk
      return found ++ [closed]
  | line :: rest, none, found => do
      let hunk ← openHunk unicode line found
      scan rest (some hunk) found
  | line :: rest, some hunk, found =>
      if startsHunk line then do
        let closed ← closeHunk hunk
        let next ← openHunk unicode line (found ++ [closed])
        scan rest (some next) (found ++ [closed])
      else do
        let hunk ← bodyLine hunk line
        scan rest (some hunk) found

/-- The two file header lines, where there are any. -/
def skipFiles (lines : List Text) : Except Failure (List Text) :=
  match lines with
  | first :: rest =>
      if (after "--- " first).isSome then
        match rest with
        | second :: rest => do
            require ((after "+++ " second).isSome) "invalid_unified_patch"
            return rest
        | [] => invalid
      else .ok lines
  | [] => .ok lines

def hunks (text : Text) : Except Failure (List Hunk) := do
  let lines := diffLines text
  require (lines.length ≤ maxLines) "patch_too_complex"
  let lines ← skipFiles lines
  let found ← scan unicode lines none []
  require (found ≠ []) "invalid_unified_patch"
  return found

/-! The search for a context -/

/-- `while j and item != needle[j]: j = prefix[j - 1]`; the table descends, so as many turns
as the first `j` are enough. -/
def fallback (needle : List Text) (table : List Nat) (item : Text) : Nat → Nat → Nat
  | 0, j => j
  | turns + 1, j =>
      if j = 0 ∨ needle[j]? = some item then j
      else fallback needle table item turns (table.getD (j - 1) 0)

def advance (needle : List Text) (table : List Nat) (item : Text) (j : Nat) : Nat :=
  let j := fallback needle table item j j
  if needle[j]? = some item then j + 1 else j

def prefixTable (needle : List Text) : List Nat :=
  (needle.tail.foldl (fun (table, j) item =>
    let j := advance needle table item j
    (table ++ [j], j)) ([0], 0)).1

/-- The first two places of the needle, by the end of each occurrence. -/
def sequenceFrom (needle : List Text) (table : List Nat) :
    List Text → Nat → Nat → List Nat → List Nat
  | [], _, _, found => found
  | line :: rest, i, j, found =>
      let j := advance needle table line j
      if j = needle.length then
        let found := found ++ [i + 1 - j]
        if found.length = 2 then found
        else sequenceFrom needle table rest (i + 1) (table.getD (j - 1) 0) found
      else sequenceFrom needle table rest (i + 1) j found

def sequenceMatches (lines needle : List Text) : List Nat :=
  sequenceFrom needle (prefixTable needle) lines 0 0 []

example : sequenceMatches [['a'], ['a'], ['b'], ['a'], ['a'], ['b']] [['a'], ['b']] = [1, 4] := by
  decide

/-! The edit -/

def locate (lines : List Text) (rebase : Bool) (hunk : Hunk) (delta : Int) :
    Except Failure Nat :=
  if rebase then do
    require (hunk.old ≠ []) "patch_rebase_unsupported"
    match sequenceMatches lines hunk.old with
    | [] => .error { code := "patch_no_match" }
    | start :: more => do
        require (more = []) "patch_ambiguous"
        return start
  else do
    require ((hunk.newStart : Int) = hunk.oldStart + delta) "invalid_unified_patch"
    return hunk.oldStart

/-- The loop over the hunks, from the line `last` on. -/
def edit (lines : List Text) (rebase : Bool) :
    List Hunk → Nat → Int → Except Failure (List Text)
  | [], last, _ => .ok (lines.drop last)
  | hunk :: rest, last, delta => do
      let start ← locate lines rebase hunk delta
      require (last ≤ start ∧ start ≤ lines.length) "invalid_unified_patch"
      let stop := start + hunk.old.length
      require ((lines.drop start).take hunk.old.length = hunk.old) "patch_no_match"
      require ((∀ line ∈ hunk.new.getLast?, EndsLine line) ∨ stop = lines.length)
        "invalid_unified_patch"
      let more ← edit lines rebase rest stop (delta + hunk.new.length - hunk.old.length)
      return (lines.drop last).take (start - last) ++ hunk.new ++ more

def unified (source : Text) (hunks : List Hunk) (rebase : Bool) : Except Failure Text := do
  let lines := diffLines source
  require (lines.length ≤ maxLines) "patch_too_complex"
  require (rebase → lines.length * hunks.length ≤ 1000000) "patch_too_complex"
  let result ← edit lines rebase hunks 0 0
  return result.flatten

/-- `len(text.encode('utf-8'))`. -/
def encodedLength (text : Text) : Nat := (text.map fun char => char.utf8Size).sum

/-- `validate_patch` for a patch of the kind `unified`. -/
def validateUnified (diff : Text) : Except Failure Unit := do
  require (diff ≠ [] ∧ diff.length ≤ patchLimit) "invalid_text_patch"
  require ("unified".toList.length + encodedLength diff ≤ patchLimit) "patch_too_large"

/-- `apply_patch` with a unified diff and no base. -/
def applyDirect (source diff : Text) : Except Failure Text := do
  validateUnified diff
  require (encodedLength source ≤ patchLimit) "patch_too_large"
  let found ← hunks unicode diff
  let result ← unified source found false
  require (encodedLength result ≤ patchLimit) "patch_too_large"
  return result

/-- `apply_patch` with a unified diff; a base source relocates the hunks by their context. -/
def applyUnified (source diff : Text) (baseSource : Option Text) : Except Failure Text :=
  match baseSource with
  | none => applyDirect unicode source diff
  | some base => do
      validateUnified diff
      require (encodedLength source ≤ patchLimit) "patch_too_large"
      require (encodedLength base ≤ patchLimit) "patch_too_large"
      let _ ← applyDirect unicode base diff
      let found ← hunks unicode diff
      let _ ← unified base found true
      let result ← unified source found true
      require (encodedLength result ≤ patchLimit) "patch_too_large"
      return result

end MsgServer.TextPatch
