/-!
The translation of shared SQLite texts in storage/postgres.py. A text is the list of its
characters. Which characters are letters, digits and white space, and how cases fold, comes
from the Unicode tables, which are a parameter.
-/

namespace MsgServer.Postgres

abbrev Text := List Char

/-- `str.isalnum`, `\s`, `str.lower` of a character, and whether a letter of a pattern
matches a character with `re.IGNORECASE`. -/
structure Unicode where
  alnum : Char → Bool
  space : Char → Bool
  lower : Char → Text
  same : Char → Char → Bool

variable (unicode : Unicode)

/-- `\w`. -/
def word (char : Char) : Bool := unicode.alnum char || char == '_'

/-- `\b` between two neighbours. -/
def boundary (previous next : Option Char) : Bool :=
  previous.any (word unicode) != next.any (word unicode)

/-- What follows a word of a pattern, whose letters match in either case. -/
def dropWord : Text → Text → Option Text
  | [], text => some text
  | letter :: letters, char :: text =>
      if unicode.same letter char then dropWord letters text else none
  | _ :: _, [] => none

/-- `\s+`. -/
def dropSpaces (text : Text) : Option Text :=
  if text.head?.any unicode.space then some (text.dropWhile unicode.space) else none

/-- The character before what is left of a text. -/
def before (sql rest : Text) : Option Char := (sql.take (sql.length - rest.length)).getLast?

/-- `(?is)^(\s*)INSERT\s+OR\s+IGNORE\s+INTO\b`: the white space in front and the rest. -/
def insertOrIgnore (sql : Text) : Option (Text × Text) := do
  let rest ← dropWord unicode "INSERT".toList (sql.dropWhile unicode.space)
  let rest ← dropSpaces unicode rest
  let rest ← dropWord unicode "OR".toList rest
  let rest ← dropSpaces unicode rest
  let rest ← dropWord unicode "IGNORE".toList rest
  let rest ← dropSpaces unicode rest
  let rest ← dropWord unicode "INTO".toList rest
  if boundary unicode (before sql rest) rest.head? then
    some (sql.takeWhile unicode.space, rest)
  else none

/-- `\s*;\s*$`: the text before and the ending. -/
def closing (sql : Text) : Option (Text × Text) :=
  match sql.reverse.dropWhile unicode.space with
  | ';' :: front =>
      let front := (front.dropWhile unicode.space).reverse
      some (front, sql.drop front.length)
  | _ => none

def onConflict : Text := " ON CONFLICT DO NOTHING".toList

def rewriteIgnore (sql : Text) : Text :=
  match insertOrIgnore unicode sql with
  | none => sql
  | some (leading, rest) =>
      let sql := leading ++ "INSERT INTO".toList ++ rest
      match closing unicode sql with
      | some (front, ending) => front ++ onConflict ++ ending
      | none => sql ++ onConflict

/-- `re.search(r'\bchunks\b', sql, flags=re.IGNORECASE)`. -/
def mentionsChunks (sql : Text) : Bool :=
  (List.range sql.length).any fun position =>
    let here := sql.drop position
    boundary unicode (before sql here) here.head? &&
      match dropWord unicode "chunks".toList here with
      | some rest => boundary unicode (before sql rest) rest.head?
      | none => false

/-! The scanner -/

inductive State
  | sql
  | single
  | double
  | lineComment
  | blockComment
  deriving DecidableEq

/-- The word `offset` by itself, in any case. -/
def offsetHere (previous : Option Char) (text : Text) : Bool :=
  (text.take 6).flatMap unicode.lower = "offset".toList &&
    !previous.any (word unicode) && !(text.drop 6).head?.any (word unicode)

def percent (hasParameters : Bool) (char : Char) : Text :=
  if hasParameters && char == '%' then ['%', '%'] else [char]

/-- The loop over the positions, with the character before the position; each turn moves on,
so as many turns as the text has characters are enough. -/
def scan (chunksQuery hasParameters : Bool) :
    Nat → Option Char → State → Text → Text
  | 0, _, _, _ => []
  | _ + 1, _, _, [] => []
  | turns + 1, previous, state, char :: rest =>
      let keep (state : State) : Text :=
        percent hasParameters char ++
          scan chunksQuery hasParameters turns (some char) state rest
      match state with
      | .sql =>
          if char = '\'' then keep .single
          else if char = '"' then keep .double
          else if char = '-' ∧ rest.head? = some '-' then keep .lineComment
          else if char = '/' ∧ rest.head? = some '*' then keep .blockComment
          else if char = '?' then
            "%s".toList ++ scan chunksQuery hasParameters turns (some char) .sql rest
          else if chunksQuery && offsetHere unicode previous (char :: rest) then
            "\"offset\"".toList ++
              scan chunksQuery hasParameters turns ((char :: rest).take 6).getLast? .sql
                ((char :: rest).drop 6)
          else keep .sql
      | .single =>
          if char = '\'' then
            if rest.head? = some '\'' then
              char :: '\'' ::
                scan chunksQuery hasParameters turns (some '\'') .single rest.tail
            else keep .sql
          else keep .single
      | .double =>
          if char = '"' then
            if rest.head? = some '"' then
              char :: '"' ::
                scan chunksQuery hasParameters turns (some '"') .double rest.tail
            else keep .sql
          else keep .double
      | .lineComment => if char = '\n' then keep .sql else keep .lineComment
      | .blockComment =>
          if char = '*' ∧ rest.head? = some '/' then
            char :: '/' :: scan chunksQuery hasParameters turns (some '/') .sql rest.tail
          else keep .blockComment

/-- `_postgres_sql`. -/
def postgresSql (sql : Text) (hasParameters : Bool) : Text :=
  let sql := rewriteIgnore unicode sql
  scan unicode (mentionsChunks unicode sql) hasParameters sql.length none .sql sql

end MsgServer.Postgres
