import MsgServer.Library.Quoting
import MsgServer.Storage.SqlText

/-!
What the translation of a text keeps. A text is read as pieces: quoted strings, quoted
identifiers and comments as a whole, and the characters between them one by one. The scanner
goes through a whole construct without a change, doubled percent signs apart.
-/

namespace MsgServer.Postgres

open Library.Quoting

/-! The pieces of a text -/

inductive Piece
  | plain (char : Char)
  | question
  | offset (name : Text)
  | kept (text : Text)
  deriving DecidableEq

/-- The start of a quoted string, of a quoted identifier or of a comment. -/
def Opens (char : Char) (rest : Text) : Prop :=
  char = '\'' ∨ char = '"' ∨ (char = '-' ∧ rest.head? = some '-') ∨
    (char = '/' ∧ rest.head? = some '*')

/-- A whole quoted string, quoted identifier or comment in front of the rest; one that is not
closed goes to the end of the text. -/
inductive Whole : Text → Text → Prop
  | quoted {mark : Char} {body rest : Text} (quote : mark = '\'' ∨ mark = '"')
      (doubled : Doubled mark body) (closed : rest.head? ≠ some mark) :
      Whole (mark :: (body ++ [mark])) rest
  | quotedEnd {mark : Char} {body : Text} (quote : mark = '\'' ∨ mark = '"')
      (doubled : Doubled mark body) : Whole (mark :: body) []
  | line {body rest : Text} (inside : '\n' ∉ body) : Whole ('-' :: '-' :: (body ++ ['\n'])) rest
  | lineEnd {body : Text} (inside : '\n' ∉ body) : Whole ('-' :: '-' :: body) []
  | block {body rest : Text} (inside : ¬ ['*', '/'] <:+: body ++ ['*']) :
      Whole ('/' :: '*' :: (body ++ ['*', '/'])) rest
  | blockEnd {body : Text} (inside : ¬ ['*', '/'] <:+: body) : Whole ('/' :: '*' :: body) []

/-- A reading of a text behind a character; `chunksQuery` says whether the word `offset` is
a column. -/
inductive Reads (unicode : Unicode) (chunksQuery : Bool) :
    Option Char → Text → List Piece → Prop
  | done {previous : Option Char} : Reads unicode chunksQuery previous [] []
  | plain {previous : Option Char} {char : Char} {rest : Text} {pieces : List Piece}
      (shut : ¬ Opens char rest) (other : char ≠ '?')
      (free : (chunksQuery && offsetHere unicode previous (char :: rest)) = false)
      (later : Reads unicode chunksQuery (some char) rest pieces) :
      Reads unicode chunksQuery previous (char :: rest) (.plain char :: pieces)
  | question {previous : Option Char} {rest : Text} {pieces : List Piece}
      (later : Reads unicode chunksQuery (some '?') rest pieces) :
      Reads unicode chunksQuery previous ('?' :: rest) (.question :: pieces)
  | offset {previous : Option Char} {char : Char} {rest : Text} {pieces : List Piece}
      (shut : ¬ Opens char rest) (other : char ≠ '?')
      (named : (chunksQuery && offsetHere unicode previous (char :: rest)) = true)
      (later : Reads unicode chunksQuery ((char :: rest).take 6).getLast?
        ((char :: rest).drop 6) pieces) :
      Reads unicode chunksQuery previous (char :: rest)
        (.offset ((char :: rest).take 6) :: pieces)
  | kept {previous : Option Char} {text rest : Text} {pieces : List Piece}
      (whole : Whole text rest) (later : Reads unicode chunksQuery text.getLast? rest pieces) :
      Reads unicode chunksQuery previous (text ++ rest) (.kept text :: pieces)

def Piece.shown (hasParameters : Bool) : Piece → Text
  | .plain char => percent hasParameters char
  | .question => "%s".toList
  | .offset _ => "\"offset\"".toList
  | .kept text => text.flatMap (percent hasParameters)

/-! Whole constructs -/

theorem Whole.opens {text rest : Text} (whole : Whole text rest) :
    ∃ char more, text = char :: more ∧ Opens char (more ++ rest) := by
  cases whole with
  | quoted quote => exact ⟨_, _, rfl, quote.elim .inl fun same => .inr (.inl same)⟩
  | quotedEnd quote => exact ⟨_, _, rfl, quote.elim .inl fun same => .inr (.inl same)⟩
  | line => exact ⟨_, _, rfl, .inr (.inr (.inl ⟨rfl, rfl⟩))⟩
  | lineEnd => exact ⟨_, _, rfl, .inr (.inr (.inl ⟨rfl, rfl⟩))⟩
  | block => exact ⟨_, _, rfl, .inr (.inr (.inr ⟨rfl, rfl⟩))⟩
  | blockEnd => exact ⟨_, _, rfl, .inr (.inr (.inr ⟨rfl, rfl⟩))⟩

theorem Whole.filled {text rest : Text} (whole : Whole text rest) : text ≠ [] := by
  obtain ⟨char, more, rfl, -⟩ := whole.opens
  exact List.cons_ne_nil _ _

/-- Where a construct opens, a whole one stands. -/
theorem whole_of_opens {char : Char} {rest : Text} (opens : Opens char rest) :
    ∃ text more, char :: rest = text ++ more ∧ Whole text more := by
  have quoted (mark : Char) (quote : mark = '\'' ∨ mark = '"') :
      ∃ text more, mark :: rest = text ++ more ∧ Whole text more := by
    rcases doubled_split mark rest with ⟨body, more, same, doubled, closed⟩ | whole
    · exact ⟨_, more, by simp [same], .quoted quote doubled closed⟩
    · exact ⟨_, [], by simp, .quotedEnd quote whole⟩
  rcases opens with rfl | rfl | ⟨rfl, next⟩ | ⟨rfl, next⟩
  · exact quoted _ (.inl rfl)
  · exact quoted _ (.inr rfl)
  · obtain ⟨tail, rfl⟩ := List.head?_eq_some_iff.mp next
    by_cases ends : '\n' ∈ tail
    · obtain ⟨body, more, rfl, inside⟩ := List.eq_append_cons_of_mem ends
      exact ⟨_, more, by simp, .line inside⟩
    · exact ⟨_, [], by simp, .lineEnd ends⟩
  · obtain ⟨tail, rfl⟩ := List.head?_eq_some_iff.mp next
    rcases pair_split '*' '/' tail with ⟨body, more, rfl, inside⟩ | inside
    · exact ⟨_, more, by simp, .block inside⟩
    · exact ⟨_, [], by simp, .blockEnd inside⟩

/-! The scanner inside a construct -/

variable {unicode : Unicode} {chunksQuery hasParameters : Bool}

/-- From one state the scanner passes a text in front of a tail and is in another state. -/
def Passes (unicode : Unicode) (chunksQuery hasParameters : Bool) (state : State)
    (text : Text) (next : State) (tail : Text) : Prop :=
  ∀ turns previous, (text ++ tail).length ≤ turns →
    ∃ left, tail.length ≤ left ∧
      scan unicode chunksQuery hasParameters turns previous state (text ++ tail) =
        text.flatMap (percent hasParameters) ++
          scan unicode chunksQuery hasParameters left (text.getLast?.or previous) next tail

theorem Passes.nil {state : State} {tail : Text} :
    Passes unicode chunksQuery hasParameters state [] state tail :=
  fun turns _ enough => ⟨turns, enough, rfl⟩

theorem Passes.join {state middle next : State} {text more tail : Text}
    (first : Passes unicode chunksQuery hasParameters state text middle (more ++ tail))
    (second : Passes unicode chunksQuery hasParameters middle more next tail) :
    Passes unicode chunksQuery hasParameters state (text ++ more) next tail := by
  intro turns previous enough
  rw [List.append_assoc] at enough ⊢
  obtain ⟨left, fits, same⟩ := first turns previous enough
  obtain ⟨rest, small, later⟩ := second left (text.getLast?.or previous) fits
  refine ⟨rest, small, ?_⟩
  rw [same, later, List.flatMap_append, List.getLast?_append, Option.or_assoc,
    List.append_assoc]

/-- A character that the scanner shows and that may change the state. -/
theorem Passes.one {state next : State} {char : Char} {tail : Text}
    (step : ∀ turns previous,
      scan unicode chunksQuery hasParameters (turns + 1) previous state (char :: tail) =
        percent hasParameters char ++
          scan unicode chunksQuery hasParameters turns (some char) next tail) :
    Passes unicode chunksQuery hasParameters state [char] next tail := by
  intro turns previous enough
  cases turns with
  | zero => simp at enough
  | succ turns =>
      refine ⟨turns, Nat.le_of_succ_le_succ enough, ?_⟩
      rw [List.singleton_append, step, List.flatMap_singleton]
      rfl

/-- Two characters that the scanner takes in one turn. -/
theorem Passes.two {state next : State} {first second : Char} {tail : Text}
    (firstShown : percent hasParameters first = [first])
    (secondShown : percent hasParameters second = [second])
    (step : ∀ turns previous,
      scan unicode chunksQuery hasParameters (turns + 1) previous state
          (first :: second :: tail) =
        first :: second ::
          scan unicode chunksQuery hasParameters turns (some second) next tail) :
    Passes unicode chunksQuery hasParameters state [first, second] next tail := by
  intro turns previous enough
  cases turns with
  | zero => simp at enough
  | succ turns =>
      refine ⟨turns, by simp at enough; omega, ?_⟩
      have shown : [first, second].flatMap (percent hasParameters) = [first, second] := by
        rw [List.flatMap_cons, List.flatMap_singleton, firstShown, secondShown]
        rfl
      rw [shown, List.cons_append, List.cons_append, List.nil_append, step]
      rfl

theorem percent_other {char : Char} (other : char ≠ '%') :
    percent hasParameters char = [char] := by
  simp [percent, other]

def quoteState (mark : Char) : State := if mark = '\'' then .single else .double

section

variable {mark : Char}

theorem passes_doubled (quote : mark = '\'' ∨ mark = '"') {body : Text}
    (doubled : Doubled mark body) (tail : Text) :
    Passes unicode chunksQuery hasParameters (quoteState mark) body (quoteState mark) tail := by
  induction doubled with
  | nil => exact .nil
  | plain differs _ ih =>
      refine .join (.one fun turns previous => ?_) ih
      rcases quote with rfl | rfl
      · exact if_neg differs
      · exact if_neg differs
  | pair _ ih =>
      have shown : percent hasParameters mark = [mark] := by
        rcases quote with rfl | rfl <;> exact percent_other (by decide)
      refine .join (.two shown shown fun turns previous => ?_) ih
      rcases quote with rfl | rfl
      · rfl
      · rfl

theorem passes_open (quote : mark = '\'' ∨ mark = '"') (tail : Text) :
    Passes unicode chunksQuery hasParameters .sql [mark] (quoteState mark) tail := by
  apply Passes.one
  intro turns previous
  rcases quote with rfl | rfl
  · rfl
  · rfl

theorem passes_close (quote : mark = '\'' ∨ mark = '"') {tail : Text}
    (closed : tail.head? ≠ some mark) :
    Passes unicode chunksQuery hasParameters (quoteState mark) [mark] .sql tail := by
  apply Passes.one
  intro turns previous
  rcases quote with rfl | rfl
  · exact if_neg closed
  · exact if_neg closed

end

theorem passes_line {body : Text} (inside : '\n' ∉ body) (tail : Text) :
    Passes unicode chunksQuery hasParameters .lineComment body .lineComment tail := by
  induction body with
  | nil => exact .nil
  | cons char body ih =>
      rw [List.mem_cons, not_or] at inside
      have here : Passes unicode chunksQuery hasParameters .lineComment [char] .lineComment
          (body ++ tail) := .one fun turns previous => if_neg (Ne.symm inside.1)
      exact here.join (ih inside.2)

/-- A body with the character behind it: the pair that ends the comment is not there yet. -/
theorem passes_block {body tail : Text}
    (inside : ¬ ['*', '/'] <:+: body ++ tail.head?.toList) :
    Passes unicode chunksQuery hasParameters .blockComment body .blockComment tail := by
  induction body with
  | nil => exact .nil
  | cons char body ih =>
      obtain ⟨here, later⟩ := pair_free_cons.mp inside
      refine .join (.one fun turns previous => ?_) (ih later)
      have next : (body ++ tail).head? = (body ++ tail.head?.toList).head? := by
        cases body with
        | nil => cases tail <;> rfl
        | cons => rfl
      exact if_neg (next ▸ here)

/-- A whole construct is passed; a comment must not be closed by its own opening. -/
theorem Whole.passes {text rest : Text} (whole : Whole text rest)
    (clean : ¬ ['/', '*', '/'] <+: text) :
    ∃ next, Passes unicode chunksQuery hasParameters .sql text next rest ∧
      (next = .sql ∨ rest = []) := by
  cases whole with
  | @quoted mark body _ quote doubled closed =>
      have inside : Passes unicode chunksQuery hasParameters (quoteState mark) (body ++ [mark])
          .sql rest := (passes_doubled quote doubled _).join (passes_close quote closed)
      exact ⟨.sql, (passes_open quote _).join inside, .inl rfl⟩
  | quotedEnd quote doubled =>
      exact ⟨_, (passes_open quote _).join (passes_doubled quote doubled _), .inr rfl⟩
  | @line body _ inside =>
      have open' : Passes unicode chunksQuery hasParameters .sql ['-'] .lineComment
          ('-' :: (body ++ ['\n']) ++ rest) := .one fun _ _ => rfl
      have close : Passes unicode chunksQuery hasParameters .lineComment ['\n'] .sql rest :=
        .one fun _ _ => rfl
      have longer : '\n' ∉ '-' :: body := by simp [inside]
      exact ⟨.sql, open'.join ((passes_line longer _).join close), .inl rfl⟩
  | @lineEnd body inside =>
      have open' : Passes unicode chunksQuery hasParameters .sql ['-'] .lineComment
          ('-' :: body ++ []) := .one fun _ _ => rfl
      have longer : '\n' ∉ '-' :: body := by simp [inside]
      exact ⟨.lineComment, open'.join (passes_line longer _), .inr rfl⟩
  | @block body _ inside =>
      have open' : Passes unicode chunksQuery hasParameters .sql ['/'] .blockComment
          ('*' :: (body ++ ['*', '/']) ++ rest) := .one fun _ _ => rfl
      have close : Passes unicode chunksQuery hasParameters .blockComment ['*', '/'] .sql rest :=
        .two (percent_other (by decide)) (percent_other (by decide)) fun _ _ => rfl
      have longer : ¬ ['*', '/'] <:+: '*' :: body ++ ['*'] := by
        refine pair_free_cons.mpr ⟨?_, inside⟩
        rintro ⟨-, next⟩
        apply clean
        cases body with
        | nil => simp at next
        | cons char body =>
            obtain rfl := Option.some.inj next
            exact ⟨body ++ ['*', '/'], rfl⟩
      exact ⟨.sql, open'.join ((passes_block longer).join close), .inl rfl⟩
  | @blockEnd body inside =>
      have open' : Passes unicode chunksQuery hasParameters .sql ['/'] .blockComment
          ('*' :: body ++ []) := .one fun _ _ => rfl
      have longer : ¬ ['*', '/'] <:+: '*' :: body ++ [] := by
        rw [List.append_nil]
        refine pair_free_cons.mpr ⟨?_, inside⟩
        rintro ⟨-, next⟩
        apply clean
        obtain ⟨more, rfl⟩ := List.head?_eq_some_iff.mp next
        exact ⟨more, rfl⟩
      exact ⟨.blockComment, open'.join (passes_block longer), .inr rfl⟩

/-! The scanner on a reading -/

/-- No block comment opens with the characters that also close it. -/
def Clean (pieces : List Piece) : Prop :=
  ∀ text, .kept text ∈ pieces → ¬ ['/', '*', '/'] <+: text

theorem Clean.tail {piece : Piece} {pieces : List Piece} (clean : Clean (piece :: pieces)) :
    Clean pieces :=
  fun text member => clean text (List.mem_cons_of_mem _ member)

/-- Outside the constructs the scanner tests for the start of each of them first. -/
theorem scan_sql {char : Char} {rest : Text} (shut : ¬ Opens char rest) (turns : Nat)
    (previous : Option Char) :
    scan unicode chunksQuery hasParameters (turns + 1) previous .sql (char :: rest) =
      if char = '?' then
        "%s".toList ++ scan unicode chunksQuery hasParameters turns (some char) .sql rest
      else if chunksQuery && offsetHere unicode previous (char :: rest) then
        "\"offset\"".toList ++
          scan unicode chunksQuery hasParameters turns ((char :: rest).take 6).getLast? .sql
            ((char :: rest).drop 6)
      else percent hasParameters char ++
        scan unicode chunksQuery hasParameters turns (some char) .sql rest := by
  simp only [Opens, not_or] at shut
  obtain ⟨single, double, line, block⟩ := shut
  rw [scan]
  simp only [if_neg single, if_neg double, if_neg line, if_neg block]

theorem scan_reads {previous : Option Char} {text : Text} {pieces : List Piece}
    (reads : Reads unicode chunksQuery previous text pieces) (clean : Clean pieces)
    {turns : Nat} (enough : text.length ≤ turns) :
    scan unicode chunksQuery hasParameters turns previous .sql text =
      pieces.flatMap (Piece.shown hasParameters) := by
  induction reads generalizing turns with
  | done => cases turns <;> rfl
  | plain shut other free later ih =>
      cases turns with
      | zero => simp at enough
      | succ turns =>
          rw [scan_sql shut, if_neg other, free, ih (clean.tail) (Nat.le_of_succ_le_succ enough)]
          rfl
  | question later ih =>
      have shut (rest : Text) : ¬ Opens '?' rest := by simp [Opens]
      cases turns with
      | zero => simp at enough
      | succ turns =>
          rw [scan_sql (shut _), if_pos rfl, ih (clean.tail) (Nat.le_of_succ_le_succ enough)]
          rfl
  | @offset _ char rest _ shut other named later ih =>
      cases turns with
      | zero => simp at enough
      | succ turns =>
          have fits : ((char :: rest).drop 6).length ≤ turns := by
            rw [List.length_drop]
            omega
          rw [scan_sql shut, if_neg other, if_pos named, ih (clean.tail) fits]
          rfl
  | kept whole later ih =>
      obtain ⟨next, passes, ends⟩ := whole.passes (clean _ (List.mem_cons_self ..))
      obtain ⟨left, fits, same⟩ := passes turns _ enough
      obtain ⟨last, known⟩ := Option.ne_none_iff_exists'.mp
        (mt List.getLast?_eq_none_iff.mp whole.filled)
      have tail := ih (clean.tail) fits
      rw [known] at same tail
      rw [same, List.flatMap_cons, ← tail]
      rcases ends with rfl | rfl
      · rfl
      · -- Nothing is left, so the state does not matter.
        cases left <;> rfl

/-! The readings of a text -/

theorem reads_exists (unicode : Unicode) (chunksQuery : Bool) (size : Nat)
    (previous : Option Char) (text : Text) (small : text.length ≤ size) :
    ∃ pieces, Reads unicode chunksQuery previous text pieces := by
  induction size generalizing previous text with
  | zero =>
      obtain rfl := List.length_eq_zero_iff.mp (Nat.le_zero.mp small)
      exact ⟨[], .done⟩
  | succ size ih =>
      cases text with
      | nil => exact ⟨[], .done⟩
      | cons char rest =>
          have less : rest.length ≤ size := Nat.le_of_succ_le_succ small
          by_cases opens : Opens char rest
          · obtain ⟨whole, more, same, kept⟩ := whole_of_opens opens
            have shorter : more.length ≤ size := by
              have filled := List.length_pos_iff.mpr kept.filled
              have length := congrArg List.length same
              rw [List.length_cons, List.length_append] at length
              omega
            obtain ⟨pieces, reads⟩ := ih whole.getLast? more shorter
            exact ⟨.kept whole :: pieces, same ▸ .kept kept reads⟩
          · by_cases mark : char = '?'
            · subst mark
              obtain ⟨pieces, reads⟩ := ih (some '?') rest less
              exact ⟨_, .question reads⟩
            · cases named : chunksQuery && offsetHere unicode previous (char :: rest) with
              | false =>
                  obtain ⟨pieces, reads⟩ := ih (some char) rest less
                  exact ⟨_, .plain opens mark named reads⟩
              | true =>
                  obtain ⟨pieces, reads⟩ := ih ((char :: rest).take 6).getLast?
                    ((char :: rest).drop 6) (by rw [List.length_drop]; omega)
                  exact ⟨_, .offset opens mark named reads⟩

/-! The driver -/

inductive Symbol
  | char (char : Char)
  | parameter
  deriving DecidableEq

/-- The driver reads a text that is sent with parameters: a doubled percent sign stands for
one, `%s` for the next parameter, and every other character for itself. -/
structure Driver where
  read : Text → Option (List Symbol)
  nil : read [] = some []
  percent : ∀ rest, read ('%' :: '%' :: rest) = (read rest).map (.char '%' :: ·)
  parameter : ∀ rest, read ('%' :: 's' :: rest) = (read rest).map (.parameter :: ·)
  char : ∀ char rest, char ≠ '%' → read (char :: rest) = (read rest).map (.char char :: ·)

/-- What a piece means: its own characters, a parameter, or the quoted column. -/
def Piece.symbols : Piece → List Symbol
  | .plain char => [.char char]
  | .question => [.parameter]
  | .offset _ => "\"offset\"".toList.map .char
  | .kept text => text.map .char

theorem Driver.read_chars (driver : Driver) (text rest : Text) :
    driver.read (text.flatMap (Postgres.percent true) ++ rest) =
      (driver.read rest).map (text.map .char ++ ·) := by
  induction text with
  | nil => simp
  | cons char text ih =>
      rw [List.flatMap_cons, List.append_assoc]
      by_cases sign : char = '%'
      · subst sign
        have twice : Postgres.percent true '%' = ['%', '%'] := rfl
        rw [twice, List.cons_append, List.cons_append, List.nil_append, driver.percent, ih,
          Option.map_map]
        rfl
      · rw [percent_other sign, List.singleton_append, driver.char char _ sign, ih,
          Option.map_map]
        rfl

theorem Driver.read_shown (driver : Driver) (pieces : List Piece) :
    driver.read (pieces.flatMap (Piece.shown true)) = some (pieces.flatMap Piece.symbols) := by
  induction pieces with
  | nil => exact driver.nil
  | cons piece pieces ih =>
      have chars (text : Text) (shown : piece.shown true = text.flatMap (Postgres.percent true))
          (meant : piece.symbols = text.map .char) :
          driver.read ((piece :: pieces).flatMap (Piece.shown true)) =
            some ((piece :: pieces).flatMap Piece.symbols) := by
        rw [List.flatMap_cons, List.flatMap_cons, shown, meant, driver.read_chars, ih]
        rfl
      cases piece with
      | plain char => exact chars [char] (List.flatMap_singleton ..).symm rfl
      | question =>
          have shown : Piece.question.shown true = ['%', 's'] := rfl
          rw [List.flatMap_cons, List.flatMap_cons, shown, List.cons_append, List.cons_append,
            List.nil_append, driver.parameter, ih]
          rfl
      | offset name => exact chars "\"offset\"".toList rfl rfl
      | kept text => exact chars text rfl rfl

/-! The translation -/

/-- The rewriting of a text before it is scanned. -/
inductive Rewritten (unicode : Unicode) (sql : Text) : Text → Prop
  | same (other : insertOrIgnore unicode sql = none) : Rewritten unicode sql sql
  | ignored {leading rest : Text}
      (found : insertOrIgnore unicode sql = some (leading, rest))
      (bare : closing unicode (leading ++ "INSERT INTO".toList ++ rest) = none) :
      Rewritten unicode sql (leading ++ "INSERT INTO".toList ++ rest ++ onConflict)
  | closed {leading rest front ending : Text}
      (found : insertOrIgnore unicode sql = some (leading, rest))
      (ends : closing unicode (leading ++ "INSERT INTO".toList ++ rest) = some (front, ending)) :
      Rewritten unicode sql (front ++ onConflict ++ ending)

theorem rewriteIgnore_rewritten (unicode : Unicode) (sql : Text) :
    Rewritten unicode sql (rewriteIgnore unicode sql) := by
  unfold rewriteIgnore
  split
  · rename_i other
    exact .same other
  · rename_i leading rest found
    dsimp only
    split
    · rename_i front ending ends
      exact .closed found ends
    · rename_i bare
      exact .ignored found bare

/-- Quoted texts, comments and all other characters are kept, and the parameters are the
unquoted question marks, in their order. -/
theorem placeholders_translated (unicode : Unicode) (driver : Driver) (sql : Text) :
    let text := rewriteIgnore unicode sql
    let chunksQuery := mentionsChunks unicode text
    Rewritten unicode sql text ∧
    (∃ pieces, Reads unicode chunksQuery none text pieces) ∧
    ∀ pieces, Reads unicode chunksQuery none text pieces → Clean pieces →
      driver.read (postgresSql unicode sql true) = some (pieces.flatMap Piece.symbols) ∧
      postgresSql unicode sql false = pieces.flatMap (Piece.shown false) := by
  intro text chunksQuery
  refine ⟨rewriteIgnore_rewritten unicode sql,
    reads_exists unicode chunksQuery text.length none text (Nat.le_refl _), ?_⟩
  intro pieces reads clean
  have shown (hasParameters : Bool) :
      postgresSql unicode sql hasParameters = pieces.flatMap (Piece.shown hasParameters) :=
    scan_reads reads clean (Nat.le_refl _)
  constructor
  · rw [shown true]
    exact driver.read_shown pieces
  · exact shown false

/-! A driver and two short texts -/

def unescape : Text → Option (List Symbol)
  | [] => some []
  | '%' :: '%' :: rest => (unescape rest).map (.char '%' :: ·)
  | '%' :: 's' :: rest => (unescape rest).map (.parameter :: ·)
  | '%' :: _ => none
  | char :: rest => (unescape rest).map (.char char :: ·)

def unescaping : Driver where
  read := unescape
  nil := rfl
  percent := fun _ => by rw [unescape]
  parameter := fun _ => by rw [unescape]
  char := fun char rest other => by
    rw [unescape]
    · intro more same
      exact absurd same other
    · intro more same
      exact absurd same other
    · exact other

def ascii : Unicode where
  alnum := Char.isAlphanum
  space := fun char => char = ' ' ∨ ('\t' ≤ char ∧ char ≤ '\r')
  lower := fun char => [char.toLower]
  same := fun left right => left.toLower = right.toLower

/-- A question mark, and another one in a string with a percent sign. -/
theorem placeholders_translated_sample :
    unescaping.read (postgresSql ascii "?'?%'".toList true) =
      some [.parameter, .char '\'', .char '?', .char '%', .char '\''] := by
  have whole : Whole "'?%'".toList [] :=
    .quoted (.inl rfl) (.plain (by decide) (.plain (by decide) .nil)) (by decide)
  have reads : Reads ascii (mentionsChunks ascii (rewriteIgnore ascii "?'?%'".toList)) none
      (rewriteIgnore ascii "?'?%'".toList) [.question, .kept "'?%'".toList] :=
    .question (.kept whole .done)
  refine ((placeholders_translated ascii unescaping "?'?%'".toList).2.2 _ reads ?_).1
  intro text member
  obtain rfl : text = "'?%'".toList := by simpa using member
  decide

/-- Words outside quotes that the translation changes by design. -/
theorem words_rewritten :
    postgresSql ascii "SELECT offset FROM chunks".toList false =
        "SELECT \"offset\" FROM chunks".toList ∧
      postgresSql ascii "INSERT OR IGNORE INTO watches VALUES (1); ".toList false =
        "INSERT INTO watches VALUES (1) ON CONFLICT DO NOTHING; ".toList := by
  have insert : "INSERT OR IGNORE INTO watches VALUES (1); " =
      "INSERT OR IGNORE INTO" ++ " watches VALUES (1); " := rfl
  have ignored : "INSERT INTO watches VALUES (1) ON CONFLICT DO NOTHING; " =
      "INSERT INTO watches VALUES (1)" ++ " ON CONFLICT DO NOTHING; " := rfl
  rw [insert, ignored, String.toList_append, String.toList_append]
  constructor <;> decide +kernel

end MsgServer.Postgres
