import Mathlib.Data.List.Induction
import Mathlib.Data.List.TakeWhile
import MsgServer.Plugins.Segments

/-!
The scanner of lines and its candidates. Two scans in a row know the same as one scan of the
whole text, except where the cut falls between the start of a line and the third mark of a
fence: the first scan has not seen the fence yet and the second does not begin a line.
-/

namespace MsgServer.Segments

open Library Library.Members Codec

/-! Lines -/

theorem splitlines_plain {first : Char} (plain : isLineBreak first = false) (rest : Text) :
    splitlines (first :: rest) =
      (first :: (splitlines rest).head?.getD []) :: (splitlines rest).tail := by
  rw [splitlines]
  · rw [if_neg (by rw [plain]; decide)]
    cases splitlines rest <;> rfl
  · rintro rest rfl
    exact absurd plain (by decide)

theorem splitlines_break {first : Char} (ends : isLineBreak first = true) {rest : Text}
    (single : first = '\r' → rest.head? ≠ some '\n') :
    splitlines (first :: rest) = [first] :: splitlines rest := by
  rw [splitlines]
  · rw [if_pos ends]
  · rintro more rfl rfl
    exact single rfl rfl

theorem splitlines_crlf (rest : Text) :
    splitlines ('\r' :: '\n' :: rest) = ['\r', '\n'] :: splitlines rest := by
  rw [splitlines]

/-- Induction over a text the way its lines are read: a character inside a line, a line break
of one character, and the break of two. -/
@[elab_as_elim]
theorem lines_induction {motive : Text → Prop} (nil : motive [])
    (plain : ∀ first rest, isLineBreak first = false → motive rest → motive (first :: rest))
    (ends : ∀ first rest, isLineBreak first = true → (first = '\r' → rest.head? ≠ some '\n') →
      motive rest → motive (first :: rest))
    (crlf : ∀ rest, motive rest → motive ('\r' :: '\n' :: rest)) (text : Text) :
    motive text := by
  induction size : text.length using Nat.strong_induction_on generalizing text with
  | _ count ih =>
      subst size
      cases text with
      | nil => exact nil
      | cons first rest =>
          have tail := ih rest.length (by simp) rest rfl
          cases kind : isLineBreak first with
          | false => exact plain first rest kind tail
          | true =>
              by_cases both : first = '\r' ∧ rest.head? = some '\n'
              · obtain ⟨rfl, next⟩ := both
                obtain ⟨more, rfl⟩ := List.head?_eq_some_iff.mp next
                have less : more.length < ('\r' :: '\n' :: more).length := by
                  rw [List.length_cons, List.length_cons]
                  omega
                exact crlf more (ih more.length less more rfl)
              · exact ends first rest kind (fun same next => both ⟨same, next⟩) tail

theorem flatten_splitlines (text : Text) : (splitlines text).flatten = text := by
  induction text using lines_induction with
  | nil => rfl
  | plain first rest plain ih =>
      rw [splitlines_plain plain]
      cases lines : splitlines rest with
      | nil => rw [lines] at ih; rw [← ih]; rfl
      | cons line lines => rw [lines] at ih; rw [← ih]; rfl
  | ends first rest ends single ih =>
      rw [splitlines_break ends single, List.flatten_cons, ih, List.singleton_append]
  | crlf rest ih =>
      rw [splitlines_crlf, List.flatten_cons, ih]
      rfl

theorem line_ne_nil {text line : Text} (member : line ∈ splitlines text) : line ≠ [] := by
  induction text using lines_induction with
  | nil => exact absurd member List.not_mem_nil
  | plain first rest plain ih =>
      rw [splitlines_plain plain] at member
      obtain rfl | later := List.mem_cons.mp member
      · exact List.cons_ne_nil _ _
      · exact ih (List.mem_of_mem_tail later)
  | ends first rest ends single ih =>
      rw [splitlines_break ends single] at member
      obtain rfl | later := List.mem_cons.mp member
      · exact List.cons_ne_nil _ _
      · exact ih later
  | crlf rest ih =>
      rw [splitlines_crlf] at member
      obtain rfl | later := List.mem_cons.mp member
      · exact List.cons_ne_nil _ _
      · exact ih later

theorem splitlines_eq_nil {text : Text} (none : splitlines text = []) : text = [] := by
  rw [← flatten_splitlines text, none, List.flatten_nil]

/-- The first lines of a text are the lines of the beginning that they make up. -/
theorem splitlines_front {text : Text} {front back : List Text}
    (lines : splitlines text = front ++ back) : splitlines front.flatten = front := by
  induction text using lines_induction generalizing front with
  | nil =>
      obtain ⟨rfl, -⟩ := List.append_eq_nil_iff.mp lines.symm
      rfl
  | plain first rest plain ih =>
      rw [splitlines_plain plain] at lines
      cases front with
      | nil => rfl
      | cons line front =>
          rw [List.cons_append] at lines
          obtain ⟨rfl, tails⟩ := List.cons.inj lines
          rw [List.flatten_cons, List.cons_append, splitlines_plain plain]
          cases tail : splitlines rest with
          | nil =>
              rw [tail] at tails
              obtain ⟨rfl, -⟩ := List.append_eq_nil_iff.mp tails.symm
              rfl
          | cons second others =>
              rw [tail, List.tail_cons] at tails
              have both : splitlines rest = (second :: front) ++ back := by
                rw [tail, tails, List.cons_append]
              have whole := ih both
              rw [List.flatten_cons] at whole
              rw [List.head?_cons, Option.getD_some, whole]
              rfl
  | ends first rest ends single ih =>
      rw [splitlines_break ends single] at lines
      cases front with
      | nil => rfl
      | cons line front =>
          rw [List.cons_append] at lines
          obtain ⟨rfl, tails⟩ := List.cons.inj lines
          rw [List.flatten_cons, List.singleton_append, splitlines_break ends, ih tails]
          intro same next
          apply single same
          -- the lines that follow begin what follows
          rw [← flatten_splitlines rest, tails, List.flatten_append]
          cases shape : front.flatten with
          | nil => rw [shape] at next; exact absurd next (by simp)
          | cons char others => rw [shape] at next; exact next
  | crlf rest ih =>
      rw [splitlines_crlf] at lines
      cases front with
      | nil => rfl
      | cons line front =>
          rw [List.cons_append] at lines
          obtain ⟨rfl, tails⟩ := List.cons.inj lines
          rw [List.flatten_cons]
          show splitlines ('\r' :: '\n' :: front.flatten) = _
          rw [splitlines_crlf, ih tails]

theorem isComplete_cons {first : Char} (plain : isLineBreak first = false) (line : Text) :
    isComplete (first :: line) = isComplete line := by
  cases line with
  | nil =>
      have other : first ≠ '\n' := by
        rintro rfl
        exact absurd plain (by decide)
      simp [isComplete, other]
  | cons second line => rw [isComplete, isComplete, List.getLast?_cons_cons]

/-- How the lines of two texts in a row meet: the cut falls between two lines, or it falls
inside of one and leaves an incomplete part of it behind. -/
inductive Meet (first second : Text) : Prop
  | apart (lines : splitlines (first ++ second) = splitlines first ++ splitlines second)
      (ends : ∀ char ∈ first.getLast?, isLineBreak char = true)
  | inside (front : List Text) (part next : Text) (rest : List Text)
      (left : splitlines first = front ++ [part]) (right : splitlines second = next :: rest)
      (lines : splitlines (first ++ second) = front ++ (part ++ next) :: rest)
      (alone : splitlines part = [part])
      (joined : splitlines (part ++ second) = (part ++ next) :: rest)
      (incomplete : isComplete part = false)

theorem Meet.behind {first second : Text} (before : Text) {line : Text} (meet : Meet first second)
    (filled : first ≠ [])
    (left : splitlines (before ++ first) = line :: splitlines first)
    (whole : splitlines (before ++ (first ++ second)) = line :: splitlines (first ++ second)) :
    Meet (before ++ first) second := by
  cases meet with
  | apart lines ends =>
      apply Meet.apart
      · rw [List.append_assoc, whole, lines, left, List.cons_append]
      · intro char last
        rw [List.getLast?_append_of_ne_nil _ filled] at last
        exact ends char last
  | inside front part next rest first' second' lines alone joined incomplete =>
      apply Meet.inside (line :: front) part next rest _ second' _ alone joined incomplete
      · rw [left, first', List.cons_append]
      · rw [List.append_assoc, whole, lines, List.cons_append]

theorem splitlines_meet (first second : Text) (filled : first ≠ []) (more : second ≠ []) :
    Meet first second := by
  induction first using lines_induction with
  | nil => exact absurd rfl filled
  | plain char rest plain ih =>
      cases rest with
      | nil =>
          -- the line of the first text is joined to the first line of the second
          cases lines : splitlines second with
          | nil => exact absurd (splitlines_eq_nil lines) more
          | cons next others =>
              have whole : splitlines ([char] ++ second) = ([char] ++ next) :: others := by
                rw [List.singleton_append, splitlines_plain plain, lines]
                rfl
              have alone : splitlines [char] = [[char]] := splitlines_plain plain []
              apply Meet.inside [] [char] next others alone lines whole alone whole
              exact isComplete_cons plain []
      | cons other rest =>
          have filled : other :: rest ≠ [] := List.cons_ne_nil _ _
          cases ih filled with
          | apart lines ends =>
              apply Meet.apart
              · rw [List.cons_append, splitlines_plain plain, splitlines_plain plain, lines]
                cases left : splitlines (other :: rest) with
                | nil => exact absurd (splitlines_eq_nil left) filled
                | cons line others => rfl
              · intro last
                rw [List.getLast?_cons_cons]
                exact ends last
          | inside front part next others left right lines alone joined incomplete =>
              cases front with
              | nil =>
                  apply Meet.inside [] (char :: part) next others
                  · rw [splitlines_plain plain, left]
                    rfl
                  · exact right
                  · rw [List.cons_append, splitlines_plain plain, lines]
                    rfl
                  · rw [splitlines_plain plain, alone]
                    rfl
                  · rw [List.cons_append, splitlines_plain plain, joined]
                    rfl
                  · rw [isComplete_cons plain, incomplete]
              | cons line front =>
                  apply Meet.inside ((char :: line) :: front) part next others
                  · rw [splitlines_plain plain, left]
                    rfl
                  · exact right
                  · rw [List.cons_append, splitlines_plain plain, lines]
                    rfl
                  · exact alone
                  · exact joined
                  · exact incomplete
  | ends char rest ends single ih =>
      cases rest with
      | nil =>
          by_cases both : char = '\r' ∧ second.head? = some '\n'
          · -- the cut falls inside of the break of two
            obtain ⟨rfl, next⟩ := both
            obtain ⟨others, rfl⟩ := List.head?_eq_some_iff.mp next
            have alone : splitlines ['\r'] = [['\r']] := splitlines_break ends (by simp)
            have right : splitlines ('\n' :: others) = ['\n'] :: splitlines others :=
              splitlines_break (by decide) fun same => absurd same (by decide)
            exact Meet.inside [] ['\r'] ['\n'] (splitlines others) alone right
              (splitlines_crlf others) alone (splitlines_crlf others) rfl
          · apply Meet.apart
            · have alone : splitlines [char] = [[char]] := splitlines_break ends (by simp)
              rw [List.singleton_append,
                splitlines_break ends fun same next => both ⟨same, next⟩, alone]
              rfl
            · intro last same
              obtain rfl := Option.some.inj same
              exact ends
      | cons other rest =>
          have filled : other :: rest ≠ [] := List.cons_ne_nil _ _
          exact (ih filled).behind [char] filled (splitlines_break ends single)
            (splitlines_break ends single)
  | crlf rest ih =>
      by_cases filled : rest = []
      · subst filled
        apply Meet.apart
        · exact splitlines_crlf second
        · intro last same
          obtain rfl := Option.some.inj same
          decide
      · exact (ih filled).behind ['\r', '\n'] filled (splitlines_crlf rest)
          (splitlines_crlf _)

/-! Fences -/

/-- A blank that stays inside its line. -/
def isBlank (char : Char) : Bool := isSpace char && !isLineBreak char

/-- The text begins with blanks and the three marks of a fence. -/
def opens (text : Text) : Bool := isMarker (text.dropWhile isBlank)

def marks : List Text := [['`', '`', '`'], ['~', '~', '~']]

theorem isMarker_iff {text : Text} : isMarker text = true ↔ ∃ mark ∈ marks, mark <+: text := by
  simp only [isMarker, Bool.or_eq_true, List.isPrefixOf_iff_prefix, marks, List.mem_cons,
    List.not_mem_nil, or_false, exists_eq_or_imp, exists_eq_left]

theorem marks_visible : ∀ mark ∈ marks, ∀ char ∈ mark,
    isSpace char = false ∧ isLineBreak char = false := by decide

theorem isMarker_append {text : Text} (marked : isMarker text = true) (more : Text) :
    isMarker (text ++ more) = true := by
  obtain ⟨mark, member, begins⟩ := isMarker_iff.mp marked
  exact isMarker_iff.mpr ⟨mark, member, begins.trans (List.prefix_append _ _)⟩

/-- Blanks at the end do not matter to what has none at its beginning. -/
theorem prefix_trimmed {mark : Text} (visible : ∀ char ∈ mark, isSpace char = false)
    (text : Text) :
    mark <+: (text.reverse.dropWhile isSpace).reverse ↔ mark <+: text := by
  have cut : (text.reverse.dropWhile isSpace).reverse ++ (text.reverse.takeWhile isSpace).reverse =
      text := by
    rw [← List.reverse_append, List.takeWhile_append_dropWhile, List.reverse_reverse]
  have spaces : ∀ char ∈ (text.reverse.takeWhile isSpace).reverse, isSpace char = true := by
    intro char member
    exact List.mem_takeWhile_imp (List.mem_reverse.mp member)
  generalize (text.reverse.dropWhile isSpace).reverse = left at cut ⊢
  generalize (text.reverse.takeWhile isSpace).reverse = right at cut spaces
  subst cut
  constructor
  · intro begins
    exact begins.trans (List.prefix_append _ _)
  · intro begins
    obtain inside | ⟨rest, rfl⟩ :=
      List.prefix_or_prefix_of_prefix begins (List.prefix_append left right)
    · exact inside
    · cases rest with
      | nil => simp
      | cons char rest =>
          have next := (List.prefix_append_right_inj left).mp begins
          have member := next.subset List.mem_cons_self
          have seen := visible char (List.mem_append_right _ List.mem_cons_self)
          rw [spaces char member] at seen
          exact absurd seen (by decide)

theorem isMarker_strip (text : Text) : isMarker (strip text) = isMarker (text.dropWhile isSpace) := by
  rw [Bool.eq_iff_iff, isMarker_iff, isMarker_iff]
  apply exists_congr
  intro mark
  apply and_congr_right
  intro member
  exact prefix_trimmed (fun char inside => (marks_visible mark member char inside).1) _

theorem head_line {char : Char} {text line : Text} {lines : List Text}
    (shape : splitlines (char :: text) = line :: lines) : line.head? = some char := by
  have whole := flatten_splitlines (char :: text)
  have filled : line ≠ [] := line_ne_nil (by rw [shape]; exact List.mem_cons_self)
  rw [shape, List.flatten_cons] at whole
  cases line with
  | nil => exact absurd rfl filled
  | cons first line =>
      obtain ⟨rfl, -⟩ := List.cons.inj whole
      rfl

/-- What holds no line break begins a text where it begins the first line. -/
theorem prefix_line {mark : Text} (plain : ∀ char ∈ mark, isLineBreak char = false) (text : Text) :
    mark <+: (splitlines text).head?.getD [] ↔ mark <+: text := by
  induction mark generalizing text with
  | nil => exact iff_of_true List.nil_prefix List.nil_prefix
  | cons char mark ih =>
      have first := plain char List.mem_cons_self
      have rest := ih fun other member => plain other (List.mem_cons_of_mem _ member)
      cases text with
      | nil => rfl
      | cons other text =>
          by_cases same : char = other
          · subst same
            rw [splitlines_plain first, List.head?_cons, Option.getD_some, List.prefix_cons_inj,
              List.prefix_cons_inj]
            exact rest text
          · cases shape : splitlines (other :: text) with
            | nil => exact absurd (splitlines_eq_nil shape) (List.cons_ne_nil _ _)
            | cons line lines =>
                obtain ⟨line, rfl⟩ := List.head?_eq_some_iff.mp (head_line shape)
                rw [List.head?_cons, Option.getD_some, List.cons_prefix_cons, List.cons_prefix_cons]
                exact iff_of_false (fun both => same both.1) (fun both => same both.1)

theorem isMarker_line {text line : Text} {lines : List Text}
    (shape : splitlines text = line :: lines) : isMarker line = isMarker text := by
  rw [Bool.eq_iff_iff, isMarker_iff, isMarker_iff]
  apply exists_congr
  intro mark
  apply and_congr_right
  intro member
  have same := prefix_line (fun char inside => (marks_visible mark member char inside).2) text
  rw [shape, List.head?_cons, Option.getD_some] at same
  exact same

theorem isMarker_break {first : Char} (ends : isLineBreak first = true) (rest : Text) :
    isMarker (first :: rest) = false := by
  rw [Bool.eq_false_iff, ne_eq, isMarker_iff]
  rintro ⟨mark, member, begins⟩
  have seen := marks_visible mark member
  cases mark with
  | nil => exact absurd member (by decide)
  | cons char mark =>
      obtain ⟨rfl, -⟩ := List.cons_prefix_cons.mp begins
      rw [(seen char List.mem_cons_self).2] at ends
      exact absurd ends (by decide)

/-- Whether a line is one of a fence can be read off the text that it begins. -/
theorem opens_line {text line : Text} {lines : List Text}
    (shape : splitlines text = line :: lines) : isMarker (strip line) = opens text := by
  rw [isMarker_strip, opens]
  induction text using lines_induction generalizing line lines with
  | nil => exact absurd shape (List.cons_ne_nil _ _).symm
  | plain first rest plain ih =>
      have whole := shape
      rw [splitlines_plain plain] at shape
      obtain ⟨rfl, -⟩ := List.cons.inj shape
      by_cases space : isSpace first
      · have blank : isBlank first = true := by rw [isBlank, space, plain]; rfl
        rw [List.dropWhile_cons_of_pos space, List.dropWhile_cons_of_pos blank]
        cases tail : splitlines rest with
        | nil =>
            rw [splitlines_eq_nil tail]
            rfl
        | cons second others => exact ih tail
      · have visible : ¬ isBlank first = true := by
          rw [isBlank, Bool.and_eq_true]
          exact fun both => space both.1
        rw [List.dropWhile_cons_of_neg space, List.dropWhile_cons_of_neg visible]
        exact isMarker_line whole
  | ends first rest ends single ih =>
      rw [splitlines_break ends single] at shape
      obtain ⟨rfl, -⟩ := List.cons.inj shape
      have space : isSpace first = true := by rw [isSpace, ends]; rfl
      have stays : ¬ isBlank first = true := by rw [isBlank, ends, space]; decide
      rw [List.dropWhile_cons_of_pos space, List.dropWhile_cons_of_neg stays, isMarker_break ends]
      rfl
  | crlf rest ih =>
      rw [splitlines_crlf] at shape
      obtain ⟨rfl, -⟩ := List.cons.inj shape
      have spaces : ['\r', '\n'].dropWhile isSpace = [] := by decide
      rw [spaces, List.dropWhile_cons_of_neg (by decide), isMarker_break (by decide)]
      rfl

theorem opens_append {text : Text} (marked : opens text = true) (more : Text) :
    opens (text ++ more) = true := by
  rw [opens] at marked ⊢
  have filled : (text.dropWhile isBlank).isEmpty = false := by
    cases rest : text.dropWhile isBlank with
    | nil => rw [rest] at marked; exact absurd marked (by decide)
    | cons => rfl
  rw [List.dropWhile_append, if_neg (by rw [filled]; decide)]
  exact isMarker_append marked more

/-- A beginning of a fence that is none itself holds no line break. -/
theorem opens_part {part more : Text} (short : opens part = false)
    (marked : opens (part ++ more) = true) : ∀ char ∈ part, isLineBreak char = false := by
  induction part with
  | nil => exact fun char member => absurd member List.not_mem_nil
  | cons first part ih =>
      by_cases blank : isBlank first = true
      · have inside : isLineBreak first = false := by
          rw [isBlank, Bool.and_eq_true, Bool.not_eq_true'] at blank
          exact blank.2
        rw [opens, List.dropWhile_cons_of_pos blank] at short
        rw [opens, List.cons_append, List.dropWhile_cons_of_pos blank] at marked
        exact List.forall_mem_cons.mpr ⟨inside, ih short marked⟩
      · rw [opens, List.dropWhile_cons_of_neg blank] at short
        rw [opens, List.cons_append, List.dropWhile_cons_of_neg blank] at marked
        obtain ⟨mark, member, begins⟩ := isMarker_iff.mp marked
        obtain inside | outside := List.prefix_or_prefix_of_prefix begins
          (List.prefix_append (first :: part) more)
        · rw [isMarker_iff.mpr ⟨mark, member, inside⟩] at short
          exact absurd short (by decide)
        · intro char within
          exact (marks_visible mark member char (outside.subset within)).2

/-! Two scans in a row -/

/-- What the scanner knows behind a line: whether a fence is open and whether a line starts. -/
def advance (state : Bool × Bool) (line : Text) : Bool × Bool :=
  (if state.2 && isMarker (strip line) then !state.1 else state.1, isComplete line)

def Scan.state (scan : Scan) : Bool × Bool := (scan.inFence, scan.atLineStart)

/-- One scan of a text. -/
def scanText (state : Bool × Bool) (text : Text) : Bool × Bool :=
  ((splitlines text).foldl Scan.line (Scan.first state.1 state.2)).state

@[simp] theorem line_state (scan : Scan) (line : Text) :
    (scan.line line).state = advance scan.state line := by
  rw [Scan.line, Scan.state, advance, Scan.state]
  cases fence : scan.atLineStart && isMarker (strip line) with
  | true => simp
  | false =>
      simp only [Bool.false_eq_true, if_false]
      split
      · rfl
      · split <;> rfl

theorem lines_state (lines : List Text) (scan : Scan) :
    (lines.foldl Scan.line scan).state = lines.foldl advance scan.state := by
  induction lines generalizing scan with
  | nil => rfl
  | cons line lines ih => rw [List.foldl_cons, ih, line_state, List.foldl_cons]

theorem scanText_lines (state : Bool × Bool) (text : Text) :
    scanText state text = (splitlines text).foldl advance state := by
  rw [scanText, lines_state]
  rfl

/-- The cut between two texts falls behind the start of a line and before the third mark of
the fence that the line opens or closes. -/
def Splits (first second : Text) : Prop :=
  ∃ before part, first = before ++ part ∧ part ≠ [] ∧
    (before = [] ∨ before.getLast? = some '\n') ∧
    opens part = false ∧ opens (part ++ second) = true

theorem isComplete_append (first : Text) {second : Text} (filled : second ≠ []) :
    isComplete (first ++ second) = isComplete second := by
  rw [isComplete, isComplete, List.getLast?_append_of_ne_nil _ filled]

theorem foldl_start (lines : List Text) (state : Bool × Bool) :
    (lines.foldl advance state).2 =
      match lines.getLast? with
      | none => state.2
      | some line => isComplete line := by
  induction lines using List.reverseRecOn with
  | nil => rfl
  | append_singleton lines line ih =>
      rw [List.foldl_append, List.getLast?_append_of_ne_nil _ (List.cons_ne_nil _ _)]
      rfl

/-- A line starts at the beginning and behind a newline. -/
theorem front_start {front : List Text} (fence : Bool) (filled : ∀ line ∈ front, line ≠ []) :
    (front.foldl advance (fence, true)).2 = true ↔
      front.flatten = [] ∨ front.flatten.getLast? = some '\n' := by
  rw [foldl_start]
  induction front using List.reverseRecOn with
  | nil => simp
  | append_singleton front line ih =>
      have some : line ≠ [] := filled line (List.mem_append_right _ List.mem_cons_self)
      have none : (front ++ [line]).flatten ≠ [] := by
        rw [List.flatten_append, List.flatten_singleton]
        exact List.append_ne_nil_of_right_ne_nil _ some
      rw [List.flatten_append, List.flatten_singleton] at none ⊢
      rw [List.getLast?_append_of_ne_nil _ some, List.getLast?_append_of_ne_nil _ (List.cons_ne_nil _ _)]
      simp [isComplete, none, some]

theorem splitlines_line {part : Text} (filled : part ≠ [])
    (plain : ∀ char ∈ part, isLineBreak char = false) : splitlines part = [part] := by
  induction part with
  | nil => exact absurd rfl filled
  | cons first part ih =>
      rw [splitlines_plain (plain first List.mem_cons_self)]
      cases part with
      | nil => rfl
      | cons second part =>
          rw [ih (List.cons_ne_nil _ _) fun char member =>
            plain char (List.mem_cons_of_mem _ member)]
          rfl

/-- Behind a newline the lines of what follows are on their own. -/
theorem splitlines_complete {before text : Text} (filled : text ≠ [])
    (complete : before = [] ∨ before.getLast? = some '\n') :
    splitlines (before ++ text) = splitlines before ++ splitlines text := by
  by_cases none : before = []
  · subst none
    rfl
  · have last := complete.resolve_left none
    cases splitlines_meet before text none filled with
    | apart lines => exact lines
    | inside front part next rest left right lines alone joined incomplete =>
        have whole := flatten_splitlines before
        have member : part ∈ splitlines before := by
          rw [left]
          exact List.mem_append_right _ List.mem_cons_self
        have some := line_ne_nil member
        rw [left, List.flatten_append, List.flatten_singleton] at whole
        have same := isComplete_append front.flatten some
        rw [whole, incomplete, isComplete, last] at same
        exact absurd same (by decide)

/-- With the other fence the scanner goes on the same way and ends with the other fence. -/
theorem foldl_toggle (lines : List Text) (fence start : Bool) :
    lines.foldl advance (!fence, start) =
      (!(lines.foldl advance (fence, start)).1, (lines.foldl advance (fence, start)).2) := by
  induction lines generalizing fence start with
  | nil => rfl
  | cons line lines ih =>
      rw [List.foldl_cons, List.foldl_cons, advance, advance]
      cases start && isMarker (strip line) with
      | true => exact ih (!fence) _
      | false => exact ih fence _

theorem splits_inside {first second : Text} {front : List Text} {part : Text} (fence : Bool)
    (left : splitlines first = front ++ [part]) :
    Splits first second ↔ (front.foldl advance (fence, true)).2 = true ∧
      opens part = false ∧ opens (part ++ second) = true := by
  have filled : ∀ line ∈ front ++ [part], line ≠ [] := by
    rw [← left]
    exact fun line member => line_ne_nil member
  have lines := front_start fence fun line member =>
    filled line (List.mem_append_left _ member)
  constructor
  · rintro ⟨before, piece, rfl, some, complete, short, marked⟩
    have alone := splitlines_line some (opens_part short marked)
    rw [splitlines_complete some complete, alone] at left
    obtain ⟨rfl, same⟩ := List.append_inj' left rfl
    obtain rfl := List.singleton_inj.mp same
    refine ⟨?_, short, marked⟩
    rw [lines, flatten_splitlines]
    exact complete
  · rintro ⟨start, short, marked⟩
    refine ⟨front.flatten, part, ?_, filled part (by simp), lines.mp start, short, marked⟩
    rw [← flatten_splitlines first, left, List.flatten_append, List.flatten_singleton]

/-- The second scan goes on as one scan would if and only if the cut splits no fence. -/
theorem scanText_append (first second : Text) :
    scanText (scanText (false, true) first) second = scanText (false, true) (first ++ second) ↔
      ¬ Splits first second := by
  by_cases filled : first = []
  · subst filled
    apply iff_of_true rfl
    rintro ⟨before, part, whole, some, -⟩
    exact some (List.append_eq_nil_iff.mp whole.symm).2
  by_cases more : second = []
  · subst more
    rw [List.append_nil]
    apply iff_of_true rfl
    rintro ⟨before, part, -, -, -, short, marked⟩
    rw [List.append_nil, short] at marked
    exact absurd marked (by decide)
  rw [scanText_lines, scanText_lines, scanText_lines]
  cases splitlines_meet first second filled more with
  | apart lines ends =>
      apply iff_of_true
      · rw [lines, List.foldl_append]
      · rintro ⟨before, part, rfl, some, -, short, marked⟩
        have plain := opens_part short marked _ (List.getLast_mem some)
        have last := ends (part.getLast some) (by
          rw [List.getLast?_append_of_ne_nil _ some]
          exact List.getLast?_eq_getLast_of_ne_nil some)
        rw [plain] at last
        exact absurd last (by decide)
  | inside front part next rest left right lines alone joined incomplete =>
      rw [splits_inside false left, left, right, lines, List.foldl_append,
        List.foldl_append, List.foldl_cons, List.foldl_cons, List.foldl_cons, List.foldl_nil]
      have member : next ∈ splitlines second := by
        rw [right]
        exact List.mem_cons_self
      have ends := isComplete_append part (line_ne_nil member)
      generalize front.foldl advance (false, true) = state
      simp only [advance, incomplete, ends, opens_line alone, opens_line joined, Bool.false_and]
      obtain ⟨fence, start⟩ := state
      -- the fence is another one where the cut hides a mark
      cases short : opens part with
      | true =>
          rw [opens_append short second]
          simp
      | false =>
          cases marked : opens (part ++ second) with
          | false => simp
          | true =>
              cases start with
              | false => simp
              | true =>
                  have other := foldl_toggle rest fence (isComplete next)
                  simp only [Bool.true_and, Bool.false_eq_true, if_false, if_true, other]
                  apply iff_of_false
                  · intro same
                    have fences := congrArg Prod.fst same
                    simp at fences
                  · exact fun none => none ⟨trivial, trivial, trivial⟩

/-! Candidates -/

/-- A candidate of a line stands before or behind it, with what the scanner knows there. -/
theorem line_candidate {scan : Scan} {line : Text} {candidate : Nat × Bool × Bool}
    (member : candidate ∈ (scan.line line).candidate) :
    candidate ∈ scan.candidate ∨ candidate = (scan.scanned, scan.state) ∨
      candidate = (scan.scanned + line.length, (scan.line line).state) := by
  rw [line_state, advance, Scan.state]
  simp only [Scan.line] at member
  by_cases start : (scan.atLineStart && isMarker (strip line)) = true
  · rw [if_pos start] at member
    rw [if_pos start]
    by_cases closes : (!!scan.inFence && isComplete line) = true
    · -- the line closes a fence
      rw [if_pos closes] at member
      rw [Bool.and_eq_true] at closes
      rw [closes.2]
      exact .inr (.inr (Option.some.inj member).symm)
    · rw [if_neg closes] at member
      exact .inl member
  · rw [if_neg start] at member
    rw [if_neg start]
    by_cases heading : (!scan.inFence && scan.atLineStart && decide (line.head? = some '#') &&
        decide (scan.scanned ≠ 0)) = true
    · rw [if_pos heading] at member
      simp only [Bool.and_eq_true] at heading
      rw [heading.1.1.2]
      exact .inr (.inl (Option.some.inj member).symm)
    · rw [if_neg heading] at member
      by_cases blank : (!scan.inFence && decide (strip line = []) && isComplete line) = true
      · rw [if_pos blank] at member
        rw [Bool.and_eq_true] at blank
        rw [blank.2]
        exact .inr (.inr (Option.some.inj member).symm)
      · rw [if_neg blank] at member
        exact .inl member

/-- What the loop knows after some lines: a candidate stands behind some of them, with what
the scanner knew there. -/
structure Behind (state : Bool × Bool) (lines : List Text) (scan : Scan) : Prop where
  scanned : scan.scanned = lines.flatten.length
  known : scan.state = lines.foldl advance state
  candidate : ∀ candidate ∈ scan.candidate, ∃ front back, lines = front ++ back ∧
    candidate = (front.flatten.length, front.foldl advance state)

theorem behind_first (state : Bool × Bool) : Behind state [] (Scan.first state.1 state.2) :=
  ⟨rfl, rfl, fun _ none => absurd none (Option.not_mem_none _)⟩

theorem Behind.line {state : Bool × Bool} {lines : List Text} {scan : Scan}
    (behind : Behind state lines scan) (line : Text) :
    Behind state (lines ++ [line]) (scan.line line) := by
  have scanned : scan.scanned + line.length = (lines ++ [line]).flatten.length := by
    rw [List.flatten_append, List.flatten_singleton, List.length_append, behind.scanned]
  have known : (scan.line line).state = (lines ++ [line]).foldl advance state := by
    rw [line_state, behind.known, List.foldl_append, List.foldl_cons, List.foldl_nil]
  constructor
  · exact scanned
  · exact known
  · intro candidate member
    obtain old | rfl | rfl := line_candidate member
    · obtain ⟨front, back, rfl, same⟩ := behind.candidate candidate old
      exact ⟨front, back ++ [line], List.append_assoc _ _ _, same⟩
    · exact ⟨lines, [line], rfl, by rw [behind.scanned, behind.known]⟩
    · exact ⟨lines ++ [line], [], (List.append_nil _).symm, by rw [scanned, known]⟩

theorem behind_lines (state : Bool × Bool) (lines : List Text) :
    Behind state lines (lines.foldl Scan.line (Scan.first state.1 state.2)) := by
  induction lines using List.reverseRecOn with
  | nil => exact behind_first state
  | append_singleton lines line ih =>
      rw [List.foldl_append]
      exact ih.line line

end MsgServer.Segments
