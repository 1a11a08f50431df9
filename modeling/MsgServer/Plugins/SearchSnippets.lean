import MsgServer.Core.ExactPatch
import MsgServer.Library.Expansion

/-!
The lexical match and the snippet of a search in plugins/discovery.py. `str.casefold` acts
character by character: the parameter `fold` gives what one character becomes, which may be
two or three characters, and a border of a match may fall inside of them.
-/

namespace MsgServer.Search

open Library Library.Borders Library.Expansion TextPatch

variable (fold : Char → Text)

/-- `text.casefold()`. -/
def casefold (text : Text) : Text := text.flatMap fold

/-- The loop: the length of the folded text so far, the character the match starts in, the
index and the characters that are left. -/
def scanSpan (foldedStart foldedEnd : Nat) :
    Nat → Option Nat → Nat → Text → Except String (Option Nat × Nat)
  | _, _, _, [] => .error "casefold match outside source"
  | offset, start, index, char :: rest =>
      let offset := offset + (fold char).length
      let start := if start = none ∧ offset > foldedStart then some index else start
      if offset ≥ foldedEnd then .ok (start, index + 1)
      else scanSpan foldedStart foldedEnd offset start (index + 1) rest

def originalCasefoldSpan (text : Text) (foldedStart foldedEnd : Nat) :
    Except String (Option Nat × Nat) :=
  scanSpan fold foldedStart foldedEnd 0 none 0 text

/-- The keys of the searched texts; `title` is another key of the name. -/
inductive Key
  | name
  | title
  | body
  | metadata
  deriving DecidableEq

structure Resource where
  name : Text
  type : Text
  owner : Text
  group : Option Text

/-- `f'{resource.type} {resource.owner} {resource.group}'`. -/
def Resource.meta' (resource : Resource) : Text :=
  resource.type ++ ' ' :: resource.owner ++ ' ' :: resource.group.getD "None".toList

inductive Mode
  | all
  | any
  deriving DecidableEq

/-- The folded words and the phrase of the request; a missing field searches all texts. -/
structure Query where
  terms : List Text
  exact : Text
  excluded : List Text
  mode : Mode
  field : Option Key

/-- The body is read only where the field asks for it, and empty otherwise. -/
def active (query : Query) (resource : Resource) (body : Text) : List (Key × Text) :=
  match query.field with
  | none => [(.name, resource.name), (.body, body), (.metadata, resource.meta')]
  | some .name => [(.name, resource.name)]
  | some .title => [(.title, resource.name)]
  | some .body => [(.body, body)]
  | some .metadata => [(.metadata, resource.meta')]

/-- `part in text`. -/
abbrev Within (part text : Text) : Prop := part <:+: text

def lowered (texts : List (Key × Text)) : List Text := texts.map fun text => casefold fold text.2

def whole (texts : List (Key × Text)) : Text := [' '].intercalate (lowered fold texts)

/-- The three conditions on the texts of a result. -/
structure Matches (query : Query) (texts : List (Key × Text)) : Prop where
  terms : query.terms = [] ∨
    (match query.mode with
      | .all => ∀ term ∈ query.terms, Within term (whole fold texts)
      | .any => ∃ term ∈ query.terms, Within term (whole fold texts))
  exact : query.exact = [] ∨ ∃ value ∈ lowered fold texts, Within query.exact value
  excluded : ∀ term ∈ query.excluded, ¬ Within term (whole fold texts)

structure Snippet where
  field : Key
  text : Text
  range : Nat × Nat
  deriving DecidableEq

def needle (query : Query) (low : Text) : Text :=
  if query.exact ≠ [] ∧ Within query.exact low then query.exact
  else (query.terms.find? fun term => Within term low).getD []

/-- The window of forty characters on both sides. -/
def window (key : Key) (value : Text) : Option Nat × Nat → Except String Snippet
  | (none, _) => .error "unsupported operand type(s) for -: 'NoneType' and 'int'"
  | (some start, stop) =>
      let left := start - 40
      let right := min value.length (stop + 40)
      .ok { field := key, text := (value.take right).drop left,
            range := (start - left, stop - left) }

def mark (key : Key) (value needle : Text) : Except String Snippet :=
  match find (casefold fold value) needle 0 with
  | none => .error "substring not found"
  | some foldedStart => do
      let span ← originalCasefoldSpan fold value foldedStart (foldedStart + needle.length)
      window key value span

def snippet (query : Query) : List (Key × Text) → Except String (Option Snippet)
  | [] => .ok none
  | (key, value) :: rest =>
      let needle := needle query (casefold fold value)
      if needle = [] then snippet query rest
      else (mark fold key value needle).map some

/-! The span -/

section

variable {fold} {text : Text} {foldedStart foldedEnd : Nat}

/-- What the loop knows of the start after some characters: nothing as long as the folded
text does not pass it, and then the character it falls in. -/
def Started (fold : Char → Text) (text : Text) (foldedStart count : Nat) : Option Nat → Prop
  | none => reach fold text count ≤ foldedStart
  | some first => reach fold text first ≤ foldedStart ∧ foldedStart < reach fold text (first + 1)

theorem started_step {count : Nat} {start : Option Nat}
    (started : Started fold text foldedStart count start) :
    Started fold text foldedStart (count + 1)
      (if start = none ∧ reach fold text (count + 1) > foldedStart then some count
        else start) := by
  cases start with
  | some first =>
      rw [if_neg (by simp)]
      exact started
  | none =>
      by_cases passed : reach fold text (count + 1) > foldedStart
      · rw [if_pos ⟨rfl, passed⟩]
        exact ⟨started, passed⟩
      · rw [if_neg fun both => passed both.2]
        exact Nat.le_of_not_lt passed

/-- Behind the start it is known. -/
theorem started_passed {count : Nat} {start : Option Nat}
    (started : Started fold text foldedStart count start)
    (passed : foldedStart < reach fold text count) :
    ∃ first, start = some first ∧ reach fold text first ≤ foldedStart ∧
      foldedStart < reach fold text (first + 1) := by
  cases start with
  | none => exact absurd started (Nat.not_le.mpr passed)
  | some first => exact ⟨first, rfl, started⟩

/-- The loop inside the text, where what is read so far does not reach the end of the match. -/
theorem scanSpan_least (filled : foldedStart < foldedEnd) (seen rest : Text)
    (shape : text = seen ++ rest) {start : Option Nat}
    (before : reach fold text seen.length < foldedEnd)
    (enough : foldedEnd ≤ (casefold fold text).length)
    (started : Started fold text foldedStart seen.length start) :
    ∃ first last, scanSpan fold foldedStart foldedEnd (reach fold text seen.length) start
        seen.length rest = .ok (some first, last) ∧
      Least fold text foldedStart foldedEnd first last := by
  induction rest generalizing seen start with
  | nil =>
      rw [List.append_nil] at shape
      rw [← shape, reach_length] at before
      rw [casefold] at enough
      omega
  | cons char rest ih =>
      have next : reach fold text seen.length + (fold char).length =
          reach fold text (seen.length + 1) := by
        rw [shape, reach_cons]
      have started := started_step started
      simp only [scanSpan, next]
      generalize (if start = none ∧ reach fold text (seen.length + 1) > foldedStart then
        some seen.length else start) = start at started ⊢
      by_cases stop : reach fold text (seen.length + 1) ≥ foldedEnd
      · rw [if_pos stop]
        obtain ⟨first, rfl, below, above⟩ :=
          started_passed started (Nat.lt_of_lt_of_le filled stop)
        refine ⟨first, seen.length + 1, rfl, ?_⟩
        apply least_of_borders filled below above before stop
        rw [shape, List.length_append, List.length_cons]
        omega
      · rw [if_neg stop]
        have more : (seen ++ [char]).length = seen.length + 1 := by simp
        have rest := ih (seen ++ [char]) (by rw [shape, List.append_assoc, List.singleton_append])
          (by rw [more]; exact Nat.lt_of_not_le stop) (by rw [more]; exact started)
        rw [more] at rest
        exact rest

theorem span_least (filled : foldedStart < foldedEnd)
    (enough : foldedEnd ≤ (casefold fold text).length) :
    ∃ first last, originalCasefoldSpan fold text foldedStart foldedEnd = .ok (some first, last) ∧
      Least fold text foldedStart foldedEnd first last := by
  have before : reach fold text 0 < foldedEnd := by
    rw [reach_zero]
    omega
  have started : Started fold text foldedStart 0 none := by
    rw [Started, reach_zero]
    exact Nat.zero_le _
  have spec := scanSpan_least filled [] text rfl before enough started
  rw [List.length_nil, reach_zero] at spec
  exact spec

end

/-! The snippet -/

section

variable {fold} {query : Query}

theorem find_within {part text : Text} (within : Within part text) :
    ∃ place, find text part 0 = some place ∧ Occurs part text place := by
  have list : occurrences part text 0 = _ := occurrences_find 0
  cases located : find text part 0 with
  | some place =>
      rw [located] at list
      have found : place ∈ occurrences part text 0 := by
        rw [list]
        exact List.mem_cons_self
      exact ⟨place, rfl, (mem_occurrences.mp found).2⟩
  | none =>
      obtain ⟨front, tail, rfl⟩ := within
      have stands : Occurs part (front ++ part ++ tail) front.length := by
        constructor
        · simp
        · rw [List.append_assoc, List.drop_left]
          exact List.prefix_append _ _
      have found := mem_occurrences.mpr ⟨Nat.zero_le _, stands⟩
      rw [list, located] at found
      exact absurd found List.not_mem_nil

/-- The needle is the phrase or a word of the query and stands in the text. -/
theorem needle_spec {low : Text} (chosen : needle query low ≠ []) :
    (needle query low = query.exact ∨ needle query low ∈ query.terms) ∧
      Within (needle query low) low := by
  rw [needle] at chosen ⊢
  by_cases phrase : query.exact ≠ [] ∧ Within query.exact low
  · rw [if_pos phrase]
    exact ⟨.inl rfl, phrase.2⟩
  · rw [if_neg phrase] at chosen ⊢
    cases found : query.terms.find? fun term => Within term low with
    | none => rw [found] at chosen; exact absurd rfl chosen
    | some term =>
        have within := List.find?_some found
        rw [decide_eq_true_eq] at within
        exact ⟨.inr (List.mem_of_find?_eq_some found), within⟩

/-- A snippet of a text that marks a needle. -/
structure Marks (fold : Char → Text) (value needle : Text) (snippet : Snippet) : Prop where
  part : snippet.text <:+: value
  filled : snippet.range.1 < snippet.range.2
  inside : snippet.range.2 ≤ snippet.text.length
  holds : needle <:+:
    casefold fold ((snippet.text.take snippet.range.2).drop snippet.range.1)

theorem window_marks (key : Key) {value needle : Text} {low first last : Nat}
    (filled : needle ≠ []) (stands : needle <+: (casefold fold value).drop low)
    (least : Least fold value low (low + needle.length) first last) :
    ∃ snippet, window key value (some first, last) = .ok snippet ∧ snippet.field = key ∧
      Marks fold value needle snippet := by
  have covers := least.covers
  have inside := covers.inside
  have order : first < last := by
    apply lt_of_reach fold value
    have size := List.length_pos_iff.mpr filled
    have below := covers.below
    have above := covers.above
    omega
  refine ⟨_, rfl, rfl, ?_⟩
  constructor
  · exact (List.drop_suffix _ _).isInfix.trans (List.take_prefix _ _).isInfix
  · show first - (first - 40) < last - (first - 40)
    omega
  · show last - (first - 40) ≤ ((value.take (min value.length (last + 40))).drop (first - 40)).length
    rw [List.length_drop, List.length_take]
    omega
  · -- cutting the window first does not change what is marked
    have cut : (((value.take (min value.length (last + 40))).drop (first - 40)).take
        (last - (first - 40))).drop (first - (first - 40)) = (value.take last).drop first := by
      have stop : min (last) (min value.length (last + 40)) = last := by omega
      have start : first - 40 + (first - (first - 40)) = first := by omega
      rw [← List.drop_take, List.take_take, stop, List.drop_drop, start]
    rw [cut]
    exact covers.infix stands

theorem mark_marks (key : Key) {value needle : Text} (filled : needle ≠ [])
    (within : Within needle (casefold fold value)) :
    ∃ snippet, mark fold key value needle = .ok snippet ∧ snippet.field = key ∧
      Marks fold value needle snippet := by
  obtain ⟨place, found, stands⟩ := find_within within
  have size := List.length_pos_iff.mpr filled
  have enough : place + needle.length ≤ (casefold fold value).length := by
    have fits := stands.2.length_le
    have low := stands.1
    rw [List.length_drop] at fits
    omega
  have more : place < place + needle.length := Nat.lt_add_of_pos_right size
  obtain ⟨first, last, span, least⟩ := span_least more enough
  obtain ⟨snippet, shown, same, marks⟩ := window_marks key filled stands.2 least
  refine ⟨snippet, ?_, same, marks⟩
  rw [mark, found]
  show (originalCasefoldSpan fold value place (place + needle.length) >>= _) = _
  rw [span]
  exact shown

theorem snippet_spec (texts : List (Key × Text)) :
    ∃ found, snippet fold query texts = .ok found ∧
      ∀ shown ∈ found, ∃ value, (shown.field, value) ∈ texts ∧ ∃ needle, needle ≠ [] ∧
        (needle = query.exact ∨ needle ∈ query.terms) ∧ Marks fold value needle shown := by
  induction texts with
  | nil => exact ⟨none, rfl, by simp⟩
  | cons text rest ih =>
      obtain ⟨key, value⟩ := text
      by_cases none : needle query (casefold fold value) = []
      · -- nothing of the query stands in this text
        obtain ⟨found, done, shown⟩ := ih
        refine ⟨found, ?_, ?_⟩
        · simp only [snippet, none, if_pos]
          exact done
        · intro snippet member
          obtain ⟨value, place, marks⟩ := shown snippet member
          exact ⟨value, List.mem_cons_of_mem _ place, marks⟩
      · obtain ⟨source, within⟩ := needle_spec none
        obtain ⟨shown, done, rfl, marks⟩ := mark_marks key none within
        refine ⟨some shown, ?_, ?_⟩
        · simp only [snippet, if_neg none, done]
          rfl
        · rintro _ ⟨⟩
          exact ⟨value, List.mem_cons_self, _, none, source, marks⟩

/-! A result that matches has a snippet -/

theorem within_intercalate {part : Text} (filled : part ≠ []) (word : ' ' ∉ part)
    {texts : List Text} (within : Within part ([' '].intercalate texts)) :
    ∃ text ∈ texts, Within part text := by
  induction texts with
  | nil =>
      rw [List.intercalate_nil] at within
      exact absurd (List.infix_nil.mp within) filled
  | cons first rest ih =>
      cases rest with
      | nil =>
          rw [List.intercalate_singleton] at within
          exact ⟨first, List.mem_cons_self, within⟩
      | cons second rest =>
          rw [List.intercalate_cons_cons, List.append_assoc] at within
          obtain left | right | ⟨front, back, rfl, ends, begins⟩ := List.infix_append_iff.mp within
          · exact ⟨first, List.mem_cons_self, left⟩
          · obtain begins | later := List.infix_cons_iff.mp right
            · -- a word does not begin with the separator
              obtain ⟨tail, same⟩ := begins
              cases part with
              | nil => exact absurd rfl filled
              | cons char part =>
                  obtain rfl := (List.cons.inj same).1
                  exact absurd List.mem_cons_self word
            · obtain ⟨text, member, inside⟩ := ih later
              exact ⟨text, List.mem_cons_of_mem _ member, inside⟩
          · obtain ⟨tail, same⟩ := begins
            cases back with
            | nil =>
                rw [List.append_nil]
                exact ⟨first, List.mem_cons_self, ends.isInfix⟩
            | cons char back =>
                obtain rfl := (List.cons.inj same).1
                exact absurd (List.mem_append_right _ List.mem_cons_self) word

/-- A word that stands in the joined texts is a needle of one of them, since it holds no
separator. -/
theorem term_needle {texts : List (Key × Text)} {term : Text} (member : term ∈ query.terms)
    (words : ∀ term ∈ query.terms, term ≠ [] ∧ ' ' ∉ term)
    (within : Within term (whole fold texts)) :
    ∃ text ∈ texts, needle query (casefold fold text.2) ≠ [] := by
  obtain ⟨filled, word⟩ := words term member
  obtain ⟨low, place, inside⟩ := within_intercalate filled word within
  obtain ⟨text, known, rfl⟩ := List.mem_map.mp place
  refine ⟨text, known, ?_⟩
  rw [needle]
  split
  · next phrase => exact phrase.1
  · cases found : query.terms.find? fun term => Within term (casefold fold text.2) with
    | none =>
        have misses := List.find?_eq_none.mp found term member
        rw [decide_eq_true_eq] at misses
        exact absurd inside misses
    | some first => exact (words first (List.mem_of_find?_eq_some found)).1

theorem matched_needle {texts : List (Key × Text)} (matched : Matches fold query texts)
    (asked : query.terms ≠ [] ∨ query.exact ≠ [])
    (words : ∀ term ∈ query.terms, term ≠ [] ∧ ' ' ∉ term) :
    ∃ text ∈ texts, needle query (casefold fold text.2) ≠ [] := by
  by_cases phrase : query.exact = []
  · have some := asked.resolve_right (not_not_intro phrase)
    have found := matched.terms.resolve_left some
    cases mode : query.mode with
    | all =>
        simp only [mode] at found
        obtain ⟨term, member⟩ := List.exists_mem_of_ne_nil _ some
        exact term_needle member words (found term member)
    | any =>
        simp only [mode] at found
        obtain ⟨term, member, within⟩ := found
        exact term_needle member words within
  · obtain ⟨low, place, within⟩ := matched.exact.resolve_left phrase
    obtain ⟨text, known, rfl⟩ := List.mem_map.mp place
    refine ⟨text, known, ?_⟩
    rw [needle, if_pos ⟨phrase, within⟩]
    exact phrase

/-- Phrases are searched in each text alone, so that what matches is also shown. -/
theorem matched_snippet {texts : List (Key × Text)} (matched : Matches fold query texts)
    (asked : query.terms ≠ [] ∨ query.exact ≠ [])
    (words : ∀ term ∈ query.terms, term ≠ [] ∧ ' ' ∉ term) :
    ∃ shown, snippet fold query texts = .ok (some shown) := by
  obtain ⟨text, member, chosen⟩ := matched_needle matched asked words
  clear matched
  induction texts with
  | nil => exact absurd member List.not_mem_nil
  | cons first rest ih =>
      obtain ⟨key, value⟩ := first
      by_cases none : needle query (casefold fold value) = []
      · simp only [snippet, none, if_pos]
        apply ih
        obtain rfl | later := List.mem_cons.mp member
        · exact absurd none chosen
        · exact later
      · obtain ⟨shown, done, -⟩ := mark_marks key none (needle_spec none).2
        refine ⟨shown, ?_⟩
        simp only [snippet, if_neg none, done]
        rfl

/-- A non-empty range of the folded text goes back to the least range of characters that
covers it, and a snippet marks characters whose folded text holds what was searched. -/
theorem snippets_cover (fold : Char → Text) :
    (∀ (text : Text) (foldedStart foldedEnd : Nat), foldedStart < foldedEnd →
      foldedEnd ≤ (casefold fold text).length →
      ∃ first last,
        originalCasefoldSpan fold text foldedStart foldedEnd = .ok (some first, last) ∧
        Least fold text foldedStart foldedEnd first last) ∧
    ∀ (query : Query) (resource : Resource) (body : Text),
      ∃ found, snippet fold query (active query resource body) = .ok found ∧
        ∀ shown ∈ found, ∃ value, (shown.field, value) ∈ active query resource body ∧
          ∃ needle, needle ≠ [] ∧ (needle = query.exact ∨ needle ∈ query.terms) ∧
            Marks fold value needle shown := by
  constructor
  · intro text foldedStart foldedEnd filled enough
    exact span_least filled enough
  · intro query resource body
    exact snippet_spec (active query resource body)

/-- The letter that folds to two: a match that begins inside of it marks all of it. -/
def foldSharp (char : Char) : Text := if char = 'ß' then ['s', 's'] else [char]

theorem snippets_cover_sharp :
    (casefold foldSharp ['g', 'r', 'o', 'ß', 'e']).length = 6 ∧
      ∃ first last,
        originalCasefoldSpan foldSharp ['g', 'r', 'o', 'ß', 'e'] 4 6 = .ok (some first, last) ∧
        Least foldSharp ['g', 'r', 'o', 'ß', 'e'] 4 6 first last :=
  ⟨by decide, (snippets_cover foldSharp).1 _ _ _ (by decide) (by decide)⟩

end

end MsgServer.Search
