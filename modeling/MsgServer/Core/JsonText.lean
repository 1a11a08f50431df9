import Mathlib.Tactic.IntervalCases
import MsgServer.Core.CanonicalJson
import MsgServer.Library.SelfDelimiting

/-!
The canonical bytes of a JSON value determine it, up to the order of the members of its
objects. A float is a text that no whole number has, as Python prints one.
-/

namespace MsgServer.Codec

open Library

/-! Values in normal form -/

def sortMembers (members : JsonMap) : JsonMap :=
  members.insertionSort fun first second => first.1 ≤ second.1

mutual

/-- The value with the members of every object in the order of their keys. -/
def normal : Json → Json
  | .null => .null
  | .bool value => .bool value
  | .int value => .int value
  | .float printed => .float printed
  | .str value => .str value
  | .array items => .array (normalItems items)
  | .object members => .object (sortMembers (normalMembers members))

def normalItems : List Json → List Json
  | [] => []
  | item :: rest => normal item :: normalItems rest

def normalMembers : List (Text × Json) → List (Text × Json)
  | [] => []
  | (key, value) :: rest => (key, normal value) :: normalMembers rest

end

theorem normalItems_eq (items : List Json) : normalItems items = items.map normal := by
  induction items with
  | nil => rfl
  | cons item rest ih => simp [normalItems, ih]

theorem normalMembers_eq (members : JsonMap) :
    normalMembers members = members.map fun entry => (entry.1, normal entry.2) := by
  induction members with
  | nil => rfl
  | cons entry rest ih => simp [normalMembers, ih]

/-- A character of a printed number. -/
def isNumeral (char : Char) : Bool :=
  char.isDigit || char = '-' || char = '+' || char = '.' || char = 'e'

/-- The text of a finite float: a number with a point or an exponent. -/
def FloatText (printed : Text) : Prop :=
  (∀ char ∈ printed, isNumeral char = true) ∧ ('.' ∈ printed ∨ 'e' ∈ printed) ∧
    ∃ head rest, printed = head :: rest ∧ (head.isDigit = true ∨ head = '-')

mutual

/-- Every float of the value is printed as one. -/
def Sound : Json → Prop
  | .float printed => FloatText printed
  | .array items => SoundItems items
  | .object members => SoundMembers members
  | _ => True

def SoundItems : List Json → Prop
  | [] => True
  | item :: rest => Sound item ∧ SoundItems rest

def SoundMembers : List (Text × Json) → Prop
  | [] => True
  | (_, value) :: rest => Sound value ∧ SoundMembers rest

end

theorem soundItems_iff (items : List Json) : SoundItems items ↔ ∀ item ∈ items, Sound item := by
  induction items with
  | nil => simp [SoundItems]
  | cons item rest ih => simp [SoundItems, ih]

theorem soundMembers_iff (members : JsonMap) :
    SoundMembers members ↔ ∀ entry ∈ members, Sound entry.2 := by
  induction members with
  | nil => simp [SoundMembers]
  | cons entry rest ih => simp [SoundMembers, ih]

/-! The text without sorting -/

mutual

/-- The text of a value whose members stand in order. -/
def text : Json → Text
  | .null => "null".toList
  | .bool true => "true".toList
  | .bool false => "false".toList
  | .int value => decimal value
  | .float printed => printed
  | .str value => quote value
  | .array items => '[' :: textItems true items
  | .object members => '{' :: textMembers true members

/-- The items up to the closing bracket, the first one without a comma. -/
def textItems : Bool → List Json → Text
  | _, [] => [']']
  | first, item :: rest => (if first then [] else [',']) ++ text item ++ textItems false rest

def textMembers : Bool → List (Text × Json) → Text
  | _, [] => ['}']
  | first, (key, value) :: rest =>
      (if first then [] else [',']) ++ quote key ++ ':' :: text value ++ textMembers false rest

end

theorem commas_cons (first : Text) (rest : List Text) :
    commas (first :: rest) = first ++ rest.flatMap fun text => ',' :: text := by
  induction rest generalizing first with
  | nil => simp [commas]
  | cons second more ih =>
      rw [commas, List.intercalate_cons_cons, ← commas, ih]
      simp

theorem textItems_rest (items : List Json) :
    textItems false items = (items.map text).flatMap (fun item => ',' :: item) ++ [']'] := by
  induction items with
  | nil => rfl
  | cons item rest ih => simp [textItems, ih]

theorem textItems_commas (items : List Json) :
    textItems true items = commas (items.map text) ++ [']'] := by
  cases items with
  | nil => rfl
  | cons item rest => simp [textItems, textItems_rest, commas_cons]

/-- The text of one member. -/
def pairText (entry : Text × Json) : Text := quote entry.1 ++ ':' :: text entry.2

theorem textMembers_rest (members : JsonMap) :
    textMembers false members =
      (members.map pairText).flatMap (fun member => ',' :: member) ++ ['}'] := by
  induction members with
  | nil => rfl
  | cons entry rest ih => simp [textMembers, ih, pairText]

theorem textMembers_commas (members : JsonMap) :
    textMembers true members = commas (members.map pairText) ++ ['}'] := by
  cases members with
  | nil => rfl
  | cons entry rest => simp [textMembers, textMembers_rest, commas_cons, pairText]

/-- Sorting the members before or after they are printed is the same. -/
theorem sortedMembers_map (members : JsonMap) (print : Json → Text) :
    sortedMembers (members.map fun entry => (entry.1, print entry.2)) =
      (sortMembers members).map fun entry => (entry.1, print entry.2) := by
  rw [sortedMembers, sortMembers]
  symm
  apply List.map_insertionSort
  intro _ _ _ _
  exact Iff.rfl

mutual

theorem dumps_normal : (value : Json) → dumps value = text (normal value)
  | .null => rfl
  | .bool true => rfl
  | .bool false => rfl
  | .int _ => rfl
  | .float _ => rfl
  | .str _ => rfl
  | .array items => by
      rw [dumps, normal, text, textItems_commas, dumpsItems_normal items, List.cons_append]
  | .object members => by
      rw [dumps, normal, text, textMembers_commas, dumpsMembers_normal members,
        sortedMembers_map, List.map_map, List.cons_append]
      rfl

theorem dumpsItems_normal : (items : List Json) →
    dumpsItems items = (normalItems items).map text
  | [] => rfl
  | item :: rest => by
      rw [dumpsItems, normalItems, List.map_cons, dumps_normal item, dumpsItems_normal rest]

theorem dumpsMembers_normal : (members : List (Text × Json)) →
    dumpsMembers members = (normalMembers members).map fun entry => (entry.1, text entry.2)
  | [] => rfl
  | (key, value) :: rest => by
      rw [dumpsMembers, normalMembers, List.map_cons, dumps_normal value, dumpsMembers_normal rest]

end

mutual

theorem sound_normal : (value : Json) → Sound value → Sound (normal value)
  | .null, _ => trivial
  | .bool _, _ => trivial
  | .int _, _ => trivial
  | .float _, sound => sound
  | .str _, _ => trivial
  | .array items, sound => sound_normalItems items sound
  | .object members, sound => by
      rw [normal, Sound, soundMembers_iff]
      intro entry inside
      rw [sortMembers, List.mem_insertionSort] at inside
      exact (soundMembers_iff _).mp (sound_normalMembers members sound) entry inside

theorem sound_normalItems : (items : List Json) → SoundItems items →
    SoundItems (normalItems items)
  | [], _ => trivial
  | item :: rest, sound => ⟨sound_normal item sound.1, sound_normalItems rest sound.2⟩

theorem sound_normalMembers : (members : List (Text × Json)) → SoundMembers members →
    SoundMembers (normalMembers members)
  | [], _ => trivial
  | (_, value) :: rest, sound => ⟨sound_normal value sound.1, sound_normalMembers rest sound.2⟩

end

/-! Strings and numbers -/

/-- The value of a hexadecimal digit in small letters. -/
def hexValue (char : Char) : Nat :=
  if char.isDigit then char.toNat - 48 else char.toNat - 87

/-- One character off the text of a string. -/
def unescape : Text → Option (Char × Text)
  | '\\' :: '"' :: rest => some ('"', rest)
  | '\\' :: '\\' :: rest => some ('\\', rest)
  | '\\' :: 'n' :: rest => some ('\n', rest)
  | '\\' :: 'r' :: rest => some ('\r', rest)
  | '\\' :: 't' :: rest => some ('\t', rest)
  | '\\' :: 'b' :: rest => some (Char.ofNat 8, rest)
  | '\\' :: 'f' :: rest => some (Char.ofNat 12, rest)
  | '\\' :: 'u' :: '0' :: '0' :: high :: low :: rest =>
      some (Char.ofNat (16 * hexValue high + hexValue low), rest)
  | char :: rest => some (char, rest)
  | [] => none

theorem hexValue_digit {value : Nat} (small : value < 16) : hexValue (hexDigit value) = value := by
  interval_cases value <;> rfl

theorem unescape_escape (char : Char) (rest : Text) :
    unescape (escape char ++ rest) = some (char, rest) := by
  unfold escape
  split
  · subst_vars
    rfl
  split
  · subst_vars
    rfl
  split
  · subst_vars
    rfl
  split
  · subst_vars
    rfl
  split
  · subst_vars
    rfl
  split
  · rename_i code
    rw [← Char.ofNat_toNat char, code]
    rfl
  split
  · rename_i code
    rw [← Char.ofNat_toNat char, code]
    rfl
  split
  · rename_i control
    have high : hexValue (hexDigit (char.toNat / 16)) = char.toNat / 16 :=
      hexValue_digit (by omega)
    have low : hexValue (hexDigit (char.toNat % 16)) = char.toNat % 16 :=
      hexValue_digit (by omega)
    have whole : 16 * (char.toNat / 16) + char.toNat % 16 = char.toNat := by omega
    simp only [List.cons_append, List.nil_append, unescape, high, low, whole, Char.ofNat_toNat]
  · rename_i quoted slashed _ _ _ _ _ _
    simp only [List.cons_append, List.nil_append]
    rw [unescape.eq_def]
    split <;> simp_all

theorem escape_head (char : Char) : (escape char).head? ≠ some '"' := by
  unfold escape
  split
  · decide
  rename_i different
  repeat' split
  all_goals simp [different]

theorem escape_ne_nil (char : Char) : escape char ≠ [] := by
  unfold escape
  repeat' split
  all_goals simp

theorem quote_split {left right s t : Text} (same : quote left ++ s = quote right ++ t) :
    left = right ∧ s = t := by
  simp only [quote, List.cons_append, List.append_assoc, List.nil_append, List.cons.injEq,
    true_and] at same
  exact SelfDelimiting.split_codes escape unescape '"' unescape_escape escape_head escape_ne_nil
    same

theorem digits_injective {left right : Nat} (same : Nat.toDigits 10 left = Nat.toDigits 10 right) :
    left = right := by
  rw [← Nat.ofDigitChars_ten_toDigits (n := left), same, Nat.ofDigitChars_ten_toDigits]

theorem digits_digit {value : Nat} : ∀ char ∈ Nat.toDigits 10 value, char.isDigit = true :=
  fun _ inside => Nat.isDigit_of_mem_toDigits (by omega) (by omega) inside

/-- A whole number is a sign at most and digits behind it. -/
theorem decimal_shape (value : Int) :
    ∃ sign digits, decimal value = sign ++ digits ∧ (sign = [] ∨ sign = ['-']) ∧ digits ≠ [] ∧
      ∀ char ∈ digits, char.isDigit = true := by
  cases value with
  | ofNat value => exact ⟨[], _, rfl, .inl rfl, Nat.toDigits_ne_nil, digits_digit⟩
  | negSucc value => exact ⟨['-'], _, rfl, .inr rfl, Nat.toDigits_ne_nil, digits_digit⟩

theorem minus_not_digit : ('-' : Char).isDigit = false := rfl

theorem decimal_injective {left right : Int} (same : decimal left = decimal right) :
    left = right := by
  have signed : ∀ {digits : Text} {value : Nat}, '-' :: digits ≠ Nat.toDigits 10 value := by
    intro digits value equal
    have member : '-' ∈ Nat.toDigits 10 value := by
      rw [← equal]
      exact List.mem_cons_self
    have digit := digits_digit '-' member
    rw [minus_not_digit] at digit
    cases digit
  cases left with
  | ofNat left =>
      cases right with
      | ofNat right => rw [digits_injective same]
      | negSucc right => exact absurd same.symm signed
  | negSucc left =>
      cases right with
      | ofNat right => exact absurd same signed
      | negSucc right =>
          rw [decimal, decimal, List.cons.injEq] at same
          have equal := digits_injective same.2
          congr 1
          omega

theorem decimal_numeral (value : Int) :
    (∀ char ∈ decimal value, isNumeral char = true) ∧ '.' ∉ decimal value ∧ 'e' ∉ decimal value := by
  obtain ⟨sign, digits, shape, signs, -, all⟩ := decimal_shape value
  have inside : ∀ char ∈ decimal value, char = '-' ∨ char.isDigit = true := by
    intro char member
    rw [shape] at member
    rcases List.mem_append.mp member with front | back
    · rcases signs with rfl | rfl
      · cases front
      · exact .inl (List.mem_singleton.mp front)
    · exact .inr (all char back)
  refine ⟨?_, ?_, ?_⟩
  · intro char member
    rcases inside char member with rfl | digit
    · rfl
    · simp [isNumeral, digit]
  · intro member
    rcases inside '.' member with minus | digit
    · cases minus
    · cases digit
  · intro member
    rcases inside 'e' member with minus | digit
    · cases minus
    · cases digit

/-! Where a text ends -/

/-- The shape of a value, which the first character of its text tells. -/
inductive Shape where
  | null | yes | no | number | str | array | object
  deriving DecidableEq

def shape : Json → Shape
  | .null => .null
  | .bool true => .yes
  | .bool false => .no
  | .int _ => .number
  | .float _ => .number
  | .str _ => .str
  | .array _ => .array
  | .object _ => .object

def headShape (char : Char) : Option Shape :=
  if char = 'n' then some .null
  else if char = 't' then some .yes
  else if char = 'f' then some .no
  else if char = '"' then some .str
  else if char = '[' then some .array
  else if char = '{' then some .object
  else if char.isDigit || char = '-' then some .number
  else none

theorem headShape_number {char : Char} (number : char.isDigit = true ∨ char = '-') :
    headShape char = some .number := by
  rcases number with digit | rfl
  · have apart : ∀ other : Char, other.isDigit = false → char ≠ other := by
      intro other plain same
      rw [same, plain] at digit
      cases digit
    simp [headShape, digit, apart 'n' rfl, apart 't' rfl, apart 'f' rfl, apart '"' rfl,
      apart '[' rfl, apart '{' rfl]
  · rfl

theorem text_head (value : Json) (sound : Sound value) :
    ∃ head rest, text value = head :: rest ∧ headShape head = some (shape value) := by
  cases value with
  | null => exact ⟨_, _, rfl, rfl⟩
  | bool value => cases value <;> exact ⟨_, _, rfl, rfl⟩
  | int value =>
      obtain ⟨sign, digits, written, signs, filled, all⟩ := decimal_shape value
      rcases signs with rfl | rfl
      · cases digits with
        | nil => exact absurd rfl filled
        | cons head rest =>
            exact ⟨head, rest, written, headShape_number (.inl (all head List.mem_cons_self))⟩
      · exact ⟨'-', digits, written, rfl⟩
  | float printed =>
      obtain ⟨head, rest, written, number⟩ := sound.2.2
      exact ⟨head, rest, written, headShape_number number⟩
  | str value => exact ⟨_, _, rfl, rfl⟩
  | array items => exact ⟨_, _, rfl, rfl⟩
  | object members => exact ⟨_, _, rfl, rfl⟩

/-- What may follow a value: nothing, a comma or a closing bracket. -/
def Ends (rest : Text) : Prop := ∀ char ∈ rest.head?, char = ',' ∨ char = ']' ∨ char = '}'

theorem Ends.numeral {rest : Text} (ends : Ends rest) :
    ∀ char ∈ rest.head?, isNumeral char = false := by
  intro char first
  rcases ends char first with rfl | rfl | rfl <;> rfl

theorem ends_items (items : List Json) (rest : Text) : Ends (textItems false items ++ rest) := by
  intro char first
  cases items <;> simp [textItems] at first <;> simp [← first]

theorem ends_members (members : JsonMap) (rest : Text) :
    Ends (textMembers false members ++ rest) := by
  intro char first
  cases members with
  | nil =>
      simp [textMembers] at first
      simp [← first]
  | cons entry more =>
      simp [textMembers] at first
      simp [← first]

/-- The texts of two numbers before an end. -/
theorem number_split {left right s t : Text} (leftAll : ∀ char ∈ left, isNumeral char = true)
    (rightAll : ∀ char ∈ right, isNumeral char = true) (leftEnds : Ends s) (rightEnds : Ends t)
    (same : left ++ s = right ++ t) : left = right ∧ s = t :=
  SelfDelimiting.split_stretch isNumeral leftAll rightAll leftEnds.numeral rightEnds.numeral same

/-- A closing bracket is the text of no value. -/
theorem close_ne_text {value : Json} (sound : Sound value) {s t : Text} {close : Char}
    (closing : headShape close = none) : close :: s ≠ text value ++ t := by
  intro same
  obtain ⟨head, rest, written, first⟩ := text_head value sound
  rw [written, List.cons_append, List.cons.injEq] at same
  rw [← same.1, closing] at first
  cases first

/-- Two texts that begin alike are of values of one shape. -/
theorem shape_eq {left right : Json} (leftSound : Sound left) (rightSound : Sound right)
    {s t : Text} (same : text left ++ s = text right ++ t) : shape left = shape right := by
  obtain ⟨head, rest, written, first⟩ := text_head left leftSound
  obtain ⟨other, more, printed, second⟩ := text_head right rightSound
  rw [written, printed, List.cons_append, List.cons_append, List.cons.injEq] at same
  rw [same.1, second] at first
  exact (Option.some.inj first).symm

/-- A whole number and a float have no text in common. -/
theorem decimal_ne_float {value : Int} {printed : Text} (sound : FloatText printed) :
    decimal value ≠ printed := by
  intro same
  obtain ⟨-, point, exponent⟩ := decimal_numeral value
  rw [same] at point exponent
  rcases sound.2.1 with inside | inside
  · exact point inside
  · exact exponent inside

mutual

/-- The text of a value before an end determines the value and the rest. -/
theorem text_split : (left right : Json) → (s t : Text) → Sound left → Sound right → Ends s →
    Ends t → text left ++ s = text right ++ t → left = right ∧ s = t := by
  intro left right s t leftSound rightSound leftEnds rightEnds same
  have shapes := shape_eq leftSound rightSound same
  match left, right with
  | .null, .null => exact ⟨rfl, List.append_cancel_left same⟩
  | .bool true, .bool true => exact ⟨rfl, List.append_cancel_left same⟩
  | .bool false, .bool false => exact ⟨rfl, List.append_cancel_left same⟩
  | .int left, .int right =>
      obtain ⟨equal, rests⟩ := number_split (decimal_numeral left).1 (decimal_numeral right).1
        leftEnds rightEnds same
      exact ⟨by rw [decimal_injective equal], rests⟩
  | .int left, .float right =>
      obtain ⟨equal, -⟩ := number_split (decimal_numeral left).1 rightSound.1 leftEnds rightEnds same
      exact absurd equal (decimal_ne_float rightSound)
  | .float left, .int right =>
      obtain ⟨equal, -⟩ := number_split leftSound.1 (decimal_numeral right).1 leftEnds rightEnds same
      exact absurd equal.symm (decimal_ne_float leftSound)
  | .float left, .float right =>
      obtain ⟨equal, rests⟩ := number_split leftSound.1 rightSound.1 leftEnds rightEnds same
      exact ⟨by rw [equal], rests⟩
  | .str left, .str right =>
      obtain ⟨equal, rests⟩ := quote_split same
      exact ⟨by rw [equal], rests⟩
  | .array left, .array right =>
      simp only [text, List.cons_append, List.cons.injEq, true_and] at same
      obtain ⟨equal, rests⟩ := items_split left right true s t leftSound rightSound same
      exact ⟨by rw [equal], rests⟩
  | .object left, .object right =>
      simp only [text, List.cons_append, List.cons.injEq, true_and] at same
      obtain ⟨equal, rests⟩ := members_split left right true s t leftSound rightSound same
      exact ⟨by rw [equal], rests⟩

theorem items_split : (left right : List Json) → (first : Bool) → (s t : Text) →
    SoundItems left → SoundItems right →
    textItems first left ++ s = textItems first right ++ t → left = right ∧ s = t := by
  intro left right first s t leftSound rightSound same
  match left, right with
  | [], [] =>
      simp only [textItems, List.cons_append, List.nil_append, List.cons.injEq, true_and] at same
      exact ⟨rfl, same⟩
  | [], item :: rest =>
      cases first with
      | true =>
          simp only [textItems, if_true, List.nil_append, List.append_assoc] at same
          exact absurd same (close_ne_text rightSound.1 rfl)
      | false => simp [textItems] at same
  | item :: rest, [] =>
      cases first with
      | true =>
          simp only [textItems, if_true, List.nil_append, List.append_assoc] at same
          exact absurd same.symm (close_ne_text leftSound.1 rfl)
      | false => simp [textItems] at same
  | item :: rest, other :: more =>
      simp only [textItems, List.append_assoc, List.append_cancel_left_eq] at same
      obtain ⟨equal, rests⟩ := text_split item other _ _ leftSound.1 rightSound.1
        (ends_items rest s) (ends_items more t) same
      obtain ⟨equals, ends⟩ := items_split rest more false s t leftSound.2 rightSound.2 rests
      exact ⟨by rw [equal, equals], ends⟩

theorem members_split : (left right : List (Text × Json)) → (first : Bool) → (s t : Text) →
    SoundMembers left → SoundMembers right →
    textMembers first left ++ s = textMembers first right ++ t → left = right ∧ s = t := by
  intro left right first s t leftSound rightSound same
  match left, right with
  | [], [] =>
      simp only [textMembers, List.cons_append, List.nil_append, List.cons.injEq, true_and] at same
      exact ⟨rfl, same⟩
  | [], (key, value) :: rest => cases first <;> simp [textMembers, quote] at same
  | (key, value) :: rest, [] => cases first <;> simp [textMembers, quote] at same
  | (key, value) :: rest, (other, item) :: more =>
      simp only [textMembers, List.append_assoc, List.append_cancel_left_eq, List.cons_append] at same
      obtain ⟨keys, rests⟩ := quote_split same
      rw [List.cons.injEq] at rests
      obtain ⟨equal, tails⟩ := text_split value item _ _ leftSound.1 rightSound.1
        (ends_members rest s) (ends_members more t) rests.2
      obtain ⟨equals, ends⟩ := members_split rest more false s t leftSound.2 rightSound.2 tails
      exact ⟨by rw [keys, equal, equals], ends⟩

end

/-! Bytes -/

theorem utf8_injective {left right : Text} (same : utf8 left = utf8 right) : left = right := by
  have arrays : left.utf8Encode = right.utf8Encode := by
    unfold List.utf8Encode
    rw [show left.flatMap String.utf8EncodeChar = right.flatMap String.utf8EncodeChar from same]
  have decoded := congrArg ByteArray.utf8Decode? arrays
  rw [List.utf8Decode?_utf8Encode, List.utf8Decode?_utf8Encode] at decoded
  simpa using decoded

/-- Values with the same canonical bytes differ in the order of members alone. -/
theorem canonical_injective {left right : Json} (leftSound : Sound left) (rightSound : Sound right)
    (same : canonical left = canonical right) : normal left = normal right := by
  have texts := utf8_injective same
  rw [dumps_normal, dumps_normal] at texts
  have ends : Ends [] := by
    intro char first
    cases first
  have whole : text (normal left) ++ [] = text (normal right) ++ [] := by rw [texts]
  exact (text_split _ _ [] [] (sound_normal left leftSound) (sound_normal right rightSound) ends
    ends whole).1

/-- The order of members is nothing to the canonical bytes. -/
theorem canonical_normal {left right : Json} (same : normal left = normal right) :
    canonical left = canonical right := by
  rw [canonical, canonical, dumps_normal, dumps_normal, same]

end MsgServer.Codec
