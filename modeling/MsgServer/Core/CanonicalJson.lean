import Mathlib.Data.Char
import Mathlib.Data.List.Lex
import Mathlib.Data.List.Sort
import MsgServer.Core.Models
import MsgServer.Library.UrlBase64

/-!
JSON values and their canonical bytes in core/codec.py: sorted keys, compact separators,
only the escapes that JSON asks for, UTF-8. A text is the list of its characters and has no
lone surrogate, at which `canonical` fails; a finite float is the text that Python prints
for it; a mapping is the list of its members in insertion order.
-/

namespace MsgServer.Codec

open Library Library.Members

abbrev Text := List Char

inductive Json where
  | null
  | bool (value : Bool)
  | int (value : Int)
  | float (printed : Text)
  | str (value : Text)
  | array (items : List Json)
  | object (members : List (Text × Json))

abbrev JsonMap := List (Text × Json)

def b64 (data : List UInt8) : Text := UrlBase64.encode data

/-! The text of a value -/

def hexDigit (value : Nat) : Char := Nat.digitChar value

/-- The replacements of `json.encoder.ESCAPE_DCT`. -/
def escape (char : Char) : Text :=
  if char = '"' then ['\\', '"']
  else if char = '\\' then ['\\', '\\']
  else if char = '\n' then ['\\', 'n']
  else if char = '\r' then ['\\', 'r']
  else if char = '\t' then ['\\', 't']
  else if char.toNat = 8 then ['\\', 'b']
  else if char.toNat = 12 then ['\\', 'f']
  else if char.toNat < 32 then
    ['\\', 'u', '0', '0', hexDigit (char.toNat / 16), hexDigit (char.toNat % 16)]
  else [char]

def quote (value : Text) : Text := '"' :: value.flatMap escape ++ ['"']

/-- `int.__repr__`. -/
def decimal : Int → Text
  | .ofNat value => Nat.toDigits 10 value
  | .negSucc value => '-' :: Nat.toDigits 10 (value + 1)

/-- `','.join`. -/
def commas (texts : List Text) : Text := [','].intercalate texts

def sortedMembers (members : List (Text × Text)) : List (Text × Text) :=
  members.insertionSort fun first second => first.1 ≤ second.1

def memberText (entry : Text × Text) : Text := quote entry.1 ++ ':' :: entry.2

mutual

/-- `json.dumps` with the options of `canonical`. -/
def dumps : Json → Text
  | .null => "null".toList
  | .bool true => "true".toList
  | .bool false => "false".toList
  | .int value => decimal value
  | .float printed => printed
  | .str value => quote value
  | .array items => '[' :: commas (dumpsItems items) ++ [']']
  | .object members =>
      '{' :: commas ((sortedMembers (dumpsMembers members)).map memberText) ++ ['}']

def dumpsItems : List Json → List Text
  | [] => []
  | item :: rest => dumps item :: dumpsItems rest

def dumpsMembers : List (Text × Json) → List (Text × Text)
  | [] => []
  | (key, value) :: rest => (key, dumps value) :: dumpsMembers rest

end

/-- `str.encode('utf-8')`. -/
def utf8 (text : Text) : List UInt8 := text.flatMap String.utf8EncodeChar

def canonical (value : Json) : List UInt8 := utf8 (dumps value)

/-! Sizes -/

/-- The number of bytes of a text. -/
def size (text : Text) : Nat := (utf8 text).length

@[simp] theorem size_nil : size [] = 0 := rfl

@[simp] theorem size_cons (char : Char) (text : Text) :
    size (char :: text) = char.utf8Size + size text := by
  simp [size, utf8]

@[simp] theorem size_append (first second : Text) :
    size (first ++ second) = size first + size second := by
  simp [size, utf8]

theorem size_ascii {text : Text} (ascii : ∀ char ∈ text, char.toNat < 128) :
    size text = text.length := by
  induction text with
  | nil => rfl
  | cons char text ih =>
      have one : char.utf8Size = 1 := by
        have low := ascii char (by simp)
        simp only [Char.utf8Size, Char.toNat] at *
        split
        · rfl
        · rename_i high
          exact absurd (UInt32.le_iff_toNat_le.mpr (by simpa using Nat.le_of_lt_succ low)) high
      rw [size_cons, one, ih fun other member => ascii other (by simp [member]), List.length_cons]
      omega

/-- A text that JSON writes as it stands, one byte for a character. -/
def Plain (text : Text) : Prop :=
  ∀ char ∈ text, escape char = [char] ∧ char.toNat < 128

theorem size_quote_plain {text : Text} (plain : Plain text) :
    size (quote text) = text.length + 2 := by
  have same : text.flatMap escape = text := by
    induction text with
    | nil => rfl
    | cons char text ih =>
        rw [List.flatMap_cons, (plain char (by simp)).1,
          ih fun other member => plain other (by simp [member]), List.singleton_append]
  rw [quote, same]
  simp [size_ascii fun char member => (plain char member).2, show '"'.utf8Size = 1 from rfl]
  omega

theorem plain_alphabet : Plain UrlBase64.alphabet := by
  rw [UrlBase64.alphabet_parts]
  unfold Plain
  decide +kernel

theorem plain_b64 (data : List UInt8) : Plain (b64 data) :=
  fun char member => plain_alphabet char (UrlBase64.encode_mem data char member)

theorem size_b64 (data : List UInt8) : size (quote (b64 data)) = (b64 data).length + 2 :=
  size_quote_plain (plain_b64 data)

theorem size_commas (texts : List Text) :
    size (commas texts) = (texts.map size).sum + (texts.length - 1) := by
  induction texts with
  | nil => rfl
  | cons first rest ih =>
      cases rest with
      | nil => simp [commas]
      | cons second more =>
          rw [commas, List.intercalate_cons_cons, ← commas, size_append, size_append, ih]
          simp [show ','.utf8Size = 1 from rfl]
          omega

/-- The bytes of one member of an object: its key, the colon and its value. -/
def memberSize (entry : Text × Json) : Nat := size (quote entry.1) + 1 + size (dumps entry.2)

theorem dumpsMembers_eq (members : JsonMap) :
    dumpsMembers members = members.map fun entry => (entry.1, dumps entry.2) := by
  induction members with
  | nil => rfl
  | cons entry rest ih => simp [dumpsMembers, ih]

/-- The order of the keys does not change the size of an object. -/
theorem size_object (members : JsonMap) :
    size (dumps (.object members)) =
      2 + (members.map memberSize).sum + (members.length - 1) := by
  have sorted : (sortedMembers (dumpsMembers members)).Perm (dumpsMembers members) :=
    List.perm_insertionSort _ _
  have sum : (((sortedMembers (dumpsMembers members)).map memberText).map size).sum =
      (members.map memberSize).sum := by
    rw [((sorted.map memberText).map size).sum_nat, dumpsMembers_eq, List.map_map, List.map_map]
    congr 1
    apply List.map_congr_left
    intro entry _
    simp [memberText, memberSize, show ':'.utf8Size = 1 from rfl]
    omega
  have count : (sortedMembers (dumpsMembers members)).length = members.length := by
    rw [sorted.length_eq, dumpsMembers_eq, List.length_map]
  rw [dumps, size_append, size_cons, size_commas, sum, List.length_map, count]
  simp [show '{'.utf8Size = 1 from rfl, show '}'.utf8Size = 1 from rfl]
  omega

/-- A natural number below a power of ten has at most so many digits. -/
theorem size_decimal {value digits : Nat} (positive : 0 < digits) (small : value < 10 ^ digits) :
    size (decimal (.ofNat value)) ≤ digits := by
  have ascii : ∀ char ∈ Nat.toDigits 10 value, char.toNat < 128 := by
    intro char member
    have digit := Nat.isDigit_of_mem_toDigits (by omega) (by omega) member
    simp only [Char.isDigit, Bool.and_eq_true, decide_eq_true_eq] at digit
    have high := UInt32.le_iff_toNat_le.mp digit.2
    exact Nat.lt_of_le_of_lt high (by decide)
  rw [decimal, size_ascii ascii]
  exact (Nat.length_toDigits_le_iff (by omega) positive).mpr small

end MsgServer.Codec
