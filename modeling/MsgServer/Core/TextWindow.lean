import MsgServer.Core.CanonicalJson
import MsgServer.Core.Models

/-!
Decoding a window of bytes that may end inside a character. A strict decoder reads one
character after the other and fails at the first byte that begins none; the window is
shortened by up to three bytes until it decodes.
-/

namespace MsgServer.Codec

/-- The character that the bytes begin with. -/
def decodeFirst (bytes : List UInt8) : Option Char := bytes.toByteArray.utf8DecodeChar? 0

/-- The decoder behind `start` bytes; every turn reads a character. The error is the position
of `UnicodeDecodeError`. -/
def decodeFrom : Nat → Nat → List UInt8 → Except Nat Text
  | _, _, [] => .ok []
  | 0, start, _ :: _ => .error start
  | turns + 1, start, first :: rest =>
      match decodeFirst (first :: rest) with
      | none => .error start
      | some char =>
          (decodeFrom turns (start + char.utf8Size) ((first :: rest).drop char.utf8Size)).map
            fun text => char :: text

/-- `raw.decode('utf-8')`. -/
def decode (raw : List UInt8) : Except Nat Text := decodeFrom raw.length 0 raw

/-- The loop over the bytes to leave out. -/
def decodeTrimmed (raw : List UInt8) : List Nat → Except Failure Text
  | [] => .error { code := "invalid_utf8_content" }
  | trim :: more =>
      match decode (raw.take (raw.length - trim)) with
      | .ok text => .ok text
      | .error start => do
          require (raw.length ≤ start + 4) "invalid_utf8_content"
          decodeTrimmed raw more

def decodeWindow (raw : List UInt8) : Except Failure Text := decodeTrimmed raw (List.range 4)

/-! Characters -/

theorem decodeFirst_encode (char : Char) (rest : List UInt8) :
    decodeFirst (String.utf8EncodeChar char ++ rest) = some char := by
  rw [decodeFirst, List.toByteArray_append]
  exact ByteArray.utf8DecodeChar?_utf8EncodeChar_append

/-- A part of the bytes of a character decodes to nothing. -/
theorem decodeFirst_part {char : Char} {part : List UInt8}
    (begins : part <+: String.utf8EncodeChar char) (short : part.length < char.utf8Size) :
    decodeFirst part = none := by
  cases found : decodeFirst part with
  | none => rfl
  | some other =>
      obtain ⟨rest, whole⟩ := begins
      -- more bytes do not change what was decoded
      have longer := ByteArray.utf8DecodeChar?_append_eq_some found rest.toByteArray
      have same := decodeFirst_encode char []
      rw [List.append_nil, ← whole, decodeFirst, List.toByteArray_append, longer] at same
      obtain rfl := Option.some.inj same
      have enough := ByteArray.le_size_of_utf8DecodeChar?_eq_some found
      rw [List.size_toByteArray] at enough
      omega

@[simp] theorem utf8_nil : utf8 [] = [] := rfl

@[simp] theorem utf8_cons (char : Char) (text : Text) :
    utf8 (char :: text) = String.utf8EncodeChar char ++ utf8 text := rfl

@[simp] theorem utf8_append (first second : Text) :
    utf8 (first ++ second) = utf8 first ++ utf8 second := List.flatMap_append

/-! Texts -/

/-- Behind whole characters the decoder goes on with what is left of its turns. -/
theorem decodeFrom_utf8 (text : Text) (part : List UInt8) (turns start : Nat) :
    decodeFrom (text.length + turns) start (utf8 text ++ part) =
      (decodeFrom turns (start + size text) part).map fun more => text ++ more := by
  induction text generalizing start with
  | nil =>
      simp only [List.length_nil, Nat.zero_add, utf8_nil, List.nil_append, size_nil, Nat.add_zero]
      cases decodeFrom turns start part <;> rfl
  | cons char text ih =>
      have turn : (char :: text).length + turns = (text.length + turns) + 1 := by
        rw [List.length_cons]
        omega
      have first := decodeFirst_encode char (utf8 text ++ part)
      have rest : (String.utf8EncodeChar char ++ (utf8 text ++ part)).drop char.utf8Size =
          utf8 text ++ part := by
        rw [← String.length_utf8EncodeChar, List.drop_left]
      rw [turn, utf8_cons, List.append_assoc]
      cases bytes : String.utf8EncodeChar char ++ (utf8 text ++ part) with
      | nil =>
          have size := congrArg List.length bytes
          have positive := char.utf8Size_pos
          simp only [List.length_append, String.length_utf8EncodeChar, List.length_nil] at size
          omega
      | cons byte others =>
          rw [bytes] at first rest
          simp only [decodeFrom, first, rest, ih, size_cons, Nat.add_assoc]
          cases decodeFrom turns (start + (char.utf8Size + size text)) part <;> rfl

theorem length_le_size (text : Text) : text.length ≤ size text := by
  induction text with
  | nil => exact Nat.le_refl 0
  | cons char text ih =>
      have positive := char.utf8Size_pos
      rw [List.length_cons, size_cons]
      omega

theorem decode_append (text : Text) (part : List UInt8) :
    decode (utf8 text ++ part) =
      (decodeFrom (size text + part.length - text.length) (size text) part).map
        fun more => text ++ more := by
  have few := length_le_size text
  have turns : (utf8 text ++ part).length =
      text.length + (size text + part.length - text.length) := by
    rw [List.length_append, size] at *
    omega
  rw [decode, turns, decodeFrom_utf8, Nat.zero_add]

theorem decode_utf8 (text : Text) : decode (utf8 text) = .ok text := by
  have whole := decode_append text []
  rw [List.append_nil] at whole
  rw [whole, decodeFrom]
  simp [Except.map]

theorem decode_part (text : Text) {char : Char} {part : List UInt8} (filled : part ≠ [])
    (begins : part <+: String.utf8EncodeChar char) (short : part.length < char.utf8Size) :
    decode (utf8 text ++ part) = .error (size text) := by
  have none := decodeFirst_part begins short
  rw [decode_append]
  cases part with
  | nil => exact absurd rfl filled
  | cons byte rest =>
      cases size text + (byte :: rest).length - text.length with
      | zero => rfl
      | succ turns =>
          rw [decodeFrom, none]
          rfl

/-! Windows -/

/-- Any number of bytes of a text are whole characters and a part of the next one. -/
theorem take_utf8 (text : Text) (count : Nat) :
    ∃ front rest part, text = front ++ rest ∧ (utf8 text).take count = utf8 front ++ part ∧
      (part = [] ∧ (rest = [] ∨ size front = count) ∨
        ∃ char more, rest = char :: more ∧ part ≠ [] ∧ part <+: String.utf8EncodeChar char ∧
          part.length < char.utf8Size ∧ size front + part.length = count) := by
  induction text generalizing count with
  | nil => exact ⟨[], [], [], rfl, by simp, .inl ⟨rfl, .inl rfl⟩⟩
  | cons char text ih =>
      have bytes : (String.utf8EncodeChar char).length = char.utf8Size :=
        String.length_utf8EncodeChar char
      by_cases fits : char.utf8Size ≤ count
      · obtain ⟨front, rest, part, shape, taken, cut⟩ := ih (count - char.utf8Size)
        refine ⟨char :: front, rest, part, by rw [shape, List.cons_append], ?_, ?_⟩
        · rw [utf8_cons, List.take_append, bytes, taken, List.take_of_length_le (by omega),
            utf8_cons, List.append_assoc]
        · rw [size_cons]
          obtain ⟨none, last | stop⟩ | ⟨next, more, tail, filled, begins, short, stop⟩ := cut
          · exact .inl ⟨none, .inl last⟩
          · exact .inl ⟨none, .inr (by omega)⟩
          · exact .inr ⟨next, more, tail, filled, begins, short, by omega⟩
      · refine ⟨[], char :: text, (String.utf8EncodeChar char).take count, rfl, ?_, ?_⟩
        · rw [utf8_cons, List.take_append_of_le_length (by omega)]
          rfl
        · cases count with
          | zero => exact .inl ⟨List.take_zero, .inr rfl⟩
          | succ count =>
              refine .inr ⟨char, text, rfl, ?_, List.take_prefix _ _, ?_, ?_⟩
              · apply List.ne_nil_of_length_pos
                rw [List.length_take]
                omega
              · rw [List.length_take]
                omega
              · rw [List.length_take, size_nil]
                omega

theorem decodeTrimmed_part {text : Text} {char : Char} {part : List UInt8}
    (begins : part <+: String.utf8EncodeChar char) (short : part.length < char.utf8Size)
    (trims : List Nat) (few : ∀ trim ∈ trims, trim < part.length) (more : List Nat) :
    decodeTrimmed (utf8 text ++ part) (trims ++ part.length :: more) = .ok text := by
  have length : (utf8 text ++ part).length = size text + part.length := List.length_append
  have four := char.utf8Size_le_four
  induction trims with
  | nil =>
      have whole : (utf8 text ++ part).take ((utf8 text ++ part).length - part.length) =
          utf8 text := by
        rw [length, Nat.add_sub_cancel]
        exact List.take_left
      rw [List.nil_append, decodeTrimmed, whole, decode_utf8]
  | cons trim trims ih =>
      have less := few trim List.mem_cons_self
      have cut : (utf8 text ++ part).take ((utf8 text ++ part).length - trim) =
          utf8 text ++ part.take (part.length - trim) := by
        rw [length, Nat.add_sub_assoc (Nat.le_of_lt less)]
        exact List.take_length_add_append _
      have filled : part.take (part.length - trim) ≠ [] := by
        apply List.ne_nil_of_length_pos
        rw [List.length_take]
        omega
      have partly := decode_part text filled
        ((List.take_prefix _ _).trans begins)
        (by rw [List.length_take]; omega)
      have near : (utf8 text ++ part).length ≤ size text + 4 := by omega
      rw [List.cons_append, decodeTrimmed, cut, partly]
      show (require _ _ >>= fun _ => _) = _
      rw [require_true _ near]
      exact ih fun other member => few other (List.mem_cons_of_mem _ member)

/-- A window of a text decodes to the whole characters in it. -/
theorem decodeWindow_part {text : Text} {char : Char} {part : List UInt8}
    (begins : part <+: String.utf8EncodeChar char) (short : part.length < char.utf8Size) :
    decodeWindow (utf8 text ++ part) = .ok text := by
  have four := char.utf8Size_le_four
  have range : List.range 4 = List.range part.length ++
      part.length :: List.range' (part.length + 1) (3 - part.length) := by
    have cases' : part.length = 0 ∨ part.length = 1 ∨ part.length = 2 ∨ part.length = 3 := by
      omega
    obtain none | one | two | three := cases'
    all_goals simp only [*]; rfl
  rw [decodeWindow, range]
  exact decodeTrimmed_part begins short _ (fun trim member => List.mem_range.mp member) _

theorem decodeWindow_utf8 (text : Text) : decodeWindow (utf8 text) = .ok text := by
  have begins : [] <+: String.utf8EncodeChar 'a' := List.nil_prefix
  have whole : decodeWindow (utf8 text ++ []) = .ok text := decodeWindow_part begins (by decide)
  rw [List.append_nil] at whole
  exact whole

end MsgServer.Codec
