import Mathlib.Data.List.Basic
import Mathlib.Tactic.Common

/-!
Base64 with the alphabet that is safe in a URL and without padding: three bytes make four
digits, and what is left over makes two or three.
-/

namespace Library.UrlBase64

def alphabet : List Char :=
  "ABCDEFGHIJKLMNOPQRSTUVWXYZabcdefghijklmnopqrstuvwxyz0123456789-_".toList

def digit (value : Nat) : Char := alphabet.getD value 'A'

def encode : List UInt8 → List Char
  | [] => []
  | [first] => [digit (first.toNat / 4), digit (first.toNat % 4 * 16)]
  | [first, second] =>
      [digit (first.toNat / 4), digit (first.toNat % 4 * 16 + second.toNat / 16),
        digit (second.toNat % 16 * 4)]
  | first :: second :: third :: rest =>
      digit (first.toNat / 4) :: digit (first.toNat % 4 * 16 + second.toNat / 16) ::
        digit (second.toNat % 16 * 4 + third.toNat / 64) :: digit (third.toNat % 64) ::
        encode rest

def value? (char : Char) : Option Nat := alphabet.findIdx? fun other => other == char

def byte (value : Nat) : UInt8 := UInt8.ofNat value

/-- The bytes that the digits spell; a last group of one digit spells none. The bits that
the last group has too many are dropped. -/
def decode : List Char → Option (List UInt8)
  | [] => some []
  | [_] => none
  | [first, second] => do
      let high ← value? first
      let low ← value? second
      return [byte (high * 4 + low / 16)]
  | [first, second, third] => do
      let high ← value? first
      let middle ← value? second
      let low ← value? third
      return [byte (high * 4 + middle / 16), byte (middle % 16 * 16 + low / 4)]
  | first :: second :: third :: fourth :: rest => do
      let one ← value? first
      let two ← value? second
      let three ← value? third
      let four ← value? fourth
      let others ← decode rest
      return byte (one * 4 + two / 16) :: byte (two % 16 * 16 + three / 4) ::
        byte (three % 4 * 64 + four) :: others

theorem encode_length (bytes : List UInt8) :
    (encode bytes).length = (4 * bytes.length + 2) / 3 := by
  induction bytes using encode.induct with
  | case1 => rfl
  | case2 first => simp [encode]
  | case3 first second => simp [encode]
  | case4 first second third rest ih =>
      simp only [encode, List.length_cons, ih]
      omega

theorem alphabet_parts : alphabet = "ABCDEFGHIJKLMNOP".toList ++ "QRSTUVWXYZabcdef".toList ++
    "ghijklmnopqrstuv".toList ++ "wxyz0123456789-_".toList := by
  rw [← String.toList_append, ← String.toList_append, ← String.toList_append]
  rfl

theorem digit_mem (value : Nat) : digit value ∈ alphabet := by
  rw [digit, List.getD_eq_getElem?_getD]
  cases found : alphabet[value]? with
  | none =>
      rw [alphabet_parts]
      simp
  | some char => exact List.mem_of_getElem? found

theorem encode_mem (bytes : List UInt8) : ∀ char ∈ encode bytes, char ∈ alphabet := by
  induction bytes using encode.induct with
  | case1 => simp [encode]
  | case2 first => simp [encode, digit_mem]
  | case3 first second => simp [encode, digit_mem]
  | case4 first second third rest ih =>
      simpa [encode, digit_mem] using ih

end Library.UrlBase64
