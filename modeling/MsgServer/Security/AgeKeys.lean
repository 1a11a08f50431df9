import Mathlib.Data.Nat.Digits.Defs
import MsgServer.Core.Models
import MsgServer.Library.Register

/-!
The text encoding of age keys in security/age_keys.py. `str.lower` is the ASCII one: a text
with any other letter is refused with the same code at the alphabet or at the prefix.
-/

namespace MsgServer.AgeKeys

open Library Library.Members

abbrev Text := List Char

def alphabet : Text := "qpzry9x8gf2tvdw0s3jn54khce6mua7l".toList

def generators : List Nat := [0x3B6A57B2, 0x26508E6D, 0x1EA119FA, 0x3D4233DD, 0x2A1462B3]

/-- The generators of the bits of `top`, from this index on. -/
def mixed (top : Nat) : Nat → List Nat → Nat
  | _, [] => 0
  | index, generator :: rest =>
      (if (top >>> index) &&& 1 = 1 then generator else 0) ^^^ mixed top (index + 1) rest

/-- One turn of `_polymod`, before its value. -/
def shift (check : Nat) : Nat :=
  ((check &&& 0x1FFFFFF) <<< 5) ^^^ mixed (check >>> 25) 0 generators

def polymod (values : List Nat) : Nat := Register.feed shift 1 values

def hrpExpand (hrp : Text) : List Nat :=
  hrp.map (fun char => char.toNat >>> 5) ++ 0 :: hrp.map fun char => char.toNat &&& 31

/-! `_convert` -/

structure Regroup where
  accumulator : Nat
  bits : Nat
  result : List Nat

/-- The `while`, which takes at least one bit a turn. -/
def flush (toBits accumulator : Nat) : Nat → Nat → List Nat → Nat × List Nat
  | 0, bits, result => (bits, result)
  | turns + 1, bits, result =>
      if toBits ≤ bits then
        flush toBits accumulator turns (bits - toBits)
          (result ++ [(accumulator >>> (bits - toBits)) &&& (1 <<< toBits - 1)])
      else (bits, result)

def take (fromBits toBits : Nat) (state : Regroup) (value : Nat) : Regroup :=
  let accumulator := (state.accumulator <<< fromBits) ||| value
  let flushed := flush toBits accumulator (state.bits + fromBits) (state.bits + fromBits)
    state.result
  { accumulator := accumulator, bits := flushed.1, result := flushed.2 }

def regroup (fromBits toBits : Nat) : List Nat → Regroup → Except Failure Regroup
  | [], state => .ok state
  | value :: rest, state => do
      require (value < 1 <<< fromBits) "invalid_age_key"
      regroup fromBits toBits rest (take fromBits toBits state value)

def convert (data : List Nat) (fromBits toBits : Nat) (pad : Bool) : Except Failure (List Nat) := do
  let state ← regroup fromBits toBits data { accumulator := 0, bits := 0, result := [] }
  let last := (state.accumulator <<< (toBits - state.bits)) &&& (1 <<< toBits - 1)
  if pad ∧ state.bits ≠ 0 then return state.result ++ [last]
  else if pad then return state.result
  else do
    require (state.bits < fromBits ∧ last = 0) "invalid_age_key"
    return state.result

/-! The texts -/

def symbol (value : Nat) : Char := alphabet.getD value 'q'

def encode (hrp : Text) (payload : List UInt8) : Except Failure Text := do
  let values ← convert (payload.map UInt8.toNat) 8 5 true
  let checksum := polymod (hrpExpand hrp ++ values ++ [0, 0, 0, 0, 0, 0]) ^^^ 1
  let check := (List.range 6).map fun index => (checksum >>> (5 * (5 - index))) &&& 31
  return hrp ++ '1' :: (values ++ check).map symbol

def decode (value hrp : Text) : Except Failure (List UInt8) := do
  require (value.map Char.toLower = value ∧ (hrp ++ ['1']).isPrefixOf value)
    "invalid_age_recipient"
  let characters := value.drop (hrp.length + 1)
  require (characters.length = 58 ∧ ∀ char ∈ characters, char ∈ alphabet) "invalid_age_recipient"
  let numbers := characters.map fun char => alphabet.idxOf char
  require (polymod (hrpExpand hrp ++ numbers) = 1) "invalid_age_recipient"
  let raw ← convert (numbers.take (numbers.length - 6)) 5 8 false
  require (raw.length = 32) "invalid_age_recipient"
  return raw.map UInt8.ofNat

/-- The two uses of the encoding. -/
inductive Use where
  | recipient
  | identity
  deriving DecidableEq

def Use.hrp : Use → Text
  | .recipient => "age".toList
  | .identity => "age-secret-key-".toList

end MsgServer.AgeKeys
