import Mathlib.Data.List.Basic
import Mathlib.Data.Nat.Digits.Defs

/-!
Numbers written with the most significant digit first. A list of digits of a given length is
determined by its number.
-/

namespace Library.Radix

def number (base : Nat) (digits : List Nat) : Nat := Nat.ofDigits base digits.reverse

@[simp] theorem number_nil (base : Nat) : number base [] = 0 := rfl

theorem number_concat (base : Nat) (digits : List Nat) (last : Nat) :
    number base (digits ++ [last]) = number base digits * base + last := by
  rw [number, List.reverse_append, List.reverse_singleton, List.singleton_append,
    Nat.ofDigits_cons, ← number, Nat.mul_comm, Nat.add_comm]

theorem number_lt {base : Nat} (large : 1 < base) {digits : List Nat}
    (small : ∀ digit ∈ digits, digit < base) : number base digits < base ^ digits.length := by
  have bound := Nat.ofDigits_lt_base_pow_length large
    fun digit (member : digit ∈ digits.reverse) => small digit (List.mem_reverse.mp member)
  rwa [List.length_reverse] at bound

theorem number_inj {base : Nat} (large : 1 < base) {first second : List Nat}
    (length : first.length = second.length) (firstSmall : ∀ digit ∈ first, digit < base)
    (secondSmall : ∀ digit ∈ second, digit < base)
    (same : number base first = number base second) : first = second := by
  apply List.reverse_injective
  apply Nat.ofDigits_inj_of_len_eq large
  · simpa using length
  · exact fun digit member => firstSmall digit (List.mem_reverse.mp member)
  · exact fun digit member => secondSmall digit (List.mem_reverse.mp member)
  · exact same

end Library.Radix
