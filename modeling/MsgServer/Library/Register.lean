import Mathlib.Algebra.Group.Nat.Defs
import Mathlib.Logic.Function.Iterate
import Mathlib.Tactic.Common

/-!
A linear shift register over the natural numbers with exclusive or. Two feeds that differ in
one value leave different states, and the last values of a feed add to the state that zeros in
their place would leave.
-/

namespace Library.Register

/-- The states of a register of this width move without losing a bit. -/
structure Linear (width : Nat) (shift : Nat → Nat) : Prop where
  xor : ∀ left right, shift (left ^^^ right) = shift left ^^^ shift right
  bounded : ∀ state, state < 2 ^ width → shift state < 2 ^ width
  faithful : ∀ state, state < 2 ^ width → shift state = 0 → state = 0

def feed (shift : Nat → Nat) (state : Nat) (values : List Nat) : Nat :=
  values.foldl (fun current value => shift current ^^^ value) state

variable {width : Nat} {shift : Nat → Nat}

theorem feed_append (state : Nat) (first rest : List Nat) :
    feed shift state (first ++ rest) = feed shift (feed shift state first) rest :=
  List.foldl_append

theorem feed_cons (state value : Nat) (rest : List Nat) :
    feed shift state (value :: rest) = feed shift (shift state ^^^ value) rest := rfl

/-- A change of the state moves along on its own. -/
theorem feed_xor (linear : Linear width shift) (state change : Nat) (values : List Nat) :
    feed shift (state ^^^ change) values =
      feed shift state values ^^^ shift^[values.length] change := by
  induction values generalizing state change with
  | nil => rfl
  | cons value rest ih =>
      have moved : shift (state ^^^ change) ^^^ value = (shift state ^^^ value) ^^^ shift change := by
        rw [linear.xor, Nat.xor_assoc, Nat.xor_comm (shift change), Nat.xor_assoc]
      rw [feed_cons, moved, ih, feed_cons, List.length_cons, Function.iterate_succ_apply]

theorem iterate_ne_zero (linear : Linear width shift) (turns : Nat) {change : Nat}
    (small : change < 2 ^ width) (some : change ≠ 0) : shift^[turns] change ≠ 0 := by
  induction turns generalizing change with
  | zero => exact some
  | succ turns ih =>
      rw [Function.iterate_succ_apply]
      exact ih (linear.bounded change small) fun zero => some (linear.faithful change small zero)

theorem xor_eq_zero {left right : Nat} (same : left ^^^ right = 0) : left = right := by
  have cancel : left ^^^ right ^^^ right = 0 ^^^ right := congrArg (· ^^^ right) same
  rwa [Nat.xor_assoc, Nat.xor_self, Nat.xor_zero, Nat.zero_xor] at cancel

theorem xor_unchanged {state change : Nat} (same : state ^^^ change = state) : change = 0 := by
  have cancel : state ^^^ (state ^^^ change) = state ^^^ state := congrArg (state ^^^ ·) same
  rwa [← Nat.xor_assoc, Nat.xor_self, Nat.zero_xor] at cancel

/-- One changed value changes the state at the end. -/
theorem feed_changed (linear : Linear width shift) (state : Nat) (before after : List Nat)
    {old new : Nat} (oldSmall : old < 2 ^ width) (newSmall : new < 2 ^ width)
    (differ : old ≠ new) :
    feed shift state (before ++ old :: after) ≠ feed shift state (before ++ new :: after) := by
  rw [feed_append, feed_append, feed_cons, feed_cons]
  generalize shift (feed shift state before) = middle
  -- The second feed is the first with the difference of the two values in its state.
  have apart : middle ^^^ new = (middle ^^^ old) ^^^ (old ^^^ new) := by
    rw [Nat.xor_assoc, ← Nat.xor_assoc old, Nat.xor_self, Nat.zero_xor]
  rw [apart, feed_xor linear (middle ^^^ old)]
  intro same
  refine iterate_ne_zero linear after.length (Nat.xor_lt_two_pow oldSmall newSmall) ?_
    (xor_unchanged same.symm)
  exact fun zero => differ (xor_eq_zero zero)

theorem feed_zero_xor (linear : Linear width shift) (state : Nat) (values : List Nat) :
    feed shift state values =
      feed shift state (List.replicate values.length 0) ^^^ feed shift 0 values := by
  induction values generalizing state with
  | nil => exact (Nat.xor_zero state).symm
  | cons value rest ih =>
      have zero : shift 0 = 0 := by
        have twice := linear.xor 0 0
        rw [Nat.xor_self] at twice
        rw [twice, Nat.xor_self]
      rw [feed_cons, feed_xor linear, List.length_cons, List.replicate_succ, feed_cons,
        feed_cons, zero, Nat.xor_zero, Nat.zero_xor, ih (shift state), ih value, Nat.xor_assoc]
      -- The value itself moves through the zeros behind it.
      have moved : shift^[rest.length] value =
          feed shift value (List.replicate rest.length 0) := by
        generalize rest.length = turns
        clear ih
        induction turns generalizing value with
        | zero => rfl
        | succ turns again =>
            rw [Function.iterate_succ_apply, List.replicate_succ, feed_cons, Nat.xor_zero]
            exact again _
      rw [moved, Nat.xor_comm (feed shift 0 rest)]

end Library.Register
