import Mathlib.Logic.Function.Iterate
import MsgServer.Library.Program

/-!
A walk down the layers of a value: a check on the value, on what one pass makes of it, and so
on to the value that a pass leaves alone, with a bound on the passes. A walk that ends has
checked every layer there is, however deep.
-/

namespace Library.Layers

variable {ε α β : Type} [DecidableEq α]

/-- The check of each layer, for at most so many of them. -/
def walk (pass : α → α) (check : α → Except ε β) (tooDeep : ε) : Nat → α → Except ε (List β)
  | 0, _ => .error tooDeep
  | bound + 1, value => do
      let found ← check value
      if pass value = value then return [found]
      let rest ← walk pass check tooDeep bound (pass value)
      return found :: rest

variable {pass : α → α} {check : α → Except ε β} {tooDeep : ε}

theorem walk_succ_ok {bound : Nat} {value : α} {results : List β} :
    walk pass check tooDeep (bound + 1) value = .ok results ↔
      ∃ found, check value = .ok found ∧
        (pass value = value ∧ results = [found] ∨
          pass value ≠ value ∧ ∃ rest, walk pass check tooDeep bound (pass value) = .ok rest ∧
            results = found :: rest) := by
  rw [walk, Program.except_bind_ok]
  apply exists_congr
  intro found
  apply and_congr_right
  intro _
  by_cases fixed : pass value = value
  · simp [fixed, eq_comm]
  · rw [if_neg fixed, Program.except_bind_ok]
    simp [fixed, eq_comm]

/-- Every layer of a walk that ends passed its check. -/
theorem walk_ok {bound : Nat} {value : α} {results : List β}
    (done : walk pass check tooDeep bound value = .ok results) (depth : Nat) :
    ∃ found ∈ results, check (pass^[depth] value) = .ok found := by
  induction bound generalizing value results depth with
  | zero => simp [walk] at done
  | succ bound ih =>
      obtain ⟨found, passed, ⟨fixed, rfl⟩ | ⟨_, rest, more, rfl⟩⟩ := walk_succ_ok.mp done
      · rw [Function.iterate_fixed fixed]
        exact ⟨found, by simp, passed⟩
      · cases depth with
        | zero => exact ⟨found, by simp, passed⟩
        | succ depth =>
            obtain ⟨other, member, here⟩ := ih more depth
            exact ⟨other, List.mem_cons_of_mem _ member, here⟩

end Library.Layers
