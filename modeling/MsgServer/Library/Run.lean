import Mathlib.Data.List.Basic

/-!
Runs of a total step function over a list of labels. An invariant that holds
initially and is kept by every step holds after every run.
-/

namespace Library.Run

variable {σ label : Type} (step : label → σ → σ)

def run (steps : List label) (state : σ) : σ :=
  steps.foldl (fun current next => step next current) state

@[simp] theorem run_nil (state : σ) : run step [] state = state := rfl

@[simp] theorem run_cons (next : label) (rest : List label) (state : σ) :
    run step (next :: rest) state = run step rest (step next state) := rfl

theorem run_append (first rest : List label) (state : σ) :
    run step (first ++ rest) state = run step rest (run step first state) := by
  simp [run, List.foldl_append]

theorem run_concat (steps : List label) (last : label) (state : σ) :
    run step (steps ++ [last]) state = step last (run step steps state) := by
  simp [run_append]

def Reachable (initial : σ) (state : σ) : Prop := ∃ steps, state = run step steps initial

theorem reachable_initial (initial : σ) : Reachable step initial initial := ⟨[], rfl⟩

theorem reachable_step {initial state : σ} (reached : Reachable step initial state)
    (next : label) : Reachable step initial (step next state) := by
  rcases reached with ⟨steps, shape⟩
  exact ⟨steps ++ [next], by rw [run_concat, shape]⟩

theorem reachable_run {initial state : σ} (reached : Reachable step initial state)
    (steps : List label) : Reachable step initial (run step steps state) := by
  rcases reached with ⟨first, shape⟩
  exact ⟨first ++ steps, by rw [run_append, shape]⟩

/-- An invariant kept by every step is kept by every run. -/
theorem run_invariant {Inv : σ → Prop} (kept : ∀ next state, Inv state → Inv (step next state))
    (steps : List label) (state : σ) (holds : Inv state) : Inv (run step steps state) := by
  induction steps generalizing state with
  | nil => exact holds
  | cons next rest ih => exact ih (step next state) (kept next state holds)

theorem reachable_invariant {Inv : σ → Prop} {initial : σ} (start : Inv initial)
    (kept : ∀ next state, Inv state → Inv (step next state)) {state : σ}
    (reached : Reachable step initial state) : Inv state := by
  rcases reached with ⟨steps, rfl⟩
  exact run_invariant step kept steps initial start

end Library.Run
