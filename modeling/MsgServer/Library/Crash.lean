import Mathlib.Data.List.Basic
import Mathlib.Logic.Relation

/-!
Programs over durable state. A run gives the state after each of its durable steps, in
order, and its outcome; a crash leaves the state a run began with, or one that it had
made durable. `Lands` is the triple of such programs: from a state of its first argument
the run does not fail, every state on its way is in the third, and it ends in the fourth.
An invariant that every program of a family lands in, and never leaves on the way, holds
after any number of crashed runs, and one run more still lands.
-/

namespace Library.Crash

variable {ε σ α β ι : Type}

def Durable (ε σ α : Type) : Type := σ → List σ × Except ε (α × σ)

def Durable.pure (value : α) : Durable ε σ α := fun state => ([], .ok (value, state))

def Durable.bind (first : Durable ε σ α) (rest : α → Durable ε σ β) : Durable ε σ β :=
  fun state =>
    match first state with
    | (passed, .error failure) => (passed, .error failure)
    | (passed, .ok (value, next)) =>
        (passed ++ (rest value next).1, (rest value next).2)

instance : Monad (Durable ε σ) where
  pure := Durable.pure
  bind := Durable.bind

/-- A read of the state, or a check of it, that writes nothing. -/
def inspect (read : σ → Except ε α) : Durable ε σ α := fun state =>
  match read state with
  | .ok value => ([], .ok (value, state))
  | .error failure => ([], .error failure)

/-- One durable step: it takes effect as a whole or not at all. -/
def commit (step : σ → Except ε (α × σ)) : Durable ε σ α := fun state =>
  match step state with
  | .ok (value, next) => ([next], .ok (value, next))
  | .error failure => ([], .error failure)

def store (write : σ → σ) : Durable ε σ Unit := commit fun state => .ok ((), write state)

def forEach (body : ι → Durable ε σ Unit) : List ι → Durable ε σ Unit
  | [] => Durable.pure ()
  | item :: rest => Durable.bind (body item) fun _ => forEach body rest

/-! What a run that did not fail did. -/

theorem ends_bind {first : Durable ε σ α} {rest : α → Durable ε σ β} {state final : σ}
    {result : β} : ((first >>= rest) state).2 = .ok (result, final) ↔
      ∃ value next, (first state).2 = .ok (value, next) ∧
        (rest value next).2 = .ok (result, final) := by
  show (Durable.bind first rest state).2 = _ ↔ _
  unfold Durable.bind
  cases outcome : first state with
  | mk passed reached =>
      cases reached with
      | error failure => simp
      | ok next =>
          constructor
          · intro ended
            exact ⟨next.1, next.2, rfl, ended⟩
          · rintro ⟨value, reached, same, ended⟩
            cases same
            exact ended

theorem ends_pure {value result : α} {state final : σ} :
    ((pure value : Durable ε σ α) state).2 = .ok (result, final) ↔
      result = value ∧ final = state := by
  show Except.ok (value, state) = _ ↔ _
  simp [eq_comm]

theorem ends_inspect {read : σ → Except ε α} {state final : σ} {result : α} :
    (inspect read state).2 = .ok (result, final) ↔ read state = .ok result ∧ final = state := by
  unfold inspect
  cases read state <;> simp [eq_comm]

theorem ends_store {write : σ → σ} {state final : σ} {done : Unit} :
    ((store write : Durable ε σ Unit) state).2 = .ok (done, final) ↔ final = write state := by
  simp [store, commit, eq_comm]

def Lands (before : σ → Prop) (program : Durable ε σ α) (always : σ → Prop)
    (after : α → σ → Prop) : Prop :=
  ∀ state, before state →
    (∀ passed ∈ (program state).1, always passed) ∧
      ∃ result final, (program state).2 = .ok (result, final) ∧ after result final

section Rules

variable {before : σ → Prop} {always : σ → Prop}

theorem Lands.pure {after : α → σ → Prop} (value : α)
    (holds : ∀ state, before state → after value state) :
    Lands before (Pure.pure value : Durable ε σ α) always after := by
  intro state starts
  refine ⟨?_, value, state, rfl, holds state starts⟩
  intro passed inside
  cases inside

theorem Lands.bind {first : Durable ε σ α} {rest : α → Durable ε σ β}
    {middle : α → σ → Prop} {after : β → σ → Prop}
    (head : Lands before first always middle)
    (tail : ∀ value, Lands (middle value) (rest value) always after) :
    Lands before (first >>= rest) always after := by
  intro state starts
  obtain ⟨clean, value, next, ends, between⟩ := head state starts
  obtain ⟨restClean, result, final, restEnds, done⟩ := tail value next between
  have shape : (first >>= rest) state =
      ((first state).1 ++ (rest value next).1, (rest value next).2) := by
    show Durable.bind first rest state = _
    unfold Durable.bind
    cases outcome : first state with
    | mk passed reached =>
        rw [outcome] at ends
        simp only at ends
        rw [ends]
  rw [shape]
  refine ⟨?_, result, final, restEnds, done⟩
  intro passed inside
  rcases List.mem_append.mp inside with early | late
  · exact clean passed early
  · exact restClean passed late

theorem Lands.inspect {read : σ → Except ε α} {after : α → σ → Prop}
    (reads : ∀ state, before state → ∃ value, read state = .ok value ∧ after value state) :
    Lands before (inspect read) always after := by
  intro state starts
  obtain ⟨value, found, holds⟩ := reads state starts
  simp only [Crash.inspect, found]
  exact ⟨fun _ inside => (List.not_mem_nil inside).elim, value, state, rfl, holds⟩

theorem Lands.commit {step : σ → Except ε (α × σ)} {after : α → σ → Prop}
    (steps : ∀ state, before state → ∃ value next, step state = .ok (value, next) ∧
      always next ∧ after value next) :
    Lands before (commit step) always after := by
  intro state starts
  obtain ⟨value, next, taken, kept, holds⟩ := steps state starts
  simp only [Crash.commit, taken]
  refine ⟨?_, value, next, rfl, holds⟩
  intro passed inside
  rw [List.mem_singleton] at inside
  exact inside ▸ kept

theorem Lands.store {write : σ → σ} {after : Unit → σ → Prop}
    (kept : ∀ state, before state → always (write state))
    (holds : ∀ state, before state → after () (write state)) :
    Lands before (store write : Durable ε σ Unit) always after :=
  Lands.commit fun state starts => ⟨(), write state, rfl, kept state starts, holds state starts⟩

theorem Lands.weaken {before' : σ → Prop} {always' : σ → Prop} {program : Durable ε σ α}
    {after after' : α → σ → Prop} (lands : Lands before program always after)
    (pre : ∀ state, before' state → before state)
    (way : ∀ state, always state → always' state)
    (post : ∀ result state, after result state → after' result state) :
    Lands before' program always' after' := by
  intro state starts
  obtain ⟨clean, result, final, ends, done⟩ := lands state (pre state starts)
  exact ⟨fun passed inside => way passed (clean passed inside), result, final, ends,
    post result final done⟩

/-- A loop whose progress is described by the items it has yet to do. -/
theorem Lands.forEach {body : ι → Durable ε σ Unit} {inv : List ι → σ → Prop}
    (turn : ∀ item rest, Lands (inv (item :: rest)) (body item) always fun _ => inv rest) :
    ∀ items, Lands (inv items) (forEach body items) always fun _ => inv [] := by
  intro items
  induction items with
  | nil => exact Lands.pure () fun _ holds => holds
  | cons item rest ih => exact Lands.bind (turn item rest) fun _ => ih

end Rules

/-- Where a run can be when a crash ends it, at the latest after its last step. -/
def Stops (program : Durable ε σ α) (state final : σ) : Prop :=
  final = state ∨ final ∈ (program state).1

/-- A crash right after the durable step of that number, or before the first. -/
def cut (program : Durable ε σ α) (state : σ) (steps : ℕ) : σ :=
  ((program state).1[steps]?).getD state

theorem stops_cut (program : Durable ε σ α) (state : σ) (steps : ℕ) :
    Stops program state (cut program state steps) := by
  unfold cut
  cases found : (program state).1[steps]? with
  | none => exact Or.inl rfl
  | some passed => exact Or.inr (List.mem_of_getElem? found)

/-- Any number of runs of programs of one family, each of them possibly cut short. -/
def Interrupted (program : ι → Durable ε σ α) : σ → σ → Prop :=
  Relation.ReflTransGen fun state final => ∃ index, Stops (program index) state final

theorem Interrupted.kept {program : ι → Durable ε σ α} {inv : σ → Prop}
    {after : ι → α → σ → Prop} (lands : ∀ index, Lands inv (program index) inv (after index))
    {start state : σ} (reached : Interrupted program start state) (holds : inv start) :
    inv state := by
  induction reached with
  | refl => exact holds
  | tail _ run ih =>
      obtain ⟨index, rfl | inside⟩ := run
      · exact ih
      · exact (lands index _ ih).1 _ inside

theorem Interrupted.completes {program : ι → Durable ε σ α} {inv : σ → Prop}
    {after : ι → α → σ → Prop} (lands : ∀ index, Lands inv (program index) inv (after index))
    {start state : σ} (reached : Interrupted program start state) (holds : inv start)
    (index : ι) : ∃ result final, (program index state).2 = .ok (result, final) ∧
      after index result final :=
  (lands index state (reached.kept lands holds)).2

end Library.Crash
