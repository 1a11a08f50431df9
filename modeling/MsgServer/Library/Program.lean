import Mathlib.Logic.Basic

/-!
Programs that read and write one mutable state and may fail. `EStateM` keeps
the state reached at the point of failure, which is what an exception inside a
database transaction leaves behind until somebody rolls it back. `query` reads
without writing, `write` is one statement that either takes effect or leaves
the state alone, `recover` catches without undoing anything and `atomically`
undoes everything. The lemmas turn an observed outcome of a composed program
into the outcomes of its parts.
-/

namespace Library.Program

variable {ε σ α β : Type}

/-- A check inside a fallible computation. -/
def ensure (condition : Prop) [Decidable condition] (failure : ε) : Except ε Unit :=
  if condition then .ok () else .error failure

def query (read : σ → Except ε α) : EStateM ε σ α := fun state =>
  match read state with
  | .ok value => .ok value state
  | .error failure => .error failure state

def write (statement : σ → Except ε σ) : EStateM ε σ Unit := fun state =>
  match statement state with
  | .ok next => .ok () next
  | .error failure => .error failure state

/-- One statement that returns a value with its effect. -/
def update (statement : σ → Except ε (σ × α)) : EStateM ε σ α := fun state =>
  match statement state with
  | .ok (next, value) => .ok value next
  | .error failure => .error failure state

def recover (body : EStateM ε σ α) (handler : ε → EStateM ε σ α) : EStateM ε σ α :=
  fun state =>
    match body state with
    | .ok value next => .ok value next
    | .error failure next => handler failure next

def atomically (body : EStateM ε σ α) : EStateM ε σ α := fun state =>
  match body state with
  | .ok value next => .ok value next
  | .error failure _ => .error failure state

@[simp] theorem ensure_ok (condition : Prop) [Decidable condition] (failure : ε) (done : Unit) :
    ensure condition failure = .ok done ↔ condition := by
  by_cases holds : condition <;> simp [ensure, holds]

@[simp] theorem ensure_error (condition : Prop) [Decidable condition] (failure raised : ε) :
    ensure condition failure = .error raised ↔ ¬ condition ∧ raised = failure := by
  by_cases holds : condition <;> simp [ensure, holds, eq_comm]

theorem ensure_true {condition : Prop} [Decidable condition] (failure : ε)
    (holds : condition) : ensure condition failure = .ok () := by
  simp [ensure, holds]

@[simp] theorem except_pure (value : α) : (pure value : Except ε α) = .ok value := rfl

@[simp] theorem except_throw (failure : ε) : (throw failure : Except ε α) = .error failure := rfl

@[simp] theorem except_bind_ok (first : Except ε α) (next : α → Except ε β) (result : β) :
    (first >>= next) = .ok result ↔ ∃ value, first = .ok value ∧ next value = .ok result := by
  cases first <;> simp [bind, Except.bind]

@[simp] theorem except_bind_error (first : Except ε α) (next : α → Except ε β) (raised : ε) :
    (first >>= next) = .error raised ↔
      first = .error raised ∨ ∃ value, first = .ok value ∧ next value = .error raised := by
  cases first <;> simp [bind, Except.bind]

theorem except_ok_bind (value : α) (next : α → Except ε β) :
    ((Except.ok value : Except ε α) >>= next) = next value := rfl

theorem except_error_bind (failure : ε) (next : α → Except ε β) :
    ((Except.error failure : Except ε α) >>= next) = .error failure := rfl

/-- What a run on fixed inputs was seen to give. -/
theorem ok_of_any {program : Except ε α} {test : α → Bool}
    (ran : program.toOption.any test = true) : ∃ value, program = .ok value ∧ test value = true := by
  cases program with
  | error failure => cases ran
  | ok value => exact ⟨value, rfl, ran⟩

theorem except_forM_ok (items : List α) (body : α → Except ε Unit) (done : Unit) :
    items.forM body = .ok done ↔ ∀ item ∈ items, body item = .ok () := by
  rw [List.forM_eq_forM]
  induction items with
  | nil => simp
  | cons item rest ih =>
      have unit : (∃ value, body item = .ok value) ↔ body item = .ok () :=
        ⟨fun ⟨_, same⟩ => same, fun same => ⟨(), same⟩⟩
      simp [List.forM_cons, ih, unit]

@[simp] theorem pure_ok (value result : α) (state next : σ) :
    (pure value : EStateM ε σ α) state = .ok result next ↔ result = value ∧ next = state := by
  show EStateM.Result.ok value state = _ ↔ _
  simp [eq_comm]

@[simp] theorem pure_error (value : α) (raised : ε) (state next : σ) :
    ¬ (pure value : EStateM ε σ α) state = .error raised next := by
  show ¬ EStateM.Result.ok value state = _
  simp

@[simp] theorem throw_ok (failure : ε) (result : α) (state next : σ) :
    ¬ (throw failure : EStateM ε σ α) state = .ok result next := by
  show ¬ EStateM.Result.error failure state = _
  simp

@[simp] theorem bind_ok (first : EStateM ε σ α) (rest : α → EStateM ε σ β)
    (result : β) (state final : σ) :
    (first >>= rest) state = .ok result final ↔
      ∃ value next, first state = .ok value next ∧ rest value next = .ok result final := by
  show EStateM.bind first rest state = _ ↔ _
  unfold EStateM.bind
  cases first state <;> simp [and_assoc]

@[simp] theorem bind_error (first : EStateM ε σ α) (rest : α → EStateM ε σ β)
    (raised : ε) (state final : σ) :
    (first >>= rest) state = .error raised final ↔
      first state = .error raised final ∨
        ∃ value next, first state = .ok value next ∧ rest value next = .error raised final := by
  show EStateM.bind first rest state = _ ↔ _
  unfold EStateM.bind
  cases first state <;> simp [and_assoc]

@[simp] theorem query_ok (read : σ → Except ε α) (result : α) (state next : σ) :
    query read state = .ok result next ↔ read state = .ok result ∧ next = state := by
  unfold query
  cases read state <;> simp [eq_comm]

@[simp] theorem query_error (read : σ → Except ε α) (raised : ε) (state next : σ) :
    query read state = .error raised next ↔ read state = .error raised ∧ next = state := by
  unfold query
  cases read state <;> simp [eq_comm]

@[simp] theorem write_ok (statement : σ → Except ε σ) (done : Unit) (state next : σ) :
    write statement state = .ok done next ↔ statement state = .ok next := by
  unfold write
  cases statement state <;> simp

@[simp] theorem write_error (statement : σ → Except ε σ) (raised : ε) (state next : σ) :
    write statement state = .error raised next ↔
      statement state = .error raised ∧ next = state := by
  unfold write
  cases statement state <;> simp [eq_comm]

@[simp] theorem update_ok (statement : σ → Except ε (σ × α)) (result : α) (state next : σ) :
    update statement state = .ok result next ↔ statement state = .ok (next, result) := by
  unfold update
  cases statement state <;> simp [Prod.ext_iff, and_comm]

@[simp] theorem update_error (statement : σ → Except ε (σ × α)) (raised : ε) (state next : σ) :
    update statement state = .error raised next ↔
      statement state = .error raised ∧ next = state := by
  unfold update
  cases statement state <;> simp [eq_comm]

@[simp] theorem recover_ok (body : EStateM ε σ α) (handler : ε → EStateM ε σ α)
    (result : α) (state final : σ) :
    recover body handler state = .ok result final ↔
      body state = .ok result final ∨
        ∃ raised next, body state = .error raised next ∧ handler raised next = .ok result final := by
  unfold recover
  cases body state <;> simp [and_assoc]

@[simp] theorem atomically_ok (body : EStateM ε σ α) (result : α) (state final : σ) :
    atomically body state = .ok result final ↔ body state = .ok result final := by
  unfold atomically
  cases body state <;> simp

/-- A failed atomic block leaves the state exactly as it found it. -/
@[simp] theorem atomically_error (body : EStateM ε σ α) (raised : ε) (state final : σ) :
    atomically body state = .error raised final ↔
      final = state ∧ ∃ reached, body state = .error raised reached := by
  unfold atomically
  cases body state with
  | ok value next => simp
  | error failure next => simp [eq_comm, and_comm]

end Library.Program

namespace Library.Members

/-- A check of the members of a list goes through the list, also where their type is finite. -/
scoped instance (priority := 1100) throughList {α : Type} (items : List α) (holds : α → Prop)
    [DecidablePred holds] : Decidable (∀ item ∈ items, holds item) :=
  List.decidableBAll holds items

end Library.Members
