import Mathlib.Data.List.Basic

/-!
Replay fences. An item that carries a time of expiry is admitted only before that time; the
fence holds the key of each admitted item as long as the item could be admitted again, and
may forget it then.
-/

namespace Library.Fence

variable {item κ : Type} (key : item → κ) (expires : item → Int)

/-- The items of the log that have not expired are held. -/
def Covers (held : κ → Int → Prop) (now : Int) (log : List item) : Prop :=
  ∀ entry ∈ log, now < expires entry → held (key entry) (expires entry)

variable {key expires} {held next : κ → Int → Prop} {now later : Int} {log : List item}
  {entry : item}

theorem covers_nil : Covers key expires held now [] := by
  intro entry inside
  cases inside

/-- A fence may forget what has expired, and time may go on. -/
theorem Covers.purge (covers : Covers key expires held now log) (time : now ≤ later)
    (kept : ∀ name limit, later < limit → held name limit → next name limit) :
    Covers key expires next later log := by
  intro entry inside alive
  apply kept _ _ alive
  exact covers entry inside (Int.lt_of_le_of_lt time alive)

theorem Covers.accept (covers : Covers key expires held now log)
    (holds : held (key entry) (expires entry)) :
    Covers key expires held now (log ++ [entry]) := by
  intro other inside alive
  rcases List.mem_append.mp inside with older | newest
  · exact covers other older alive
  · rw [List.mem_singleton] at newest
    subst newest
    exact holds

/-- Under a name that is not held nothing was admitted that could be admitted again. -/
theorem Covers.fresh (covers : Covers key expires held now log) {name : κ}
    (free : ∀ limit, now < limit → ¬ held name limit) :
    ∀ other ∈ log, now < expires other → key other ≠ name := by
  intro other inside alive same
  apply free _ alive
  rw [← same]
  exact covers other inside alive

end Library.Fence
