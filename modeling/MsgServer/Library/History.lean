import Mathlib.Data.List.Basic

/-!
Past events, newest first. `Since made undone past` says that some event made a
fact and that no later one undid it: the past operator of temporal logic that an
invariant "the fact holds because of that event" is carried by. `Trace` records the
events of a run, and its rules carry what an event leaves behind to the end of the run.
-/

namespace Library.History

variable {event : Type} {made undone : event → Prop}

def Since (made undone : event → Prop) : List event → Prop
  | [] => False
  | last :: past => made last ∨ (¬ undone last ∧ Since made undone past)

theorem Since.now {last : event} {past : List event} (fresh : made last) :
    Since made undone (last :: past) := Or.inl fresh

theorem Since.later {last : event} {past : List event} (kept : ¬ undone last)
    (before : Since made undone past) : Since made undone (last :: past) := Or.inr ⟨kept, before⟩

section Traces

variable {σ : Type} {Step : σ → event → σ → Prop}

/-- A run from a first state, with its events. -/
inductive Trace (Step : σ → event → σ → Prop) (first : σ) : σ → List event → Prop
  | start : Trace Step first first []
  | step {state next : σ} {past : List event} {act : event} (before : Trace Step first state past)
      (done : Step state act next) : Trace Step first next (act :: past)

theorem Trace.invariant {Inv : σ → Prop} {first state : σ} {past : List event}
    (trace : Trace Step first state past) (start : Inv first)
    (kept : ∀ state act next, Inv state → Step state act next → Inv next) : Inv state := by
  induction trace with
  | start => exact start
  | step _ done ih => exact kept _ _ _ ih done

/-- Every event of a run is a step from a state that the run went through. -/
theorem Trace.through {Inv : σ → Prop} {first state : σ} {past : List event}
    (trace : Trace Step first state past) (start : Inv first)
    (kept : ∀ state act next, Inv state → Step state act next → Inv next) :
    ∀ act ∈ past, ∃ before after, Inv before ∧ Step before act after := by
  induction trace with
  | start =>
      intro act absent
      cases absent
  | step before done ih =>
      intro act member
      rcases List.mem_cons.mp member with rfl | older
      · exact ⟨_, _, before.invariant start kept, done⟩
      · exact ih act older

/-- What an event leaves behind, and every step keeps, is there at the end. -/
theorem Trace.lasting {Inv mark : σ → Prop} {made : event → Bool} {first state : σ}
    {past : List event} (trace : Trace Step first state past) (start : Inv first)
    (kept : ∀ state act next, Inv state → Step state act next → Inv next)
    (makes : ∀ state act next, Inv state → Step state act next → made act = true → mark next)
    (stays : ∀ state act next, Inv state → Step state act next → mark state → mark next) :
    ∀ act ∈ past, made act = true → mark state := by
  induction trace with
  | start =>
      intro act absent
      cases absent
  | step before done ih =>
      have holds := before.invariant start kept
      intro act member isMade
      rcases List.mem_cons.mp member with rfl | older
      · exact makes _ _ _ holds done isMade
      · exact stays _ _ _ holds done (ih act older isMade)

/-- An event that leaves a lasting mark, and that the mark rules out, happens once at most. -/
theorem Trace.once {Inv mark : σ → Prop} {made : event → Bool} {first state : σ}
    {past : List event} (trace : Trace Step first state past) (start : Inv first)
    (kept : ∀ state act next, Inv state → Step state act next → Inv next)
    (makes : ∀ state act next, Inv state → Step state act next → made act = true → mark next)
    (stays : ∀ state act next, Inv state → Step state act next → mark state → mark next)
    (bars : ∀ state act next, Inv state → Step state act next → mark state → made act = false) :
    past.countP made ≤ 1 := by
  induction trace with
  | start => simp
  | step before done ih =>
      have holds := before.invariant start kept
      rename_i last next earlier act
      by_cases isMade : made act = true
      · have none : earlier.countP made = 0 := by
          rw [List.countP_eq_zero]
          intro other inside isOther
          have marked := before.lasting start kept makes stays other inside isOther
          rw [bars _ _ _ holds done marked] at isMade
          cases isMade
        have single : (act :: earlier).countP made = 1 := by
          rw [List.countP_cons, none, if_pos isMade]
        exact Nat.le_of_eq single
      · rw [List.countP_cons, if_neg isMade]
        exact ih

/-- Two events of a kind that happens once are one event. -/
theorem eq_of_once {made : event → Bool} {past : List event} (once : past.countP made ≤ 1)
    {left right : event} (inLeft : left ∈ past) (inRight : right ∈ past)
    (isLeft : made left = true) (isRight : made right = true) : left = right := by
  induction past with
  | nil => cases inLeft
  | cons act earlier ih =>
      rw [List.countP_cons] at once
      have elsewhere : ∀ other ∈ earlier, made act = true → made other = true → False := by
        intro other inside isAct isOther
        have some : 0 < earlier.countP made := List.countP_pos_iff.mpr ⟨other, inside, isOther⟩
        rw [if_pos isAct] at once
        omega
      rcases List.mem_cons.mp inLeft with rfl | leftOlder
      · rcases List.mem_cons.mp inRight with rfl | rightOlder
        · rfl
        · exact (elsewhere right rightOlder isLeft isRight).elim
      · rcases List.mem_cons.mp inRight with rfl | rightOlder
        · exact (elsewhere left leftOlder isRight isLeft).elim
        · exact ih (by omega) leftOlder rightOlder

end Traces

end Library.History
