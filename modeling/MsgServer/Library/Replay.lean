import MsgServer.Library.Program

/-!
The replay of a log of facts over a state, each of which may be refused. A machine is
repeatable when a log that it has replayed can be replayed again without effect; a replay
of a part and then of the whole then ends where the whole alone ends. Two ways to show it:
every fact settles something that no later fact unsettles, or the state is the product of
what several views show of it, and each view is repeatable.
-/

namespace Library.Replay

open Program

variable {ε σ fact : Type}

def replay (act : fact → σ → Except ε σ) : List fact → σ → Except ε σ
  | [], state => .ok state
  | next :: rest, state =>
      match act next state with
      | .ok reached => replay act rest reached
      | .error failure => .error failure

section Log

variable {act : fact → σ → Except ε σ}

theorem replay_cons_ok {next : fact} {rest : List fact} {state final : σ} :
    replay act (next :: rest) state = .ok final ↔
      ∃ reached, act next state = .ok reached ∧ replay act rest reached = .ok final := by
  rw [replay]
  cases act next state <;> simp

theorem replay_append {first rest : List fact} {state reached : σ}
    (done : replay act first state = .ok reached) :
    replay act (first ++ rest) state = replay act rest reached := by
  induction first generalizing state with
  | nil =>
      cases done
      rfl
  | cons next others ih =>
      obtain ⟨between, stepped, followed⟩ := replay_cons_ok.mp done
      rw [List.cons_append, replay, stepped]
      exact ih followed

end Log

/-- A log of good facts that was replayed changes nothing when it is replayed again. -/
def Repeatable (good : fact → Prop) (act : fact → σ → Except ε σ) : Prop :=
  ∀ log state final, (∀ item ∈ log, good item) → replay act log state = .ok final →
    replay act log final = .ok final

theorem Repeatable.converges {good : fact → Prop} {act : fact → σ → Except ε σ}
    (repeats : Repeatable good act) {first rest : List fact} {state reached : σ}
    (goods : ∀ item ∈ first, good item) (done : replay act first state = .ok reached) :
    replay act (first ++ rest) reached = replay act (first ++ rest) state := by
  rw [replay_append done, replay_append (repeats first state reached goods done)]

/-- Each fact settles something of the state, no fact unsettles it, and a fact that is
settled has no effect. -/
structure Settling (good : fact → Prop) (act : fact → σ → Except ε σ)
    (settled : fact → σ → Prop) : Prop where
  settles : ∀ item state next, good item → act item state = .ok next → settled item next
  keeps : ∀ item other state next, good other → settled item state →
    act other state = .ok next → settled item next
  idle : ∀ item state, good item → settled item state → act item state = .ok state

section Settling

variable {good : fact → Prop} {act : fact → σ → Except ε σ} {settled : fact → σ → Prop}

theorem Settling.kept (settling : Settling good act settled) {item : fact} {log : List fact}
    {state final : σ} (goods : ∀ other ∈ log, good other) (holds : settled item state)
    (done : replay act log state = .ok final) : settled item final := by
  induction log generalizing state with
  | nil =>
      cases done
      exact holds
  | cons next rest ih =>
      obtain ⟨reached, stepped, followed⟩ := replay_cons_ok.mp done
      have first := goods next List.mem_cons_self
      have later : ∀ other ∈ rest, good other :=
        fun other inside => goods other (List.mem_cons_of_mem _ inside)
      exact ih later (settling.keeps item next state reached first holds stepped) followed

theorem Settling.all (settling : Settling good act settled) {log : List fact}
    {state final : σ} (goods : ∀ item ∈ log, good item)
    (done : replay act log state = .ok final) : ∀ item ∈ log, settled item final := by
  induction log generalizing state with
  | nil =>
      intro item inside
      cases inside
  | cons next rest ih =>
      obtain ⟨reached, stepped, followed⟩ := replay_cons_ok.mp done
      have later : ∀ other ∈ rest, good other :=
        fun other inside => goods other (List.mem_cons_of_mem _ inside)
      intro item inside
      rcases List.mem_cons.mp inside with rfl | further
      · exact settling.kept later
          (settling.settles item state reached (goods item List.mem_cons_self) stepped) followed
      · exact ih later followed item further

theorem Settling.still (settling : Settling good act settled) {log : List fact} {state : σ}
    (goods : ∀ item ∈ log, good item) (holds : ∀ item ∈ log, settled item state) :
    replay act log state = .ok state := by
  induction log with
  | nil => rfl
  | cons next rest ih =>
      have idle := settling.idle next state (goods next List.mem_cons_self)
        (holds next List.mem_cons_self)
      rw [replay, idle]
      exact ih (fun item inside => goods item (List.mem_cons_of_mem _ inside))
        fun item inside => holds item (List.mem_cons_of_mem _ inside)

theorem Settling.repeatable (settling : Settling good act settled) : Repeatable good act :=
  fun _ _ _ goods done => settling.still goods (settling.all goods done)

end Settling

/-- The act of those facts that concern the state, and none of the others. -/
def guarded (concerns : fact → Prop) [DecidablePred concerns] (act : fact → σ → Except ε σ)
    (item : fact) (state : σ) : Except ε σ :=
  if concerns item then act item state else .ok state

theorem replay_guarded {concerns : fact → Prop} [DecidablePred concerns]
    {act : fact → σ → Except ε σ} (log : List fact) (state : σ) :
    replay (guarded concerns act) log state = replay act (log.filter concerns) state := by
  induction log generalizing state with
  | nil => rfl
  | cons next rest ih =>
      by_cases concerned : concerns next
      · rw [List.filter_cons_of_pos (by simpa using concerned), replay, replay, guarded,
          if_pos concerned]
        cases act next state with
        | ok reached => exact ih reached
        | error failure => rfl
      · rw [List.filter_cons_of_neg (by simpa using concerned), replay, guarded,
          if_neg concerned]
        exact ih state

theorem Repeatable.guarded {good concerns : fact → Prop} [DecidablePred concerns]
    {act : fact → σ → Except ε σ} (repeats : Repeatable (fun item => good item ∧ concerns item) act) :
    Repeatable good (guarded concerns act) := by
  intro log state final goods done
  rw [replay_guarded] at done ⊢
  refine repeats _ state final ?_ done
  intro item inside
  obtain ⟨listed, concerned⟩ := List.mem_filter.mp inside
  exact ⟨goods item listed, by simpa using concerned⟩

/-- The state is what the views show of it, and each fact acts on each view by itself. -/
structure Views {ι : Type} {τ : ι → Type} (good : fact → Prop) (act : fact → σ → Except ε σ)
    (view : (index : ι) → σ → τ index)
    (part : (index : ι) → fact → τ index → Except ε (τ index)) : Prop where
  sound : ∀ item state next, act item state = .ok next →
    ∀ index, part index item (view index state) = .ok (view index next)
  complete : ∀ item state, good item →
    (∀ index, ∃ shown, part index item (view index state) = .ok shown) →
      ∃ next, act item state = .ok next
  ext : ∀ left right, (∀ index, view index left = view index right) → left = right

section Views

variable {ι : Type} {τ : ι → Type} {good : fact → Prop} {act : fact → σ → Except ε σ}
variable {view : (index : ι) → σ → τ index}
variable {part : (index : ι) → fact → τ index → Except ε (τ index)}

theorem Views.shows (views : Views good act view part) {log : List fact} {state final : σ}
    (done : replay act log state = .ok final) (index : ι) :
    replay (part index) log (view index state) = .ok (view index final) := by
  induction log generalizing state with
  | nil =>
      cases done
      rfl
  | cons next rest ih =>
      obtain ⟨reached, stepped, followed⟩ := replay_cons_ok.mp done
      exact replay_cons_ok.mpr
        ⟨view index reached, views.sound next state reached stepped index, ih followed⟩

/-- Where every view can replay a log, the state can, and ends in what the views show. -/
theorem Views.replays (views : Views good act view part) {log : List fact} {state final : σ}
    (goods : ∀ item ∈ log, good item)
    (done : ∀ index, replay (part index) log (view index state) = .ok (view index final)) :
    replay act log state = .ok final := by
  induction log generalizing state with
  | nil =>
      have same : state = final := views.ext state final fun index => Except.ok.inj (done index)
      rw [same]
      rfl
  | cons next rest ih =>
      have good := goods next List.mem_cons_self
      have steps (index : ι) := replay_cons_ok.mp (done index)
      obtain ⟨reached, stepped⟩ := views.complete next state good fun index => by
        obtain ⟨shown, acts, _⟩ := steps index
        exact ⟨shown, acts⟩
      refine replay_cons_ok.mpr ⟨reached, stepped, ih ?_ fun index => ?_⟩
      · exact fun item inside => goods item (List.mem_cons_of_mem _ inside)
      · obtain ⟨shown, acts, followed⟩ := steps index
        have same := (views.sound next state reached stepped index).symm.trans acts
        rw [Except.ok.inj same]
        exact followed

theorem Views.repeatable (views : Views good act view part)
    (each : ∀ index, Repeatable good (part index)) : Repeatable good act := by
  intro log state final goods done
  apply views.replays goods
  intro index
  exact each index log _ _ goods (views.shows done index)

end Views

end Library.Replay
