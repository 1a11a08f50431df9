import Mathlib.Data.List.Nodup
import Mathlib.Data.List.Pairwise
import MsgServer.Storage.Compensations

/-!
Which compensations of a tree of scopes run, how often and in which order. One relation
says what a stretch of a run adds to the history and to the session; it is kept along the
body by joining two stretches and by closing a scope.
-/

namespace MsgServer.Compensations

/-- The registrations among the events, each with the scopes around it. -/
def registrationsOf (events : List Event) : List (Nat × List Nat) :=
  events.filterMap fun
    | .registered effect scopes => some (effect, scopes)
    | _ => none

/-- The compensations that the abort of one scope runs, in the order in which they run. -/
def runsOf (scope : Nat) (events : List Event) : List Nat :=
  events.filterMap fun
    | .ran effect within => if within = scope then some effect else none
    | _ => none

/-- How often a compensation runs. -/
def timesRun (effect : Nat) (events : List Event) : Nat :=
  events.countP fun
    | .ran ran _ => ran = effect
    | _ => false

/-- One of the scopes aborts. -/
def Lapsed (events : List Event) (scopes : List Nat) : Prop :=
  ∃ scope ∈ scopes, .aborted scope ∈ events

instance (events : List Event) (scopes : List Nat) : Decidable (Lapsed events scopes) := by
  unfold Lapsed
  infer_instance

/-- The compensations that no abort has reached. -/
def waiting (events : List Event) : List Nat :=
  ((registrationsOf events).filter fun entry => ¬ Lapsed events entry.2).map Prod.fst

section Events

variable (left right : List Event)

theorem registrationsOf_append :
    registrationsOf (left ++ right) = registrationsOf left ++ registrationsOf right :=
  List.filterMap_append ..

theorem runsOf_append (scope : Nat) :
    runsOf scope (left ++ right) = runsOf scope left ++ runsOf scope right :=
  List.filterMap_append ..

theorem timesRun_append (effect : Nat) :
    timesRun effect (left ++ right) = timesRun effect left + timesRun effect right :=
  List.countP_append ..

theorem lapsed_append (scopes : List Nat) :
    Lapsed (left ++ right) scopes ↔ Lapsed left scopes ∨ Lapsed right scopes := by
  simp only [Lapsed, List.mem_append]
  constructor
  · rintro ⟨scope, listed, here | there⟩
    · exact .inl ⟨scope, listed, here⟩
    · exact .inr ⟨scope, listed, there⟩
  · rintro (⟨scope, listed, here⟩ | ⟨scope, listed, there⟩)
    · exact ⟨scope, listed, .inl here⟩
    · exact ⟨scope, listed, .inr there⟩

end Events

theorem mem_registrationsOf {events : List Event} {effect : Nat} {scopes : List Nat} :
    (effect, scopes) ∈ registrationsOf events ↔ .registered effect scopes ∈ events := by
  simp only [registrationsOf, List.mem_filterMap]
  constructor
  · rintro ⟨event, member, same⟩
    cases event <;> simp at same
    obtain ⟨rfl, rfl⟩ := same
    exact member
  · intro member
    exact ⟨_, member, rfl⟩

theorem mem_runsOf {events : List Event} {effect scope : Nat} :
    effect ∈ runsOf scope events ↔ .ran effect scope ∈ events := by
  simp only [runsOf, List.mem_filterMap]
  constructor
  · rintro ⟨event, member, same⟩
    cases event <;> simp at same
    obtain ⟨rfl, rfl⟩ := same
    exact member
  · intro member
    exact ⟨_, member, by simp⟩

theorem timesRun_zero {events : List Event} {effect : Nat}
    (never : ∀ scope, .ran effect scope ∉ events) : timesRun effect events = 0 := by
  refine List.countP_eq_zero.mpr fun event member => ?_
  cases event with
  | registered | aborted => simp
  | ran other scope =>
      simp only [decide_eq_true_eq]
      rintro rfl
      exact never scope member

/-- What a stretch of a run adds: events about scopes and compensations of its own, and to
the session the compensations that are left waiting. -/
structure Extends (run run' : Run) (added : List Event) : Prop where
  history : run'.history = run.history ++ added
  within : run'.within = run.within
  scopes : run.scopes ≤ run'.scopes
  registrations : run.registrations ≤ run'.registrations
  fresh : ∀ effect scopes, .registered effect scopes ∈ added →
    run.registrations ≤ effect ∧ effect < run'.registrations
  inner : ∀ effect scopes, .registered effect scopes ∈ added → ∀ scope ∈ scopes,
    scope ∈ run.within ∨ run.scopes ≤ scope ∧ scope < run'.scopes
  outer : ∀ effect scopes, .registered effect scopes ∈ added →
    ∀ scope ∈ run.within, scope ∈ scopes
  aborts : ∀ scope, .aborted scope ∈ added → run.scopes ≤ scope ∧ scope < run'.scopes
  runs : ∀ effect scope, .ran effect scope ∈ added → .aborted scope ∈ added ∧
    ∃ scopes, .registered effect scopes ∈ added ∧ scope ∈ scopes
  inOrder : ((registrationsOf added).map Prod.fst).Pairwise (· < ·)
  reversed : ∀ scope, (runsOf scope added).Pairwise (· > ·)
  left : run'.session.rollbackEffects.map Compensation.number =
    run.session.rollbackEffects.map Compensation.number ++ waiting added
  kept : run.session.rollbackEffects <+: run'.session.rollbackEffects
  once : ∀ effect scopes, .registered effect scopes ∈ added →
    timesRun effect added = if Lapsed added scopes then 1 else 0

/-- The scopes that are open were begun before. -/
def Nested (run : Run) : Prop :=
  ∀ scope ∈ run.within, scope < run.scopes

section Join

variable {start middle finish : Run} {first second : List Event}
variable (left : Extends start middle first) (right : Extends middle finish second)
variable (nested : Nested start)

include left right nested

/-- No later abort reaches a scope that has ended. -/
theorem lapsed_later {effect : Nat} {scopes : List Nat}
    (member : .registered effect scopes ∈ first) : ¬ Lapsed second scopes := by
  rintro ⟨scope, listed, aborted⟩
  have begun := (right.aborts scope aborted).1
  have widened := left.scopes
  rcases left.inner effect scopes member scope listed with outer | ⟨-, ended⟩
  · have := nested scope outer
    omega
  · omega

theorem lapsed_before {effect : Nat} {scopes : List Nat}
    (member : .registered effect scopes ∈ second) : ¬ Lapsed first scopes := by
  rintro ⟨scope, listed, aborted⟩
  obtain ⟨low, high⟩ := left.aborts scope aborted
  rcases right.inner effect scopes member scope listed with outer | ⟨begun, -⟩
  · rw [left.within] at outer
    have := nested scope outer
    omega
  · omega

theorem waiting_join : waiting (first ++ second) = waiting first ++ waiting second := by
  simp only [waiting, registrationsOf_append, List.filter_append, List.map_append]
  congr 2
  · refine List.filter_congr fun entry member => ?_
    have never := lapsed_later left right nested (mem_registrationsOf.mp member)
    simp [lapsed_append, never]
  · refine List.filter_congr fun entry member => ?_
    have never := lapsed_before left right nested (mem_registrationsOf.mp member)
    simp [lapsed_append, never]

theorem once_join {effect : Nat} {scopes : List Nat}
    (member : .registered effect scopes ∈ first ++ second) :
    timesRun effect (first ++ second) =
      if Lapsed (first ++ second) scopes then 1 else 0 := by
  rw [timesRun_append]
  rcases List.mem_append.mp member with here | there
  · have elsewhere : timesRun effect second = 0 := timesRun_zero fun scope ran => by
      obtain ⟨-, around, registered, -⟩ := right.runs effect scope ran
      have low := (right.fresh effect around registered).1
      have high := (left.fresh effect scopes here).2
      omega
    simp [left.once effect scopes here, elsewhere, lapsed_append,
      lapsed_later left right nested here]
  · have elsewhere : timesRun effect first = 0 := timesRun_zero fun scope ran => by
      obtain ⟨-, around, registered, -⟩ := left.runs effect scope ran
      have high := (left.fresh effect around registered).2
      have low := (right.fresh effect scopes there).1
      omega
    simp [right.once effect scopes there, elsewhere, lapsed_append,
      lapsed_before left right nested there]

/-- The runs of one scope all stand in one of the two stretches. -/
theorem reversed_join (scope : Nat) :
    (runsOf scope (first ++ second)).Pairwise (· > ·) := by
  rw [runsOf_append]
  by_cases ended : scope < middle.scopes
  · have none : runsOf scope second = [] := by
      refine List.eq_nil_iff_forall_not_mem.mpr fun effect member => ?_
      have aborted := (right.runs effect scope (mem_runsOf.mp member)).1
      have := (right.aborts scope aborted).1
      omega
    simpa [none] using left.reversed scope
  · have none : runsOf scope first = [] := by
      refine List.eq_nil_iff_forall_not_mem.mpr fun effect member => ?_
      have aborted := (left.runs effect scope (mem_runsOf.mp member)).1
      have := (left.aborts scope aborted).2
      omega
    simpa [none] using right.reversed scope

theorem inOrder_join :
    ((registrationsOf (first ++ second)).map Prod.fst).Pairwise (· < ·) := by
  rw [registrationsOf_append, List.map_append]
  refine List.pairwise_append.mpr ⟨left.inOrder, right.inOrder, ?_⟩
  rintro earlier here later there
  obtain ⟨⟨effect, scopes⟩, member, rfl⟩ := List.mem_map.mp here
  obtain ⟨⟨other, around⟩, found, rfl⟩ := List.mem_map.mp there
  have high := (left.fresh effect scopes (mem_registrationsOf.mp member)).2
  have low := (right.fresh other around (mem_registrationsOf.mp found)).1
  exact Nat.lt_of_lt_of_le high low

theorem Extends.join : Extends start finish (first ++ second) where
  history := by rw [right.history, left.history, List.append_assoc]
  within := right.within.trans left.within
  scopes := Nat.le_trans left.scopes right.scopes
  registrations := Nat.le_trans left.registrations right.registrations
  fresh := by
    intro effect scopes member
    have here := left.registrations
    have there := right.registrations
    rcases List.mem_append.mp member with member | member
    · have := left.fresh effect scopes member
      omega
    · have := right.fresh effect scopes member
      omega
  inner := by
    intro effect scopes member scope listed
    have here := left.scopes
    have there := right.scopes
    rcases List.mem_append.mp member with member | member
    · rcases left.inner effect scopes member scope listed with outer | ⟨low, high⟩
      · exact .inl outer
      · exact .inr ⟨low, by omega⟩
    · rcases right.inner effect scopes member scope listed with outer | ⟨low, high⟩
      · exact .inl (left.within ▸ outer)
      · exact .inr ⟨by omega, high⟩
  outer := by
    intro effect scopes member scope around
    rcases List.mem_append.mp member with member | member
    · exact left.outer effect scopes member scope around
    · exact right.outer effect scopes member scope (left.within ▸ around)
  aborts := by
    intro scope member
    have here := left.scopes
    have there := right.scopes
    rcases List.mem_append.mp member with member | member
    · have := left.aborts scope member
      omega
    · have := right.aborts scope member
      omega
  runs := by
    intro effect scope member
    rcases List.mem_append.mp member with member | member
    · obtain ⟨aborted, scopes, registered, listed⟩ := left.runs effect scope member
      exact ⟨List.mem_append_left _ aborted, scopes, List.mem_append_left _ registered, listed⟩
    · obtain ⟨aborted, scopes, registered, listed⟩ := right.runs effect scope member
      exact ⟨List.mem_append_right _ aborted, scopes, List.mem_append_right _ registered,
        listed⟩
  inOrder := inOrder_join left right nested
  reversed := reversed_join left right nested
  left := by
    rw [right.left, left.left, waiting_join left right nested, List.append_assoc]
  kept := left.kept.trans right.kept
  once := fun _ _ member => once_join left right nested member

end Join

theorem registered_once {events : List Event} {effect : Nat} {scopes around : List Nat}
    (inOrder : ((registrationsOf events).map Prod.fst).Pairwise (· < ·))
    (here : .registered effect scopes ∈ events) (there : .registered effect around ∈ events) :
    scopes = around := by
  have apart : (registrationsOf events).Pairwise fun one other =>
      one.1 = other.1 → one.2 = other.2 :=
    (List.pairwise_map.mp inOrder).imp fun less same => absurd same (Nat.ne_of_lt less)
  have symmetric : Std.Symm fun one other : Nat × List Nat =>
      one.1 = other.1 → one.2 = other.2 := ⟨fun _ _ equal same => (equal same.symm).symm⟩
  exact List.Pairwise.forall_of_forall (fun _ _ _ => rfl) apart
    (mem_registrationsOf.mpr here) (mem_registrationsOf.mpr there) rfl

theorem mem_waiting {events : List Event} {effect : Nat} :
    effect ∈ waiting events ↔
      ∃ scopes, .registered effect scopes ∈ events ∧ ¬ Lapsed events scopes := by
  simp only [waiting, List.mem_map, List.mem_filter, decide_eq_true_eq, Prod.exists,
    mem_registrationsOf]
  constructor
  · rintro ⟨_, scopes, ⟨registered, waits⟩, rfl⟩
    exact ⟨scopes, registered, waits⟩
  · rintro ⟨scopes, registered, waits⟩
    exact ⟨effect, scopes, ⟨registered, waits⟩, rfl⟩

theorem waiting_inOrder {events : List Event}
    (inOrder : ((registrationsOf events).map Prod.fst).Pairwise (· < ·)) :
    (waiting events).Pairwise (· < ·) :=
  inOrder.sublist (List.filter_sublist.map Prod.fst)

theorem count_waiting {events : List Event} {effect : Nat} {scopes : List Nat}
    (inOrder : ((registrationsOf events).map Prod.fst).Pairwise (· < ·))
    (registered : .registered effect scopes ∈ events) :
    (waiting events).count effect = if Lapsed events scopes then 0 else 1 := by
  have distinct : (waiting events).Nodup := (waiting_inOrder inOrder).imp Nat.ne_of_lt
  split
  · refine List.count_eq_zero.mpr fun member => ?_
    obtain ⟨around, found, waits⟩ := mem_waiting.mp member
    rw [← registered_once inOrder registered found] at waits
    exact waits ‹_›
  · exact List.count_eq_one_of_mem distinct (mem_waiting.mpr ⟨scopes, registered, ‹_›⟩)

/-- What an abort adds to the history. -/
def abortEvents (scope : Nat) (effects : List Nat) : List Event :=
  .aborted scope :: effects.map fun effect => .ran effect scope

section Abort

variable {scope : Nat} {effects : List Nat}

theorem registrationsOf_abort : registrationsOf (abortEvents scope effects) = [] := by
  simp [registrationsOf, abortEvents]

theorem runsOf_abort (other : Nat) :
    runsOf other (abortEvents scope effects) = if scope = other then effects else [] := by
  simp only [runsOf, abortEvents, List.filterMap_cons, List.filterMap_map]
  split
  · subst other
    simp
  · simp [*]

theorem timesRun_abort (effect : Nat) :
    timesRun effect (abortEvents scope effects) = effects.count effect := by
  simp [timesRun, abortEvents, List.count, List.countP_map, Function.comp_def, beq_eq_decide]

theorem aborted_abort {other : Nat} :
    .aborted other ∈ abortEvents scope effects ↔ other = scope := by
  simp [abortEvents]

theorem ran_abort {effect other : Nat} :
    .ran effect other ∈ abortEvents scope effects ↔ effect ∈ effects ∧ other = scope := by
  simp only [abortEvents, List.mem_cons, List.mem_map, reduceCtorEq, false_or, Event.ran.injEq]
  constructor
  · rintro ⟨_, member, rfl, rfl⟩
    exact ⟨member, rfl⟩
  · rintro ⟨member, rfl⟩
    exact ⟨effect, member, rfl, rfl⟩

end Abort

section Closing

variable {entry inside : Run} {added : List Event}
variable (stretch : Extends entry.enter inside added)

include stretch

theorem around_entry {effect : Nat} {scopes : List Nat}
    (member : .registered effect scopes ∈ added) : entry.scopes ∈ scopes :=
  stretch.outer effect scopes member entry.scopes (List.mem_cons_self ..)

theorem inner_entry {effect scope : Nat} {scopes : List Nat}
    (member : .registered effect scopes ∈ added) (listed : scope ∈ scopes) :
    scope ∈ entry.within ∨ entry.scopes ≤ scope ∧ scope < inside.scopes := by
  have widened := stretch.scopes
  rcases stretch.inner effect scopes member scope listed with outer | ⟨begun, ended⟩
  · rcases List.mem_cons.mp outer with rfl | around
    · exact .inr ⟨Nat.le_refl _, widened⟩
    · exact .inl around
  · exact .inr ⟨Nat.le_of_succ_le begun, ended⟩

/-- A scope that commits hands what it registered over to the scope around it. -/
theorem Extends.commit : Extends entry { inside with within := entry.within } added where
  history := stretch.history
  within := rfl
  scopes := Nat.le_of_succ_le stretch.scopes
  registrations := stretch.registrations
  fresh := stretch.fresh
  inner := fun _ _ member _ listed => inner_entry stretch member listed
  outer := fun effect scopes member scope around =>
    stretch.outer effect scopes member scope (List.mem_cons_of_mem _ around)
  aborts := by
    intro scope aborted
    obtain ⟨begun, ended⟩ := stretch.aborts scope aborted
    exact ⟨Nat.le_of_succ_le begun, ended⟩
  runs := stretch.runs
  inOrder := stretch.inOrder
  reversed := stretch.reversed
  left := stretch.left
  kept := stretch.kept
  once := stretch.once

/-- The compensations that an abort takes off the session are those still waiting. -/
theorem dropped_waiting :
    (inside.session.rollbackEffects.drop entry.session.rollbackEffects.length).map
      Compensation.number = waiting added := by
  have listed := stretch.left
  rw [enter_session] at listed
  rw [List.map_drop, listed, List.drop_left' (List.length_map _)]

variable {finish : Run}
variable (within : finish.within = entry.within) (scopes : finish.scopes = inside.scopes)
variable (registrations : finish.registrations = inside.registrations)
variable (history : finish.history =
  inside.history ++ abortEvents entry.scopes (waiting added).reverse)
variable (effects : finish.session.rollbackEffects = entry.session.rollbackEffects)

include within scopes registrations history effects

/-- A scope that aborts runs what was still waiting inside it, the last registration
first, and leaves nothing of it to the scope around. -/
theorem Extends.abort :
    Extends entry finish (added ++ abortEvents entry.scopes (waiting added).reverse) := by
  have registered {effect : Nat} {around : List Nat} : .registered effect around ∈
      added ++ abortEvents entry.scopes (waiting added).reverse →
      .registered effect around ∈ added := by
    simp [abortEvents]
  have aborted : .aborted entry.scopes ∈
      added ++ abortEvents entry.scopes (waiting added).reverse :=
    List.mem_append_right _ (aborted_abort.mpr rfl)
  have lapsed {effect : Nat} {around : List Nat} (member : .registered effect around ∈ added) :
      Lapsed (added ++ abortEvents entry.scopes (waiting added).reverse) around :=
    ⟨entry.scopes, around_entry stretch member, aborted⟩
  have distinct := waiting_inOrder stretch.inOrder
  refine
    { history := ?_, within, scopes := ?_, registrations := ?_, fresh := ?_, inner := ?_,
      outer := ?_, aborts := ?_, runs := ?_, inOrder := ?_, reversed := ?_, left := ?_,
      kept := ?_, once := ?_ }
  · rw [history, stretch.history, enter_history, List.append_assoc]
  · have := stretch.scopes
    rw [enter_scopes] at this
    omega
  · exact registrations ▸ stretch.registrations
  · intro effect around member
    exact registrations ▸ stretch.fresh effect around (registered member)
  · intro effect around member scope listed
    exact scopes ▸ inner_entry stretch (registered member) listed
  · intro effect around member scope listed
    exact stretch.outer effect around (registered member) scope
      (List.mem_cons_of_mem _ listed)
  · intro scope member
    have widened : entry.scopes + 1 ≤ inside.scopes := stretch.scopes
    rcases List.mem_append.mp member with before | now
    · have inner : entry.scopes + 1 ≤ scope ∧ scope < inside.scopes :=
        stretch.aborts scope before
      omega
    · have := aborted_abort.mp now
      omega
  · intro effect scope member
    rcases List.mem_append.mp member with before | now
    · obtain ⟨early, around, found, listed⟩ := stretch.runs effect scope before
      exact ⟨List.mem_append_left _ early, around, List.mem_append_left _ found, listed⟩
    · obtain ⟨waits, rfl⟩ := ran_abort.mp now
      obtain ⟨around, found, -⟩ := mem_waiting.mp (List.mem_reverse.mp waits)
      exact ⟨aborted, around, List.mem_append_left _ found, around_entry stretch found⟩
  · rw [registrationsOf_append, registrationsOf_abort, List.append_nil]
    exact stretch.inOrder
  · intro scope
    rw [runsOf_append, runsOf_abort]
    split
    · -- the scope was still open, so nothing ran for it before
      subst scope
      have none : runsOf entry.scopes added = [] := by
        refine List.eq_nil_iff_forall_not_mem.mpr fun effect member => ?_
        have early := (stretch.runs effect entry.scopes (mem_runsOf.mp member)).1
        have : entry.scopes + 1 ≤ entry.scopes := (stretch.aborts entry.scopes early).1
        omega
      simpa [none, List.pairwise_reverse] using distinct
    · simpa using stretch.reversed scope
  · have none : waiting (added ++ abortEvents entry.scopes (waiting added).reverse) = [] := by
      refine List.eq_nil_iff_forall_not_mem.mpr fun effect member => ?_
      obtain ⟨around, found, waits⟩ := mem_waiting.mp member
      exact waits (lapsed (registered found))
    rw [none, effects, List.append_nil]
  · exact ⟨[], (List.append_nil _).trans effects.symm⟩
  · intro effect around member
    have found := registered member
    rw [timesRun_append, timesRun_abort, List.count_reverse,
      count_waiting stretch.inOrder found, stretch.once effect around found,
      if_pos (lapsed found)]
    split <;> rfl

end Closing

theorem Extends.still (run : Run) : Extends run run [] where
  history := (List.append_nil _).symm
  within := rfl
  scopes := Nat.le_refl _
  registrations := Nat.le_refl _
  fresh := by simp
  inner := by simp
  outer := by simp
  aborts := by simp
  runs := by simp
  inOrder := List.Pairwise.nil
  reversed := fun _ => List.Pairwise.nil
  left := by simp [waiting, registrationsOf]
  kept := List.prefix_refl _
  once := by simp

theorem Extends.onRollback (run : Run) (raises : Option String) :
    Extends run (run.onRollback raises) [.registered run.registrations run.within] where
  history := rfl
  within := rfl
  scopes := Nat.le_refl _
  registrations := Nat.le_succ _
  fresh := by
    simp [Run.onRollback]
  inner := by
    intro effect scopes member scope listed
    simp only [List.mem_singleton, Event.registered.injEq] at member
    exact .inl (member.2 ▸ listed)
  outer := by
    intro effect scopes member scope around
    simp only [List.mem_singleton, Event.registered.injEq] at member
    exact member.2 ▸ around
  aborts := by simp
  runs := by simp
  inOrder := by simp [registrationsOf]
  reversed := by simp [runsOf]
  left := by simp [Run.onRollback, waiting, registrationsOf, Lapsed]
  kept := List.prefix_append _ _
  once := by simp [timesRun, Lapsed]

theorem Extends.enqueue (run : Run) (job : String) : Extends run (run.enqueue job) [] :=
  { Extends.still run with }

theorem Extends.nested {start finish : Run} {added : List Event}
    (stretch : Extends start finish added) (nested : Nested start) : Nested finish := by
  intro scope open'
  rw [stretch.within] at open'
  exact Nat.lt_of_lt_of_le (nested scope open') stretch.scopes

theorem nested_enter {run : Run} (nested : Nested run) : Nested run.enter := by
  intro scope open'
  rcases List.mem_cons.mp open' with rfl | around
  · exact Nat.lt_succ_self _
  · exact Nat.lt_succ_of_lt (nested scope around)

theorem abort_events {entry inside : Run} {added : List Event}
    (stretch : Extends entry.enter inside added) :
    Event.aborted entry.scopes ::
        (inside.session.rollbackEffects.drop entry.session.rollbackEffects.length).reverse.map
          (fun effect => Event.ran effect.number entry.scopes) =
      abortEvents entry.scopes (waiting added).reverse := by
  rw [abortEvents, ← dropped_waiting stretch, ← List.map_reverse, List.map_map]
  rfl

theorem endNested_extends {answers : Answers} {entry : Run} {ended : Run × Option Raised}
    {added : List Event} (rolledBack : answers.rollback = none)
    (stretch : Extends entry.enter ended.1 added) :
    ∃ more, Extends entry (endNested answers entry ended).1 more := by
  rw [endNested]
  cases leaving answers ended.2 with
  | none => exact ⟨added, stretch.commit⟩
  | some cause =>
      refine ⟨added ++ abortEvents entry.scopes (waiting added).reverse, ?_⟩
      simp only [abortNested_run rolledBack]
      refine stretch.abort rfl rfl rfl ?_ ?_
      · rw [abort_events stretch]
      · exact (List.prefix_iff_eq_take.mp stretch.kept).symm

theorem perform_extends (body : Body) {run : Run} (nested : Nested run)
    (rollsBack : body.rollsBack) : ∃ added, Extends run (perform body run).1 added := by
  induction body generalizing run with
  | done => exact ⟨[], Extends.still run⟩
  | fail code => exact ⟨[], Extends.still run⟩
  | onRollback raises rest ih =>
      rw [perform]
      split
      · have first := Extends.onRollback run raises
        obtain ⟨added, then'⟩ := ih (first.nested nested) rollsBack
        exact ⟨_, first.join then' nested⟩
      · exact ⟨[], Extends.still run⟩
  | enqueue job rest ih =>
      rw [perform]
      split
      · have first := Extends.enqueue run job
        obtain ⟨added, then'⟩ := ih (first.nested nested) rollsBack
        exact ⟨_, first.join then' nested⟩
      · exact ⟨[], Extends.still run⟩
  | attempt tried rest triedExtends restExtends =>
      simp only [Body.rollsBack, Bool.and_eq_true] at rollsBack
      obtain ⟨added, first⟩ := triedExtends nested rollsBack.1
      obtain ⟨more, then'⟩ := restExtends (first.nested nested) rollsBack.2
      exact ⟨_, first.join then' nested⟩
  | nested write answers inner rest innerExtends restExtends =>
      simp only [Body.rollsBack, Bool.and_eq_true, Option.isNone_iff_eq_none] at rollsBack
      obtain ⟨⟨rolledBack, innerBack⟩, restBack⟩ := rollsBack
      obtain ⟨added, inside⟩ := innerExtends (nested_enter nested) innerBack
      obtain ⟨scope, first⟩ := endNested_extends rolledBack inside
      rw [perform]
      split
      · exact ⟨[], Extends.still run⟩
      · split
        · exact ⟨[], Extends.still run⟩
        · rw [andThen]
          split
          · obtain ⟨more, then'⟩ := restExtends (first.nested nested) restBack
            exact ⟨_, first.join then' nested⟩
          · exact ⟨scope, first⟩

/-- Before the outermost scope is entered. -/
def idle (write : Bool) : Run :=
  { session := { write, rollbackEffects := [], pendingEffectIds := [] }
    within := [], scopes := 0, registrations := 0, history := [] }

theorem opened_enter (write : Bool) : opened write = (idle write).enter := rfl

theorem endOutermost_extends {write : Bool} {answers : Answers}
    {ended : Run × Option Raised} {added : List Event} (rolledBack : answers.rollback = none)
    (stretch : Extends (idle write).enter ended.1 added) :
    Extends (idle write) { (endOutermost answers ended).run with within := [] }
      (endOutermost answers ended).run.history := by
  have written : ended.1.history = added := stretch.history
  rw [endOutermost]
  cases leaving answers ended.2 with
  | none =>
      rw [written]
      exact stretch.commit
  | some cause =>
      simp only [abortOutermost_run rolledBack, written]
      have events := abort_events stretch
      have started : (idle write).session.rollbackEffects.length = 0 := rfl
      have outermost : (idle write).scopes = 0 := rfl
      rw [started, List.drop_zero, outermost] at events
      rw [events]
      refine stretch.abort rfl rfl rfl ?_ rfl
      rw [written, outermost]

/-- The whole tree is one stretch of events. -/
theorem transaction_extends (write : Bool) {answers : Answers} {body : Body}
    (rolledBack : answers.rollback = none) (rollsBack : body.rollsBack) :
    Extends (idle write) { (transaction write answers body).run with within := [] }
      (transaction write answers body).run.history := by
  have outermost : Nested (idle write).enter := nested_enter (by simp [Nested, idle])
  rw [transaction]
  split
  · exact endOutermost_extends rolledBack (Extends.still _)
  · obtain ⟨added, stretch⟩ := perform_extends body outermost rollsBack
    exact endOutermost_extends rolledBack stretch

theorem signalled_aborted {write : Bool} {answers : Answers} {body : Body}
    (raised : (transaction write answers body).raised ≠ none) :
    (transaction write answers body).signalled = [] := by
  have ending (ended : Run × Option Raised) (raises : (endOutermost answers ended).raised ≠ none) :
      (endOutermost answers ended).signalled = [] := by
    rw [endOutermost] at raises ⊢
    split
    · simp_all
    · rw [abortOutermost]
      split <;> rfl
  rw [transaction] at raised ⊢
  split
  · simp_all
  · simp_all

/-- Over every tree of scopes whose rollbacks the database carries out: a compensation runs
once if a scope around it aborts and never otherwise, an abort runs its compensations
against the order of registration, a savepoint that aborts leaves the list of jobs as it
found it, and a transaction that aborts signals no job. -/
theorem rollback_compensations (write : Bool) (answers : Answers) (body : Body)
    (rolledBack : answers.rollback = none) (rollsBack : body.rollsBack) :
    let outcome := transaction write answers body
    let history := outcome.run.history
    (∀ effect scopes, .registered effect scopes ∈ history →
      timesRun effect history = if Lapsed history scopes then 1 else 0) ∧
    (∀ effect scope, .ran effect scope ∈ history → .aborted scope ∈ history ∧
      ∃ scopes, .registered effect scopes ∈ history ∧ scope ∈ scopes) ∧
    ((registrationsOf history).map Prod.fst).Pairwise (· < ·) ∧
    (∀ scope, (runsOf scope history).Pairwise (· > ·)) ∧
    (∀ answers inner run cause, answers.rollback = none →
      (savepoint answers inner run).2 = some cause →
      (savepoint answers inner run).1.session.pendingEffectIds =
        run.session.pendingEffectIds) ∧
    (outcome.raised ≠ none → outcome.signalled = []) := by
  have stretch := transaction_extends write rolledBack rollsBack
  exact ⟨stretch.once, stretch.runs, stretch.inOrder, stretch.reversed,
    fun _ _ _ _ back aborted => savepoint_restores back aborted, signalled_aborted⟩

def answered : Answers :=
  { savepoint := none, release := none, rollback := none }

/-- An inner scope commits, and the scope around it aborts. -/
def committedInside : Body :=
  .onRollback none
    (.nested true answered (.onRollback (some "OSError") (.enqueue "job" .done))
      (.fail "conflict"))

theorem rollback_compensations_sample :
    committedInside.rollsBack = true ∧
      timesRun 1 (transaction true answered committedInside).run.history = 1 := by
  have sound := rollback_compensations true answered committedInside rfl rfl
  exact ⟨rfl, (sound.1 1 [1, 0] (by decide)).trans (if_pos (by decide))⟩

/-- The outermost scope leaves its list of jobs when it aborts, and a connection that is
lost before the rollback takes a compensation with it. -/
theorem outermost_abort :
    (transaction true answered committedInside).raised ≠ none ∧
    (transaction true answered committedInside).run.session.pendingEffectIds ≠
      (opened true).session.pendingEffectIds ∧
    (let lost := transaction true { answered with rollback := some "OperationalError" }
      committedInside
     .registered 0 [0] ∈ lost.run.history ∧ .aborted 0 ∈ lost.run.history ∧
      timesRun 0 lost.run.history = 0) := by
  decide

end MsgServer.Compensations
