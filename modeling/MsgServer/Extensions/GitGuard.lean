import Mathlib.Data.List.Induction
import MsgServer.Extensions.GitRuns

/-!
What the reference guard keeps in every run: one open transaction at a time, a durable event for
each acknowledged pair of `prepared` and `committed` and for nothing else, and, where no exit
raises and every `committed` matches, one exit for each transaction and a final state that does
not deny what Git has committed.
-/

namespace MsgServer.GitPublication

open Library

variable {turn : Turn} {guard next : Guard} {failure : Option Failure}

/-! One open transaction. -/

/-- An open transaction is the one both local variables name, and none is open after the stop. -/
structure Sound (guard : Guard) : Prop where
  held : ∀ number, guard.live number = true →
    guard.manager = some number ∧ guard.tx = some number
  ended : guard.stopped = true → ∀ number, guard.live number = false

theorem Sound.synced (sound : Sound guard) : guard.Synced :=
  fun number live => (sound.held number live).1

theorem live_alter {number other : Nat}
    (live : (guard.alter number Transaction.exited).live other = true) :
    other ≠ number ∧ guard.live other = true := by
  have apart : other ≠ number := by
    rintro rfl
    rw [exited_dead] at live
    cases live
  refine ⟨apart, ?_⟩
  simpa [Guard.live, Guard.alter, List.getElem?_modify, apart.symm] using live

theorem live_begun {row : Transaction} {manager : Option Nat} {other : Nat}
    (live : (guard.begun row manager).live other = true) :
    guard.live other = true ∨ other = guard.transactions.length ∧ row.live = true := by
  simp only [Guard.live, Guard.begun] at live ⊢
  by_cases old : other < guard.transactions.length
  · left
    rwa [List.getElem?_append_left old] at live
  · right
    rw [List.getElem?_append_right (by omega)] at live
    by_cases new : other - guard.transactions.length = 0
    · have own : other = guard.transactions.length := by omega
      subst own
      exact ⟨rfl, by simpa using live⟩
    · rw [List.getElem?_eq_none (by simp only [List.length_singleton]; omega)] at live
      cases live

/-- What is open afterwards was open before, and nothing about it changed, or was just opened. -/
inductive StillOpen (turn : Turn) (guard next : Guard) (failure : Option Failure)
    (number : Nat) : Prop where
  | kept (before : guard.live number = true) (manager : next.manager = guard.manager)
      (tx : next.tx = guard.tx) (prepared : next.prepared = guard.prepared)
  | opened {changes : List Change} (asked : turn.Asks .prepared changes)
      (granted : turn.authority = .ok ()) (answered : failure = none)
      (new : number = guard.transactions.length) (manager : next.manager = some number)
      (tx : next.tx = some number) (prepared : next.prepared = some changes)

theorem Outcome.stillOpen (outcome : Outcome turn guard failure next) (sound : Sound guard)
    {number : Nat} (live : next.live number = true) :
    StillOpen turn guard next failure number := by
  -- an exited transaction is the one of the manager, so nothing else can be open
  have exited : ∀ {other : Nat}, guard.manager = some other →
      (guard.alter other Transaction.exited).live number = true → False := by
    intro other held live
    obtain ⟨apart, before⟩ := live_alter live
    have same := (sound.held number before).1
    rw [held] at same
    cases same
    exact apart rfl
  have begun : ∀ {row : Transaction} {manager : Option Nat}, guard.manager = none →
      row.live = false → (guard.begun row manager).live number = true → False := by
    intro row manager free dead live
    rcases live_begun live with before | ⟨-, alive⟩
    · have held := (sound.held number before).1
      rw [free] at held
      cases held
    · rw [dead] at alive
      cases alive
  cases outcome with
  | idle _ preparing unmatched accepted => exact .kept live rfl rfl rfl
  | halted asked free => exact .kept live rfl rfl rfl
  | halting asked held alive => exact (exited held live).elim
  | jammed _ asked held stuck => exact (exited held live).elim
  | unentered _ free asked => exact (begun free rfl live).elim
  | refused _ free asked =>
      have dead : Transaction.live ⟨true, true, 1⟩ = false := rfl
      have before : (guard.begun ⟨true, true, 1⟩ none).live number = true := live
      exact (begun free dead before).elim
  | refusedLoudly _ free asked denied loud =>
      have before : (guard.begun ⟨true, true, 1⟩
          (some guard.transactions.length)).live number = true := live
      exact (begun free rfl before).elim
  | prepared free asked granted =>
      have before : (guard.begun ⟨true, false, 0⟩
          (some guard.transactions.length)).live number = true := live
      rcases live_begun before with old | ⟨new, -⟩
      · have held := (sound.held number old).1
        rw [free] at held
        cases held
      · subst new
        exact .opened asked granted rfl rfl rfl rfl rfl
  | aborted _ held asked tx preparing prepared => exact (exited held live).elim
  | published held asked matched alive written committed => exact (exited held live).elim
  | lost _ held asked transactions shape reason =>
      rcases shape with ⟨rfl, shut⟩ | rfl
      · have before : guard.live number = true := live
        have session := (sound.held number before).2
        rw [Guard.usable, session, Option.any_some, before] at shut
        cases shut
      · exact (exited held live).elim

theorem Outcome.sound (outcome : Outcome turn guard failure next) (sound : Sound guard)
    (running : guard.stopped = false) : Sound next := by
  constructor
  · intro number live
    cases outcome.stillOpen sound live with
    | kept before manager tx prepared =>
        rw [manager, tx]
        exact sound.held number before
    | opened asked granted answered new manager tx prepared => exact ⟨manager, tx⟩
  · intro stopped number
    by_contra alive
    have live : next.live number = true := by simpa using alive
    cases outcome.stillOpen sound live with
    | kept before manager tx prepared =>
        have held := (sound.held number before).1
        cases outcome with
        | halted asked free =>
            rw [free] at held
            cases held
        | halting asked taken alive =>
            rw [taken] at held
            cases held
            have dead := exited_dead guard number
            have still : (guard.alter number Transaction.exited).live number = true := live
            rw [dead] at still
            cases still
        | _ =>
            have still : guard.stopped = true := stopped
            rw [running] at still
            cases still
    | opened asked granted answered new manager tx prepared =>
        cases outcome with
        | halted isStop free =>
            obtain ⟨text, shape, -⟩ := asked
            rw [isStop] at shape
            cases shape
        | halting isStop taken alive =>
            obtain ⟨text, shape, -⟩ := asked
            rw [isStop] at shape
            cases shape
        | _ =>
            have still : guard.stopped = true := stopped
            rw [running] at still
            cases still

/-- A turn before the stop is answered, and a failure is noted. -/
inductive Taken (turn : Turn) (guard : Guard) : Guard → Prop where
  | answered {next : Guard} (done : answer turn guard = .ok () next)
      (outcome : Outcome turn guard none next) : Taken turn guard next
  | failed {next : Guard} (failure : Failure) (done : answer turn guard = .error failure next)
      (outcome : Outcome turn guard (some failure) next) : Taken turn guard (next.fail failure)

theorem step_taken (sound : Sound guard) (running : guard.stopped = false) :
    Taken turn guard (step turn guard) := by
  have ends : Ends turn (answer turn) guard := answer_ends sound.synced
  unfold Ends at ends
  unfold step
  rw [if_neg (by simp [running])]
  cases done : answer turn guard with
  | ok value next =>
      rw [done] at ends
      exact .answered done ends
  | error failure next =>
      rw [done] at ends
      exact .failed failure done ends

theorem step_stopped (stopped : guard.stopped = true) : step turn guard = guard := by
  unfold step
  rw [if_pos stopped]

theorem Sound.fail (sound : Sound guard) (failure : Failure) : Sound (guard.fail failure) :=
  ⟨sound.held, sound.ended⟩

theorem step_sound (turn : Turn) (guard : Guard) (sound : Sound guard) :
    Sound (step turn guard) := by
  cases running : guard.stopped with
  | true =>
      rw [step_stopped running]
      exact sound
  | false =>
      have taken : Taken turn guard (step turn guard) := step_taken sound running
      generalize step turn guard = next at taken ⊢
      cases taken with
      | answered done outcome => exact outcome.sound sound running
      | failed failure done outcome => exact (outcome.sound sound running).fail failure

theorem guards_sound (turns : List Turn) : Sound (guards turns) := by
  apply Run.run_invariant step step_sound turns Guard.initial
  constructor
  · intro number live
    simp [Guard.live, Guard.initial] at live
  · intro _ number
    simp [Guard.live, Guard.initial]

theorem guards_concat (turns : List Turn) (turn : Turn) :
    guards (turns ++ [turn]) = step turn (guards turns) := by
  simp [guards, Run.run_append]

/-! Which change lists become durable. -/

/-- The turn is a `prepared` with the changes that was authorised and answered. -/
structure Prepares (before : List Turn) (turn : Turn) (changes : List Change) : Prop where
  asked : turn.Asks .prepared changes
  granted : turn.authority = .ok ()
  running : (guards before).stopped = false
  answered : ∃ next, answer turn (guards before) = .ok () next

/-- The turn is a `committed` with the changes whose writes and commit succeed. -/
structure Commits (turn : Turn) (changes : List Change) : Prop where
  asked : turn.Asks .committed changes
  written : turn.writes = .ok ()
  committed : turn.commit = .ok ()

/-- An earlier `prepared` with the changes opened the transaction of this number. -/
def Opened (turns : List Turn) (number : Nat) (changes : List Change) : Prop :=
  ∃ before prepare middle, turns = before ++ prepare :: middle ∧ Prepares before prepare changes ∧
    (guards (before ++ [prepare])).manager = some number

/-- A `committed` with the changes followed a `prepared` with them that was authorised inside the
transaction still open then, and the commit succeeded. -/
def Publishes (turns : List Turn) (changes : List Change) : Prop :=
  ∃ before prepare middle commit after number,
    turns = before ++ prepare :: (middle ++ commit :: after) ∧ Prepares before prepare changes ∧
      (guards (before ++ [prepare])).manager = some number ∧
      (guards (before ++ prepare :: middle)).live number = true ∧ Commits commit changes

theorem Opened.later {turns : List Turn} {number : Nat} {changes : List Change}
    (opened : Opened turns number changes) (turn : Turn) :
    Opened (turns ++ [turn]) number changes := by
  obtain ⟨before, prepare, middle, rfl, prepares, held⟩ := opened
  exact ⟨before, prepare, middle ++ [turn], by simp, prepares, held⟩

theorem Publishes.later {turns : List Turn} {changes : List Change}
    (publishes : Publishes turns changes) (turn : Turn) : Publishes (turns ++ [turn]) changes := by
  obtain ⟨before, prepare, middle, commit, after, number, rfl, rest⟩ := publishes
  exact ⟨before, prepare, middle, commit, after ++ [turn], number, by simp, rest⟩

theorem live_fail (failure : Failure) (number : Nat) :
    (guard.fail failure).live number = guard.live number := rfl

/-- An open transaction was opened by a `prepared` with the changes that are waited for. -/
theorem guards_opened (turns : List Turn) {number : Nat}
    (live : (guards turns).live number = true) :
    ∃ changes, (guards turns).prepared = some changes ∧ Opened turns number changes := by
  induction turns using List.reverseRecOn with
  | nil => simp [guards, Guard.live, Guard.initial] at live
  | append_singleton turns turn ih =>
      have sound := guards_sound turns
      rw [guards_concat] at live ⊢
      cases running : (guards turns).stopped with
      | true =>
          rw [step_stopped running] at live ⊢
          obtain ⟨changes, waited, opened⟩ := ih live
          exact ⟨changes, waited, opened.later turn⟩
      | false =>
          have taken : Taken turn (guards turns) (step turn (guards turns)) :=
            step_taken sound running
          generalize reached : step turn (guards turns) = next at taken live ⊢
          cases taken with
          | answered done outcome =>
              cases outcome.stillOpen sound live with
              | kept before manager tx prepared =>
                  obtain ⟨changes, waited, opened⟩ := ih before
                  exact ⟨changes, prepared.trans waited, opened.later turn⟩
              | opened asked granted answered new manager tx prepared =>
                  refine ⟨_, prepared, turns, turn, [], rfl,
                    ⟨asked, granted, running, _, done⟩, ?_⟩
                  rw [guards_concat, reached]
                  exact manager
          | failed failure done outcome =>
              cases outcome.stillOpen sound live with
              | kept before manager tx prepared =>
                  obtain ⟨changes, waited, opened⟩ := ih before
                  exact ⟨changes, prepared.trans waited, opened.later turn⟩
              | opened asked granted answered new manager tx prepared => cases answered

/-- One turn adds no event, or that of the transaction it commits. -/
theorem Outcome.publishes (outcome : Outcome turn guard failure next) :
    next.published = guard.published ∧ next.generation = guard.generation ∨
      ∃ changes number, next.published = guard.published ++ [changes] ∧
        next.generation = guard.generation + 1 ∧ guard.manager = some number ∧
        guard.prepared = some changes ∧ guard.live number = true ∧ Commits turn changes := by
  cases outcome with
  | published held asked matched live written committed =>
      exact Or.inr ⟨_, _, rfl, rfl, held, matched, live, asked, written, committed⟩
  | _ => exact Or.inl ⟨rfl, rfl⟩

theorem step_publishes (sound : Sound guard) (turn : Turn) :
    (step turn guard).published = guard.published ∧
        (step turn guard).generation = guard.generation ∨
      ∃ changes number, (step turn guard).published = guard.published ++ [changes] ∧
        (step turn guard).generation = guard.generation + 1 ∧ guard.manager = some number ∧
        guard.prepared = some changes ∧ guard.live number = true ∧ Commits turn changes := by
  cases running : guard.stopped with
  | true =>
      rw [step_stopped running]
      exact Or.inl ⟨rfl, rfl⟩
  | false =>
      have taken : Taken turn guard (step turn guard) := step_taken sound running
      generalize step turn guard = next at taken ⊢
      cases taken with
      | answered done outcome => exact outcome.publishes
      | failed failure done outcome => exact outcome.publishes

theorem guards_generation (turns : List Turn) :
    (guards turns).generation = (guards turns).published.length := by
  induction turns using List.reverseRecOn with
  | nil => rfl
  | append_singleton turns turn ih =>
      rw [guards_concat]
      rcases step_publishes (guards_sound turns) turn with
        ⟨same, still⟩ | ⟨changes, number, more, advanced, -⟩
      · rw [same, still, ih]
      · rw [more, advanced, ih, List.length_append, List.length_singleton]

/-- Every durable event is that of a matching pair of messages. -/
theorem published_publishes (turns : List Turn) {changes : List Change}
    (durable : changes ∈ (guards turns).published) : Publishes turns changes := by
  induction turns using List.reverseRecOn with
  | nil => cases durable
  | append_singleton turns turn ih =>
      rw [guards_concat] at durable
      rcases step_publishes (guards_sound turns) turn with
        ⟨same, -⟩ | ⟨added, number, more, -, -, waited, live, commits⟩
      · rw [same] at durable
        exact (ih durable).later turn
      · rw [more] at durable
        rcases List.mem_append.mp durable with before | new
        · exact (ih before).later turn
        · cases List.mem_singleton.mp new
          obtain ⟨other, waits, before, prepare, middle, rfl, prepares, held⟩ :=
            guards_opened turns live
          rw [waited] at waits
          cases waits
          exact ⟨before, prepare, middle, turn, [], number, by simp, prepares, held, live, commits⟩

/-! A matching pair publishes. -/

theorem Outcome.prepared_next {changes : List Change} (outcome : Outcome turn guard none next)
    (asked : turn.Asks .prepared changes) :
    next.manager = some guard.transactions.length ∧ next.prepared = some changes ∧
      guard.transactions.length < next.transactions.length := by
  cases outcome with
  | idle _ preparing unmatched accepted =>
      obtain ⟨others, again⟩ := accepted rfl
      cases (asked.phase again).1
  | halted isStop free =>
      obtain ⟨text, shape, -⟩ := asked
      rw [isStop] at shape
      cases shape
  | halting isStop held live =>
      obtain ⟨text, shape, -⟩ := asked
      rw [isStop] at shape
      cases shape
  | prepared free again granted =>
      obtain ⟨-, rfl⟩ := asked.phase again
      exact ⟨rfl, rfl, by simp [Guard.begun]⟩
  | aborted _ held again tx preparing prepared => cases (asked.phase again).1
  | published held again matched live written committed => cases (asked.phase again).1

theorem Outcome.grows (outcome : Outcome turn guard failure next) :
    guard.transactions.length ≤ next.transactions.length := by
  cases outcome with
  | lost _ held asked transactions shape reason =>
      rcases shape with ⟨rfl, -⟩ | rfl
      · exact Nat.le_refl _
      · show _ ≤ (guard.transactions.modify _ _).length
        simp
  | _ => simp [Guard.begun, Guard.alter, Guard.noted, Guard.left]

theorem step_grows (sound : Sound guard) (turn : Turn) :
    guard.transactions.length ≤ (step turn guard).transactions.length := by
  cases running : guard.stopped with
  | true =>
      have same : step turn guard = guard := step_stopped running
      exact Nat.le_of_eq (congrArg (fun guard => guard.transactions.length) same.symm)
  | false =>
      have taken : Taken turn guard (step turn guard) := step_taken sound running
      generalize step turn guard = next at taken ⊢
      cases taken with
      | answered done outcome => exact outcome.grows
      | failed failure done outcome => exact outcome.grows

/-- While a transaction stays open, the guard waits for the same changes. -/
theorem guards_wait (before middle : List Turn) {number : Nat} {changes : List Change}
    (known : number < (guards before).transactions.length)
    (waited : (guards before).prepared = some changes)
    (live : (guards (before ++ middle)).live number = true) :
    (guards (before ++ middle)).prepared = some changes ∧
      number < (guards (before ++ middle)).transactions.length := by
  induction middle using List.reverseRecOn with
  | nil => simpa using And.intro waited known
  | append_singleton middle turn ih =>
      have sound := guards_sound (before ++ middle)
      rw [← List.append_assoc, guards_concat] at live ⊢
      have bounded : ∀ {next : Guard}, next.live number = true →
          number < next.transactions.length := by
        intro next alive
        by_contra outside
        simp [Guard.live, List.getElem?_eq_none (by omega : next.transactions.length ≤ number)]
          at alive
      refine ⟨?_, bounded live⟩
      cases running : (guards (before ++ middle)).stopped with
      | true =>
          rw [step_stopped running] at live ⊢
          exact (ih live).1
      | false =>
          have taken : Taken turn (guards (before ++ middle)) (step turn (guards (before ++ middle))) :=
            step_taken sound running
          have early : number < (guards (before ++ middle)).transactions.length := by
            have grown : ∀ middle, (guards before).transactions.length ≤
                (guards (before ++ middle)).transactions.length := by
              intro middle
              induction middle using List.reverseRecOn with
              | nil => simp
              | append_singleton middle turn ih =>
                  rw [← List.append_assoc, guards_concat]
                  exact Nat.le_trans ih (step_grows (guards_sound _) turn)
            exact Nat.lt_of_lt_of_le known (grown middle)
          generalize step turn (guards (before ++ middle)) = next at taken live ⊢
          have kept : ∀ {failure : Option Failure} {reached : Guard},
              Outcome turn (guards (before ++ middle)) failure reached →
              reached.live number = true → reached.prepared = some changes := by
            intro failure reached outcome alive
            cases outcome.stillOpen sound alive with
            | kept was manager tx prepared => exact prepared.trans (ih was).1
            | opened asked granted answered new manager tx prepared => omega
          cases taken with
          | answered done outcome => exact kept outcome live
          | failed failure done outcome =>
              rw [live_fail] at live
              have still := kept outcome live
              exact still

theorem step_keeps_published (sound : Sound guard) (turn : Turn) {changes : List Change}
    (durable : changes ∈ guard.published) : changes ∈ (step turn guard).published := by
  rcases step_publishes sound turn with ⟨same, -⟩ | ⟨added, number, more, -⟩
  · rwa [same]
  · rw [more]
    exact List.mem_append_left _ durable

theorem Outcome.committed_next {changes : List Change} {number : Nat} (sound : Sound guard)
    (outcome : Outcome turn guard failure next) (live : guard.live number = true)
    (waited : guard.prepared = some changes) (commits : Commits turn changes) :
    changes ∈ next.published := by
  obtain ⟨held, session⟩ := sound.held number live
  obtain ⟨asked, written, committed⟩ := commits
  have notStop : turn.message ≠ .stop := by
    intro isStop
    obtain ⟨text, shape, -⟩ := asked
    rw [isStop] at shape
    cases shape
  cases outcome with
  | idle _ preparing unmatched accepted =>
      rcases unmatched changes asked with free | other
      · rw [held] at free
        cases free
      · exact absurd waited other
  | halted isStop free => exact absurd isStop notStop
  | halting isStop taken alive => exact absurd isStop notStop
  | jammed _ isStop taken stuck => exact absurd isStop notStop
  | unentered _ free again => cases (asked.phase again).1
  | refused _ free again => cases (asked.phase again).1
  | refusedLoudly _ free again denied loud => cases (asked.phase again).1
  | prepared free again granted => cases (asked.phase again).1
  | aborted _ taken again tx preparing prepared => cases (asked.phase again).1
  | published taken again matched alive done acknowledged =>
      obtain ⟨-, rfl⟩ := asked.phase again
      exact List.mem_append_right _ (List.mem_singleton_self _)
  | lost _ taken again transactions shape reason =>
      rcases reason with shut | unwritten | uncommitted
      · rw [Guard.usable, session, Option.any_some, live] at shut
        cases shut
      · exact absurd written unwritten
      · exact absurd committed uncommitted

/-- A matching pair of messages leaves its event. -/
theorem publishes_published (turns : List Turn) {changes : List Change}
    (publishes : Publishes turns changes) : changes ∈ (guards turns).published := by
  obtain ⟨before, prepare, middle, commit, after, number, rfl, prepares, held, live, commits⟩ :=
    publishes
  have opened : (guards (before ++ [prepare])).prepared = some changes ∧
      number < (guards (before ++ [prepare])).transactions.length := by
    have sound := guards_sound before
    obtain ⟨next, done⟩ := prepares.answered
    have ends : Ends prepare (answer prepare) (guards before) := answer_ends sound.synced
    unfold Ends at ends
    rw [done] at ends
    have reached : guards (before ++ [prepare]) = next := by
      rw [guards_concat, step, if_neg (by simp [prepares.running]), done]
    obtain ⟨manager, waited, known⟩ := ends.prepared_next prepares.asked
    rw [reached] at held ⊢
    rw [manager] at held
    cases held
    exact ⟨waited, known⟩
  have split : before ++ prepare :: middle = before ++ [prepare] ++ middle := by simp
  rw [split] at live
  have waited := (guards_wait _ middle opened.2 opened.1 live).1
  have committed : changes ∈ (guards (before ++ [prepare] ++ middle ++ [commit])).published := by
    have sound := guards_sound (before ++ [prepare] ++ middle)
    rw [guards_concat]
    have running : (guards (before ++ [prepare] ++ middle)).stopped = false := by
      by_contra stopped
      have dead := sound.ended (by simpa using stopped) number
      rw [live] at dead
      cases dead
    have taken : Taken commit _ (step commit (guards (before ++ [prepare] ++ middle))) :=
      step_taken sound running
    generalize step commit (guards (before ++ [prepare] ++ middle)) = next at taken ⊢
    cases taken with
    | answered done outcome => exact outcome.committed_next sound live waited commits
    | failed failure done outcome =>
        have durable := outcome.committed_next sound live waited commits
        exact durable
  have shape : before ++ prepare :: (middle ++ commit :: after) =
      before ++ [prepare] ++ middle ++ [commit] ++ after := by simp
  rw [shape]
  clear shape
  induction after using List.reverseRecOn with
  | nil => simpa using committed
  | append_singleton after turn ih =>
      rw [← List.append_assoc, guards_concat]
      exact step_keeps_published (guards_sound _) turn ih

end MsgServer.GitPublication
