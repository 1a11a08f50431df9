import MsgServer.Extensions.GitGuard

/-!
How the transactions and the job of the reference guard end. The exits are counted, and the
final state of the job is compared with what Git reported.
-/

namespace MsgServer.GitPublication

open Library

variable {turn : Turn} {guard next : Guard} {failure : Option Failure}

/-- What a message must meet: exiting raises nothing where the manager would be kept, and Git
commits what was prepared. -/
structure Orderly (guard : Guard) (turn : Turn) : Prop where
  refused : ∀ changes, turn.Asks .prepared changes → turn.authority ≠ .ok () → turn.rollback = none
  stopping : turn.message = .stop → turn.rollback = none
  matched : ∀ text, turn.message = .hook .committed text →
    ∃ changes, validateChanges text = .ok changes ∧ guard.manager ≠ none ∧
      guard.prepared = some changes

/-- Every message that is read meets it. -/
def Meets : Guard → List Turn → Prop
  | _, [] => True
  | guard, turn :: rest =>
      (guard.stopped = false → Orderly guard turn) ∧ Meets (step turn guard) rest

theorem meets_orderly (before : List Turn) (turn : Turn) (after : List Turn)
    (meets : Meets guard (before ++ turn :: after))
    (running : (Run.run step before guard).stopped = false) :
    Orderly (Run.run step before guard) turn := by
  induction before generalizing guard with
  | nil => exact meets.1 running
  | cons first rest ih => exact ih meets.2 running

theorem meets_before (before after : List Turn) (meets : Meets guard (before ++ after)) :
    Meets guard before := by
  induction before generalizing guard with
  | nil => trivial
  | cons first rest ih => exact ⟨meets.1, ih meets.2⟩

/-! Exits. -/

/-- Opened transactions are exited once, when they are closed, and the manager names one that is
open, or that could not be entered. -/
structure Neat (guard : Guard) : Prop where
  once : ∀ (number : Nat) (row : Transaction), guard.transactions[number]? = some row →
    row.opened = true → row.exits = if row.closed = true then 1 else 0
  manager : guard.stopped = false → ∀ number, guard.manager = some number →
    ∃ row, guard.transactions[number]? = some row ∧ (row.live = true ∨ row.opened = false)

theorem getElem?_altered {number other : Nat} {row : Transaction}
    (found : (guard.alter number Transaction.exited).transactions[other]? = some row) :
    guard.transactions[other]? = some row ∨
      ∃ old, other = number ∧ guard.transactions[number]? = some old ∧ row = old.exited := by
  simp only [Guard.alter, List.getElem?_modify] at found
  by_cases same : number = other
  · subst same
    right
    cases stored : guard.transactions[number]? with
    | none => simp [stored] at found
    | some old =>
        have same : some old.exited = some row := by simpa [stored] using found
        exact ⟨old, rfl, rfl, (Option.some.inj same).symm⟩
  · left
    simpa [same] using found

/-- Exiting the manager's transaction counts once, or concerns one that was never entered. -/
theorem once_altered {number : Nat} (neat : Neat guard) (running : guard.stopped = false)
    (held : guard.manager = some number) (other : Nat) (row : Transaction)
    (found : (guard.alter number Transaction.exited).transactions[other]? = some row)
    (opened : row.opened = true) : row.exits = if row.closed = true then 1 else 0 := by
  rcases getElem?_altered found with before | ⟨old, -, stored, rfl⟩
  · exact neat.once other row before opened
  · obtain ⟨named, same, shape⟩ := neat.manager running number held
    rw [stored] at same
    cases same
    rcases shape with live | unopened
    · have count := neat.once number old stored opened
      simp only [Transaction.live, Bool.and_eq_true, Bool.not_eq_true'] at live
      simp [Transaction.exited, count, live.2]
    · have still : old.opened = true := opened
      rw [unopened] at still
      cases still

theorem once_begun {row : Transaction} (manager : Option Nat) (neat : Neat guard)
    (fits : row.opened = true → row.exits = if row.closed = true then 1 else 0)
    (other : Nat) (found : Transaction)
    (stored : (guard.begun row manager).transactions[other]? = some found)
    (opened : found.opened = true) : found.exits = if found.closed = true then 1 else 0 := by
  simp only [Guard.begun] at stored
  by_cases old : other < guard.transactions.length
  · rw [List.getElem?_append_left old] at stored
    exact neat.once other found stored opened
  · rw [List.getElem?_append_right (by omega)] at stored
    cases List.mem_singleton.mp (List.mem_of_getElem? stored)
    exact fits opened

theorem manager_begun {row : Transaction} (shape : row.live = true ∨ row.opened = false)
    (number : Nat) (named : some guard.transactions.length = some number) :
    ∃ found, (guard.transactions ++ [row])[number]? = some found ∧
      (found.live = true ∨ found.opened = false) := by
  cases named
  exact ⟨row, by simp, shape⟩

theorem Outcome.neat (outcome : Outcome turn guard failure next) (neat : Neat guard)
    (running : guard.stopped = false) (orderly : Orderly guard turn) : Neat next := by
  cases outcome with
  | idle _ preparing unmatched accepted => exact ⟨neat.once, neat.manager⟩
  | halted asked free => exact ⟨neat.once, fun still => by cases still⟩
  | halting asked held live =>
      exact ⟨once_altered neat running held, fun still => by cases still⟩
  | @jammed number _ asked held stuck =>
      refine ⟨once_altered neat running held, ?_⟩
      intro _ other named
      -- a rollback that raises is excluded, so the transaction was never entered
      obtain ⟨row, stored, shape⟩ := neat.manager running number held
      have same : other = number := by
        have again : guard.manager = some other := named
        rw [held] at again
        exact (Option.some.inj again).symm
      subst same
      have dead : row.live = false := by
        rcases stuck with dead | loud
        · simpa [Guard.live, stored] using dead
        · exact absurd (orderly.stopping asked) loud
      rw [dead] at shape
      have unopened := shape.resolve_left (by simp)
      exact ⟨row.exited, by simp [Guard.noted, Guard.alter, stored], Or.inr unopened⟩
  | unentered _ free asked =>
      refine ⟨once_begun (some guard.transactions.length) neat (by simp), ?_⟩
      intro _ number named
      exact manager_begun (Or.inr rfl) number named
  | refused _ free asked =>
      exact ⟨once_begun none neat (by simp), fun _ number named => by cases named⟩
  | refusedLoudly _ free asked denied loud => exact absurd (orderly.refused _ asked denied) loud
  | prepared free asked granted =>
      refine ⟨once_begun (some guard.transactions.length) neat (by simp), ?_⟩
      intro _ number named
      exact manager_begun (Or.inl rfl) number named
  | aborted _ held asked tx preparing prepared =>
      exact ⟨once_altered neat running held, fun _ number named => by cases named⟩
  | published held asked matched live written committed =>
      exact ⟨once_altered neat running held, fun _ number named => by cases named⟩
  | lost _ held asked transactions shape reason =>
      refine ⟨?_, fun _ number named => by cases named⟩
      rcases shape with ⟨rfl, -⟩ | rfl
      · exact neat.once
      · exact once_altered neat running held

theorem guards_neat (turns : List Turn) (meets : Meets Guard.initial turns) :
    Neat (guards turns) := by
  induction turns using List.reverseRecOn with
  | nil =>
      constructor
      · intro number row found
        simp [guards, Guard.initial] at found
      · intro _ number named
        cases named
  | append_singleton turns turn ih =>
      have neat := ih (meets_before turns [turn] meets)
      have sound := guards_sound turns
      rw [guards_concat]
      cases running : (guards turns).stopped with
      | true =>
          rw [step_stopped running]
          exact neat
      | false =>
          have orderly : Orderly (guards turns) turn := meets_orderly turns turn [] meets running
          have taken : Taken turn (guards turns) (step turn (guards turns)) :=
            step_taken sound running
          generalize step turn (guards turns) = next at taken ⊢
          cases taken with
          | answered done outcome => exact outcome.neat neat running orderly
          | failed failure done outcome =>
              have kept := outcome.neat neat running orderly
              exact ⟨kept.once, kept.manager⟩

/-! Failures and what Git reported. -/

/-- Something that holds of a failed or reporting turn holds of the guard from then on. -/
theorem guards_lasting {marked : Guard → Prop} {turns before after : List Turn}
    (kept : ∀ turn guard, Sound guard → marked guard → marked (step turn guard))
    (shape : turns = before ++ turn :: after) (there : marked (step turn (guards before))) :
    marked (guards turns) := by
  subst shape
  have split : before ++ turn :: after = before ++ [turn] ++ after := by simp
  rw [split]
  induction after using List.reverseRecOn with
  | nil =>
      rw [List.append_nil, guards_concat]
      exact there
  | append_singleton after last ih =>
      rw [← List.append_assoc, guards_concat]
      exact kept last _ (guards_sound _) (ih (by simp))

theorem Outcome.failures (outcome : Outcome turn guard failure next) :
    next.failures = guard.failures := by
  cases outcome <;> rfl

theorem Outcome.changed (outcome : Outcome turn guard failure next)
    (changed : guard.changed = true) : next.changed = true := by
  cases outcome with
  | published held asked matched live written committed => rfl
  | lost _ held asked transactions shape reason => rfl
  | _ => exact changed

theorem step_failures (turn : Turn) (guard : Guard) (sound : Sound guard)
    (failed : guard.failures ≠ []) : (step turn guard).failures ≠ [] := by
  cases running : guard.stopped with
  | true => rwa [step_stopped running]
  | false =>
      have taken : Taken turn guard (step turn guard) := step_taken sound running
      generalize step turn guard = next at taken ⊢
      cases taken with
      | answered done outcome => rwa [outcome.failures]
      | failed failure done outcome => simp [Guard.fail]

theorem step_changed (turn : Turn) (guard : Guard) (sound : Sound guard)
    (changed : guard.changed = true) : (step turn guard).changed = true := by
  cases running : guard.stopped with
  | true => rwa [step_stopped running]
  | false =>
      have taken : Taken turn guard (step turn guard) := step_taken sound running
      generalize step turn guard = next at taken ⊢
      cases taken with
      | answered done outcome => exact outcome.changed changed
      | failed failure done outcome => exact outcome.changed changed

/-- A report that matches sets `changed`, whether the commit succeeds or not. -/
theorem Outcome.reported (outcome : Outcome turn guard failure next) {changes : List Change}
    (asked : turn.Asks .committed changes) (held : guard.manager ≠ none)
    (waited : guard.prepared = some changes) : next.changed = true := by
  have notStop : turn.message ≠ .stop := by
    intro isStop
    obtain ⟨text, shape, -⟩ := asked
    rw [isStop] at shape
    cases shape
  cases outcome with
  | idle _ preparing unmatched accepted =>
      rcases unmatched changes asked with free | other
      · exact absurd free held
      · exact absurd waited other
  | halted isStop free => exact absurd isStop notStop
  | halting isStop taken alive => exact absurd isStop notStop
  | jammed _ isStop taken stuck => exact absurd isStop notStop
  | unentered _ free again => cases (asked.phase again).1
  | refused _ free again => cases (asked.phase again).1
  | refusedLoudly _ free again denied loud => cases (asked.phase again).1
  | prepared free again granted => cases (asked.phase again).1
  | aborted _ taken again tx preparing prepared => cases (asked.phase again).1
  | published taken again matched alive done acknowledged => rfl
  | lost _ taken again transactions shape reason => rfl

/-! The property of a run. -/

structure Guarded (turns : List Turn) : Prop where
  /-- At most one transaction is open. -/
  single : ∀ first second, (guards turns).live first = true → (guards turns).live second = true →
    first = second
  exits : ∀ row ∈ (guards turns).transactions, row.opened = true → row.exits ≤ 1
  /-- When the guard has stopped, each has been exited once. -/
  ended : (guards turns).stopped = true → ∀ row ∈ (guards turns).transactions,
    row.opened = true → row.closed = true ∧ row.exits = 1
  durable : ∀ changes, changes ∈ (guards turns).published ↔ Publishes turns changes
  advanced : (guards turns).generation = (guards turns).published.length
  done : ∀ ending, jobState (guards turns) ending = .done → ending.code = some 0 ∧
    ∀ before turn after, turns = before ++ turn :: after → (guards before).stopped = false →
      ∃ next, answer turn (guards before) = .ok () next
  failed : ∀ ending, jobState (guards turns) ending = .failed →
    ∀ before turn after, turns = before ++ turn :: after → (guards before).stopped = false →
      ∀ text, turn.message ≠ .hook .committed text

theorem jobState_done {ending : Ending} (done : jobState guard ending = .done) :
    ending.code = some 0 ∧ guard.failures = [] := by
  unfold jobState at done
  split at done
  · cases done
  · split at done
    · assumption
    · cases done

theorem jobState_failed {ending : Ending} (failed : jobState guard ending = .failed) :
    guard.changed = false := by
  unfold jobState at failed
  split at failed
  · cases failed
  · split at failed
    · cases failed
    · rename_i certain unfinished
      by_contra changed
      apply certain
      simp only [Bool.not_eq_false] at changed
      have wrong : ending.code ≠ some 0 ∨ guard.failures ≠ [] := by
        by_contra right
        push Not at right
        exact unfinished right
      simp only [jobUncertain, changed, Bool.true_and, Bool.or_eq_true, bne_iff_ne,
        Bool.not_eq_true', List.isEmpty_eq_false_iff]
      exact Or.inr wrong

/-- Where every message meets it, the guard does all that is asked of it. -/
theorem publication_guard (turns : List Turn) (meets : Meets Guard.initial turns) :
    Guarded turns := by
  have sound := guards_sound turns
  have neat := guards_neat turns meets
  constructor
  case single =>
    intro first second one two
    have same := (sound.held first one).1
    rw [(sound.held second two).1] at same
    exact (Option.some.inj same).symm
  case exits =>
    intro row inside opened
    obtain ⟨number, stored⟩ := List.getElem?_of_mem inside
    rw [neat.once number row stored opened]
    split <;> omega
  case ended =>
    intro stopped row inside opened
    obtain ⟨number, stored⟩ := List.getElem?_of_mem inside
    have closed : row.closed = true := by
      have dead := sound.ended stopped number
      simpa [Guard.live, stored, Transaction.live, opened] using dead
    exact ⟨closed, by rw [neat.once number row stored opened, if_pos closed]⟩
  case durable =>
    exact fun changes => ⟨published_publishes turns, publishes_published turns⟩
  case advanced => exact guards_generation turns
  case done =>
    intro ending done
    obtain ⟨code, clean⟩ := jobState_done done
    refine ⟨code, ?_⟩
    intro before turn after shape running
    cases answered : answer turn (guards before) with
    | ok value next => exact ⟨next, rfl⟩
    | error failure next =>
        have failing : (step turn (guards before)).failures ≠ [] := by
          rw [step, if_neg (by simp [running]), answered]
          simp [Guard.fail]
        have still : (guards turns).failures ≠ [] :=
          guards_lasting (fun turn guard => step_failures turn guard) shape failing
        exact absurd clean still
  case failed =>
    intro ending failed before turn after shape running text asked
    have unchanged := jobState_failed failed
    have orderly : Orderly (guards before) turn :=
      meets_orderly before turn after (shape ▸ meets) running
    obtain ⟨changes, valid, held, waited⟩ := orderly.matched text asked
    have changed : (step turn (guards before)).changed = true := by
      have taken : Taken turn (guards before) (step turn (guards before)) :=
        step_taken (guards_sound before) running
      generalize step turn (guards before) = next at taken ⊢
      cases taken with
      | answered done outcome => exact outcome.reported ⟨text, asked, valid⟩ held waited
      | failed failure done outcome =>
          have reported := outcome.reported ⟨text, asked, valid⟩ held waited
          exact reported
    have still : (guards turns).changed = true :=
      guards_lasting (fun turn guard => step_changed turn guard) shape changed
    rw [unchanged] at still
    cases still

/-! One branch is pushed. -/

def sampleText (digit : Char) : Text :=
  ⟨99, [List.replicate 40 '0' ++ ' ' :: List.replicate 40 digit ++ " refs/heads/main".toList]⟩

def sampleTurn (message : Message) : Turn :=
  ⟨message, .ok (), .ok (), .ok (), none, .ok (), .ok ()⟩

def samplePush : List Turn :=
  [sampleTurn (.hook .prepared (sampleText '1')), sampleTurn (.hook .committed (sampleText '1')),
    sampleTurn .stop]

theorem orderly_quiet (quiet : turn.rollback = none)
    (other : ∀ text, turn.message ≠ .hook .committed text) : Orderly guard turn where
  refused _ _ _ := quiet
  stopping _ := quiet
  matched text asked := absurd asked (other text)

theorem publication_guard_sample : Guarded samplePush := by
  apply publication_guard
  have waited : ∃ changes, validateChanges (sampleText '1') = .ok changes ∧
      (guards [sampleTurn (.hook .prepared (sampleText '1'))]).prepared = some changes :=
    ⟨_, rfl, by decide +kernel⟩
  refine ⟨fun _ => orderly_quiet rfl (by simp [sampleTurn]), fun _ => ?_,
    fun _ => orderly_quiet rfl (by simp [sampleTurn]), trivial⟩
  constructor
  case refused => exact fun _ _ _ => rfl
  case stopping => exact fun _ => rfl
  case matched =>
    intro text asked
    cases asked
    obtain ⟨changes, read, prepared⟩ := waited
    exact ⟨changes, read, by decide +kernel, prepared⟩

/-- The authority is lost together with the connection, so that rolling back raises too. -/
def sampleLost : List Turn :=
  [{ sampleTurn (.hook .prepared (sampleText '1')) with
      authority := .error guardFailed
      rollback := some guardFailed },
    sampleTurn .stop]

/-- Git reports other changes than those prepared, and then aborts the latter. -/
def sampleMismatch : List Turn :=
  [sampleTurn (.hook .prepared (sampleText '1')), sampleTurn (.hook .committed (sampleText '2')),
    sampleTurn (.hook .aborted (sampleText '1')), sampleTurn .stop]

/-- In the first run a transaction is exited twice and the stop is not answered; in the second the
job fails although a batch was reported. -/
theorem guard_broken :
    (¬ Guarded sampleLost ∧ (guards sampleLost).stopped = false) ∧ ¬ Guarded sampleMismatch := by
  refine ⟨⟨?_, by decide +kernel⟩, ?_⟩
  · intro guarded
    have twice := guarded.exits ⟨true, true, 2⟩ (by decide +kernel) rfl
    exact absurd twice (by decide)
  · intro guarded
    have failed : jobState (guards sampleMismatch) ⟨some 1, false⟩ = .failed := by decide +kernel
    exact guarded.failed _ failed [sampleTurn (.hook .prepared (sampleText '1'))] _ _ rfl
      (by decide +kernel) (sampleText '2') rfl

end MsgServer.GitPublication
