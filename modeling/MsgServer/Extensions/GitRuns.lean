import MsgServer.Extensions.GitPublication
import MsgServer.Library.Run

/-!
Runs of the reference guard. `Outcome` is what answering one message does; every invariant of a
run is read off it.
-/

namespace MsgServer.GitPublication

open Library

variable {turn : Turn} {guard next : Guard}

def guards (turns : List Turn) : Guard := Run.run step turns Guard.initial

/-- The message asks for the phase with these changes. -/
def Turn.Asks (turn : Turn) (phase : Phase) (changes : List Change) : Prop :=
  ∃ text, turn.message = .hook phase text ∧ validateChanges text = .ok changes

def Guard.begun (guard : Guard) (row : Transaction) (manager : Option Nat) : Guard :=
  { guard with transactions := guard.transactions ++ [row], manager := manager }

def Guard.noted (guard : Guard) (changed uncertain : Bool) : Guard :=
  { guard with changed := changed, uncertain := uncertain }

def Guard.left (guard : Guard) (tx : Option Nat) (preparing prepared : Option (List Change)) :
    Guard :=
  { guard with manager := none, tx := tx, preparing := preparing, prepared := prepared }

/-- What answering a message does; the failure, if any, is the answer. -/
inductive Outcome (turn : Turn) (guard : Guard) : Option Failure → Guard → Prop where
  | idle (failure : Option Failure) (preparing : Option (List Change))
      (unmatched : ∀ changes, turn.Asks .committed changes →
        guard.manager = none ∨ guard.prepared ≠ some changes)
      (accepted : failure = none → ∃ changes, turn.Asks .preparing changes) :
      Outcome turn guard failure { guard with preparing := preparing }
  | halted (asked : turn.message = .stop) (free : guard.manager = none) :
      Outcome turn guard none { guard with stopped := true }
  | halting {number : Nat} (asked : turn.message = .stop) (held : guard.manager = some number)
      (live : guard.live number = true) :
      Outcome turn guard none
        { (guard.alter number Transaction.exited).noted guard.changed true with stopped := true }
  | jammed {number : Nat} (failure : Failure) (asked : turn.message = .stop)
      (held : guard.manager = some number)
      (stuck : guard.live number = false ∨ turn.rollback ≠ none) :
      Outcome turn guard (some failure)
        ((guard.alter number Transaction.exited).noted guard.changed true)
  | unentered (failure : Failure) (free : guard.manager = none) {changes : List Change}
      (asked : turn.Asks .prepared changes) :
      Outcome turn guard (some failure)
        (guard.begun ⟨false, true, 0⟩ (some guard.transactions.length))
  | refused (failure : Failure) (free : guard.manager = none) {changes : List Change}
      (asked : turn.Asks .prepared changes) :
      Outcome turn guard (some failure)
        { guard.begun ⟨true, true, 1⟩ none with tx := none }
  | refusedLoudly (failure : Failure) (free : guard.manager = none) {changes : List Change}
      (asked : turn.Asks .prepared changes) (denied : turn.authority ≠ .ok ())
      (loud : turn.rollback ≠ none) :
      Outcome turn guard (some failure)
        { guard.begun ⟨true, true, 1⟩ (some guard.transactions.length) with
          tx := some guard.transactions.length }
  | prepared (free : guard.manager = none) {changes : List Change}
      (asked : turn.Asks .prepared changes) (granted : turn.authority = .ok ()) :
      Outcome turn guard none
        { guard.begun ⟨true, false, 0⟩ (some guard.transactions.length) with
          tx := some guard.transactions.length
          prepared := some changes }
  | aborted {number : Nat} (failure : Option Failure) (held : guard.manager = some number)
      {changes : List Change} (asked : turn.Asks .aborted changes) (tx : Option Nat)
      (preparing prepared : Option (List Change)) :
      Outcome turn guard failure
        ((guard.alter number Transaction.exited).left tx preparing prepared)
  | published {number : Nat} (held : guard.manager = some number) {changes : List Change}
      (asked : turn.Asks .committed changes) (matched : guard.prepared = some changes)
      (live : guard.live number = true) (written : turn.writes = .ok ())
      (committed : turn.commit = .ok ()) :
      Outcome turn guard none
        { ((guard.alter number Transaction.exited).noted true guard.uncertain).left
            none none none with
          published := guard.published ++ [changes]
          generation := guard.generation + 1 }
  | lost {number : Nat} (failure : Failure) (held : guard.manager = some number)
      {changes : List Change} (asked : turn.Asks .committed changes)
      (transactions : List Transaction)
      (shape : transactions = guard.transactions ∧ guard.usable = false ∨
        transactions = guard.transactions.modify number Transaction.exited)
      (reason : guard.usable = false ∨ turn.writes ≠ .ok () ∨ turn.commit ≠ .ok ()) :
      Outcome turn guard (some failure)
        ({ guard with transactions := transactions }.noted true true |>.left guard.tx
          guard.preparing guard.prepared)

/-- The outcome of a program run in a guard. -/
def Ends (turn : Turn) (body : Tx Unit) (guard : Guard) : Prop :=
  match body guard with
  | .ok _ next => Outcome turn guard none next
  | .error failure next => Outcome turn guard (some failure) next

/-! How the steps of a program evaluate. -/

theorem bind_run {α β : Type} (first : Tx α) (rest : α → Tx β) (guard : Guard) :
    (first >>= rest) guard =
      match first guard with
      | .ok value next => rest value next
      | .error failure next => .error failure next := by
  show EStateM.bind first rest guard = _
  unfold EStateM.bind
  cases first guard <;> rfl

theorem pure_run {α : Type} (value : α) (guard : Guard) :
    (pure value : Tx α) guard = .ok value guard := rfl

theorem throw_run {α : Type} (failure : Failure) (guard : Guard) :
    (throw failure : Tx α) guard = .error failure guard := rfl

theorem set_run (change : Guard → Guard) (guard : Guard) :
    set change guard = .ok () (change guard) := rfl

theorem query_run {α : Type} (body : Guard → Except Failure α) (guard : Guard) :
    Program.query body guard =
      match body guard with
      | .ok value => .ok value guard
      | .error failure => .error failure guard := by
  unfold Program.query
  cases body guard <;> rfl

theorem raised_run (outcome : Except Failure Unit) (guard : Guard) :
    raised outcome guard =
      match outcome with
      | .ok _ => .ok () guard
      | .error failure => .error failure guard := by
  cases outcome <;> rfl

theorem recover_run (body : Tx Unit) (handler : Failure → Tx Unit) (guard : Guard) :
    Program.recover body handler guard =
      match body guard with
      | .ok value next => .ok value next
      | .error failure next => handler failure next := by
  unfold Program.recover
  cases body guard <;> rfl

theorem require_true {condition : Prop} [Decidable condition] {code : String}
    (holds : condition) : require condition code = .ok () :=
  (require_ok _ _ _).mpr holds

theorem require_false {condition : Prop} [Decidable condition] {code : String}
    (fails : ¬ condition) : require condition code = .error { code := code } := by
  unfold require Program.ensure
  rw [if_neg fails]

/-- Exiting with a failure closes the transaction, whatever it raises. -/
theorem exitFailed_run (number : Nat) (guard : Guard) :
    exitFailed turn number guard =
      if guard.live number = true then
        match turn.rollback with
        | none => .ok () (guard.alter number Transaction.exited)
        | some failure => .error failure (guard.alter number Transaction.exited)
      else .error guardFailed (guard.alter number Transaction.exited) := by
  simp only [exitFailed, bind_run, query_run, set_run]
  by_cases live : guard.live number = true
  · simp only [live, if_true]
    cases turn.rollback <;> rfl
  · simp only [live]
    rfl

theorem stop_ends (asked : turn.message = .stop) : Ends turn (stop turn) guard := by
  unfold Ends
  simp only [stop, bind_run, query_run]
  cases held : guard.manager with
  | none => exact .halted asked held
  | some number =>
      simp only [closeManager, bind_run, set_run, exitFailed_run]
      by_cases live : guard.live number = true
      · cases loud : turn.rollback with
        | none =>
            simp only [Guard.live] at live ⊢
            simp only [live, if_true]
            exact .halting asked held live
        | some failure =>
            simp only [Guard.live] at live ⊢
            simp only [live, if_true]
            exact .jammed failure asked held (Or.inr (by simp [loud]))
      · simp only [Guard.live] at live ⊢
        simp only [live]
        exact .jammed guardFailed asked held (Or.inl (by simpa [Guard.live] using live))

theorem prepareFirst_ends {changes : List Change} (asked : turn.Asks .preparing changes) :
    Ends turn (prepareFirst turn changes) guard := by
  have other : ∀ named, turn.Asks .committed named →
      guard.manager = none ∨ guard.prepared ≠ some named := by
    rintro named ⟨text, isCommitted, -⟩
    obtain ⟨_, isPreparing, -⟩ := asked
    rw [isPreparing] at isCommitted
    cases isCommitted
  unfold Ends
  simp only [prepareFirst, bind_run, query_run, raised_run, set_run]
  by_cases free : guard.manager = none
  · rw [require_true free]
    cases allowed : turn.preflight with
    | error failure => exact .idle (some failure) guard.preparing other (by simp)
    | ok done => exact .idle none (some changes) other fun _ => ⟨changes, asked⟩
  · rw [require_false free]
    exact .idle _ guard.preparing other (by simp)

/-- The phases are told apart by the message. -/
theorem Turn.Asks.phase {first second : Phase} {changes others : List Change}
    (asked : turn.Asks first changes) (again : turn.Asks second others) :
    first = second ∧ changes = others := by
  obtain ⟨text, same, valid⟩ := asked
  obtain ⟨_, shape, read⟩ := again
  rw [same] at shape
  cases shape
  rw [valid] at read
  cases read
  exact ⟨rfl, rfl⟩

theorem unmatched {phase : Phase} {changes : List Change} (asked : turn.Asks phase changes)
    (other : phase ≠ .committed) :
    ∀ named, turn.Asks .committed named → guard.manager = none ∨ guard.prepared ≠ some named :=
  fun _ again => absurd (asked.phase again).1 other

theorem alter_last (transactions : List Transaction) (row : Transaction)
    (change : Transaction → Transaction) :
    (transactions ++ [row]).modify transactions.length change = transactions ++ [change row] := by
  induction transactions with
  | nil => rfl
  | cons first rest ih => simpa using ih

theorem prepare_ends {changes : List Change} (asked : turn.Asks .prepared changes) :
    Ends turn (prepare turn changes) guard := by
  unfold Ends
  simp only [prepare, bind_run, query_run]
  by_cases free : guard.manager = none
  · rw [require_true free]
    by_cases same : ∀ first ∈ guard.preparing, changes = first
    · simp only [require_true same, openManager, bind_run, query_run, set_run, raised_run, pure_run]
      cases entered : turn.enter with
      | error failure => exact .unentered failure free asked
      | ok done =>
          simp only [recover_run, raised_run, Guard.alter, alter_last]
          cases granted : turn.authority with
          | ok done => exact .prepared free asked granted
          | error failure =>
              have live : Guard.live
                  { guard with
                    transactions := guard.transactions ++ [⟨true, false, 0⟩]
                    manager := some guard.transactions.length
                    tx := some guard.transactions.length } guard.transactions.length = true := by
                simp [Guard.live, Transaction.live]
              simp only [refuse, bind_run, exitFailed_run, live, if_true, Guard.alter, alter_last]
              cases loud : turn.rollback with
              | none => exact .refused failure free asked
              | some another =>
                  exact .refusedLoudly another free asked (by simp [granted]) (by simp [loud])
    · simp only [require_false same]
      exact .idle _ guard.preparing (unmatched asked (by simp)) (by simp)
  · rw [require_false free]
    exact .idle _ guard.preparing (unmatched asked (by simp)) (by simp)

/-- A message with the changes of the transaction takes its manager, another is refused. -/
theorem takeManager_run (changes : List Change) (guard : Guard) :
    takeManager changes guard =
      match guard.manager.filter fun _ => guard.prepared == some changes with
      | some active => .ok active { guard with manager := none }
      | none => .error { code := "git_transaction_mismatch" } guard := by
  simp only [takeManager, bind_run, query_run, set_run, pure_run]
  cases guard.manager.filter fun _ => guard.prepared == some changes <;> rfl

theorem taken {changes : List Change} {active : Nat}
    (found : (guard.manager.filter fun _ => guard.prepared == some changes) = some active) :
    guard.manager = some active ∧ guard.prepared = some changes := by
  obtain ⟨held, same⟩ := Option.filter_eq_some_iff.mp found
  exact ⟨held, by simpa using same⟩

theorem not_taken {changes : List Change}
    (found : (guard.manager.filter fun _ => guard.prepared == some changes) = none) :
    guard.manager = none ∨ guard.prepared ≠ some changes := by
  cases held : guard.manager with
  | none => exact Or.inl rfl
  | some active =>
      right
      intro same
      simp [held, same] at found

theorem abort_ends {changes : List Change} (asked : turn.Asks .aborted changes) :
    Ends turn (abort turn changes) guard := by
  unfold Ends
  simp only [abort, bind_run, takeManager_run]
  cases found : guard.manager.filter fun _ => guard.prepared == some changes with
  | none => exact .idle _ guard.preparing (unmatched asked (by simp)) (by simp)
  | some active =>
      have held := (taken found).1
      simp only [exitFailed_run, forget, set_run]
      by_cases live : Guard.live { guard with manager := none } active = true
      · cases loud : turn.rollback with
        | none =>
            simp only [live, if_true]
            exact .aborted none held asked none none none
        | some failure =>
            simp only [live, if_true]
            exact .aborted (some failure) held asked guard.tx guard.preparing guard.prepared
      · simp only [live]
        exact .aborted (some guardFailed) held asked guard.tx guard.preparing guard.prepared

/-- Only the transaction of the manager is open. -/
def Guard.Synced (guard : Guard) : Prop :=
  ∀ number, guard.live number = true → guard.manager = some number

theorem exited_dead (guard : Guard) (number : Nat) :
    (guard.alter number Transaction.exited).live number = false := by
  simp only [Guard.live, Guard.alter, List.getElem?_modify]
  cases guard.transactions[number]? <;> simp [Transaction.live, Transaction.exited]

theorem usable_synced (synced : guard.Synced) (usable : guard.usable = true) {active : Nat}
    (held : guard.manager = some active) : guard.tx = some active ∧ guard.live active = true := by
  unfold Guard.usable at usable
  cases session : guard.tx with
  | none => simp [session] at usable
  | some number =>
      rw [session, Option.any_some] at usable
      have same := synced number usable
      rw [held] at same
      cases same
      exact ⟨rfl, usable⟩

theorem unpublished_shut (active : Nat) (failure : Failure) (shut : guard.usable = false) :
    unpublished turn active failure guard = .error failure { guard with uncertain := true } := by
  have same : Guard.usable { guard with uncertain := true } = false := shut
  simp only [unpublished, bind_run, set_run, query_run, same]
  rfl

theorem unpublished_open (active : Nat) (failure : Failure) (usable : guard.usable = true)
    (live : guard.live active = true) :
    ∃ another, unpublished turn active failure guard =
      .error another { guard.alter active Transaction.exited with uncertain := true } := by
  have same : Guard.usable { guard with uncertain := true } = true := usable
  have alive : Guard.live { guard with uncertain := true } active = true := live
  simp only [unpublished, bind_run, set_run, query_run, same, if_true, exitFailed_run, alive]
  cases turn.rollback with
  | none => exact ⟨failure, rfl⟩
  | some another => exact ⟨another, rfl⟩

theorem commit_ends {changes : List Change} (synced : guard.Synced)
    (asked : turn.Asks .committed changes) : Ends turn (commit turn changes) guard := by
  unfold Ends
  simp only [commit, bind_run, takeManager_run]
  cases found : guard.manager.filter fun _ => guard.prepared == some changes with
  | none =>
      refine .idle _ guard.preparing ?_ (by simp)
      intro named again
      rw [← (asked.phase again).2]
      exact not_taken found
  | some active =>
      obtain ⟨held, matched⟩ := taken found
      have same : Guard.usable { guard with manager := none, changed := true } = guard.usable := rfl
      simp only [recover_run, publish, bind_run, query_run, set_run, same]
      -- the session is read before the writes, and again when something has failed
      by_cases usable : guard.usable = true
      · obtain ⟨session, live⟩ := usable_synced synced usable held
        have alive : Guard.live { guard with manager := none, changed := true } active = true := live
        rw [if_pos usable]
        cases written : turn.writes with
        | error failure =>
            obtain ⟨another, failed⟩ : ∃ another, unpublished turn active failure
                { guard with manager := none, changed := true } = .error another
                  { guard.alter active Transaction.exited with
                    manager := none, changed := true, uncertain := true } :=
              unpublished_open active failure usable alive
            simp only [failed]
            exact .lost another held asked _ (Or.inr rfl)
              (Or.inr (Or.inl (by simp [written])))
        | ok done =>
            simp only [exitCommitted, bind_run, query_run, set_run, raised_run, alive, if_true]
            cases committed : turn.commit with
            | ok done => exact .published held asked matched live written committed
            | error failure =>
                have shut : Guard.usable
                    { guard.alter active Transaction.exited with
                      manager := none, changed := true } = false := by
                  have dead := exited_dead guard active
                  simpa [Guard.usable, Guard.live, Guard.alter, session] using dead
                have failed : unpublished turn active failure
                    { guard.alter active Transaction.exited with
                      manager := none, changed := true } = .error failure
                    { guard.alter active Transaction.exited with
                      manager := none, changed := true, uncertain := true } :=
                  unpublished_shut active failure shut
                simp only [Guard.alter] at failed ⊢
                simp only [failed]
                exact .lost failure held asked _ (Or.inr rfl)
                  (Or.inr (Or.inr (by simp [committed])))
      · have shut : guard.usable = false := by simpa using usable
        have failed : unpublished turn active guardFailed
            { guard with manager := none, changed := true } = .error guardFailed
              { guard with manager := none, changed := true, uncertain := true } :=
          unpublished_shut active guardFailed shut
        rw [if_neg usable]
        simp only [failed]
        exact .lost guardFailed held asked _ (Or.inl ⟨rfl, shut⟩) (Or.inl shut)

theorem answer_ends (synced : guard.Synced) : Ends turn (answer turn) guard := by
  unfold answer
  cases asked : turn.message with
  | stop => exact stop_ends asked
  | hook phase text =>
      cases valid : validateChanges text with
      | error failure =>
          have refused : hook turn phase text guard = .error failure guard := by
            simp [hook, valid]
          unfold Ends
          simp only [refused]
          refine .idle _ guard.preparing ?_ (by simp)
          rintro named ⟨other, same, read⟩
          rw [asked] at same
          cases same
          rw [valid] at read
          cases read
      | ok changes =>
          have asks : turn.Asks phase changes := ⟨text, asked, valid⟩
          have read : Ends turn (hook turn phase text) guard ↔ Ends turn
              (match phase with
              | .preparing => prepareFirst turn changes
              | .prepared => prepare turn changes
              | .committed => commit turn changes
              | .aborted => abort turn changes
              | .other => throw { code := "invalid_git_hook_state" }) guard := by
            unfold Ends hook
            simp only [bind_run, query_run, valid]
            cases phase <;> rfl
          rw [read]
          cases phase with
          | preparing => exact prepareFirst_ends asks
          | prepared => exact prepare_ends asks
          | committed => exact commit_ends synced asks
          | aborted => exact abort_ends asks
          | other => exact .idle _ guard.preparing (unmatched asks (by simp)) (by simp)

end MsgServer.GitPublication
