import MsgServer.Market.Ledger
import MsgServer.Library.Run

/-!
The currency over whole runs of the ledger. A step is one `append_entry` call or
one INSERT of an escrow account, with whatever identities table and entropy it
meets; a refused call leaves the books alone. `validateLedger` is the historical
check of storage/ledger_migration.py, less its foreign keys, which the type of
the books already carries.
-/

namespace MsgServer.Conservation

open Library Ledger

inductive LedgerStep where
  | openAccount (account : LedgerAccount)
  | append (subject? : String → Option Subject) (uuid : Nat → String) (request : EntryRequest)

def step (next : LedgerStep) (books : Books) : Books :=
  match next with
  | .openAccount account =>
      match insertAccount books account with
      | .ok grown => grown
      | .error _ => books
  | .append subject? uuid request =>
      match appendEntry subject? uuid request books with
      | .ok (grown, _) => grown
      | .error _ => books

def sumBalances (books : Books) : Int :=
  (books.accounts.rows.map fun account => balance books account.id).sum

def validateLedger (books : Books) : Except Failure Unit := do
  require (totalSupply books = sumBalances books) "ledger conservation mismatch"
  require (∀ account ∈ books.accounts.rows,
    0 ≤ balance books account.id ∧ balance books account.id ≤ maxMinor)
    "invalid historical ledger balance"

/-- What every accepted entry preserves. -/
structure Sound (books : Books) : Prop where
  solvent : ∀ account, 0 ≤ balance books account
  capped : totalSupply books ≤ maxMinor

def accountIds (books : Books) : Finset String := (books.accounts.rows.map LedgerAccount.id).toFinset

theorem journal_covered (books : Books) :
    ∀ entry ∈ books.journal, ∀ account, entry.names account → account ∈ accountIds books := by
  intro entry member account named
  obtain ⟨posting, inLedger, rfl⟩ := List.mem_map.mp member
  have opened := books.referenced posting inLedger account ((names_iff_sides posting account).mp named)
  obtain ⟨row, found⟩ := Option.ne_none_iff_exists'.mp opened
  rw [accountIds, List.mem_toFinset]
  exact List.mem_map.mpr ⟨row, Table.find?_mem found, Table.find?_key found⟩

theorem sumBalances_eq_supply (books : Books) : sumBalances books = totalSupply books := by
  have summed := Bookkeeping.sum_balance (accountIds books) books.journal (journal_covered books)
  rw [supply_eq_journal, ← summed, accountIds, List.sum_toFinset _ books.accounts.unique]
  simp [sumBalances, balance_eq_journal, Function.comp_def]

theorem solvent_journal {books : Books} (sound : Sound books) :
    Bookkeeping.Solvent books.journal := by
  intro account
  rw [← balance_eq_journal]
  exact sound.solvent account

theorem balance_le_supply {books : Books} (sound : Sound books) (account : String) :
    balance books account ≤ totalSupply books := by
  rw [balance_eq_journal, supply_eq_journal]
  exact Bookkeeping.balance_le_supply (journal_covered books) (solvent_journal sound) account

theorem pair_le_supply {books : Books} (sound : Sound books) {left right : String}
    (different : left ≠ right) :
    balance books left + balance books right ≤ totalSupply books := by
  rw [balance_eq_journal, balance_eq_journal, supply_eq_journal]
  exact Bookkeeping.pair_le_supply (journal_covered books) (solvent_journal sound) different

theorem supply_nonneg {books : Books} (sound : Sound books) : 0 ≤ totalSupply books :=
  le_trans (sound.solvent rootSubject) (balance_le_supply sound rootSubject)

theorem heldBalance_cases (books : Books) (account : String) :
    heldBalance books (some account) = 0 ∨
      heldBalance books (some account) = balance books account := by
  by_cases blank : account = "" <;> simp [heldBalance, blank]

theorem heldBalance_bounds {books : Books} (sound : Sound books) (account : Option String) :
    0 ≤ heldBalance books account ∧ heldBalance books account ≤ maxMinor := by
  have zero : (0 : Int) ≤ 0 ∧ (0 : Int) ≤ maxMinor := by decide
  cases account with
  | none => exact zero
  | some account =>
      rcases heldBalance_cases books account with held | held
      · rw [held]
        exact zero
      · rw [held]
        exact ⟨sound.solvent account, le_trans (balance_le_supply sound account) sound.capped⟩

/-- A balance that pays for a debit covers it in the journal too. -/
theorem debit_covered {subject? : String → Option Subject} {request : EntryRequest}
    {before after : Books} {posting : Posting}
    (appended : Appended subject? request before after posting) {account : String}
    (sender : request.sender = some account) : request.amount ≤ balance before account := by
  have funds : request.amount ≤ heldBalance before (some account) := by
    rw [← sender]
    exact appended.cleared.funds (by simp [EntryRequest.clearing, sender])
  have positive : 0 < request.amount := appended.cleared.positive
  rcases heldBalance_cases before account with held | held
  · rw [held] at funds
    omega
  · rw [held] at funds
    exact funds

theorem appended_solvent {subject? : String → Option Subject} {request : EntryRequest}
    {before after : Books} {posting : Posting} (sound : Sound before)
    (appended : Appended subject? request before after posting) (account : String) :
    0 ≤ balance after account := by
  have held := sound.solvent account
  have positive : 0 < request.amount := appended.cleared.positive
  obtain ⟨transactionId, sequence, rfl⟩ := appended.shape
  rw [appended.balance account]
  simp only [Bookkeeping.Entry.effect, Posting.entry, EntryRequest.posting]
  by_cases debited : request.sender = some account
  · have covered := debit_covered appended debited
    by_cases credited : request.recipient = some account <;> simp [debited, credited] <;> omega
  · by_cases credited : request.recipient = some account <;> simp [debited, credited] <;> omega

theorem appended_capped {subject? : String → Option Subject} {request : EntryRequest}
    {before after : Books} {posting : Posting} (sound : Sound before)
    (appended : Appended subject? request before after posting) :
    totalSupply after ≤ maxMinor := by
  have capped := sound.capped
  have positive : 0 < request.amount := appended.cleared.positive
  have recorded : posting ∈ after.postings.rows := by simp [appended.recorded]
  rw [appended.supply, issue_of_checked (after.checked posting recorded)]
  obtain ⟨transactionId, sequence, rfl⟩ := appended.shape
  simp only [EntryRequest.posting]
  by_cases mint : request.kind = .mint
  · have minted : totalSupply before + request.amount ≤ maxMinor := appended.cleared.minted mint
    simpa [mint] using minted
  · by_cases burn : request.kind = .burn <;> simp [mint, burn] <;> omega

theorem appended_sound {subject? : String → Option Subject} {request : EntryRequest}
    {before after : Books} {posting : Posting} (sound : Sound before)
    (appended : Appended subject? request before after posting) : Sound after :=
  ⟨appended_solvent sound appended, appended_capped sound appended⟩

theorem sound_of_postings {before after : Books} (same : after.postings = before.postings)
    (sound : Sound before) : Sound after := by
  refine ⟨fun account => ?_, ?_⟩
  · rw [balance_congr same]
    exact sound.solvent account
  · have capped := sound.capped
    simpa [totalSupply, kindTotal, same] using capped

theorem step_sound (next : LedgerStep) (books : Books) (sound : Sound books) :
    Sound (step next books) := by
  cases next with
  | openAccount account =>
      cases done : insertAccount books account with
      | error failure => simpa [step, done] using sound
      | ok grown => simpa [step, done] using sound_of_postings (insertAccount_ok done).2 sound
  | append subject? uuid request =>
      cases done : appendEntry subject? uuid request books with
      | error failure => simpa [step, done] using sound
      | ok accepted =>
          obtain ⟨grown, posting⟩ := accepted
          simpa [step, done] using appended_sound sound (appendEntry_ok done)

theorem empty_sound : Sound Books.empty := by
  refine ⟨fun account => ?_, ?_⟩
  · simp [balance, creditTotal, debitTotal, Books.empty, Table.empty]
  · simp [totalSupply, kindTotal, Books.empty, Table.empty, maxMinor]

theorem run_sound (steps : List LedgerStep) : Sound (Run.run step steps Books.empty) :=
  Run.run_invariant step step_sound steps Books.empty empty_sound

/-- In sound books the recipient of a two-sided entry always has room. -/
theorem two_sided_room {books : Books} (sound : Sound books) {request : EntryRequest}
    (twoSided : request.sender ≠ none ∧ request.sender ≠ request.recipient)
    (positive : 0 < request.amount) (bounded : request.amount ≤ maxMinor)
    (funds : request.amount ≤ heldBalance books request.sender) :
    heldBalance books request.recipient + request.amount ≤ maxMinor := by
  obtain ⟨debit, sender⟩ := Option.ne_none_iff_exists'.mp twoSided.1
  rw [sender] at funds
  have paid : request.amount ≤ balance books debit := by
    rcases heldBalance_cases books debit with held | held <;> rw [held] at funds
    · omega
    · exact funds
  cases recipient : request.recipient with
  | none => simpa [heldBalance] using bounded
  | some credit =>
      rcases heldBalance_cases books credit with held | held <;> rw [held]
      · omega
      · have different : credit ≠ debit := by
          rintro rfl
          exact twoSided.2 (sender.trans recipient.symm)
        have together := pair_le_supply sound different
        have capped := sound.capped
        omega

theorem accountsCheck_code {request : Clearing} {failure : Failure}
    (refused : accountsCheck request = .error failure) : failure.code ≠ "money_overflow" := by
  unfold accountsCheck at refused
  split at refused <;>
    simp only [Program.except_bind_error, require_error] at refused <;>
    rcases refused with ⟨_, rfl⟩ | ⟨_, _, _, rfl⟩ <;> decide

theorem accountsCheck_two_sided {request : Clearing} {done : Unit}
    (twoSided : isIssuance request.kind = false) (passed : accountsCheck request = .ok done) :
    request.sender ≠ none ∧ request.sender ≠ request.recipient := by
  have both : (request.sender ≠ none ∧ request.recipient ≠ none) ∧
      request.sender ≠ request.recipient := by
    simpa [accountsCheck, twoSided] using passed
  exact ⟨both.1.1, both.2⟩

/-- For a two-sided kind the overflow branch of the clearing policy is dead. -/
theorem clearing_room {books : Books} (sound : Sound books) {request : EntryRequest}
    (twoSided : isIssuance request.kind = false) {failure : Failure}
    (refused : clearingDecision (request.clearing books) = .error failure) :
    failure.code ≠ "money_overflow" := by
  have notMint : request.kind ≠ .mint := by
    intro mint
    simp [isIssuance, mint] at twoSided
  simp only [clearingDecision, checkedAmount, Program.except_bind_ok, Program.except_bind_error,
    require_ok, require_error, Program.except_pure, Except.ok.injEq, reduceCtorEq,
    and_false, exists_false, or_false] at refused
  rcases refused with ⟨_, rfl⟩ | ⟨amount, ⟨_, bounds, rfl⟩, refused⟩
  · decide
  rcases refused with ⟨_, rfl⟩ | ⟨_, _, refused⟩
  · decide
  rcases refused with refused | ⟨_, accounts, refused⟩
  · exact accountsCheck_code refused
  rcases refused with ⟨_, rfl⟩ | ⟨_, _, refused⟩
  · decide
  rcases refused with ⟨_, rfl⟩ | ⟨_, funds, refused⟩
  · decide
  have sides := accountsCheck_two_sided twoSided accounts
  rcases refused with ⟨full, rfl⟩ | ⟨_, _, refused⟩
  · exact absurd (fun _ => two_sided_room sound sides bounds.1 bounds.2 (funds sides.1)) full
  rcases refused with ⟨_, rfl⟩ | ⟨_, _, full, rfl⟩
  · decide
  · exact absurd (fun mint => absurd mint notMint) full

theorem insertAccount_error {books : Books} {account : LedgerAccount} {failure : Failure}
    (refused : insertAccount books account = .error failure) : failure = constraintConflict := by
  unfold insertAccount at refused
  split at refused
  · split at refused
    · exact (Except.error.inj refused).symm
    · cases refused
  · exact (Except.error.inj refused).symm

theorem registerSide_error {subject? : String → Option Subject} {side : Option String}
    {books : Books} {failure : Failure}
    (refused : registerSide subject? side books = .error failure) :
    failure = constraintConflict := by
  cases side with
  | none => cases refused
  | some account =>
      simp only [registerSide, registerSubjectAccount] at refused
      split at refused
      · cases refused
      · split at refused
        · exact (Except.error.inj refused).symm
        · split at refused
          · exact insertAccount_error refused
          · exact (Except.error.inj refused).symm

theorem insertPosting_error {books : Books} {posting : Posting} {failure : Failure}
    (refused : insertPosting books posting = .error failure) : failure = constraintConflict := by
  unfold insertPosting at refused
  split at refused
  · split at refused
    · exact (Except.error.inj refused).symm
    · cases refused
  · exact (Except.error.inj refused).symm

theorem append_room {books : Books} (sound : Sound books)
    {subject? : String → Option Subject} {uuid : Nat → String} {request : EntryRequest}
    (kind : request.kind = .transfer ∨ request.kind = .redeem ∨ request.kind = .refund)
    {failure : Failure} (refused : appendEntry subject? uuid request books = .error failure) :
    failure.code ≠ "money_overflow" := by
  have twoSided : isIssuance request.kind = false := by
    rcases kind with same | same | same <;> simp [isIssuance, same]
  have conflict : constraintConflict.code ≠ "money_overflow" := by decide
  simp only [appendEntry, Program.except_bind_error, require_ok, require_error,
    Program.except_pure, reduceCtorEq, and_false, exists_false, or_false] at refused
  rcases refused with ⟨_, rfl⟩ | ⟨_, _, refused | ⟨_, _, refused | ⟨_, _, refused | ⟨_, _, refused⟩⟩⟩⟩
  · decide
  · exact clearing_room sound twoSided refused
  · exact registerSide_error refused ▸ conflict
  · exact registerSide_error refused ▸ conflict
  · exact insertPosting_error refused ▸ conflict

theorem sound_validates {books : Books} (sound : Sound books) : validateLedger books = .ok () := by
  unfold validateLedger
  rw [require_true _ (sumBalances_eq_supply books).symm, Program.except_ok_bind]
  exact require_true _ fun account _ =>
    ⟨sound.solvent account.id, le_trans (balance_le_supply sound account.id) sound.capped⟩

/-- Every ledger this code can build passes the historical check of the migration. -/
theorem run_validates (steps : List LedgerStep) :
    validateLedger (Run.run step steps Books.empty) = .ok () :=
  sound_validates (run_sound steps)

/-- Conservation of the currency: after any run from the empty ledger the balances
add up to the supply, all of them stay in range, and only a mint can overflow. -/
theorem currency_conserved (steps : List LedgerStep) :
    let books := Run.run step steps Books.empty
    sumBalances books = totalSupply books ∧
      (∀ account, 0 ≤ balance books account ∧ balance books account ≤ maxMinor) ∧
      (0 ≤ totalSupply books ∧ totalSupply books ≤ maxMinor) ∧
      ∀ subject? uuid (request : EntryRequest) failure,
        request.kind = .transfer ∨ request.kind = .redeem ∨ request.kind = .refund →
        appendEntry subject? uuid request books = .error failure →
          failure.code ≠ "money_overflow" := by
  intro books
  have sound : Sound books := run_sound steps
  have inRange : ∀ account, 0 ≤ balance books account ∧ balance books account ≤ maxMinor :=
    fun account =>
      ⟨sound.solvent account, le_trans (balance_le_supply sound account) sound.capped⟩
  refine ⟨sumBalances_eq_supply books, inRange, ⟨supply_nonneg sound, sound.capped⟩, ?_⟩
  intro subject? uuid request failure kind refused
  exact append_room sound kind refused

end MsgServer.Conservation
