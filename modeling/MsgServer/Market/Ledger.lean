import MsgServer.Core.Models
import MsgServer.Library.Bookkeeping

/-!
market/ledger.py and the ledger tables of storage/postgres.py. A row of
money_ledger is the body of its signed receipt, so one record stands for both;
the currency scale, the policy digest and the signature, which are functions of
the rest, are left out. The database constraints are part of the type `Books`:
primary keys, the posting identity, the CHECK on the accounts of a kind and the
foreign keys into ledger_accounts. The sequence drawn by `nextval` is the length
of the ledger; gaps left by rolled back requests are not modelled.
-/

namespace MsgServer.Ledger

open Library

def currencyId : String := "primary"
def maxMinor : Int := 2 ^ 63 - 1
def policyVersion : Nat := 2

inductive AccountKind where
  | subject | orderEscrow | bountyEscrow | purchaseEscrow
  deriving DecidableEq

structure LedgerAccount where
  id : String
  kind : AccountKind
  subjectId : Option String
  sourceId : Option String
  deriving DecidableEq

inductive Kind where
  | mint | burn | transfer | redeem | refund
  deriving DecidableEq

structure Posting where
  transactionId : String
  kind : Kind
  currencyId : String
  amountMinor : Int
  fromSubject : Option String
  toSubject : Option String
  actor : String
  requestId : String
  entryKey : String
  reference : Option String
  committedAt : Nat
  policyVersion : Nat
  ledgerSequence : Nat
  deriving DecidableEq

/-- UNIQUE(actor,request_id,entry_key). -/
def Posting.identity (posting : Posting) : String × String × String :=
  (posting.actor, posting.requestId, posting.entryKey)

def Posting.entry (posting : Posting) : Bookkeeping.Entry String :=
  ⟨posting.fromSubject, posting.toSubject, posting.amountMinor⟩

/-- The CHECK constraints of money_ledger. -/
def Posting.checked (posting : Posting) : Bool :=
  decide (0 < posting.amountMinor) &&
    match posting.kind, posting.fromSubject, posting.toSubject with
    | .mint, none, some _ => true
    | .burn, some _, none => true
    | .transfer, some debit, some credit => debit != credit
    | .redeem, some debit, some credit => debit != credit
    | .refund, some debit, some credit => debit != credit
    | _, _, _ => false

/-- The CHECK constraint of ledger_accounts. -/
def LedgerAccount.checked (account : LedgerAccount) : Bool :=
  match account.kind with
  | .subject => account.subjectId == some account.id && account.sourceId == none
  | _ => account.subjectId == none && account.sourceId.isSome

def sides (posting : Posting) : List String :=
  posting.fromSubject.toList ++ posting.toSubject.toList

structure Books where
  accounts : Table LedgerAccount.id
  postings : Table Posting.transactionId
  sourced : ∀ left ∈ accounts.rows, ∀ right ∈ accounts.rows,
    left.kind = right.kind → left.sourceId = right.sourceId → left.sourceId ≠ none → left = right
  typed : ∀ account ∈ accounts.rows, account.checked = true
  identified : (postings.rows.map Posting.identity).Nodup
  checked : ∀ posting ∈ postings.rows, posting.checked = true
  referenced : ∀ posting ∈ postings.rows, ∀ account ∈ sides posting,
    accounts.find? account ≠ none

def Books.empty : Books where
  accounts := Table.empty
  postings := Table.empty
  sourced := by simp [Table.empty]
  typed := by simp [Table.empty]
  identified := by simp [Table.empty]
  checked := by simp [Table.empty]
  referenced := by simp [Table.empty]

def creditTotal (books : Books) (account : String) : Int :=
  ((books.postings.rows.filter fun posting => posting.toSubject == some account).map
    Posting.amountMinor).sum

def debitTotal (books : Books) (account : String) : Int :=
  ((books.postings.rows.filter fun posting => posting.fromSubject == some account).map
    Posting.amountMinor).sum

def balance (books : Books) (account : String) : Int :=
  creditTotal books account - debitTotal books account

def kindTotal (books : Books) (kind : Kind) : Int :=
  ((books.postings.rows.filter fun posting => posting.kind == kind).map
    Posting.amountMinor).sum

def totalSupply (books : Books) : Int := kindTotal books .mint - kindTotal books .burn

def checkedAmount (value : Int) : Except Failure Int := do
  require (0 < value ∧ value ≤ maxMinor) "invalid_money_amount"
  return value

def isRoot (account : Option String) : Bool :=
  account == some rootSubject || account == some "@root"

structure Clearing where
  kind : Kind
  sender : Option String
  recipient : Option String
  amount : Int
  senderBalance : Int
  recipientBalance : Int
  supply : Int
  localIssuer : Bool

structure ClearedEntry where
  kind : Kind
  debitAccount : Option String
  creditAccount : Option String
  amountMinor : Int
  currencyId : String
  policyVersion : Nat
  deriving DecidableEq

def isIssuance (kind : Kind) : Bool := kind == .mint || kind == .burn

/-- The two branches of `clearing_decision` on who may be debited and credited. -/
def accountsCheck (request : Clearing) : Except Failure Unit :=
  if isIssuance request.kind then do
    require (request.localIssuer = true) "root_local_only"
    require
      ((request.kind = .mint ∧ request.sender = none ∧ request.recipient = some rootSubject) ∨
        (request.kind = .burn ∧ request.sender = some rootSubject ∧ request.recipient = none))
      "invalid_money_accounts"
  else do
    require (request.sender ≠ none ∧ request.recipient ≠ none) "invalid_money_accounts"
    require (request.sender ≠ request.recipient) "self_transfer_forbidden"

/-- Pure policy v2, check by check in the order of the source. -/
def clearingDecision (request : Clearing) : Except Failure ClearedEntry := do
  let amount ← checkedAmount request.amount
  require ((0 ≤ request.senderBalance ∧ request.senderBalance ≤ maxMinor) ∧
    (0 ≤ request.recipientBalance ∧ request.recipientBalance ≤ maxMinor) ∧
    (0 ≤ request.supply ∧ request.supply ≤ maxMinor)) "invalid_money_state"
  accountsCheck request
  require (isRoot request.sender = true → request.localIssuer = true) "root_local_only"
  require (request.sender ≠ none → amount ≤ request.senderBalance) "insufficient_funds"
  require (request.recipient ≠ none → request.recipientBalance + amount ≤ maxMinor)
    "money_overflow"
  require (request.kind = .burn → amount ≤ request.supply) "invalid_money_state"
  require (request.kind = .mint → request.supply + amount ≤ maxMinor) "money_overflow"
  return ⟨request.kind, request.sender, request.recipient, amount, currencyId, policyVersion⟩

/-- What an accepted clearing says about its request. -/
structure Cleared (request : Clearing) : Prop where
  positive : 0 < request.amount
  bounded : request.amount ≤ maxMinor
  senderBounds : 0 ≤ request.senderBalance ∧ request.senderBalance ≤ maxMinor
  recipientBounds : 0 ≤ request.recipientBalance ∧ request.recipientBalance ≤ maxMinor
  supplyBounds : 0 ≤ request.supply ∧ request.supply ≤ maxMinor
  issuance : isIssuance request.kind = true → request.localIssuer = true ∧
    ((request.kind = .mint ∧ request.sender = none ∧ request.recipient = some rootSubject) ∨
      (request.kind = .burn ∧ request.sender = some rootSubject ∧ request.recipient = none))
  twoSided : isIssuance request.kind = false →
    request.sender ≠ none ∧ request.recipient ≠ none ∧ request.sender ≠ request.recipient
  root : isRoot request.sender = true → request.localIssuer = true
  funds : request.sender ≠ none → request.amount ≤ request.senderBalance
  room : request.recipient ≠ none → request.recipientBalance + request.amount ≤ maxMinor
  burned : request.kind = .burn → request.amount ≤ request.supply
  minted : request.kind = .mint → request.supply + request.amount ≤ maxMinor

theorem clearingDecision_ok {request : Clearing} {row : ClearedEntry}
    (accepted : clearingDecision request = .ok row) : Cleared request := by
  simp only [clearingDecision, checkedAmount, Program.except_bind_ok, require_ok,
    Program.except_pure, Except.ok.injEq] at accepted
  obtain ⟨_, ⟨_, amount, rfl⟩, _, state, _, accounts, _, root, _, funds, _, room, _, burned,
    _, minted, _⟩ := accepted
  refine ⟨amount.1, amount.2, state.1, state.2.1, state.2.2, ?_, ?_, root, funds, room, burned,
    minted⟩
  · intro issuance
    simpa [accountsCheck, issuance] using accounts
  · intro twoSided
    have both : (request.sender ≠ none ∧ request.recipient ≠ none) ∧
        request.sender ≠ request.recipient := by
      simpa [accountsCheck, twoSided] using accounts
    exact ⟨both.1.1, both.1.2, both.2⟩

/-- The BEFORE INSERT trigger of money_accounts: a posting to an unknown account
registers it when it belongs to an eligible subject. -/
def mayHoldMoney (subject : Subject) : Bool :=
  (subject.resourceId == rootSubject && subject.kind == .system && subject.localOnly) ||
    ((subject.kind == .registered || subject.kind == .custodial) && !subject.localOnly)

theorem sourced_insert {accounts next : Table LedgerAccount.id} {account : LedgerAccount}
    (inserted : accounts.insert account = some next)
    (sourced : ∀ left ∈ accounts.rows, ∀ right ∈ accounts.rows,
      left.kind = right.kind → left.sourceId = right.sourceId → left.sourceId ≠ none →
        left = right)
    (fresh : account.sourceId = none ∨ ∀ other ∈ accounts.rows,
      ¬ (other.kind = account.kind ∧ other.sourceId = account.sourceId)) :
    ∀ left ∈ next.rows, ∀ right ∈ next.rows,
      left.kind = right.kind → left.sourceId = right.sourceId → left.sourceId ≠ none →
        left = right := by
  intro left inLeft right inRight kinds sources known
  rcases (Table.mem_insert inserted left).mp inLeft with oldLeft | newLeft
  · rcases (Table.mem_insert inserted right).mp inRight with oldRight | newRight
    · exact sourced left oldLeft right oldRight kinds sources known
    · subst newRight
      rcases fresh with unsourced | fresh
      · exact absurd (sources.trans unsourced) known
      · exact absurd ⟨kinds, sources⟩ (fresh left oldLeft)
  · subst newLeft
    rcases (Table.mem_insert inserted right).mp inRight with oldRight | newRight
    · rcases fresh with unsourced | fresh
      · exact absurd unsourced known
      · exact absurd ⟨kinds.symm, sources.symm⟩ (fresh right oldRight)
    · exact newRight.symm

/-- INSERT INTO ledger_accounts, with its primary key, CHECK and UNIQUE. -/
def insertAccount (books : Books) (account : LedgerAccount) : Except Failure Books :=
  if valid : account.checked = true ∧
      (account.sourceId = none ∨ ∀ other ∈ books.accounts.rows,
        ¬ (other.kind = account.kind ∧ other.sourceId = account.sourceId)) then
    match inserted : books.accounts.insert account with
    | none => .error constraintConflict
    | some next => .ok
        { books with
          accounts := next
          sourced := sourced_insert inserted books.sourced valid.2
          typed := by
            intro other member
            rcases (Table.mem_insert inserted other).mp member with old | new
            · exact books.typed other old
            · exact new ▸ valid.1
          referenced := by
            intro posting member side named
            rw [Table.find?_insert inserted]
            split
            · simp
            · exact books.referenced posting member side named }
  else .error constraintConflict

def registerSubjectAccount (subject? : String → Option Subject) (account : String)
    (books : Books) : Except Failure Books :=
  if books.accounts.contains account then .ok books
  else match subject? account with
    | none => .error constraintConflict
    | some subject =>
        if mayHoldMoney subject then insertAccount books ⟨account, .subject, some account, none⟩
        else .error constraintConflict

/-- INSERT INTO money_ledger, with its CHECK, UNIQUE and foreign keys. -/
def insertPosting (books : Books) (posting : Posting) : Except Failure Books :=
  if valid : posting.checked = true ∧
      posting.identity ∉ books.postings.rows.map Posting.identity ∧
      ∀ account ∈ sides posting, books.accounts.find? account ≠ none then
    match inserted : books.postings.insert posting with
    | none => .error constraintConflict
    | some next => .ok
        { books with
          postings := next
          identified := by
            rw [Table.insert_rows inserted, List.map_append, List.map_singleton]
            exact List.nodup_append.mpr
              ⟨books.identified, List.nodup_singleton _, by
                intro left inLedger right inRow same
                rw [List.mem_singleton] at inRow
                exact valid.2.1 (by rw [← inRow, ← same]; exact inLedger)⟩
          checked := by
            intro other member
            rcases (Table.mem_insert inserted other).mp member with old | new
            · exact books.checked other old
            · exact new ▸ valid.1
          referenced := by
            intro other member account named
            rcases (Table.mem_insert inserted other).mp member with old | new
            · exact books.referenced other old account named
            · exact valid.2.2 account (new ▸ named) }
  else .error constraintConflict

/-- `balance(tx, account) if account else 0`; the empty string is falsy too. -/
def heldBalance (books : Books) : Option String → Int
  | none => 0
  | some account => if account = "" then 0 else balance books account

structure EntryRequest where
  sender : Option String
  recipient : Option String
  amount : Int
  actor : String
  requestId : String
  now : Nat
  reference : Option String := none
  kind : Kind := .transfer
  entryKey : String := "primary"
  localIssuer : Bool := false

def EntryRequest.clearing (request : EntryRequest) (books : Books) : Clearing where
  kind := request.kind
  sender := request.sender
  recipient := request.recipient
  amount := request.amount
  senderBalance := heldBalance books request.sender
  recipientBalance := heldBalance books request.recipient
  supply := totalSupply books
  localIssuer := request.localIssuer

def registerSide (subject? : String → Option Subject) (side : Option String) (books : Books) :
    Except Failure Books :=
  match side with
  | none => .ok books
  | some account => registerSubjectAccount subject? account books

def EntryRequest.posting (request : EntryRequest) (transactionId : String) (sequence : Nat) :
    Posting where
  transactionId := transactionId
  kind := request.kind
  currencyId := currencyId
  amountMinor := request.amount
  fromSubject := request.sender
  toSubject := request.recipient
  actor := request.actor
  requestId := request.requestId
  entryKey := request.entryKey
  reference := request.reference
  committedAt := request.now
  policyVersion := policyVersion
  ledgerSequence := sequence

/-- `uuid` is the random part of the transaction id, indexed by the sequence. -/
def appendEntry (subject? : String → Option Subject) (uuid : Nat → String)
    (request : EntryRequest) (books : Books) : Except Failure (Books × Posting) := do
  require (request.localIssuer = true → request.actor = rootSubject) "root_local_only"
  let _ ← clearingDecision (request.clearing books)
  let debited ← registerSide subject? request.sender books
  let registered ← registerSide subject? request.recipient debited
  let sequence := registered.postings.rows.length + 1
  let posting := request.posting ("lt_" ++ uuid sequence) sequence
  let posted ← insertPosting registered posting
  return (posted, posting)

def escrowGuard (books : Books) (sender : Option String) (escrowAuthority : Bool) :
    Except Failure Unit :=
  match sender.bind books.accounts.find? with
  | none => .ok ()
  | some account =>
      require (account.kind = .orderEscrow ∨ account.kind = .purchaseEscrow →
        escrowAuthority = true) "escrow_release_forbidden"

/-- Public transfers; only in-process market code holds the escrow authority. -/
def postTransfer (subject? : String → Option Subject) (uuid : Nat → String)
    (escrowAuthority : Bool) (request : EntryRequest) (books : Books) :
    Except Failure (Books × Posting) := do
  require (request.kind = .transfer ∨ request.kind = .redeem ∨ request.kind = .refund)
    "invalid_money_kind"
  escrowGuard books request.sender escrowAuthority
  appendEntry subject? uuid { request with localIssuer := false } books

structure Release where
  escrowAccount : String
  sourceId : String
  accountKind : AccountKind
  buyer : String
  seller : String
  recipient : String

/-- Shared typed account boundary; callers validate their immutable policy first. -/
def postEscrowRelease (subject? : String → Option Subject) (uuid : Nat → String)
    (release : Release) (request : EntryRequest) (books : Books) :
    Except Failure (Books × Posting) := do
  require (release.accountKind = .orderEscrow ∨ release.accountKind = .purchaseEscrow)
    "escrow_account_mismatch"
  require ((books.accounts.find? release.escrowAccount).map
      (fun account => (account.kind, account.subjectId, account.sourceId)) =
    some (release.accountKind, none, some release.sourceId)) "escrow_account_mismatch"
  require (release.recipient = release.buyer ∨ release.recipient = release.seller)
    "escrow_recipient_mismatch"
  postTransfer subject? uuid true
    { request with sender := some release.escrowAccount, recipient := some release.recipient }
    books

def Books.journal (books : Books) : List (Bookkeeping.Entry String) :=
  books.postings.rows.map Posting.entry

theorem filtered_total (rows : List Posting) (side : Posting → Option String) (account : String) :
    ((rows.filter fun posting => side posting == some account).map Posting.amountMinor).sum =
      (rows.map fun posting => if side posting = some account then posting.amountMinor else 0).sum := by
  induction rows with
  | nil => rfl
  | cons posting rest ih =>
      by_cases hit : side posting = some account <;> simp [hit, ih]

/-- The two SQL sums of `balance` are the balance of the journal. -/
theorem balance_eq_journal (books : Books) (account : String) :
    balance books account = Bookkeeping.balance books.journal account := by
  unfold balance creditTotal debitTotal Bookkeeping.balance Books.journal
  rw [filtered_total _ Posting.toSubject, filtered_total _ Posting.fromSubject, List.map_map]
  induction books.postings.rows with
  | nil => rfl
  | cons posting rest ih =>
      simp only [List.map_cons, List.sum_cons, Function.comp_apply, Bookkeeping.Entry.effect,
        Posting.entry] at ih ⊢
      rw [← ih]
      by_cases credited : posting.toSubject = some account <;>
        by_cases debited : posting.fromSubject = some account <;>
          simp [credited, debited] <;> omega

theorem kind_total (rows : List Posting) (kind : Kind) :
    ((rows.filter fun posting => posting.kind == kind).map Posting.amountMinor).sum =
      (rows.map fun posting => if posting.kind = kind then posting.amountMinor else 0).sum := by
  induction rows with
  | nil => rfl
  | cons posting rest ih =>
      by_cases hit : posting.kind = kind <;> simp [hit, ih]

/-- A checked posting changes the supply only as a mint or a burn. -/
theorem issue_of_checked {posting : Posting} (valid : posting.checked = true) :
    posting.entry.issue = (if posting.kind = .mint then posting.amountMinor else 0) -
      (if posting.kind = .burn then posting.amountMinor else 0) := by
  rcases posting with ⟨_, kind, _, amount, debit, credit, _, _, _, _, _, _, _⟩
  cases kind <;> cases debit <;> cases credit <;>
    simp_all [Posting.checked, Posting.entry, Bookkeeping.Entry.issue]

theorem supply_eq_journal (books : Books) :
    totalSupply books = Bookkeeping.supply books.journal := by
  unfold totalSupply kindTotal Bookkeeping.supply Books.journal
  rw [kind_total, kind_total, List.map_map]
  have checked := books.checked
  revert checked
  generalize books.postings.rows = rows
  intro checked
  induction rows with
  | nil => rfl
  | cons posting rest ih =>
      have head := issue_of_checked (checked posting List.mem_cons_self)
      have tail := ih fun later member => checked later (List.mem_cons_of_mem posting member)
      simp only [List.map_cons, List.sum_cons, Function.comp_apply]
      rw [head, ← tail]
      ring

theorem names_iff_sides (posting : Posting) (account : String) :
    posting.entry.names account ↔ account ∈ sides posting := by
  rcases posting with ⟨_, _, _, _, debit, credit, _, _, _, _, _, _, _⟩
  cases debit <;> cases credit <;>
    simp [Posting.entry, Bookkeeping.Entry.names, sides, eq_comm]

/-- An account nobody opened has never been posted to. -/
theorem unposted_of_unopened {books : Books} {account : String}
    (unopened : books.accounts.find? account = none) :
    ∀ posting ∈ books.postings.rows, account ∉ sides posting :=
  fun posting member named => books.referenced posting member account named unopened

theorem balance_unposted {books : Books} {account : String}
    (unposted : ∀ posting ∈ books.postings.rows, account ∉ sides posting) :
    balance books account = 0 := by
  rw [balance_eq_journal]
  apply Bookkeeping.balance_unnamed
  intro entry member
  obtain ⟨posting, inLedger, rfl⟩ := List.mem_map.mp member
  rw [names_iff_sides]
  exact unposted posting inLedger

/-- Balances are read from the postings alone. -/
theorem balance_congr {before after : Books} (same : after.postings = before.postings)
    (account : String) : balance after account = balance before account := by
  simp [balance, creditTotal, debitTotal, same]

/-- The rows of the ledger that name an account. -/
def touching (books : Books) (account : String) : List Posting :=
  books.postings.rows.filter fun posting => decide (account ∈ sides posting)

theorem touching_congr {before after : Books} (same : after.postings = before.postings)
    (account : String) : touching after account = touching before account := by
  rw [touching, touching, same]

/-- A balance is the sum over the rows that name the account. -/
theorem balance_touching {before after : Books} {account : String}
    (same : touching after account = touching before account) :
    balance after account = balance before account := by
  have credits : ∀ books : Books, (touching books account).filter
      (fun posting => posting.toSubject == some account) =
        books.postings.rows.filter fun posting => posting.toSubject == some account := by
    intro books
    rw [touching, List.filter_filter]
    apply List.filter_congr
    intro posting _
    by_cases named : posting.toSubject = some account <;> simp [named, sides]
  have debits : ∀ books : Books, (touching books account).filter
      (fun posting => posting.fromSubject == some account) =
        books.postings.rows.filter fun posting => posting.fromSubject == some account := by
    intro books
    rw [touching, List.filter_filter]
    apply List.filter_congr
    intro posting _
    by_cases named : posting.fromSubject = some account <;> simp [named, sides]
  simp only [balance, creditTotal, debitTotal, ← credits, ← debits, same]

/-- How ledger_accounts may change under a posting: nothing is lost, and what is
new is the account of an eligible subject. -/
structure Registered (subject? : String → Option Subject) (before after : Books) : Prop where
  postings : after.postings = before.postings
  kept : ∀ account row, before.accounts.find? account = some row →
    after.accounts.find? account = some row
  added : ∀ account row, after.accounts.find? account = some row →
    before.accounts.find? account = some row ∨
      (row = ⟨account, .subject, some account, none⟩ ∧
        ∃ subject, subject? account = some subject)

theorem Registered.refl (subject? : String → Option Subject) (books : Books) :
    Registered subject? books books :=
  ⟨rfl, fun _ _ found => found, fun _ _ found => Or.inl found⟩

theorem Registered.trans {subject? : String → Option Subject} {first second third : Books}
    (left : Registered subject? first second) (right : Registered subject? second third) :
    Registered subject? first third where
  postings := right.postings.trans left.postings
  kept := fun account row found => right.kept account row (left.kept account row found)
  added := by
    intro account row found
    rcases right.added account row found with old | new
    · exact left.added account row old
    · exact Or.inr new

theorem insertAccount_ok {books next : Books} {account : LedgerAccount}
    (inserted : insertAccount books account = .ok next) :
    books.accounts.insert account = some next.accounts ∧ next.postings = books.postings := by
  unfold insertAccount at inserted
  split at inserted
  · split at inserted
    · cases inserted
    · rename_i grown fresh
      cases inserted
      exact ⟨fresh, rfl⟩
  · cases inserted

theorem insertAccount_find {books next : Books} {account : LedgerAccount}
    (inserted : insertAccount books account = .ok next) :
    next.accounts.find? account.id = some account ∧
      ∀ id row, books.accounts.find? id = some row → next.accounts.find? id = some row := by
  obtain ⟨grown, _⟩ := insertAccount_ok inserted
  refine ⟨by rw [Table.find?_insert grown, if_pos rfl], ?_⟩
  intro id row found
  rw [Table.find?_insert grown]
  split
  · rename_i same
    rw [← same, Table.insert_fresh grown] at found
    cases found
  · exact found

theorem registerSubjectAccount_ok {subject? : String → Option Subject} {account : String}
    {books next : Books} (done : registerSubjectAccount subject? account books = .ok next) :
    Registered subject? books next := by
  unfold registerSubjectAccount at done
  split at done
  · cases done
    exact Registered.refl subject? books
  · cases known : subject? account with
    | none => simp [known] at done
    | some subject =>
        simp only [known] at done
        split at done
        · obtain ⟨inserted, postings⟩ := insertAccount_ok done
          refine ⟨postings, (insertAccount_find done).2, ?_⟩
          · intro other row found
            rw [Table.find?_insert inserted] at found
            split at found
            · rename_i same
              cases found
              cases same
              exact Or.inr ⟨rfl, subject, known⟩
            · exact Or.inl found
        · cases done

theorem registerSide_ok {subject? : String → Option Subject} {side : Option String}
    {books next : Books} (done : registerSide subject? side books = .ok next) :
    Registered subject? books next := by
  cases side with
  | none =>
      cases done
      exact Registered.refl subject? books
  | some account => exact registerSubjectAccount_ok done

theorem insertPosting_ok {books next : Books} {posting : Posting}
    (inserted : insertPosting books posting = .ok next) :
    next.postings.rows = books.postings.rows ++ [posting] ∧ next.accounts = books.accounts ∧
      posting.identity ∉ books.postings.rows.map Posting.identity ∧
      books.postings.find? posting.transactionId = none := by
  unfold insertPosting at inserted
  split at inserted
  · rename_i valid
    split at inserted
    · cases inserted
    · rename_i grown fresh
      cases inserted
      exact ⟨Table.insert_rows fresh, rfl, valid.2.1, Table.insert_fresh fresh⟩
  · cases inserted

/-- What one accepted `append_entry` does. -/
structure Appended (subject? : String → Option Subject) (request : EntryRequest)
    (before after : Books) (posting : Posting) : Prop where
  shape : ∃ transactionId sequence, posting = request.posting transactionId sequence
  cleared : Cleared (request.clearing before)
  issuer : request.localIssuer = true → request.actor = rootSubject
  recorded : after.postings.rows = before.postings.rows ++ [posting]
  unused : posting.identity ∉ before.postings.rows.map Posting.identity
  fresh : before.postings.find? posting.transactionId = none
  kept : ∀ account row, before.accounts.find? account = some row →
    after.accounts.find? account = some row
  added : ∀ account row, after.accounts.find? account = some row →
    before.accounts.find? account = some row ∨
      (row = ⟨account, .subject, some account, none⟩ ∧
        ∃ subject, subject? account = some subject)

theorem appendEntry_ok {subject? : String → Option Subject} {uuid : Nat → String}
    {request : EntryRequest} {before after : Books} {posting : Posting}
    (accepted : appendEntry subject? uuid request before = .ok (after, posting)) :
    Appended subject? request before after posting := by
  simp only [appendEntry, Program.except_bind_ok, require_ok, Program.except_pure,
    Except.ok.injEq, Prod.mk.injEq] at accepted
  obtain ⟨_, issuer, row, cleared, debited, first, registered, second, posted, inserted, rfl, rfl⟩ :=
    accepted
  have grown := (registerSide_ok first).trans (registerSide_ok second)
  obtain ⟨recorded, accounts, unused, fresh⟩ := insertPosting_ok inserted
  exact
    { shape := ⟨_, _, rfl⟩
      cleared := clearingDecision_ok cleared
      issuer := issuer
      recorded := by rw [recorded, grown.postings]
      unused := by rw [← grown.postings]; exact unused
      fresh := by rw [← grown.postings]; exact fresh
      kept := by rw [accounts]; exact grown.kept
      added := by rw [accounts]; exact grown.added }

theorem Appended.journal {subject? : String → Option Subject} {request : EntryRequest}
    {before after : Books} {posting : Posting}
    (appended : Appended subject? request before after posting) :
    after.journal = before.journal ++ [posting.entry] := by
  simp [Books.journal, appended.recorded]

/-- Rows of the ledger are never lost. -/
theorem Appended.found {subject? : String → Option Subject} {request : EntryRequest}
    {before after : Books} {posting : Posting}
    (appended : Appended subject? request before after posting) {id : String} {old : Posting}
    (stored : before.postings.find? id = some old) : after.postings.find? id = some old := by
  have stored : before.postings.rows.find? (fun row => row.transactionId == id) = some old := stored
  rw [Table.find?, appended.recorded, List.find?_append, stored]
  rfl

theorem Appended.stored {subject? : String → Option Subject} {request : EntryRequest}
    {before after : Books} {posting : Posting}
    (appended : Appended subject? request before after posting) :
    after.postings.find? posting.transactionId = some posting :=
  (Table.mem_iff_find? _ posting).mp (by simp [appended.recorded])

theorem Appended.balance {subject? : String → Option Subject} {request : EntryRequest}
    {before after : Books} {posting : Posting}
    (appended : Appended subject? request before after posting) (account : String) :
    balance after account = balance before account + posting.entry.effect account := by
  rw [balance_eq_journal, balance_eq_journal, appended.journal, Bookkeeping.balance_concat]

theorem Appended.supply {subject? : String → Option Subject} {request : EntryRequest}
    {before after : Books} {posting : Posting}
    (appended : Appended subject? request before after posting) :
    totalSupply after = totalSupply before + posting.entry.issue := by
  rw [supply_eq_journal, supply_eq_journal, appended.journal, Bookkeeping.supply_concat]

theorem postTransfer_ok {subject? : String → Option Subject} {uuid : Nat → String}
    {escrowAuthority : Bool} {request : EntryRequest} {before after : Books} {posting : Posting}
    (accepted : postTransfer subject? uuid escrowAuthority request before = .ok (after, posting)) :
    Appended subject? { request with localIssuer := false } before after posting ∧
      (request.kind = .transfer ∨ request.kind = .redeem ∨ request.kind = .refund) ∧
      ∀ sender row, request.sender = some sender → before.accounts.find? sender = some row →
        (row.kind = .orderEscrow ∨ row.kind = .purchaseEscrow) → escrowAuthority = true := by
  simp only [postTransfer, Program.except_bind_ok, require_ok] at accepted
  obtain ⟨_, kind, _, guard, appended⟩ := accepted
  refine ⟨appendEntry_ok appended, kind, ?_⟩
  intro sender row isSender opened escrow
  simp only [escrowGuard, isSender, Option.bind_some, opened, require_ok] at guard
  exact guard escrow

theorem postEscrowRelease_ok {subject? : String → Option Subject} {uuid : Nat → String}
    {release : Release} {request : EntryRequest} {before after : Books} {posting : Posting}
    (accepted : postEscrowRelease subject? uuid release request before = .ok (after, posting)) :
    Appended subject?
        { request with
          sender := some release.escrowAccount
          recipient := some release.recipient
          localIssuer := false } before after posting ∧
      (request.kind = .transfer ∨ request.kind = .redeem ∨ request.kind = .refund) ∧
      (release.recipient = release.buyer ∨ release.recipient = release.seller) ∧
      before.accounts.find? release.escrowAccount =
        some ⟨release.escrowAccount, release.accountKind, none, some release.sourceId⟩ := by
  simp only [postEscrowRelease, Program.except_bind_ok, require_ok] at accepted
  obtain ⟨_, _, _, typed, _, recipient, transferred⟩ := accepted
  obtain ⟨appended, kind, _⟩ := postTransfer_ok transferred
  refine ⟨appended, kind, recipient, ?_⟩
  obtain ⟨⟨id, accountKind, subjectId, sourceId⟩, opened, same⟩ := Option.map_eq_some_iff.mp typed
  have sameId : id = release.escrowAccount := Table.find?_key opened
  simp only [Prod.mk.injEq] at same
  rw [opened, sameId, same.1, same.2.1, same.2.2]

/-- A posting between other accounts. -/
theorem Appended.apart {subject? : String → Option Subject} {request : EntryRequest}
    {before after : Books} {posting : Posting}
    (appended : Appended subject? request before after posting) {account : String}
    (sender : request.sender ≠ some account) (recipient : request.recipient ≠ some account) :
    touching after account = touching before account := by
  obtain ⟨transactionId, sequence, rfl⟩ := appended.shape
  have unnamed : account ∉ sides (request.posting transactionId sequence) := by
    simp [sides, EntryRequest.posting, sender, recipient]
  rw [touching, touching, appended.recorded, List.filter_append]
  simp [unnamed]

theorem Appended.untouched {subject? : String → Option Subject} {request : EntryRequest}
    {before after : Books} {posting : Posting}
    (appended : Appended subject? request before after posting) {account : String}
    (sender : request.sender ≠ some account) (recipient : request.recipient ≠ some account) :
    Ledger.balance after account = Ledger.balance before account :=
  balance_touching (appended.apart sender recipient)

theorem Appended.transfer_effect {subject? : String → Option Subject} {request : EntryRequest}
    {before after : Books} {posting : Posting} {sender recipient : String}
    (appended : Appended subject? request before after posting)
    (isSender : request.sender = some sender) (isRecipient : request.recipient = some recipient)
    (account : String) :
    Ledger.balance after account = Ledger.balance before account +
      (if recipient = account then request.amount else 0) -
      (if sender = account then request.amount else 0) := by
  obtain ⟨transactionId, sequence, rfl⟩ := appended.shape
  rw [appended.balance account]
  simp only [Bookkeeping.Entry.effect, Posting.entry, EntryRequest.posting, isSender, isRecipient,
    Option.some.injEq]
  ring

end MsgServer.Ledger
