import Mathlib.Algebra.BigOperators.Group.Finset.Basic
import Mathlib.Algebra.BigOperators.Ring.Finset
import Mathlib.Algebra.Order.BigOperators.Group.Finset
import Mathlib.Data.Int.Basic
import Mathlib.Tactic.Ring
import Mathlib.Tactic.Linarith

/-!
Bookkeeping over an arbitrary type of accounts. A journal is a list of entries
that debit at most one account and credit at most one; balances are never
stored but recomputed from the journal. The balances of all accounts together
equal what entered the system less what left it, so when no account is
overdrawn two different accounts never hold more than the whole supply.
-/

namespace Library.Bookkeeping

variable {A : Type} [DecidableEq A]

structure Entry (A : Type) where
  debit : Option A
  credit : Option A
  amount : Int

/-- What an entry adds to an account. -/
def Entry.effect (entry : Entry A) (account : A) : Int :=
  (if entry.credit = some account then entry.amount else 0) -
    (if entry.debit = some account then entry.amount else 0)

/-- What an entry adds to the supply: only one-sided entries change it. -/
def Entry.issue (entry : Entry A) : Int :=
  (if entry.credit.isSome then entry.amount else 0) -
    (if entry.debit.isSome then entry.amount else 0)

def balance (journal : List (Entry A)) (account : A) : Int :=
  (journal.map fun entry => entry.effect account).sum

def supply (journal : List (Entry A)) : Int := (journal.map Entry.issue).sum

/-- The accounts an entry names. -/
def Entry.names (entry : Entry A) (account : A) : Prop :=
  entry.debit = some account ∨ entry.credit = some account

@[simp] theorem balance_nil (account : A) : balance ([] : List (Entry A)) account = 0 := rfl

omit [DecidableEq A] in
@[simp] theorem supply_nil : supply ([] : List (Entry A)) = 0 := rfl

theorem balance_concat (journal : List (Entry A)) (entry : Entry A) (account : A) :
    balance (journal ++ [entry]) account = balance journal account + entry.effect account := by
  simp [balance]

omit [DecidableEq A] in
theorem supply_concat (journal : List (Entry A)) (entry : Entry A) :
    supply (journal ++ [entry]) = supply journal + entry.issue := by
  simp [supply]

theorem effect_unnamed {entry : Entry A} {account : A} (unnamed : ¬ entry.names account) :
    entry.effect account = 0 := by
  unfold Entry.names at unnamed
  push Not at unnamed
  simp [Entry.effect, unnamed.1, unnamed.2]

theorem balance_unnamed {journal : List (Entry A)} {account : A}
    (unnamed : ∀ entry ∈ journal, ¬ entry.names account) : balance journal account = 0 := by
  induction journal with
  | nil => rfl
  | cons entry rest ih =>
      have head := effect_unnamed (unnamed entry List.mem_cons_self)
      have tail := ih fun later member => unnamed later (List.mem_cons_of_mem entry member)
      simp only [balance, List.map_cons, List.sum_cons] at tail ⊢
      rw [head, tail, zero_add]

theorem sum_side (accounts : Finset A) (side : Option A) (amount : Int)
    (covered : ∀ account, side = some account → account ∈ accounts) :
    ∑ account ∈ accounts, (if side = some account then amount else 0) =
      if side.isSome then amount else 0 := by
  cases side with
  | none => simp
  | some account =>
      have member := covered account rfl
      simp [Finset.sum_ite_eq, member]

theorem sum_effect (accounts : Finset A) (entry : Entry A)
    (covered : ∀ account, entry.names account → account ∈ accounts) :
    ∑ account ∈ accounts, entry.effect account = entry.issue := by
  unfold Entry.effect Entry.issue
  rw [Finset.sum_sub_distrib,
    sum_side accounts entry.credit entry.amount fun account same => covered account (Or.inr same),
    sum_side accounts entry.debit entry.amount fun account same => covered account (Or.inl same)]

/-- The balances of all accounts add up to the supply, for every journal. -/
theorem sum_balance (accounts : Finset A) (journal : List (Entry A))
    (covered : ∀ entry ∈ journal, ∀ account, entry.names account → account ∈ accounts) :
    ∑ account ∈ accounts, balance journal account = supply journal := by
  induction journal with
  | nil => simp
  | cons entry rest ih =>
      have head := sum_effect accounts entry (covered entry List.mem_cons_self)
      have tail := ih fun later member => covered later (List.mem_cons_of_mem entry member)
      simp only [balance, supply, List.map_cons, List.sum_cons] at tail ⊢
      rw [Finset.sum_add_distrib, head, tail]

/-- No account is overdrawn. -/
def Solvent (journal : List (Entry A)) : Prop := ∀ account, 0 ≤ balance journal account

theorem balance_le_supply {accounts : Finset A} {journal : List (Entry A)}
    (covered : ∀ entry ∈ journal, ∀ account, entry.names account → account ∈ accounts)
    (solvent : Solvent journal) (account : A) : balance journal account ≤ supply journal := by
  by_cases member : account ∈ accounts
  · rw [← sum_balance accounts journal covered]
    exact Finset.single_le_sum (fun other _ => solvent other) member
  · have unnamed : ∀ entry ∈ journal, ¬ entry.names account :=
      fun entry inJournal named => member (covered entry inJournal account named)
    rw [balance_unnamed unnamed, ← sum_balance accounts journal covered]
    exact Finset.sum_nonneg fun other _ => solvent other

/-- Two different accounts never hold more than the whole supply, which is why a
transfer between them cannot overflow a bound that the supply respects. -/
theorem pair_le_supply {accounts : Finset A} {journal : List (Entry A)}
    (covered : ∀ entry ∈ journal, ∀ account, entry.names account → account ∈ accounts)
    (solvent : Solvent journal) {left right : A} (different : left ≠ right) :
    balance journal left + balance journal right ≤ supply journal := by
  have widened : ∀ entry ∈ journal, ∀ account, entry.names account →
      account ∈ accounts ∪ {left, right} :=
    fun entry member account named => Finset.mem_union_left _ (covered entry member account named)
  have inside : ({left, right} : Finset A) ⊆ accounts ∪ {left, right} :=
    Finset.subset_union_right
  rw [← sum_balance _ journal widened, ← Finset.sum_pair different]
  exact Finset.sum_le_sum_of_subset_of_nonneg inside fun other _ _ => solvent other

end Library.Bookkeeping
