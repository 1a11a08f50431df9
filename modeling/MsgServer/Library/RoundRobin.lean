import Mathlib.Data.List.Basic
import Mathlib.Order.Lattice
import Mathlib.Tactic.Common

/-!
Batches of an ordered list that go around. A cursor divides the items into those behind it
and those up to it; a batch takes the first of this turn, and its last item is the next
cursor. What is left of the turn then comes first.
-/

namespace Library.RoundRobin

variable {α κ : Type} [LinearOrder κ] (key : α → κ)

/-- The items behind the cursor, and then those up to it. -/
def turn (items : List α) (cursor : κ) : List α :=
  items.filter (fun item => cursor < key item) ++ items.filter fun item => key item ≤ cursor

def batch (size : Nat) (items : List α) (cursor : κ) : List α :=
  let first := (items.filter fun item => cursor < key item).take size
  if first.length < size then
    first ++ (items.filter fun item => key item ≤ cursor).take (size - first.length)
  else first

def next (taken : List α) (cursor : κ) : κ := (taken.getLast?.map key).getD cursor

variable {key} {items : List α}

theorem batch_eq (size : Nat) (items : List α) (cursor : κ) :
    batch key size items cursor = (turn key items cursor).take size := by
  rw [batch, turn, List.take_append]
  generalize items.filter (fun item => cursor < key item) = behind
  generalize items.filter (fun item => key item ≤ cursor) = before
  simp only [List.length_take]
  by_cases short : min size behind.length < size
  · have all : min size behind.length = behind.length := by omega
    rw [if_pos short, all]
  · have none' : size - behind.length = 0 := by omega
    rw [if_neg short, none', List.take_zero, List.append_nil]

theorem turn_perm (items : List α) (cursor : κ) : (turn key items cursor).Perm items := by
  have split : (items.filter (fun item => cursor < key item) ++
      items.filter fun item => !decide (cursor < key item)).Perm items :=
    List.filter_append_perm _ _
  have low : (fun item => !decide (cursor < key item)) = fun item => decide (key item ≤ cursor) := by
    funext item
    rw [← decide_not, decide_eq_decide, not_lt]
  rw [low] at split
  exact split

/-- Items that a cursor divides in two. -/
theorem turn_split {low high : List α} {cursor : κ} (before : ∀ item ∈ low, key item ≤ cursor)
    (behind : ∀ item ∈ high, cursor < key item) :
    turn key (low ++ high) cursor = high ++ low := by
  have none' : low.filter (fun item => cursor < key item) = [] := by
    apply List.filter_eq_nil_iff.mpr
    intro item member
    simpa using before item member
  have all : high.filter (fun item => cursor < key item) = high := by
    apply List.filter_eq_self.mpr
    intro item member
    simpa using behind item member
  have kept : low.filter (fun item => key item ≤ cursor) = low := by
    apply List.filter_eq_self.mpr
    intro item member
    simpa using before item member
  have gone : high.filter (fun item => key item ≤ cursor) = [] := by
    apply List.filter_eq_nil_iff.mpr
    intro item member
    simpa using behind item member
  rw [turn, List.filter_append, List.filter_append, none', all, kept, gone, List.nil_append,
    List.append_nil]

section

variable (ordered : items.Pairwise fun left right => key left < key right)

include ordered

theorem ordered_split (cursor : κ) :
    items = items.filter (fun item => key item ≤ cursor) ++
      items.filter fun item => cursor < key item := by
  induction items with
  | nil => rfl
  | cons head rest ih =>
      obtain ⟨above, later⟩ := List.pairwise_cons.mp ordered
      by_cases low : key head ≤ cursor
      · simp only [List.filter_cons, low, not_lt.mpr low, decide_true, decide_false, if_pos,
          List.cons_append]
        exact congrArg (head :: ·) (ih later)
      · have whole : (head :: rest).filter (fun item => cursor < key item) = head :: rest := by
          apply List.filter_eq_self.mpr
          intro item member
          rcases List.mem_cons.mp member with rfl | inRest
          · simpa using low
          · simpa using (not_le.mp low).trans (above item inRest)
        have none' : (head :: rest).filter (fun item => key item ≤ cursor) = [] := by
          apply List.filter_eq_nil_iff.mpr
          intro item member
          have behind := List.filter_eq_self.mp whole item member
          simpa using behind
        rw [whole, none', List.nil_append]

theorem turn_at {front back : List α} {last : α} (shape : items = front ++ last :: back) :
    turn key items (key last) = back ++ (front ++ [last]) := by
  subst shape
  obtain ⟨-, behind, before⟩ := List.pairwise_append.mp ordered
  rw [← List.singleton_append, ← List.append_assoc]
  apply turn_split
  · intro item member
    rcases List.mem_append.mp member with inFront | same
    · exact (before item inFront last (List.mem_cons_self ..)).le
    · rw [List.mem_singleton.mp same]
  · exact (List.pairwise_cons.mp behind).1

/-- Behind the last item of a part of the turn the rest comes first. -/
theorem turn_next {cursor : κ} {first rest : List α} {last : α}
    (shape : turn key items cursor = first ++ last :: rest) :
    turn key items (key last) = rest ++ (first ++ [last]) := by
  have whole := ordered_split ordered cursor
  rw [turn] at shape
  generalize items.filter (fun item => key item ≤ cursor) = low at whole shape
  generalize items.filter (fun item => cursor < key item) = high at whole shape
  have inLow (part : List α) (left : first = high ++ part) (right : low = part ++ last :: rest) :
      turn key items (key last) = rest ++ (first ++ [last]) := by
    have here : items = part ++ last :: (rest ++ high) := by simp [whole, right]
    rw [turn_at ordered here, left]
    simp
  rcases List.append_eq_append_iff.mp shape with ⟨part, left, right⟩ | ⟨part, left, right⟩
  · exact inLow part left right
  · cases part with
    | nil => exact inLow [] (by simpa using left.symm) (by simpa using right.symm)
    | cons head part =>
        obtain ⟨rfl, tail⟩ := List.cons.inj right
        have here : items = (low ++ first) ++ last :: part := by simp [whole, left]
        rw [turn_at ordered here, tail]
        simp

/-- An item among the next `rounds + 1` batches is in this one or among the later ones. -/
theorem turn_step {size rounds : Nat} {cursor : κ} {item : α}
    (member : item ∈ (turn key items cursor).take ((rounds + 1) * size)) :
    item ∈ batch key size items cursor ∨
      item ∈ (turn key items (next key (batch key size items cursor) cursor)).take
        (rounds * size) := by
  have taken : batch key size items cursor = (turn key items cursor).take size :=
    batch_eq size items cursor
  by_cases here : item ∈ batch key size items cursor
  · exact .inl here
  · right
    have behind : item ∈ ((turn key items cursor).drop size).take (rounds * size) := by
      rw [Nat.succ_mul, Nat.add_comm, List.take_add, List.mem_append, ← taken] at member
      exact member.resolve_left here
    rcases List.eq_nil_or_concat ((turn key items cursor).take size) with
      none' | ⟨front, last, shape⟩
    · -- An empty batch leaves nothing behind it.
      rcases List.take_eq_nil_iff.mp none' with zero | empty
      · simp [zero] at behind
      · simp [empty] at behind
    · rw [List.concat_eq_append] at shape
      have whole : turn key items cursor =
          front ++ last :: (turn key items cursor).drop size := by
        rw [List.append_cons, ← shape, List.take_append_drop]
      have moved : next key (batch key size items cursor) cursor = key last := by
        rw [next, taken, shape, List.getLast?_concat]
        rfl
      rw [moved, turn_next ordered whole, List.take_append]
      exact List.mem_append_left _ behind

end

end Library.RoundRobin
