import MsgServer.Storage.Tree
import MsgServer.Security.Certificates

/-!
The order on grants. A grant attenuates another when it asks for no more: the same
capability, fewer operations, a scope inside the other's and constraints at least as
strong. The tests of security/policy.py compare two neighbours; they are transitive,
so what holds of neighbours in a chain holds of its ends.
-/

namespace MsgServer.Attenuation

open Library Session Policy Certificates ResourceTree

variable {app : App} {store : Store}

/-! Tests over lists. -/

theorem mapM_ok {α β : Type} {items : List α} {test : α → Except Failure β} {results : List β}
    (ran : items.mapM test = .ok results) :
    (∀ item ∈ items, ∃ result ∈ results, test item = .ok result) ∧
      ∀ result ∈ results, ∃ item ∈ items, test item = .ok result := by
  induction items generalizing results with
  | nil =>
      rw [List.mapM_nil] at ran
      cases ran
      exact ⟨fun _ member => absurd member List.not_mem_nil,
        fun _ member => absurd member List.not_mem_nil⟩
  | cons item rest ih =>
      simp only [List.mapM_cons, Program.except_bind_ok, Program.except_pure,
        Except.ok.injEq] at ran
      obtain ⟨result, here, others, later, rfl⟩ := ran
      obtain ⟨forward, backward⟩ := ih later
      constructor
      · intro other member
        rcases List.mem_cons.mp member with rfl | inRest
        · exact ⟨result, List.mem_cons_self, here⟩
        · obtain ⟨found, inOthers, tested⟩ := forward other inRest
          exact ⟨found, List.mem_cons_of_mem _ inOthers, tested⟩
      · intro other member
        rcases List.mem_cons.mp member with rfl | inRest
        · exact ⟨item, List.mem_cons_self, here⟩
        · obtain ⟨found, inItems, tested⟩ := backward other inRest
          exact ⟨found, List.mem_cons_of_mem _ inItems, tested⟩

/-- Every element was evaluated, and one of them passed. -/
theorem anyOf_true {α : Type} {items : List α} {test : α → Except Failure Bool}
    (passed : anyOf items test = .ok true) : ∃ item ∈ items, test item = .ok true := by
  simp only [anyOf, Program.except_bind_ok, Program.except_pure, Except.ok.injEq] at passed
  obtain ⟨results, ran, hit⟩ := passed
  obtain ⟨result, member, isTrue⟩ := List.any_eq_true.mp hit
  obtain ⟨item, inItems, tested⟩ := (mapM_ok ran).2 result member
  exact ⟨item, inItems, by rw [tested]; exact congrArg _ isTrue⟩

theorem firstOf_true {α : Type} {items : List α} {test : α → Except Failure Bool}
    (passed : firstOf items test = .ok true) : ∃ item ∈ items, test item = .ok true := by
  induction items with
  | nil => cases passed
  | cons item rest ih =>
      simp only [firstOf, Program.except_bind_ok] at passed
      obtain ⟨hit, tested, later⟩ := passed
      cases hit with
      | true => exact ⟨item, List.mem_cons_self, tested⟩
      | false =>
          obtain ⟨other, member, found⟩ := ih later
          exact ⟨other, List.mem_cons_of_mem _ member, found⟩

/-! Scopes. -/

/-- The chain above a resource is determined by it. -/
theorem chain_unique {row : Resource} {left right : List Resource} (first : Chain app store row left)
    (second : Chain app store row right) : left = right := by
  induction first generalizing right with
  | root isRoot =>
      cases second with
      | root _ => rfl
      | link isParent _ _ =>
          rw [isRoot] at isParent
          cases isParent
  | link isParent found linked ih =>
      cases second with
      | root isRoot =>
          rw [isRoot] at isParent
          cases isParent
      | link otherParent otherFound otherLinked =>
          rw [isParent] at otherParent
          cases otherParent
          rw [found] at otherFound
          cases otherFound
          rw [ih otherLinked]

/-- `outer` is the id of a resource strictly above `inner`. -/
def Below (app : App) (store : Store) (inner outer : String) : Prop :=
  ∃ above, ancestors app store inner = .ok above ∧ ∃ item ∈ above, item.id = outer

theorem Below.trans {inner middle outer : String} (lower : Below app store inner middle)
    (upper : Below app store middle outer) : Below app store inner outer := by
  obtain ⟨above, climbed, item, member, rfl⟩ := lower
  obtain ⟨higher, climbedOn, top, inHigher, rfl⟩ := upper
  obtain ⟨row, found, linked⟩ := ancestors_chain climbed
  obtain ⟨same, foundMiddle, linkedMiddle⟩ := ancestors_chain climbedOn
  have isItem : same = item := resource_self (linked.mem item member) foundMiddle
  subst isItem
  obtain ⟨first, later, split⟩ := List.append_of_mem member
  -- The chain above the middle resource is the part of the chain before it.
  have initial : Chain app store same first :=
    linked.initial (by rw [split, List.append_assoc, List.cons_append])
  have isFirst : first = higher := chain_unique initial linkedMiddle
  refine ⟨above, climbed, top, ?_, rfl⟩
  rw [split, isFirst]
  exact List.mem_append_left _ inHigher

theorem scopeContains_true (scope : Scope) (resourceId : String) :
    scopeContains app store scope resourceId = .ok true ↔
      scope.resourceId = resourceId ∨
        (scope.resourceId ≠ resourceId ∧ scope.descendants = true ∧
          Below app store resourceId scope.resourceId) := by
  unfold scopeContains
  by_cases same : scope.resourceId = resourceId
  · simp [same]
  · rw [if_neg same]
    by_cases deep : scope.descendants = true
    · simp only [deep, if_true, Program.except_bind_ok, Program.except_pure, Except.ok.injEq,
        List.any_eq_true, beq_iff_eq]
      constructor
      · rintro ⟨above, climbed, hit⟩
        exact Or.inr ⟨same, trivial, above, climbed, hit⟩
      · rintro (equal | ⟨_, _, above, climbed, hit⟩)
        · exact absurd equal same
        · exact ⟨above, climbed, hit⟩
    · simp [same, deep]

theorem scopeSubset_true (child parent : Scope) :
    scopeSubset app store child parent = .ok true ↔
      (child.resourceId = parent.resourceId ∧
          (child.descendants = true → parent.descendants = true)) ∨
        (child.resourceId ≠ parent.resourceId ∧ parent.descendants = true ∧
          Below app store child.resourceId parent.resourceId) := by
  unfold scopeSubset
  by_cases same : child.resourceId = parent.resourceId
  · cases child.descendants <;> cases parent.descendants <;> simp [same]
  · rw [if_neg same]
    by_cases deep : parent.descendants = true
    · rw [if_pos deep, scopeContains_true]
      simp [same, deep, Ne.symm same]
    · simp [same, deep]

theorem scopeSubset_trans {child middle parent : Scope}
    (lower : scopeSubset app store child middle = .ok true)
    (upper : scopeSubset app store middle parent = .ok true) :
    scopeSubset app store child parent = .ok true := by
  rw [scopeSubset_true] at lower upper ⊢
  rcases lower with ⟨same, deep⟩ | ⟨different, middleDeep, below⟩
  · rcases upper with ⟨sameAbove, deepAbove⟩ | ⟨differentAbove, parentDeep, above⟩
    · exact Or.inl ⟨same.trans sameAbove, fun isDeep => deepAbove (deep isDeep)⟩
    · rw [same]
      exact Or.inr ⟨differentAbove, parentDeep, above⟩
  · rcases upper with ⟨sameAbove, deepAbove⟩ | ⟨_, parentDeep, above⟩
    · rw [← sameAbove]
      exact Or.inr ⟨different, deepAbove middleDeep, below⟩
    · by_cases same : child.resourceId = parent.resourceId
      · exact Or.inl ⟨same, fun _ => parentDeep⟩
      · exact Or.inr ⟨same, parentDeep, below.trans above⟩

/-- A scope contains whatever a scope inside it contains. -/
theorem scopeContains_of_subset {child parent : Scope} {resourceId : String}
    (inside : scopeSubset app store child parent = .ok true)
    (contains : scopeContains app store child resourceId = .ok true) :
    scopeContains app store parent resourceId = .ok true := by
  rw [scopeSubset_true] at inside
  rw [scopeContains_true] at contains ⊢
  by_cases here : parent.resourceId = resourceId
  · exact Or.inl here
  · right
    refine ⟨here, ?_⟩
    rcases inside with ⟨same, deep⟩ | ⟨different, parentDeep, below⟩
    · rcases contains with own | ⟨_, childDeep, under⟩
      · exact absurd (same.symm.trans own) here
      · exact ⟨deep childDeep, by rw [← same]; exact under⟩
    · rcases contains with own | ⟨_, _, under⟩
      · exact ⟨parentDeep, by rw [← own]; exact below⟩
      · exact ⟨parentDeep, under.trans below⟩

/-! Constraints. -/

theorem constraintOf_mem {constraints : List (String × Constraint)} {name : String}
    {value : Constraint} (found : constraintOf constraints name = some value) :
    (name, value) ∈ constraints := by
  obtain ⟨⟨key, stored⟩, hit, rfl⟩ := Option.map_eq_some_iff.mp found
  have named : key = name := by simpa using List.find?_some hit
  rw [← named]
  exact List.mem_of_find?_eq_some hit

theorem narrower_trans {name : String} {child middle parent : Constraint}
    (lower : narrower name child middle = true) (upper : narrower name middle parent = true) :
    narrower name child parent = true := by
  unfold narrower at *
  by_cases lists : name ∈ listConstraints
  · simp only [lists, if_true, List.all_eq_true, decide_eq_true_eq] at *
    exact fun item member => upper item (lower item member)
  · by_cases bounds : name ∈ boundConstraints
    · simp only [lists, bounds, if_true, if_false] at *
      split at lower
      · rename_i low high
        cases parent with
        | list values => simp at upper
        | atom value =>
            cases value <;> simp only [decide_eq_true_eq, Bool.false_eq_true] at *
            exact Int.le_trans lower upper
      · cases lower
    · simp only [lists, bounds, if_false, decide_eq_true_eq] at *
      exact lower.trans upper

theorem constraintsSubset_trans {child middle parent : List (String × Constraint)}
    (lower : constraintsSubset child middle = true) (upper : constraintsSubset middle parent = true) :
    constraintsSubset child parent = true := by
  unfold constraintsSubset at *
  rw [List.all_eq_true] at *
  intro entry member
  have above := upper entry member
  cases found : constraintOf middle entry.1 with
  | none => simp [found] at above
  | some value =>
      simp only [found] at above
      have below := lower (entry.1, value) (constraintOf_mem found)
      cases lowest : constraintOf child entry.1 with
      | none => simp [lowest] at below
      | some proposed =>
          simp only [lowest] at below
          exact narrower_trans below above

/-! Grants. -/

/-- The grant asks for no more than the other. -/
structure Within (app : App) (store : Store) (grant allowed : CapabilityGrant) : Prop where
  capability : grant.capability = allowed.capability
  version : grant.version = allowed.version
  operations : ∀ operation ∈ grant.operations, operation ∈ allowed.operations
  scope : scopeSubset app store grant.scope allowed.scope = .ok true
  constraints : constraintsSubset grant.constraints allowed.constraints = true

theorem attenuates_true (grant allowed : CapabilityGrant) :
    attenuates app store grant allowed = .ok true ↔ Within app store grant allowed := by
  unfold attenuates
  split
  · rename_i same
    simp only [Program.except_bind_ok, Program.except_pure, Except.ok.injEq, Bool.and_eq_true]
    constructor
    · rintro ⟨inside, scope, rfl, constraints⟩
      exact ⟨same.1, same.2.1, same.2.2, scope, constraints⟩
    · intro within
      exact ⟨true, within.scope, rfl, within.constraints⟩
  · rename_i different
    simp only [Except.ok.injEq, Bool.false_eq_true, false_iff]
    intro within
    exact different ⟨within.capability, within.version, within.operations⟩

theorem Within.trans {grant middle allowed : CapabilityGrant} (lower : Within app store grant middle)
    (upper : Within app store middle allowed) : Within app store grant allowed where
  capability := lower.capability.trans upper.capability
  version := lower.version.trans upper.version
  operations := fun operation member => upper.operations operation (lower.operations operation member)
  scope := scopeSubset_trans lower.scope upper.scope
  constraints := constraintsSubset_trans lower.constraints upper.constraints

/-- Every grant of the first list is within one of the second. -/
def Covered (app : App) (store : Store) (held allowed : List CapabilityGrant) : Prop :=
  ∀ grant ∈ held, ∃ other ∈ allowed, Within app store grant other

theorem Covered.trans {held middle allowed : List CapabilityGrant}
    (lower : Covered app store held middle) (upper : Covered app store middle allowed) :
    Covered app store held allowed := by
  intro grant member
  obtain ⟨other, inMiddle, within⟩ := lower grant member
  obtain ⟨top, inAllowed, above⟩ := upper other inMiddle
  exact ⟨top, inAllowed, within.trans above⟩

theorem requireIssuance_within {policy : IssuancePolicy} {grant : CapabilityGrant}
    (passed : requireIssuance app store policy grant = .ok ()) :
    ∃ allowed ∈ policy.issueGrants, Within app store grant allowed := by
  simp only [requireIssuance, allowedIssuance, Program.except_bind_ok, require_ok] at passed
  obtain ⟨allowed, ⟨_, _, hit⟩, rfl⟩ := passed
  obtain ⟨other, member, attenuated⟩ := firstOf_true hit
  exact ⟨other, member, (attenuates_true _ _).mp attenuated⟩

theorem issuance_covered {policy : IssuancePolicy} {held : List CapabilityGrant}
    (passed : held.forM (requireIssuance app store policy) = .ok ()) :
    Covered app store held policy.issueGrants := by
  intro grant member
  exact requireIssuance_within ((Program.except_forM_ok _ _ _).mp passed grant member)

end MsgServer.Attenuation
