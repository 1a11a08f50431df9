import Mathlib.Logic.Relation
import Mathlib.Logic.Function.Basic

/-!
Forests by their parent links. A climb follows the links of a node upwards; the links of
a node are at most one, so two climbs from one node meet. A node that is hung below another
one leaves every climb to the top possible, unless the other one was below it.
-/

namespace Library.Forest

variable {N : Type}

def Link (parent : N → Option N) (child above : N) : Prop := parent child = some above

/-- Zero or more links upwards. -/
def Climbs (parent : N → Option N) : N → N → Prop := Relation.ReflTransGen (Link parent)

/-- One or more links upwards. -/
def Below (parent : N → Option N) : N → N → Prop := Relation.TransGen (Link parent)

variable {parent : N → Option N} {child above top : N}

theorem Climbs.refl (child : N) : Climbs parent child child := Relation.ReflTransGen.refl

theorem Climbs.link (linked : parent child = some above) (climbs : Climbs parent above top) :
    Climbs parent child top :=
  Relation.ReflTransGen.head linked climbs

theorem Climbs.cases (climbs : Climbs parent child top) :
    child = top ∨ ∃ above, parent child = some above ∧ Climbs parent above top :=
  Relation.ReflTransGen.cases_head climbs

theorem Climbs.ends (climbs : Climbs parent child top) (none : parent child = none) :
    child = top := by
  rcases climbs.cases with same | ⟨other, toOther, _⟩
  · exact same
  · rw [none] at toOther
    cases toOther

/-- A climb does not leave a set that the links do not leave. -/
theorem Climbs.closed {inside : N → Prop}
    (closed : ∀ child above, inside child → parent child = some above → inside above)
    (climbs : Climbs parent child top) (start : inside child) : inside top := by
  induction climbs with
  | refl => exact start
  | tail _ linked ih => exact closed _ _ ih linked

theorem Below.up (below : Below parent child top) (linked : parent child = some above) :
    Climbs parent above top := by
  obtain ⟨other, toOther, later⟩ := Relation.TransGen.head'_iff.mp below
  have same : some above = some other := linked.symm.trans toOther
  exact Option.some.inj same ▸ later

/-- Nothing that climbs to a top is below itself. -/
theorem Climbs.not_below (climbs : Climbs parent child top) (ends : parent top = none) :
    ¬ Below parent child child := by
  induction climbs using Relation.ReflTransGen.head_induction_on with
  | refl =>
      intro below
      obtain ⟨other, linked, _⟩ := Relation.TransGen.head'_iff.mp below
      rw [Link, ends] at linked
      cases linked
  | head linked _ ih =>
      intro below
      have back := below.up linked
      exact ih (Relation.TransGen.tail' back linked)

variable [DecidableEq N]

/-- A climb that does not come past a node is a climb still when the node moves. -/
theorem Climbs.apart {moved : N} {target : Option N} (climbs : Climbs parent child top)
    (apart : ¬ Climbs parent child moved) :
    Climbs (Function.update parent moved target) child top := by
  induction climbs using Relation.ReflTransGen.head_induction_on with
  | refl => exact Climbs.refl top
  | @head child above linked _ ih =>
      have here : child ≠ moved := by
        rintro rfl
        exact apart (Climbs.refl _)
      have kept : Function.update parent moved target child = some above := by
        rw [Function.update_of_ne here]
        exact linked
      exact Climbs.link kept (ih fun later => apart (Climbs.link linked later))

/-- A node moves below a target that is not below it: what climbed to the top still does. -/
theorem Climbs.moved {moved target : N} (climbs : Climbs parent child top)
    (reaches : Climbs parent target top) (apart : ¬ Climbs parent target moved) :
    Climbs (Function.update parent moved (some target)) child top := by
  induction climbs using Relation.ReflTransGen.head_induction_on with
  | refl => exact Climbs.refl top
  | @head child above linked _ ih =>
      by_cases here : child = moved
      · subst here
        exact Climbs.link (Function.update_self ..) (reaches.apart apart)
      · have kept : Function.update parent moved (some target) child = some above := by
          rw [Function.update_of_ne here]
          exact linked
        exact Climbs.link kept ih

end Library.Forest
