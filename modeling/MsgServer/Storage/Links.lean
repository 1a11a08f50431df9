import Mathlib.Tactic.Common
import MsgServer.Library.Forest
import MsgServer.Storage.Tree

/-!
`path`, and the writes of resources under the indexes of their table. The foreign key of a
parent is deferred: it is looked at when the transaction commits, and what stands behind an
accepted statement may still break it.
-/

namespace MsgServer.Session

open Library

variable (app : App) (store : Store)

/-- The loop of `path`, with the turns of `climb`. -/
def climbNames : Nat → List String → Resource → List String → Except Failure (List String)
  | turns, seen, current, segments =>
      match current.parent with
      | none => .ok segments
      | some parent =>
          if current.id ∈ seen then .error { code := "parent_cycle" }
          else match turns with
            | 0 => .error { code := "parent_cycle" }
            | turns + 1 => do
                let next ← resource app store parent
                climbNames turns (current.id :: seen) next (current.name :: segments)

def path (id : String) : Except Failure String := do
  let row ← resource app store id
  let segments ← climbNames app store (store.resources.rows.length + 1) [] row []
  return "/" ++ "/".intercalate segments

end MsgServer.Session

namespace MsgServer.ResourceTree

open Library Session Forest

/-- `UNIQUE(parent,name)`, for which two absent parents differ. -/
def uniqueNames (rows : List Resource) : Prop :=
  rows.Pairwise fun left right =>
    left.parent = none ∨ left.parent ≠ right.parent ∨ left.name ≠ right.name

/-- `one_root`. -/
def oneRoot (rows : List Resource) : Prop :=
  rows.Pairwise fun left right => left.parent ≠ none ∨ right.parent ≠ none

def indexed (store : Store) : Prop :=
  uniqueNames store.resources.rows ∧ oneRoot store.resources.rows

instance (store : Store) : Decidable (indexed store) := by
  unfold indexed uniqueNames oneRoot
  infer_instance

/-- `REFERENCES resources(id)`, at the commit. -/
def foreignKeys (store : Store) : Prop :=
  ∀ row ∈ store.resources.rows, row.parent.all fun parent => store.resources.contains parent

instance (store : Store) : Decidable (foreignKeys store) := by
  unfold foreignKeys
  infer_instance

inductive Statement where
  | insert (row : Resource)
  | replace (row : Resource) (expectedGeneration : Nat)

def Statement.row : Statement → Resource
  | .insert row => row
  | .replace row _ => row

variable (app : App)

/-- `insert` and `replace` with the indexes that the database keeps. -/
def execute (store : Store) (statement : Statement) : Except Failure Store := do
  let next ← match statement with
    | .insert row => insertResource app store row
    | .replace row expectedGeneration => replaceResource app store row expectedGeneration
  require (indexed next) "constraint_conflict"
  return next

def executeAll (store : Store) (statements : List Statement) : Except Failure Store :=
  statements.foldlM (execute app) store

/-- What a run of accepted statements leaves, each of which met a condition. -/
inductive Grown (admits : Store → Statement → Prop) (start : Store) : Store → Prop
  | start : Grown admits start start
  | step {store next : Store} {statement : Statement} : Grown admits start store →
      admits store statement → execute app store statement = .ok next →
      Grown admits start next

/-- The parent that a statement writes is the id of a stored resource, and not the compact
reference of one. -/
def Direct (store : Store) (statement : Statement) : Prop :=
  ∀ parent, statement.row.parent = some parent → store.resources.contains parent = true

variable {app}

/-! The two loops -/

section

variable {store : Store} {turns : Nat} {seen : List String} {current : Resource}
  {parent : String}

theorem climb_top (none : current.parent = none) (result : List Resource) :
    climb app store turns seen current result = .ok result := by
  unfold climb
  rw [none]

theorem climb_stuck (linked : current.parent = some parent)
    (stuck : current.id ∈ seen ∨ turns = 0) (result : List Resource) :
    climb app store turns seen current result = .error { code := "parent_cycle" } := by
  unfold climb
  rw [linked]
  rcases stuck with marked | rfl
  · simp [marked]
  · simp

theorem climb_step (linked : current.parent = some parent) (fresh : current.id ∉ seen)
    (result : List Resource) :
    climb app store (turns + 1) seen current result = (do
      let next ← resource app store parent
      climb app store turns (current.id :: seen) next (next :: result)) := by
  conv_lhs => unfold climb
  rw [linked]
  simp only [fresh, if_false]

theorem climbNames_top (none : current.parent = none) (segments : List String) :
    climbNames app store turns seen current segments = .ok segments := by
  unfold climbNames
  rw [none]

theorem climbNames_stuck (linked : current.parent = some parent)
    (stuck : current.id ∈ seen ∨ turns = 0) (segments : List String) :
    climbNames app store turns seen current segments = .error { code := "parent_cycle" } := by
  unfold climbNames
  rw [linked]
  rcases stuck with marked | rfl
  · simp [marked]
  · simp

theorem climbNames_step (linked : current.parent = some parent) (fresh : current.id ∉ seen)
    (segments : List String) :
    climbNames app store (turns + 1) seen current segments = (do
      let next ← resource app store parent
      climbNames app store turns (current.id :: seen) next (current.name :: segments)) := by
  conv_lhs => unfold climbNames
  rw [linked]
  simp only [fresh, if_false]

end

/-- How one turn of a climb can end. -/
theorem turn_cases (current : Resource) (seen : List String) (turns : Nat) :
    current.parent = none ∨ ∃ parent, current.parent = some parent ∧
      ((current.id ∈ seen ∨ turns = 0) ∨ current.id ∉ seen ∧ ∃ fewer, turns = fewer + 1) := by
  cases current.parent with
  | none => exact .inl rfl
  | some parent =>
      refine .inr ⟨parent, rfl, ?_⟩
      by_cases marked : current.id ∈ seen
      · exact .inl (.inl marked)
      · cases turns with
        | zero => exact .inl (.inr rfl)
        | succ fewer => exact .inr ⟨marked, fewer, rfl⟩

theorem climb_result {store : Store} {turns : Nat} {seen : List String} {current : Resource}
    (result : List Resource) :
    climb app store turns seen current result =
      (climb app store turns seen current []).map fun above => above ++ result := by
  induction turns generalizing seen current result with
  | zero =>
      rcases turn_cases current seen 0 with top | ⟨parent, linked, stuck | ⟨-, _, none⟩⟩
      · simp only [climb_top top, Except.map, List.nil_append]
      · simp only [climb_stuck linked stuck, Except.map]
      · cases none
  | succ turns ih =>
      rcases turn_cases current seen (turns + 1) with
        top | ⟨parent, linked, stuck | ⟨fresh, -⟩⟩
      · simp only [climb_top top, Except.map, List.nil_append]
      · simp only [climb_stuck linked stuck, Except.map]
      · rw [climb_step linked fresh, climb_step linked fresh]
        cases resource app store parent with
        | error failure => rfl
        | ok next =>
            simp only [Program.except_ok_bind]
            rw [ih (next :: result), ih [next]]
            cases climb app store turns (current.id :: seen) next [] <;> simp [Except.map]

/-- The names on the way to a resource, without the name of the root. -/
def segmentsOf (above : List Resource) (row : Resource) : List String :=
  ((above ++ [row]).drop 1).map Resource.name

theorem climbNames_eq {store : Store} {turns : Nat} {seen : List String} {current : Resource}
    (segments : List String) :
    climbNames app store turns seen current segments =
      (climb app store turns seen current []).map fun above =>
        segmentsOf above current ++ segments := by
  induction turns generalizing seen current segments with
  | zero =>
      rcases turn_cases current seen 0 with top | ⟨parent, linked, stuck | ⟨-, _, none⟩⟩
      · simp [climb_top top, climbNames_top top, Except.map, segmentsOf]
      · simp only [climb_stuck linked stuck, climbNames_stuck linked stuck, Except.map]
      · cases none
  | succ turns ih =>
      rcases turn_cases current seen (turns + 1) with
        top | ⟨parent, linked, stuck | ⟨fresh, -⟩⟩
      · simp [climb_top top, climbNames_top top, Except.map, segmentsOf]
      · simp only [climb_stuck linked stuck, climbNames_stuck linked stuck, Except.map]
      · rw [climb_step linked fresh, climbNames_step linked fresh]
        cases resource app store parent with
        | error failure => rfl
        | ok next =>
            simp only [Program.except_ok_bind]
            rw [ih, climb_result [next]]
            cases climb app store turns (current.id :: seen) next [] with
            | error failure => rfl
            | ok above => cases above <;> simp [Except.map, segmentsOf]

theorem path_eq (store : Store) (id : String) :
    path app store id = (do
      let row ← resource app store id
      let above ← climb app store (store.resources.rows.length + 1) [] row []
      return "/" ++ "/".intercalate (segmentsOf above row)) := by
  unfold path
  cases resource app store id with
  | error failure => rfl
  | ok row =>
      simp only [Program.except_ok_bind, climbNames_eq, List.append_nil]
      cases climb app store (store.resources.rows.length + 1) [] row [] <;> rfl

end MsgServer.ResourceTree
