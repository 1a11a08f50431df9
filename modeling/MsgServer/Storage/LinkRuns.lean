import Mathlib.Data.List.Nodup
import Mathlib.Data.List.Pairwise
import Mathlib.Data.List.Perm.Subperm
import MsgServer.Storage.Links

/-!
The tree of resources over every run of accepted writes. The check of a move climbs from the
new parent; where the stored parents are ids, what it meets is everything above the parent.
-/

namespace MsgServer.ResourceTree

open Library Session Forest

variable {app : App}

def parentOf (store : Store) (id : String) : Option String :=
  (store.resources.find? id).bind Resource.parent

/-- Every link names a stored resource, and every resource climbs to the one root. -/
structure Tree (root : String) (store : Store) : Prop where
  top : ∃ row, store.resources.find? root = some row ∧ row.parent = none
  stored : ∀ row ∈ store.resources.rows, ∀ parent, row.parent = some parent →
    store.resources.contains parent = true
  climbs : ∀ row ∈ store.resources.rows, Climbs (parentOf store) row.id root

section

variable {root : String} {store next : Store} {row : Resource}

theorem parentOf_row (member : row ∈ store.resources.rows) :
    parentOf store row.id = row.parent := by
  rw [parentOf, (Table.mem_iff_find? _ row).mp member]
  rfl

theorem contains_mem {id : String} (found : store.resources.contains id = true) :
    ∃ row ∈ store.resources.rows, row.id = id := by
  obtain ⟨row, atId⟩ := Option.isSome_iff_exists.mp found
  exact ⟨row, Table.find?_mem atId, Table.find?_key atId⟩

theorem Tree.ends (tree : Tree root store) : parentOf store root = none := by
  obtain ⟨row, found, none⟩ := tree.top
  rw [parentOf, found]
  exact none

theorem Tree.root_of_none (tree : Tree root store) (member : row ∈ store.resources.rows)
    (none : row.parent = none) : row.id = root :=
  (tree.climbs row member).ends ((parentOf_row member).trans none)

/-- A lookup of a stored id that succeeds finds the resource of that id. -/
theorem resource_stored {id : String} (known : store.resources.contains id = true)
    (found : resource app store id = .ok row) : row.id = id := by
  obtain ⟨other, member, rfl⟩ := contains_mem known
  rw [resource_self member found]

theorem resource_known {id : String} (known : store.resources.contains id = true) :
    resource app store id ≠ .error { code := "not_found" } := by
  obtain ⟨row, member, rfl⟩ := contains_mem known
  unfold resource
  split
  · rename_i hex
    have listed : row ∈ store.resources.rows.filter
        fun item => app.hexReference item.id == row.id :=
      List.mem_filter.mpr ⟨member, by simp [app.hexReferenceSelf row.id hex]⟩
    split
    · rename_i none
      rw [none] at listed
      cases listed
    · simp
    · simp
  · rw [(Table.mem_iff_find? _ row).mp member]
    simp [requireRow]

/-- What is above a resource is what the chain of the lookups lists. -/
theorem Chain.covers (tree : Tree root store) {above : List Resource}
    (linked : Chain app store row above) (member : row ∈ store.resources.rows) {id : String}
    (climbs : Climbs (parentOf store) row.id id) :
    id = row.id ∨ ∃ item ∈ above, item.id = id := by
  induction linked with
  | root none =>
      left
      exact (climbs.ends ((parentOf_row member).trans none)).symm
  | @link row above parent chain isParent found tail ih =>
      rcases climbs.cases with same | ⟨higher, toHigher, later⟩
      · exact .inl same.symm
      · right
        rw [parentOf_row member, isParent] at toHigher
        obtain rfl := Option.some.inj toHigher
        have named : above.id = parent :=
          resource_stored (tree.stored row member parent isParent) found
        rcases ih (resource_mem found) (named ▸ later) with same | ⟨item, listed, same⟩
        · exact ⟨above, List.mem_append_right _ (List.mem_singleton_self _), same.symm⟩
        · exact ⟨item, List.mem_append_left _ listed, same⟩

theorem Tree.contains_above (tree : Tree root store) {low high : String}
    (known : store.resources.contains low = true) (climbs : Climbs (parentOf store) low high) :
    store.resources.contains high = true := by
  induction climbs using Relation.ReflTransGen.head_induction_on with
  | refl => exact known
  | head linked _ ih =>
      obtain ⟨row, member, rfl⟩ := contains_mem known
      exact ih (tree.stored row member _ ((parentOf_row member).symm.trans linked))

/-! Writes -/

/-- A write puts one row into the table, as a new one or for the one of its id. -/
structure Written (store next : Store) (row : Resource) : Prop where
  parents : parentOf next = Function.update (parentOf store) row.id row.parent
  rows : ∀ other ∈ next.resources.rows,
    other = row ∨ other ∈ store.resources.rows ∧ other.id ≠ row.id
  self : next.resources.find? row.id = some row
  others : ∀ id, id ≠ row.id → next.resources.find? id = store.resources.find? id

theorem parentOf_insert {grown : Table Resource.id}
    (inserted : store.resources.insert row = some grown) :
    parentOf { store with resources := grown } =
      Function.update (parentOf store) row.id row.parent := by
  funext id
  rw [parentOf, Table.find?_insert inserted]
  by_cases same : row.id = id
  · subst same
    rw [if_pos rfl, Function.update_self]
    rfl
  · rw [if_neg same, Function.update_of_ne (Ne.symm same)]
    rfl

theorem parentOf_replace {old : Resource} (found : store.resources.find? row.id = some old) :
    parentOf { store with resources := store.resources.modify row.id fun _ => row } =
      Function.update (parentOf store) row.id row.parent := by
  funext id
  rw [parentOf, Table.find?_modify]
  by_cases same : id = row.id
  · subst same
    rw [if_pos rfl, Function.update_self, found, Option.map_some, Option.bind_some,
      Table.rekeyed_of_key (Table.find?_key found).symm]
  · rw [if_neg same, Function.update_of_ne same]
    rfl

theorem insert_written {grown : Table Resource.id}
    (inserted : store.resources.insert row = some grown) :
    Written store { store with resources := grown } row := by
  refine ⟨parentOf_insert inserted, ?_, ?_, ?_⟩
  · intro other member
    rcases (Table.mem_insert inserted other).mp member with older | same
    · right
      refine ⟨older, fun same => ?_⟩
      have fresh := Table.insert_fresh inserted
      rw [← same, (Table.mem_iff_find? _ other).mp older] at fresh
      cases fresh
    · exact .inl same
  · exact (Table.find?_insert inserted row.id).trans (if_pos rfl)
  · intro id different
    exact (Table.find?_insert inserted id).trans (if_neg (Ne.symm different))

theorem replace_written {old : Resource} (found : store.resources.find? row.id = some old) :
    Written store { store with resources := store.resources.modify row.id fun _ => row } row := by
  have self : (store.resources.modify row.id fun _ => row).find? row.id = some row := by
    rw [Table.find?_modify, if_pos rfl, found, Option.map_some,
      Table.rekeyed_of_key (Table.find?_key found).symm]
  refine ⟨parentOf_replace found, ?_, self, ?_⟩
  · intro other member
    have atId := (Table.mem_iff_find? _ other).mp member
    by_cases same : other.id = row.id
    · left
      rw [same, self] at atId
      exact (Option.some.inj atId).symm
    · right
      rw [Table.find?_modify_ne _ _ same] at atId
      exact ⟨Table.find?_mem atId, same⟩
  · intro id different
    exact Table.find?_modify_ne _ _ different

theorem Written.contains (written : Written store next row) {id : String}
    (known : store.resources.contains id = true) : next.resources.contains id = true := by
  by_cases same : id = row.id
  · rw [Table.contains, same, written.self]
    rfl
  · rw [Table.contains, written.others id same]
    exact known

/-- A resource other than the root is written below a parent that is not below it. -/
theorem Tree.written (tree : Tree root store) (written : Written store next row)
    {parent : String} (isParent : row.parent = some parent)
    (known : store.resources.contains parent = true)
    (apart : ¬ Climbs (parentOf store) parent row.id) (notRoot : row.id ≠ root) :
    Tree root next := by
  obtain ⟨target, listed, rfl⟩ := contains_mem known
  have reaches := tree.climbs target listed
  constructor
  · obtain ⟨top, found, none⟩ := tree.top
    exact ⟨top, (written.others root notRoot.symm).trans found, none⟩
  · intro other member above isAbove
    rcases written.rows other member with rfl | ⟨older, -⟩
    · rw [isParent] at isAbove
      exact Option.some.inj isAbove ▸ written.contains known
    · exact written.contains (tree.stored other older above isAbove)
  · intro other member
    rw [written.parents, isParent]
    rcases written.rows other member with rfl | ⟨older, -⟩
    · exact Climbs.link (Function.update_self ..) (reaches.apart apart)
    · exact (tree.climbs other older).moved reaches apart

/-- The root is written without a parent. -/
theorem Tree.written_root (tree : Tree root store) (written : Written store next row)
    (none : row.parent = none) (isRoot : row.id = root) : Tree root next := by
  subst isRoot
  have same : parentOf next = parentOf store := by
    rw [written.parents, none, ← tree.ends, Function.update_eq_self]
  constructor
  · exact ⟨row, written.self, none⟩
  · intro other member above isAbove
    rcases written.rows other member with rfl | ⟨older, -⟩
    · rw [none] at isAbove
      cases isAbove
    · exact written.contains (tree.stored other older above isAbove)
  · intro other member
    rw [same]
    rcases written.rows other member with rfl | ⟨older, -⟩
    · exact Climbs.refl _
    · exact tree.climbs other older

/-- There is no second root in an indexed table. -/
theorem Tree.only_root (tree : Tree root store) (written : Written store next row)
    (fits : indexed next) (none : row.parent = none) : row.id = root := by
  by_contra different
  obtain ⟨top, found, topNone⟩ := tree.top
  have inNext : top ∈ next.resources.rows :=
    Table.find?_mem ((written.others root (Ne.symm different)).trans found)
  have apart : top ≠ row := by
    rintro rfl
    exact different (Table.find?_key found)
  have symmetric : Std.Symm fun left right : Resource =>
      left.parent ≠ Option.none ∨ right.parent ≠ Option.none := ⟨fun _ _ => Or.symm⟩
  rcases fits.2.forall inNext (Table.find?_mem written.self) apart with no | no
  · exact no topNone
  · exact no none

/-! Statements -/

theorem execute_ok {statement : Statement} (done : execute app store statement = .ok next) :
    Written store next statement.row ∧ indexed next ∧
      ∀ parent, statement.row.parent = some parent →
        store.resources.find? statement.row.id = none ∨ parent ≠ statement.row.id ∧
          ∃ above chain, resource app store parent = .ok above ∧
            ancestors app store above.id = .ok chain ∧
            ∀ item ∈ chain, item.id ≠ statement.row.id := by
  cases statement with
  | insert row =>
      simp only [ResourceTree.execute, Program.except_bind_ok, require_ok, exists_const,
        Program.except_pure, Except.ok.injEq] at done
      obtain ⟨_, accepted, fits, rfl⟩ := done
      obtain ⟨-, grown, inserted, rfl⟩ := insertResource_ok accepted
      exact ⟨insert_written inserted, fits, fun _ _ => .inl (Table.insert_fresh inserted)⟩
  | replace row expectedGeneration =>
      simp only [ResourceTree.execute, Program.except_bind_ok, require_ok, exists_const,
        Program.except_pure, Except.ok.injEq] at done
      obtain ⟨_, accepted, fits, rfl⟩ := done
      obtain ⟨⟨old, found⟩, -, rfl⟩ := replaceResource_ok accepted
      refine ⟨replace_written found, fits, ?_⟩
      intro parent isParent
      right
      simp only [replaceResource, Program.except_bind_ok, require_ok, exists_const,
        parentCycleCheck, Statement.row] at accepted isParent
      obtain ⟨_, _, _, _, _, _, checked, _⟩ := accepted
      rw [isParent] at checked
      simp only [Program.except_bind_ok, require_ok, exists_const] at checked
      obtain ⟨different, above, atParent, chain, climbed, fresh⟩ := checked
      exact ⟨different, above, chain, atParent, climbed, fresh⟩

/-- An accepted write with the id of a stored parent keeps the tree. -/
theorem Tree.execute {statement : Statement} (tree : Tree root store)
    (direct : Direct store statement) (done : execute app store statement = .ok next) :
    Tree root next := by
  obtain ⟨written, fits, checked⟩ := execute_ok done
  cases isParent : statement.row.parent with
  | none => exact tree.written_root written isParent (tree.only_root written fits isParent)
  | some parent =>
      have known := direct parent isParent
      have apart : ¬ Climbs (parentOf store) parent statement.row.id := by
        intro climbs
        rcases checked parent isParent with fresh | ⟨different, above, chain, atParent, climbed, clear⟩
        · -- an id that is not stored is above nothing
          have stored := tree.contains_above known climbs
          rw [Table.contains, fresh] at stored
          cases stored
        · obtain rfl : above.id = parent := resource_stored known atParent
          obtain ⟨row, atAbove, linked⟩ := ancestors_chain climbed
          have same : row.id = above.id := resource_stored known atAbove
          rcases linked.covers tree (resource_mem atAbove) (same ▸ climbs) with
            here | ⟨item, listed, here⟩
          · exact different (same.symm.trans here.symm)
          · exact clear item listed here
      refine tree.written written isParent known apart ?_
      rintro isRoot
      obtain ⟨target, listed, rfl⟩ := contains_mem known
      exact apart (isRoot ▸ tree.climbs target listed)

theorem Grown.tree {start : Store} (tree : Tree root start)
    (grown : Grown app Direct start store) : Tree root store := by
  induction grown with
  | start => exact tree
  | step _ direct done ih => exact ih.execute direct done

/-! Climbs -/

theorem resource_failure {id : String} {failure : Failure}
    (refused : resource app store id = .error failure) :
    failure = { code := "not_found" } ∨ failure = { code := "ambiguous_resource_id" } := by
  unfold resource at refused
  split at refused
  · split at refused
    · cases refused
      exact .inl rfl
    · cases refused
    · cases refused
      exact .inr rfl
  · left
    exact ((requireRow_error _ _ _).mp refused).2

/-- The marks of a climb are stored ids below the place where it stands. -/
structure Marks (store : Store) (seen : List String) (current : Resource) : Prop where
  member : current ∈ store.resources.rows
  distinct : seen.Nodup
  stored : ∀ id ∈ seen, id ∈ store.resources.rows.map Resource.id
  below : ∀ id ∈ seen, Below (parentOf store) id current.id

theorem Marks.fresh (tree : Tree root store) {seen : List String} {current : Resource}
    (marks : Marks store seen current) : current.id ∉ seen :=
  fun marked => (tree.climbs current marks.member).not_below tree.ends (marks.below _ marked)

theorem Marks.length {seen : List String} {current : Resource}
    (marks : Marks store seen current) : seen.length ≤ store.resources.rows.length := by
  have smaller := (marks.distinct.subperm marks.stored).length_le
  rwa [List.length_map] at smaller

theorem Marks.higher (tree : Tree root store) {seen : List String} {current above : Resource}
    (marks : Marks store seen current) {parent : String} (isParent : current.parent = some parent)
    (found : resource app store parent = .ok above) : Marks store (current.id :: seen) above := by
  have named : above.id = parent :=
    resource_stored (tree.stored current marks.member parent isParent) found
  have linked : parentOf store current.id = some above.id :=
    (parentOf_row marks.member).trans (named ▸ isParent)
  constructor
  · exact resource_mem found
  · exact List.nodup_cons.mpr ⟨marks.fresh tree, marks.distinct⟩
  · intro id marked
    rcases List.mem_cons.mp marked with rfl | older
    · exact List.mem_map_of_mem marks.member
    · exact marks.stored id older
  · intro id marked
    rcases List.mem_cons.mp marked with rfl | older
    · exact Relation.TransGen.single linked
    · exact Relation.TransGen.tail (marks.below id older) linked

/-- In a tree a climb neither meets a mark nor runs out of turns. -/
theorem climb_ends (app : App) (tree : Tree root store) {turns : Nat} {seen : List String}
    {current : Resource} (marks : Marks store seen current)
    (room : store.resources.rows.length < turns + seen.length) (result : List Resource) :
    (∃ above, climb app store turns seen current result = .ok above) ∨
      ∃ id, store.resources.contains id = true ∧
        resource app store id = .error { code := "ambiguous_resource_id" } ∧
        climb app store turns seen current result =
          .error { code := "ambiguous_resource_id" } := by
  induction turns generalizing seen current result with
  | zero =>
      have few := marks.length
      omega
  | succ turns ih =>
      cases isParent : current.parent with
      | none => exact .inl ⟨result, climb_top isParent result⟩
      | some parent =>
          have known := tree.stored current marks.member parent isParent
          rw [climb_step isParent (marks.fresh tree)]
          cases found : resource app store parent with
          | error failure =>
              right
              rcases resource_failure found with rfl | rfl
              · exact absurd found (resource_known known)
              · exact ⟨parent, known, found, rfl⟩
          | ok above =>
              have higher := marks.higher tree isParent found
              have less : store.resources.rows.length <
                  turns + (current.id :: seen).length := by
                rw [List.length_cons]
                omega
              exact ih higher less _

theorem Marks.empty (member : row ∈ store.resources.rows) : Marks store [] row :=
  ⟨member, List.nodup_nil, by simp, by simp⟩

theorem ancestors_no_cycle (tree : Tree root store) (id : String) :
    ancestors app store id ≠ .error { code := "parent_cycle" } := by
  unfold ancestors
  cases found : resource app store id with
  | error failure => rcases resource_failure found with rfl | rfl <;> simp
  | ok row =>
      have marks := Marks.empty (resource_mem found)
      rcases climb_ends app tree marks (Nat.lt_succ_self _) [] with
        ⟨above, done⟩ | ⟨_, _, _, done⟩
      · simp [done]
      · simp [done]

theorem path_no_cycle (tree : Tree root store) (id : String) :
    path app store id ≠ .error { code := "parent_cycle" } := by
  rw [path_eq]
  cases found : resource app store id with
  | error failure => rcases resource_failure found with rfl | rfl <;> simp
  | ok row =>
      have marks := Marks.empty (resource_mem found)
      rcases climb_ends app tree marks (Nat.lt_succ_self _) [] with
        ⟨above, done⟩ | ⟨_, _, _, done⟩
      · simp [done]
      · simp [done]

theorem tree_start {start : Store} {top : Resource} (only : start.resources.rows = [top])
    (none : top.parent = none) : Tree top.id start := by
  have found : start.resources.find? top.id = some top := by
    rw [← Table.mem_iff_find?, only]
    exact List.mem_singleton_self _
  refine ⟨⟨top, found, none⟩, ?_, ?_⟩
  · intro row member parent isParent
    rw [only, List.mem_singleton] at member
    rw [member, none] at isParent
    cases isParent
  · intro row member
    rw [only, List.mem_singleton] at member
    exact member ▸ Climbs.refl _

end

/-- In every run of accepted statements from the root whose parents are written as ids of
stored resources, every resource climbs to the one root, and neither `path` nor `ancestors`
finds a cycle. -/
theorem resources_form_tree {start store : Store} {top : Resource}
    (only : start.resources.rows = [top]) (unparented : top.parent = none)
    (grown : Grown app Direct start store) :
    (∀ row ∈ store.resources.rows, Climbs (parentOf store) row.id top.id ∧
      (row.parent = none ↔ row.id = top.id)) ∧
    ∀ id, path app store id ≠ .error { code := "parent_cycle" } ∧
      ancestors app store id ≠ .error { code := "parent_cycle" } := by
  have tree : Tree top.id store := grown.tree (tree_start only unparented)
  constructor
  · intro row member
    refine ⟨tree.climbs row member, tree.root_of_none member, ?_⟩
    intro isTop
    rw [← parentOf_row member, isTop]
    exact tree.ends
  · intro id
    exact ⟨path_no_cycle tree id, ancestors_no_cycle tree id⟩

/-! A store whose ids are hexadecimal behind their kind -/

def isHex (value : String) : Bool :=
  value.length == 32 &&
    value.toList.all fun letter => letter.isDigit || (97 ≤ letter.toNat && letter.toNat ≤ 102)

/-- `hex_id` on ids of these two forms. -/
def compact (id : String) : String :=
  let digits := String.ofList (id.toList.drop (id.length - 32))
  let kind := id.toList.take (id.length - 32)
  if isHex id then id
  else if isHex digits && kind.head?.any Char.isAlpha && kind.getLast? == some '_' then digits
  else ""

def hexApp : App :=
  { sampleApp with
    isHexId := isHex
    hexReference := compact
    hexReferenceSelf := fun id hex => by simp [compact, hex]
    namespaceRootPlain := by decide +kernel }

def sampleRoot : Resource :=
  ⟨"r_00000000000000000000000000000001", "root", 1, "", none, rootSubject, "g_public", 493, 0,
    none, .active⟩

def samplePage : Resource :=
  { sampleRoot with
    id := "r_00000000000000000000000000000002", type := "topic", name := "page"
    parent := some sampleRoot.id }

/-- A resource below the compact reference of the page. -/
def sampleChild : Resource :=
  { samplePage with
    id := "r_00000000000000000000000000000003", name := "child"
    parent := some "00000000000000000000000000000002" }

/-- A resource with the compact reference of the page as its id. -/
def sampleTwin : Resource :=
  { samplePage with
    id := "00000000000000000000000000000002", name := "twin", parent := some sampleChild.id }

def sampleStart : Store :=
  { Store.empty with resources := ⟨[sampleRoot], List.nodup_singleton _⟩ }

theorem resources_form_tree_sample : ∃ store,
    execute hexApp sampleStart (.insert samplePage) = .ok store ∧
      ∀ row ∈ store.resources.rows, Climbs (parentOf store) row.id sampleRoot.id := by
  have accepted : (execute hexApp sampleStart (.insert samplePage)).toOption.isSome = true := by
    decide +kernel
  cases done : execute hexApp sampleStart (.insert samplePage) with
  | error failure =>
      rw [done] at accepted
      cases accepted
  | ok store =>
      have direct : Direct sampleStart (.insert samplePage) := by
        intro parent isParent
        cases isParent
        decide +kernel
      have grown : Grown hexApp Direct sampleStart store := .step .start direct done
      have law := resources_form_tree rfl rfl grown
      exact ⟨store, rfl, fun row member => (law.1 row member).1⟩

/-- The page moves below its own compact reference, and `path` finds the cycle; a child
goes below that reference and a resource of that very id below the child, the foreign keys
hold, and the two never climb to the root. -/
theorem compact_parents :
    (∃ store, executeAll hexApp sampleStart [.insert samplePage, .replace
        { samplePage with parent := sampleChild.parent, generation := 1 } 0] = .ok store ∧
      path hexApp store samplePage.id = .error { code := "parent_cycle" }) ∧
    ∃ store, executeAll hexApp sampleStart
        [.insert samplePage, .insert sampleChild, .insert sampleTwin] = .ok store ∧
      foreignKeys store ∧ sampleChild ∈ store.resources.rows ∧
      ¬ Climbs (parentOf store) sampleChild.id sampleRoot.id := by
  constructor
  · have ran : (executeAll hexApp sampleStart [.insert samplePage, .replace
        { samplePage with parent := sampleChild.parent, generation := 1 } 0]).toOption.any
        (fun store => decide (path hexApp store samplePage.id =
          .error { code := "parent_cycle" })) = true := by
      decide +kernel
    obtain ⟨store, done, cycle⟩ := Program.ok_of_any ran
    exact ⟨store, done, of_decide_eq_true cycle⟩
  · have ran : (executeAll hexApp sampleStart
        [.insert samplePage, .insert sampleChild, .insert sampleTwin]).toOption.any
        (fun store => decide (foreignKeys store ∧ sampleChild ∈ store.resources.rows ∧
          sampleTwin ∈ store.resources.rows)) = true := by
      decide +kernel
    obtain ⟨store, done, holds⟩ := Program.ok_of_any ran
    obtain ⟨keys, child, twin⟩ := of_decide_eq_true holds
    refine ⟨store, done, keys, child, fun climbs => ?_⟩
    have closed : ∀ low high, low = sampleChild.id ∨ low = sampleTwin.id →
        parentOf store low = some high → high = sampleChild.id ∨ high = sampleTwin.id := by
      rintro low high (rfl | rfl) linked
      · rw [parentOf_row child] at linked
        exact .inr (Option.some.inj linked).symm
      · rw [parentOf_row twin] at linked
        exact .inl (Option.some.inj linked).symm
    exact absurd (climbs.closed closed (.inl rfl)) (by decide +kernel)

end MsgServer.ResourceTree
