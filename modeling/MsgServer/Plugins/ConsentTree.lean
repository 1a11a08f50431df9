import MsgServer.Plugins.Consent

/-!
Writes below a conversation. All of them go through the authorizer, which lets a
participant through for two operations only (`gated`). The resource table changes by
inserts, by new versions in place and by one kind of move, and each has a lemma on what
lies below what afterwards; with the gate they say what each operation does there (`Apart`).
-/

namespace MsgServer.Consent

open Library Session Policy Authorization ResourceTree Content
open Conversations (Secluded)

variable {app : App}

/-- What lies below a resource has the resource in its chain. -/
theorem chain_of_below {store : Store} {row topic : Resource} {above : List Resource}
    (linked : Chain app store row above) (below : Relation.TransGen (Under app store) row topic) :
    topic ∈ above := by
  induction below using Relation.TransGen.head_induction_on generalizing above with
  | single under =>
      obtain ⟨id, isParent, found⟩ := under
      cases linked with
      | root isRoot =>
          rw [isRoot] at isParent
          cases isParent
      | link isParent' found' tail =>
          rw [isParent] at isParent'
          cases isParent'
          rw [found] at found'
          cases found'
          simp
  | head under _ ih =>
      obtain ⟨id, isParent, found⟩ := under
      cases linked with
      | root isRoot =>
          rw [isRoot] at isParent
          cases isParent
      | link isParent' found' tail =>
          rw [isParent] at isParent'
          cases isParent'
          rw [found] at found'
          cases found'
          exact List.mem_append_left _ (ih tail)

section Gate

variable {store : Store} {caller : Caller} {operation : String} {check : Check} {row : Resource}

/-- A passed check on something in a conversation is one of its two ways in. -/
structure Gated (store : Store) (caller : Caller) (operation : String) (check : Check)
    (row : Resource) (conversation : Conversation) : Prop where
  admitted : Admitted store caller conversation
  way : (check = .create ∧ row.id = conversation.resourceId ∧ operation = dmSendOperation) ∨
    (check = .write ∧ row.type = "post" ∧ caller.context.principal.subject = some row.owner ∧
      operation = postEditOperation)

theorem directAllowed_cases {conversation : Conversation} {subject : Option String} {done : Unit}
    (writes : isReading check = false)
    (allowed : directAllowed store conversation row check operation subject = .ok done) :
    conversation.state = .active ∧ dmBlocked store conversation = false ∧
      ((check = .create ∧ row.id = conversation.resourceId ∧ operation = dmSendOperation) ∨
        (check = .write ∧ row.type = "post" ∧ subject = some row.owner ∧
          operation = postEditOperation)) := by
  unfold directAllowed at allowed
  rw [writes, if_neg (by simp)] at allowed
  split at allowed
  · rename_i sending
    rw [require_ok] at allowed
    exact ⟨sending.2.2.2, allowed, Or.inl ⟨sending.1, sending.2.1, sending.2.2.1⟩⟩
  · split at allowed
    · rename_i editing
      rw [require_ok] at allowed
      exact ⟨allowed.1, allowed.2, Or.inr editing⟩
    · cases allowed

/-- The gate: the authorizer decides by the conversation above, wherever the resource is. -/
theorem gated (secluded : Secluded app store) {done : Unit}
    (member : row ∈ store.resources.rows) (writes : isReading check = false)
    (passed : checkAccess app store caller operation row.id check = .ok done)
    {conversation : Conversation} (recorded : conversation ∈ store.conversations.rows)
    (inside : row.id = conversation.resourceId ∨ Below app store row conversation.resourceId) :
    Gated store caller operation check row conversation := by
  obtain ⟨refs, access, _⟩ := (Program.except_bind_ok _ _ _).mp passed
  obtain ⟨found, above, atRow, climbed, decided⟩ :=
    requireCheck_direct (requireAccess_check access _ List.mem_cons_self)
  have same := resource_self member atRow
  subst same
  obtain ⟨again, atAgain, linked⟩ := ancestors_chain climbed
  rw [resource_self member atAgain] at linked
  have inChain : ∃ item ∈ above ++ [found], item.id = conversation.resourceId := by
    rcases inside with here | ⟨topic, below, isTopic⟩
    · exact ⟨found, by simp, here⟩
    · exact ⟨topic, List.mem_append_left _ (chain_of_below linked below), isTopic⟩
  obtain ⟨item, inItems, isTop⟩ := inChain
  obtain ⟨participant, allowed⟩ := decided conversation
    (Conversations.first_conversation secluded recorded member linked inItems isTop)
  obtain ⟨active, unblocked, way⟩ := directAllowed_cases writes allowed
  exact ⟨⟨participant, active, unblocked⟩, way⟩

end Gate

section Inserts

variable {store next : Store} {row : Resource}

/-- Nothing that was there before gets a new parent by an insert. -/
theorem under_insert (secluded : Secluded app store)
    (done : insertResource app store row = .ok next) {child parent : Resource}
    (old : child ∈ store.resources.rows) (under : Under app next child parent) :
    Under app store child parent := by
  obtain ⟨id, isParent, found⟩ := under
  obtain ⟨_, grown, inserted, rfl⟩ := insertResource_ok done
  rcases resource_insert inserted found with before | ⟨_, unknown⟩
  · exact ⟨id, isParent, before⟩
  · exact (unknown (secluded.known child old id isParent)).elim

theorem below_insert_old (secluded : Secluded app store)
    (done : insertResource app store row = .ok next) {child topic : Resource}
    (old : child ∈ store.resources.rows)
    (below : Relation.TransGen (Under app next) child topic) :
    Relation.TransGen (Under app store) child topic := by
  induction below using Relation.TransGen.head_induction_on with
  | single under => exact .single (under_insert secluded done old under)
  | head under _ ih =>
      have before := under_insert secluded done old under
      obtain ⟨_, _, found⟩ := before
      exact .head (under_insert secluded done old under) (ih (resource_mem found))

theorem insert_rows {other : Resource} (done : insertResource app store row = .ok next)
    (member : other ∈ next.resources.rows) :
    (other ∈ store.resources.rows ∧ other.id ≠ row.id) ∨ other = row := by
  obtain ⟨_, grown, inserted, rfl⟩ := insertResource_ok done
  rcases (Table.mem_insert inserted other).mp member with old | new
  · refine Or.inl ⟨old, ?_⟩
    intro same
    have absent := (Table.find?_eq_none _ _).mp (Table.insert_fresh inserted)
    rw [← same] at absent
    exact absent (List.mem_map_of_mem old)
  · exact Or.inr new

/-- The new row lies below what its parent is or lies below. -/
theorem below_insert (secluded : Secluded app store)
    (done : insertResource app store row = .ok next) {parent child : Resource} {top : String}
    (isParent : row.parent = some parent.id) (stored : parent ∈ store.resources.rows)
    (member : child ∈ next.resources.rows) (below : Below app next child top) :
    (child ∈ store.resources.rows ∧ Below app store child top) ∨
      (child = row ∧ (parent.id = top ∨ Below app store parent top)) := by
  obtain ⟨topic, path, isTop⟩ := below
  rcases insert_rows done member with ⟨old, _⟩ | rfl
  · exact Or.inl ⟨old, topic, below_insert_old secluded done old path, isTop⟩
  · right
    refine ⟨rfl, ?_⟩
    have first : ∀ above, Under app next child above → above = parent := by
      rintro above ⟨id, named, found⟩
      rw [isParent] at named
      cases named
      obtain ⟨parents, grown, inserted, rfl⟩ := insertResource_ok done
      rcases resource_insert inserted found with before | ⟨_, unknown⟩
      · exact resource_self stored before
      · obtain ⟨known, atParent⟩ := parents parent.id isParent
        exact (unknown (known_of_ok atParent)).elim
    cases path using Relation.TransGen.head_induction_on with
    | single under =>
        left
        rw [← first _ under]
        exact isTop
    | head under rest =>
        right
        have same := first _ under
        subst same
        exact ⟨topic, below_insert_old secluded done stored rest, isTop⟩

end Inserts

section Versions

variable {store next : Store} {row : Resource} {expectedGeneration : Nat}

theorem replace_rows (done : replaceResource app store row expectedGeneration = .ok next)
    {other : Resource} (member : other ∈ next.resources.rows) :
    (other ∈ store.resources.rows ∧ other.id ≠ row.id) ∨ other = row := by
  obtain ⟨⟨old, found⟩, _, rfl⟩ := replaceResource_ok done
  have atOther := (Table.mem_iff_find? _ other).mp member
  rw [Table.find?_modify] at atOther
  split at atOther
  · rename_i same
    rw [same, found] at atOther
    right
    simpa [Table.rekeyed_of_key, Table.find?_key found] using atOther.symm
  · rename_i different
    exact Or.inl ⟨Table.find?_mem atOther, different⟩

theorem replace_found (done : replaceResource app store row expectedGeneration = .ok next)
    {id : String} {found : Resource} (lookup : resource app next id = .ok found) :
    ∃ old, resource app store id = .ok old ∧ old.id = found.id := by
  obtain ⟨_, _, rfl⟩ := replaceResource_ok done
  obtain ⟨old, before, shape⟩ := resource_modify lookup
  refine ⟨old, before, ?_⟩
  rw [shape]
  split
  · assumption
  · rfl

/-- The rows of one state are versions of those of another: each has a row of its id and,
where `still` holds of it, of its parent. -/
structure Versions (app : App) (store next : Store) (still : Resource → Prop) : Prop where
  older : ∀ row ∈ next.resources.rows, ∃ old ∈ store.resources.rows, old.id = row.id
  parent : ∀ row ∈ next.resources.rows, still row → ∀ old ∈ store.resources.rows,
    old.id = row.id → old.parent = row.parent
  found : ∀ id row, resource app next id = .ok row →
    ∃ old, resource app store id = .ok old ∧ old.id = row.id

/-- What lies below a resource lay below its older version, unless the path upwards
goes through a row that has moved, and above that row nothing may be found. -/
theorem versions_below {still : Resource → Prop} {top : String}
    (versions : Versions app store next still)
    (blocked : ∀ row ∈ next.resources.rows, ¬ still row → ∀ id above,
      row.parent = some id → resource app store id = .ok above →
        above.id ≠ top ∧ ¬ Below app store above top)
    {child topic : Resource} (member : child ∈ next.resources.rows) (isTop : topic.id = top)
    (path : Relation.TransGen (Under app next) child topic) :
    ∀ old ∈ store.resources.rows, old.id = child.id → Below app store old top := by
  induction path using Relation.TransGen.head_induction_on with
  | single under =>
      rename_i child
      obtain ⟨id, isParent, found⟩ := under
      intro old stored same
      obtain ⟨before, lookup, sameTop⟩ := versions.found id topic found
      by_cases stays : still child
      · have parent := versions.parent child member stays old stored same
        exact ⟨before, .single ⟨id, parent.trans isParent, lookup⟩, sameTop.trans isTop⟩
      · exact ((blocked child member stays id before isParent lookup).1
          (sameTop.trans isTop)).elim
  | head under rest ih =>
      rename_i child middle
      obtain ⟨id, isParent, found⟩ := under
      intro old stored same
      obtain ⟨before, lookup, sameMiddle⟩ := versions.found id middle found
      have higher := ih (resource_mem found) before (resource_mem lookup) sameMiddle
      by_cases stays : still child
      · have parent := versions.parent child member stays old stored same
        obtain ⟨top, path, isTop⟩ := higher
        exact ⟨top, .head ⟨id, parent.trans isParent, lookup⟩ path, isTop⟩
      · exact ((blocked child member stays id before isParent lookup).2 higher).elim

theorem versions_placed {still : Resource → Prop} {top : String}
    (versions : Versions app store next still)
    (blocked : ∀ row ∈ next.resources.rows, ¬ still row → ∀ id above,
      row.parent = some id → resource app store id = .ok above →
        above.id ≠ top ∧ ¬ Below app store above top)
    {child : Resource} (member : child ∈ next.resources.rows) (below : Below app next child top) :
    ∃ old ∈ store.resources.rows, old.id = child.id ∧ Below app store old top := by
  obtain ⟨old, stored, same⟩ := versions.older child member
  obtain ⟨topic, path, isTop⟩ := below
  exact ⟨old, stored, same, versions_below versions blocked member isTop path old stored same⟩

/-- A replace that may move its one row. -/
theorem replace_versions (done : replaceResource app store row expectedGeneration = .ok next) :
    Versions app store next fun other => other.id ≠ row.id where
  older := by
    intro other member
    obtain ⟨⟨old, found⟩, _, _⟩ := replaceResource_ok done
    rcases replace_rows done member with ⟨stored, _⟩ | rfl
    · exact ⟨other, stored, rfl⟩
    · exact ⟨old, Table.find?_mem found, Table.find?_key found⟩
  parent := by
    intro other member stays old stored same
    rcases replace_rows done member with ⟨otherStored, _⟩ | rfl
    · rw [Table.eq_of_key_eq stored otherStored same]
    · exact (stays rfl).elim
  found := by
    intro id found lookup
    exact replace_found done lookup

/-- Versions in place: no row moves. -/
def InPlace (app : App) (store next : Store) : Prop := Versions app store next fun _ => True

theorem replace_in_place (done : replaceResource app store row expectedGeneration = .ok next)
    {old : Resource} (stored : old ∈ store.resources.rows) (same : old.id = row.id)
    (stays : row.parent = old.parent) : InPlace app store next where
  older := (replace_versions done).older
  parent := by
    intro other member _ before stored' same'
    rcases replace_rows done member with ⟨otherStored, _⟩ | rfl
    · rw [Table.eq_of_key_eq stored' otherStored same']
    · rw [Table.eq_of_key_eq stored' stored (same'.trans same.symm), stays]
  found := (replace_versions done).found

theorem in_place_refl (store : Store) : InPlace app store store where
  older := fun row member => ⟨row, member, rfl⟩
  parent := fun row member _ old stored same => by rw [Table.eq_of_key_eq stored member same]
  found := fun _ row lookup => ⟨row, lookup, rfl⟩

theorem in_place_trans {first second third : Store} (left : InPlace app first second)
    (right : InPlace app second third) : InPlace app first third where
  older := by
    intro row member
    obtain ⟨middle, stored, same⟩ := right.older row member
    obtain ⟨old, earlier, same'⟩ := left.older middle stored
    exact ⟨old, earlier, same'.trans same⟩
  parent := by
    intro row member _ old stored same
    obtain ⟨middle, between, sameMiddle⟩ := right.older row member
    have lower := right.parent row member trivial middle between sameMiddle
    have upper := left.parent middle between trivial old stored (same.trans sameMiddle.symm)
    exact upper.trans lower
  found := by
    intro id row lookup
    obtain ⟨middle, between, same⟩ := right.found id row lookup
    obtain ⟨old, earlier, same'⟩ := left.found id middle between
    exact ⟨old, earlier, same'.trans same⟩

theorem in_place_placed {top : String} (inPlace : InPlace app store next) {child : Resource}
    (member : child ∈ next.resources.rows) (below : Below app next child top) :
    ∃ old ∈ store.resources.rows, old.id = child.id ∧ Below app store old top := by
  apply versions_placed inPlace _ member below
  intro row _ moved
  exact (moved trivial).elim

end Versions

/-- What an operation that leaves the conversations alone does below them. -/
structure Apart (app : App) (store : Store) (act : Act) (next : Store) : Prop where
  conversations : next.conversations = store.conversations
  secluded : Secluded app next
  placed : ∀ conversation ∈ store.conversations.rows, ∀ row ∈ next.resources.rows,
    Below app next row conversation.resourceId →
      (∃ old ∈ store.resources.rows, old.id = row.id ∧
        Below app store old conversation.resourceId) ∨ Sent store act conversation row
  edited : ∀ conversation ∈ store.conversations.rows, ∀ old ∈ store.resources.rows,
    Below app store old conversation.resourceId → ∀ row ∈ next.resources.rows,
      row.id = old.id → row = old ∨ Edited store act conversation old row

section Operations

variable {store next : Store} {act : Act}

/-- Nothing of the two tables changes. -/
theorem apart_same (secluded : Secluded app next) (same : next.resources = store.resources)
    (talks : next.conversations = store.conversations) : Apart app store act next where
  conversations := talks
  secluded := secluded
  placed := by
    intro conversation _ row member below
    have inPlace : InPlace app store next :=
      { older := fun row member => ⟨row, same ▸ member, rfl⟩
        parent := fun row member _ old stored equal => by
          rw [same] at member
          rw [Table.eq_of_key_eq stored member equal]
        found := fun id row lookup => ⟨row, (resource_congr same id) ▸ lookup, rfl⟩ }
    exact Or.inl (in_place_placed inPlace member below)
  edited := by
    intro conversation _ old stored _ row member equal
    rw [same] at member
    exact Or.inl (Table.eq_of_key_eq member stored equal)

theorem createResource_ok {caller : Caller} {parentId : String} {new : NewResource}
    {other : Except Failure Unit}
    (done : createResource app store caller parentId new other = .ok next) :
    ∃ parent author, resource app store parentId = .ok parent ∧
      caller.context.principal.subject = some author ∧
        insertResource app store (new.row parent.id author) = .ok next := by
  simp only [createResource, Program.except_bind_ok, requireRow_ok] at done
  obtain ⟨parent, found, _, _, _, _, _, _, _, _, _, _, author, isAuthor, owner, isOwner,
    inserted⟩ := done
  have same : owner.resourceId = author := Table.find?_key ((requireRow_ok _ _ _).mp isOwner)
  rw [same] at inserted
  exact ⟨parent, author, found, isAuthor, inserted⟩

theorem insertResource_conversations {row : Resource}
    (done : insertResource app store row = .ok next) :
    next.conversations = store.conversations ∧ next.dmBlocks = store.dmBlocks := by
  obtain ⟨_, _, _, rfl⟩ := insertResource_ok done
  exact ⟨rfl, rfl⟩

theorem replaceResource_conversations {row : Resource} {expectedGeneration : Nat}
    (done : replaceResource app store row expectedGeneration = .ok next) :
    next.conversations = store.conversations := by
  obtain ⟨_, _, rfl⟩ := replaceResource_ok done
  rfl

/-- A stored row is not rewritten by an insert. -/
theorem insert_edited {row old other : Resource} (done : insertResource app store row = .ok next)
    (stored : old ∈ store.resources.rows) (member : other ∈ next.resources.rows)
    (same : other.id = old.id) : other = old := by
  rcases insert_rows done member with ⟨earlier, _⟩ | rfl
  · exact Table.eq_of_key_eq earlier stored same
  · obtain ⟨_, grown, inserted, _⟩ := insertResource_ok done
    have fresh := (Table.find?_eq_none _ _).mp (Table.insert_fresh inserted)
    rw [same] at fresh
    exact (fresh (List.mem_map_of_mem stored)).elim

/-- A creation below a parent that is in no conversation. -/
theorem apart_create (secluded : Secluded app store) {caller : Caller} {parent : Resource}
    {new : NewResource} {other : Except Failure Unit} (stored : parent ∈ store.resources.rows)
    (outside : ∀ conversation ∈ store.conversations.rows, parent.id ≠ conversation.resourceId ∧
      ¬ Below app store parent conversation.resourceId)
    (done : createResource app store caller parent.id new other = .ok next) :
    Apart app store act next := by
  obtain ⟨found, author, lookup, _, inserted⟩ := createResource_ok done
  have same := resource_self stored lookup
  subst same
  refine ⟨(insertResource_conversations inserted).1,
    Conversations.secluded_insert secluded inserted, ?_, ?_⟩
  · intro conversation recorded row member below
    rcases below_insert secluded inserted rfl stored member below with ⟨old, before⟩ | ⟨_, inside⟩
    · exact Or.inl ⟨row, old, rfl, before⟩
    · rcases inside with here | deeper
      · exact ((outside conversation recorded).1 here).elim
      · exact ((outside conversation recorded).2 deeper).elim
  · intro conversation _ old kept _ row member equal
    exact Or.inl (insert_edited inserted kept member equal)

/-- A check that no way into a conversation uses, so what passed it is in none. -/
theorem outside_of_gate (secluded : Secluded app store) {caller : Caller} {operation : String}
    {check : Check} {row : Resource} {done : Unit} (member : row ∈ store.resources.rows)
    (writes : isReading check = false)
    (barred : ¬ (check = .create ∧ operation = dmSendOperation) ∧
      ¬ (check = .write ∧ operation = postEditOperation))
    (passed : checkAccess app store caller operation row.id check = .ok done) :
    ∀ conversation ∈ store.conversations.rows, row.id ≠ conversation.resourceId ∧
      ¬ Below app store row conversation.resourceId := by
  intro conversation recorded
  have refused : ¬ (row.id = conversation.resourceId ∨
      Below app store row conversation.resourceId) := by
    intro inside
    rcases (gated secluded member writes passed recorded inside).way with
      ⟨isCreate, _, sends⟩ | ⟨isWrite, _, _, edits⟩
    · exact barred.1 ⟨isCreate, sends⟩
    · exact barred.2 ⟨isWrite, edits⟩
  exact not_or.mp refused

theorem create_apart (secluded : Secluded app store) {caller : Caller} {operation : Registered}
    {parentId : String} {new : NewResource} {other : Except Failure Unit}
    (done : create app store caller operation.name parentId new other = .ok next) :
    Apart app store act next := by
  simp only [create, Program.except_bind_ok] at done
  obtain ⟨parent, found, _, passed, made⟩ := done
  have stored := resource_mem found
  refine apart_create secluded stored ?_ made
  apply outside_of_gate secluded stored rfl _ passed
  exact ⟨fun both => operation.notSend both.2, fun both => by cases both.1⟩

theorem replace_secluded (secluded : Secluded app store) {row old : Resource}
    {expectedGeneration : Nat} (stored : old ∈ store.resources.rows) (same : row.id = old.id)
    (stays : row.parent = old.parent)
    (done : replaceResource app store row expectedGeneration = .ok next) : Secluded app next := by
  have lookup : ∃ found, resource app store row.id = .ok found := by
    obtain ⟨found, atRow, _⟩ := (Program.except_bind_ok _ _ _).mp done
    exact ⟨found, atRow⟩
  obtain ⟨found, atRow⟩ := lookup
  have isOld : found = old := by
    rw [same] at atRow
    exact resource_self stored atRow
  subst isOld
  have updated : Conversations.updateInPlace app store row expectedGeneration = .ok next := by
    simp only [Conversations.updateInPlace, atRow, Program.except_ok_bind]
    rw [← stays]
    exact done
  exact Conversations.secluded_update secluded updated

/-- A new version in place of a row that is in no conversation, or is an edit. -/
theorem apart_replace (secluded : Secluded app store) {row old : Resource}
    {expectedGeneration : Nat} (stored : old ∈ store.resources.rows) (same : row.id = old.id)
    (stays : row.parent = old.parent)
    (allowed : ∀ conversation ∈ store.conversations.rows,
      Below app store old conversation.resourceId → Edited store act conversation old row)
    (done : replaceResource app store row expectedGeneration = .ok next) :
    Apart app store act next := by
  refine ⟨replaceResource_conversations done, ?_, ?_, ?_⟩
  · exact replace_secluded secluded stored same stays done
  · intro conversation _ child member below
    exact Or.inl (in_place_placed (replace_in_place done stored same.symm stays) member below)
  · intro conversation recorded before kept inside child member equal
    rcases replace_rows done member with ⟨earlier, _⟩ | rfl
    · exact Or.inl (Table.eq_of_key_eq earlier kept equal)
    · have isOld := Table.eq_of_key_eq kept stored (equal.symm.trans same)
      subst isOld
      exact Or.inr (allowed conversation recorded inside)

theorem change_writes (row : Resource) (wanted : Change) :
    isReading (wanted.check row) = false ∧ wanted.check row ≠ .create := by
  cases wanted with
  | tagsSet =>
      simp only [Change.check]
      split <;> exact ⟨rfl, by simp⟩
  | _ => exact ⟨rfl, by simp [Change.check]⟩

theorem change_apart (secluded : Secluded app store) {caller : Caller} {operation : Registered}
    {id : String} {wanted : Change} {other : Except Failure Unit}
    (done : change app store caller operation.name id wanted other = .ok next) :
    Apart app store act next := by
  simp only [change, Program.except_bind_ok] at done
  obtain ⟨row, found, _, passed, _, _, _, _, _, _, replaced⟩ := done
  have stored := resource_mem found
  have outside := outside_of_gate secluded stored (change_writes row wanted).1
    ⟨fun both => operation.notSend both.2, fun both => operation.notEdit both.2⟩ passed
  refine apart_replace secluded stored (apply_id row wanted) (apply_parent row wanted) ?_ replaced
  intro conversation recorded inside
  exact ((outside conversation recorded).2 inside).elim

theorem postEdit_apart (secluded : Secluded app store) {caller : Caller} {id revision : String}
    {other : Except Failure Unit}
    (done : change app store caller postEditOperation id (.postEdit revision) other = .ok next) :
    Apart app store (.operation (.postEdit caller id revision other)) next := by
  simp only [change, Program.except_bind_ok] at done
  obtain ⟨row, found, _, passed, _, _, _, _, _, _, replaced⟩ := done
  have stored := resource_mem found
  refine apart_replace secluded stored (apply_id row _) (apply_parent row _) ?_ replaced
  intro conversation recorded inside
  have gate := gated secluded stored rfl passed recorded (Or.inr inside)
  rcases gate.way with ⟨isCreate, _⟩ | ⟨_, isPost, isOwner, _⟩
  · cases isCreate
  · exact ⟨caller, id, revision, other, rfl, rfl, isPost, isOwner, gate.admitted⟩

/-- The first step of the way up is the parent. -/
theorem below_parent {row parent : Resource} {parentId top : String}
    (isParent : row.parent = some parentId) (found : resource app store parentId = .ok parent)
    (below : Below app store row top) : parent.id = top ∨ Below app store parent top := by
  obtain ⟨topic, path, isTop⟩ := below
  have first : ∀ above, Under app store row above → above = parent := by
    rintro above ⟨id, named, lookup⟩
    rw [isParent] at named
    cases named
    rw [found] at lookup
    exact (Except.ok.inj lookup).symm
  cases path using Relation.TransGen.head_induction_on with
  | single under => exact Or.inl (first _ under ▸ isTop)
  | head under rest =>
      have same := first _ under
      subst same
      exact Or.inr ⟨topic, rest, isTop⟩

theorem removable_outside (secluded : Secluded app store) {caller : Caller} {operation : String}
    {row : Resource} {done : Unit}
    (passed : removable app store caller operation row = .ok done) :
    ∀ conversation ∈ store.conversations.rows,
      ¬ Below app store row conversation.resourceId := by
  simp only [removable, Program.except_bind_ok, requireRow_ok] at passed
  obtain ⟨_, _, _, _, _, _, _, _, _, _, parentId, isParent, parent, found, _, access, _⟩ := passed
  have outside := outside_of_gate secluded (resource_mem found) rfl
    ⟨fun both => (by cases both.1), fun both => (by cases both.1)⟩ access
  intro conversation recorded inside
  rcases below_parent isParent found inside with here | deeper
  · exact (outside conversation recorded).1 here
  · exact (outside conversation recorded).2 deeper

theorem lifecycle_apart (secluded : Secluded app store) {caller : Caller} {operation : Registered}
    {id : String} {state : ResourceState} {other : Except Failure Unit}
    (done : lifecycle app store caller operation.name id state other = .ok next) :
    Apart app store act next := by
  simp only [lifecycle, Program.except_bind_ok] at done
  obtain ⟨row, found, _, _, _, removed, _, _, _, _, replaced⟩ := done
  have stored := resource_mem found
  have outside := removable_outside secluded removed
  apply apart_replace secluded stored _ _ _ replaced
  · rfl
  · rfl
  · intro conversation recorded inside
    exact (outside conversation recorded inside).elim

theorem attach_apart (secluded : Secluded app store) {caller : Caller} {operation : Registered}
    {id revision : String} {new : NewResource} {other : Except Failure Unit}
    (done : attach app store caller operation.name id new revision other = .ok next) :
    Apart app store act next := by
  simp only [attach, Program.except_bind_ok, requireRow_ok] at done
  obtain ⟨post, found, _, _, _, _, parentId, isParent, parent, atParent, _, passed, grown, made,
    replaced⟩ := done
  have stored := resource_mem found
  have parentStored := resource_mem atParent
  have outside := outside_of_gate secluded parentStored rfl
    ⟨fun both => operation.notSend both.2, fun both => by cases both.1⟩ passed
  -- The post hangs below the same parent, so it is in no conversation either.
  have clear : ∀ conversation ∈ store.conversations.rows,
      ¬ Below app store post conversation.resourceId := by
    intro conversation recorded inside
    rcases below_parent isParent atParent inside with here | deeper
    · exact (outside conversation recorded).1 here
    · exact (outside conversation recorded).2 deeper
  obtain ⟨again, author, lookup, _, inserted⟩ := createResource_ok made
  have same := resource_self parentStored lookup
  subst same
  have kept : post ∈ grown.resources.rows := by
    obtain ⟨_, table, isTable, rfl⟩ := insertResource_ok inserted
    exact (Table.mem_insert isTable post).mpr (Or.inl stored)
  have grownSecluded := Conversations.secluded_insert secluded inserted
  refine ⟨?_, ?_, ?_, ?_⟩
  · rw [replaceResource_conversations replaced]
    exact (insertResource_conversations inserted).1
  · exact replace_secluded grownSecluded kept (apply_id post _) (apply_parent post _) replaced
  · intro conversation recorded child member below
    obtain ⟨between, present, sameId, lower⟩ := in_place_placed
      (replace_in_place replaced kept (apply_id post _).symm (apply_parent post _)) member below
    rcases below_insert secluded inserted rfl parentStored present lower with
      ⟨old, before⟩ | ⟨_, inside⟩
    · exact Or.inl ⟨between, old, sameId, before⟩
    · rcases inside with here | deeper
      · exact ((outside conversation recorded).1 here).elim
      · exact ((outside conversation recorded).2 deeper).elim
  · intro conversation recorded old before inside child member equal
    rcases replace_rows replaced member with ⟨earlier, _⟩ | rfl
    · exact Or.inl (insert_edited inserted before earlier equal)
    · have isPost := Table.eq_of_key_eq before stored (equal.symm.trans (apply_id post _))
      subst isPost
      exact (clear conversation recorded inside).elim

/-- The patched rows are versions in place, and the others are what they were. -/
theorem publishPatches_ok (secluded : Secluded app store) {items : List (Resource × String)}
    (present : ∀ item ∈ items, ∃ old ∈ store.resources.rows,
      old.id = item.1.id ∧ old.parent = item.1.parent)
    (done : publishPatches app store items = .ok next) :
    Secluded app next ∧ next.conversations = store.conversations ∧ InPlace app store next ∧
      ∀ row ∈ next.resources.rows, row ∈ store.resources.rows ∨
        ∃ item ∈ items, row.id = item.1.id := by
  induction items generalizing store with
  | nil =>
      cases done
      exact ⟨secluded, rfl, in_place_refl _, fun row member => Or.inl member⟩
  | cons item rest ih =>
      obtain ⟨middle, replaced, later⟩ := (Program.except_bind_ok _ _ _).mp done
      obtain ⟨old, stored, sameId, sameParent⟩ := present item List.mem_cons_self
      have idKept := apply_id item.1 (.textPatch item.2)
      have parentKept := apply_parent item.1 (.textPatch item.2)
      have inPlace : InPlace app store middle :=
        replace_in_place replaced stored (sameId.trans idKept.symm)
          (parentKept.trans sameParent.symm)
      have middleSecluded := replace_secluded secluded stored (idKept.trans sameId.symm)
        (parentKept.trans sameParent.symm) replaced
      have still : ∀ other ∈ rest, ∃ row ∈ middle.resources.rows,
          row.id = other.1.id ∧ row.parent = other.1.parent := by
        intro other inside
        obtain ⟨before, kept, otherId, otherParent⟩ :=
          present other (List.mem_cons_of_mem _ inside)
        have found : ∃ row ∈ middle.resources.rows, row.id = before.id := by
          obtain ⟨_, _, rfl⟩ := replaceResource_ok replaced
          refine ⟨_, List.mem_map_of_mem kept, ?_⟩
          exact Table.key_changeAt _ _ before
        obtain ⟨row, member, same⟩ := found
        refine ⟨row, member, same.trans otherId, ?_⟩
        rw [← otherParent]
        exact (inPlace.parent row member trivial before kept same.symm).symm
      obtain ⟨final, talks, placed, rows⟩ := ih middleSecluded still later
      refine ⟨final, ?_, in_place_trans inPlace placed, ?_⟩
      · rw [talks]
        exact replaceResource_conversations replaced
      · intro row member
        rcases rows row member with between | ⟨other, inside, same⟩
        · rcases replace_rows replaced between with ⟨earlier, _⟩ | rfl
          · exact Or.inl earlier
          · exact Or.inr ⟨item, List.mem_cons_self, idKept⟩
        · exact Or.inr ⟨other, List.mem_cons_of_mem _ inside, same⟩

theorem mapM_mem {α β : Type} {body : α → Except Failure β} {items : List α} {results : List β}
    (done : items.mapM body = .ok results) {result : β} (member : result ∈ results) :
    ∃ item ∈ items, body item = .ok result := by
  induction items generalizing results with
  | nil =>
      cases done
      cases member
  | cons item rest ih =>
      rw [List.mapM_cons] at done
      simp only [Program.except_bind_ok, Program.except_pure, Except.ok.injEq] at done
      obtain ⟨first, answered, later, restDone, rfl⟩ := done
      rcases List.mem_cons.mp member with rfl | inside
      · exact ⟨item, List.mem_cons_self, answered⟩
      · obtain ⟨other, among, same⟩ := ih restDone inside
        exact ⟨other, List.mem_cons_of_mem _ among, same⟩

theorem textPatchBatch_apart (secluded : Secluded app store) {caller : Caller}
    {operation : Registered} {items : List (String × String)} {other : Except Failure Unit}
    (done : textPatchBatch app store caller operation.name items other = .ok next) :
    Apart app store act next := by
  simp only [textPatchBatch, Program.except_bind_ok] at done
  obtain ⟨prepared, checked, _, _, _, _, published⟩ := done
  have outside : ∀ item ∈ prepared, item.1 ∈ store.resources.rows ∧
      ∀ conversation ∈ store.conversations.rows,
        ¬ Below app store item.1 conversation.resourceId := by
    intro item member
    obtain ⟨asked, _, answered⟩ := mapM_mem checked member
    simp only [prepareTextPatch, Program.except_bind_ok, Program.except_pure,
      Except.ok.injEq] at answered
    obtain ⟨row, found, _, _, _, passed, rfl⟩ := answered
    have stored := resource_mem found
    refine ⟨stored, ?_⟩
    intro conversation recorded
    exact (outside_of_gate secluded stored rfl
      ⟨fun both => operation.notSend both.2, fun both => operation.notEdit both.2⟩ passed
      conversation recorded).2
  obtain ⟨final, talks, inPlace, rows⟩ := publishPatches_ok secluded
    (fun item member => ⟨item.1, (outside item member).1, rfl, rfl⟩) published
  refine ⟨talks, final, ?_, ?_⟩
  · intro conversation _ child member below
    exact Or.inl (in_place_placed inPlace member below)
  · intro conversation recorded old stored inside row member equal
    rcases rows row member with earlier | ⟨item, among, same⟩
    · exact Or.inl (Table.eq_of_key_eq earlier stored equal)
    · have isItem := Table.eq_of_key_eq stored (outside item among).1 (equal.symm.trans same)
      subst isItem
      exact ((outside item among).2 conversation recorded inside).elim

theorem directOf_clear {id : String} (clear : directOf store id = none)
    {conversation : Conversation} (recorded : conversation ∈ store.conversations.rows)
    (here : conversation.resourceId = id) : False :=
  Conversations.directOf_none.mp clear conversation recorded here

/-- What may be moved is in no conversation. -/
theorem move_free {request : Conversations.Move}
    (done : Conversations.move app store request = .ok next) {row : Resource}
    (found : resource app store request.id = .ok row) :
    ∀ conversation ∈ store.conversations.rows,
      ¬ Below app store row conversation.resourceId := by
  simp only [Conversations.move, Program.except_bind_ok] at done
  obtain ⟨again, atRow, _, _, _, _, _, apart, _⟩ := done
  rw [found] at atRow
  cases atRow
  simp only [Conversations.noDirectAncestor, Program.except_bind_ok, require_ok] at apart
  obtain ⟨same, lookup, above, climbed, free⟩ := apart
  rw [resource_self (resource_mem found) lookup] at free
  obtain ⟨other, again, linked⟩ := ancestors_chain climbed
  rw [resource_self (resource_mem found) again] at linked
  rintro conversation recorded ⟨topic, path, isTop⟩
  exact directOf_clear (free topic (List.mem_append_left _ (chain_of_below linked path)))
    recorded isTop.symm

/-- A move takes nothing out of a conversation and brings nothing into one. -/
theorem move_apart (secluded : Secluded app store) {request : Conversations.Move}
    (done : Conversations.move app store request = .ok next) : Apart app store act next := by
  obtain ⟨row, target, above, found, _, atTarget, linked, clear, replaced⟩ :=
    Conversations.move_ok done
  have free := move_free done found
  have stored := resource_mem found
  have outside : ∀ conversation ∈ store.conversations.rows, target.id ≠ conversation.resourceId ∧
      ¬ Below app store target conversation.resourceId := by
    intro conversation recorded
    constructor
    · intro here
      exact directOf_clear (clear target (by simp)) recorded here.symm
    · rintro ⟨topic, path, isTop⟩
      exact directOf_clear (clear topic (List.mem_append_left _ (chain_of_below linked path)))
        recorded isTop.symm
  refine ⟨replaceResource_conversations replaced, Conversations.secluded_move secluded done, ?_, ?_⟩
  · intro conversation recorded child member below
    left
    refine versions_placed (replace_versions replaced) ?_ member below
    intro moved present notStill id higher isParent lookup
    rcases replace_rows replaced present with ⟨_, different⟩ | rfl
    · exact (notStill different).elim
    · cases isParent
      rw [atTarget] at lookup
      cases lookup
      exact outside conversation recorded
  · intro conversation recorded old kept inside child member equal
    rcases replace_rows replaced member with ⟨earlier, _⟩ | rfl
    · exact Or.inl (Table.eq_of_key_eq earlier kept equal)
    · have isRow := Table.eq_of_key_eq kept stored equal.symm
      subst isRow
      exact (free conversation recorded inside).elim

theorem signedSubject_ok {principal : Principal} {sender : String}
    (done : Conversations.signedSubject principal = .ok sender) :
    principal.subject = some sender ∧ principal.actor = some sender ∧
      principal.method = .signature := by
  simp only [Conversations.signedSubject, Program.except_bind_ok, requireRow_ok, require_ok,
    Program.except_pure, Except.ok.injEq] at done
  obtain ⟨subject, isSubject, _, both, rfl⟩ := done
  exact ⟨isSubject, both.1, both.2⟩

theorem dmSend_apart (secluded : Secluded app store) {caller : Caller} {conversationId : String}
    {new : NewResource} {other : Except Failure Unit}
    (done : dmSend app store caller conversationId new other = .ok next) :
    Apart app store (.operation (.dmSend caller conversationId new other)) next := by
  simp only [dmSend, Program.except_bind_ok, requireRow_ok] at done
  obtain ⟨sender, _, row, isRow, _, _, _, passed, _, _, made⟩ := done
  obtain ⟨recorded, same⟩ := Conversations.directOf_mem isRow
  obtain ⟨parent, author, lookup, isAuthor, inserted⟩ := createResource_ok made
  -- The id of a conversation finds its topic.
  obtain ⟨topic, atTopic, _⟩ := secluded.placed row recorded
  have stored := Table.find?_mem atTopic
  have topicId := (Table.find?_key atTopic).trans same
  have isTopic : parent = topic := by
    rw [← topicId] at lookup
    exact resource_self stored lookup
  subst isTopic
  have gate : ∀ conversation ∈ store.conversations.rows,
      parent.id = conversation.resourceId ∨ Below app store parent conversation.resourceId →
        Gated store caller dmSendOperation .create parent conversation := by
    intro conversation known inside
    rw [← topicId] at passed
    exact gated secluded stored rfl passed known inside
  refine ⟨(insertResource_conversations inserted).1,
    Conversations.secluded_insert secluded inserted, ?_, ?_⟩
  · intro conversation known child member below
    rcases below_insert secluded inserted rfl stored member below with ⟨old, before⟩ | ⟨rfl, inside⟩
    · exact Or.inl ⟨child, old, rfl, before⟩
    · have open_ := gate conversation known inside
      have here : parent.id = conversation.resourceId := by
        rcases open_.way with ⟨_, here, _⟩ | ⟨isWrite, _⟩
        · exact here
        · cases isWrite
      right
      refine ⟨caller, new, other, ?_, open_.admitted, isAuthor, rfl, ?_⟩
      · rw [← here, topicId]
      · rw [← here]
        rfl
  · intro conversation _ old kept _ child member equal
    exact Or.inl (insert_edited inserted kept member equal)

end Operations

end MsgServer.Consent
