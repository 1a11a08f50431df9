import MsgServer.Storage.Paths

/-!
The two statements that write the resource table, `insert` and `replace`, and the
chains that `ancestors` climbs. Creation facts, tags, aliases and the
authorization epoch are left out. No statement of the server deletes a resource.
-/

namespace MsgServer.ResourceTree

open Library Session

variable (app : App)

/-- `await self.resource(resource.parent)` for its failure only. -/
def parentExists (store : Store) (parent : Option String) : Except Failure Unit :=
  match parent with
  | none => .ok ()
  | some parent => do
      let _ ← resource app store parent
      return ()

def insertResource (store : Store) (row : Resource) : Except Failure Store := do
  parentExists app store row.parent
  let grown ← insertRow store.resources row
  return { store with resources := grown }

def parentCycleCheck (store : Store) (row : Resource) : Except Failure Unit :=
  match row.parent with
  | none => .ok ()
  | some parent => do
      require (parent ≠ row.id) "parent_cycle"
      let above ← resource app store parent
      let chain ← ancestors app store above.id
      require (∀ ancestor ∈ chain, ancestor.id ≠ row.id) "parent_cycle"

def updatedAt (store : Store) (row : Resource) (expectedGeneration : Nat) : Prop :=
  (store.resources.find? row.id).map Resource.generation = some expectedGeneration

instance (store : Store) (row : Resource) (expectedGeneration : Nat) :
    Decidable (updatedAt store row expectedGeneration) := by
  unfold updatedAt
  infer_instance

def replaceResource (store : Store) (row : Resource) (expectedGeneration : Nat) :
    Except Failure Store := do
  let old ← resource app store row.id
  require (old.generation = expectedGeneration) "generation_conflict"
  require (row.generation = expectedGeneration + 1) "invalid_generation"
  require (row.type = old.type) "immutable_creation_fact"
  parentCycleCheck app store row
  require (updatedAt store row expectedGeneration) "generation_conflict"
  return { store with resources := store.resources.modify row.id fun _ => row }

/-- The chain above a resource, outermost first. -/
inductive Chain (store : Store) : Resource → List Resource → Prop
  | root {row : Resource} : row.parent = none → Chain store row []
  | link {row above : Resource} {parent : String} {chain : List Resource} :
      row.parent = some parent → resource app store parent = .ok above →
      Chain store above chain → Chain store row (chain ++ [above])

variable {app}

theorem climb_chain {store : Store} {turns : Nat} {seen : List String} {current : Resource}
    {result chain : List Resource}
    (climbed : climb app store turns seen current result = .ok chain) :
    ∃ above, chain = above ++ result ∧ Chain app store current above := by
  induction turns generalizing seen current result with
  | zero =>
      unfold climb at climbed
      split at climbed
      · cases climbed
        exact ⟨[], rfl, Chain.root ‹_›⟩
      · split at climbed <;> cases climbed
  | succ turns ih =>
      unfold climb at climbed
      split at climbed
      · cases climbed
        exact ⟨[], rfl, Chain.root ‹_›⟩
      · rename_i parent isParent
        split at climbed
        · cases climbed
        · obtain ⟨next, found, later⟩ := (Program.except_bind_ok _ _ _).mp climbed
          obtain ⟨above, shape, linked⟩ := ih later
          exact ⟨above ++ [next], by simp [shape], Chain.link isParent found linked⟩

theorem ancestors_chain {store : Store} {id : String} {above : List Resource}
    (climbed : ancestors app store id = .ok above) :
    ∃ row, resource app store id = .ok row ∧ Chain app store row above := by
  obtain ⟨row, found, later⟩ := (Program.except_bind_ok _ _ _).mp climbed
  obtain ⟨chain, shape, linked⟩ := climb_chain later
  rw [List.append_nil] at shape
  exact ⟨row, found, shape ▸ linked⟩

/-- The part of a chain above one of its members is that member's own chain. -/
theorem Chain.initial {store : Store} {row : Resource} {above : List Resource}
    (linked : Chain app store row above) {first later : List Resource} {item : Resource}
    (split : above ++ [row] = first ++ item :: later) : Chain app store item first := by
  induction linked generalizing later with
  | root isRoot =>
      cases first with
      | nil =>
          cases split
          exact Chain.root isRoot
      | cons head rest => simp at split
  | link isParent found tail ih =>
      rcases List.eq_nil_or_concat later with rfl | ⟨shorter, last, rfl⟩
      · obtain ⟨rfl, same⟩ := List.append_inj' split rfl
        cases same
        exact Chain.link isParent found tail
      · rw [List.concat_eq_append, ← List.cons_append, ← List.append_assoc] at split
        exact ih (List.append_inj' split rfl).1

/-- Lookups read nothing but the resource table. -/
theorem resource_congr {left right : Store} (same : left.resources = right.resources)
    (id : String) : resource app left id = resource app right id := by
  simp only [resource, same]

theorem climb_congr {left right : Store} (same : left.resources = right.resources) (turns : Nat)
    (seen : List String) (current : Resource) (result : List Resource) :
    climb app left turns seen current result = climb app right turns seen current result := by
  induction turns generalizing seen current result with
  | zero =>
      unfold climb
      rfl
  | succ turns ih =>
      unfold climb
      simp only [resource_congr same, ih]

theorem ancestors_congr {left right : Store} (same : left.resources = right.resources)
    (id : String) : ancestors app left id = ancestors app right id := by
  simp only [ancestors, resource_congr same, climb_congr same, same]

theorem resource_mem {store : Store} {id : String} {row : Resource}
    (found : resource app store id = .ok row) : row ∈ store.resources.rows := by
  unfold resource at found
  split at found
  · split at found
    · cases found
    · rename_i single
      cases found
      exact (List.mem_filter.mp (single ▸ List.mem_singleton_self _)).1
    · cases found
  · exact Table.find?_mem ((requireRow_ok _ _ _).mp found)

/-- Looking a resource up by its own id finds it, unless the id is ambiguous. -/
theorem resource_self {store : Store} {row other : Resource}
    (member : row ∈ store.resources.rows) (found : resource app store row.id = .ok other) :
    other = row := by
  unfold resource at found
  split at found
  · rename_i hex
    have listed : row ∈ store.resources.rows.filter
        (fun item => app.hexReference item.id == row.id) :=
      List.mem_filter.mpr ⟨member, by simp [app.hexReferenceSelf row.id hex]⟩
    split at found
    · cases found
    · rename_i single
      cases found
      rw [single, List.mem_singleton] at listed
      exact listed.symm
    · cases found
  · rw [requireRow_ok, (Table.mem_iff_find? _ row).mp member] at found
    exact (Option.some.inj found).symm

/-- A resource that some lookup finds is found by its own id. -/
theorem resource_again {store : Store} {id : String} {row : Resource}
    (found : resource app store id = .ok row) : resource app store row.id = .ok row := by
  have member := resource_mem found
  unfold resource at found ⊢
  split at found
  · rename_i hex
    split at found
    · cases found
    · rename_i single
      cases found
      have named : app.hexReference row.id = id := by
        have listed := single ▸ List.mem_singleton_self row
        simpa using (List.mem_filter.mp listed).2
      split
      · rename_i ownHex
        -- A hex id is its own reference, so the two lookups are one.
        have same : row.id = id := (app.hexReferenceSelf row.id ownHex).symm.trans named
        rw [same, single]
      · rw [(Table.mem_iff_find? _ row).mp member]
        rfl
    · cases found
  · rename_i plain
    have named : row.id = id := Table.find?_key ((requireRow_ok _ _ _).mp found)
    rw [named, if_neg plain]
    exact found

/-- A climb that succeeds also succeeds with more turns and fewer marks. -/
theorem climb_mono {store : Store} {turns more : Nat} {seen fewer : List String}
    {current : Resource} {result chain other : List Resource}
    (climbed : climb app store turns seen current result = .ok chain) (enough : turns ≤ more)
    (unseen : ∀ id ∈ fewer, id ∈ seen) :
    ∃ higher, climb app store more fewer current other = .ok higher := by
  induction turns generalizing more seen fewer current result other with
  | zero =>
      unfold climb at climbed ⊢
      split at climbed
      · simp
      · split at climbed <;> cases climbed
  | succ turns ih =>
      obtain ⟨more, rfl⟩ : ∃ less, more = less + 1 := ⟨more - 1, by omega⟩
      unfold climb at climbed ⊢
      split at climbed
      · simp
      · split at climbed
        · cases climbed
        · rename_i fresh
          obtain ⟨next, found, later⟩ := (Program.except_bind_ok _ _ _).mp climbed
          have notSeen : current.id ∉ fewer := fun member => fresh (unseen _ member)
          simp only [notSeen, if_false, found, Program.except_ok_bind]
          apply ih later (by omega)
          intro id member
          rcases List.mem_cons.mp member with rfl | older
          · exact List.mem_cons_self
          · exact List.mem_cons_of_mem _ (unseen id older)

theorem climb_members {store : Store} {turns : Nat} {seen : List String} {current : Resource}
    {result chain : List Resource}
    (climbed : climb app store turns seen current result = .ok chain) :
    ∀ item ∈ chain, item ∈ result ∨ resource app store item.id = .ok item ∧
      ∃ left, left ≤ turns ∧ ∃ marks start higher,
        climb app store left marks item start = .ok higher := by
  induction turns generalizing seen current result with
  | zero =>
      unfold climb at climbed
      split at climbed
      · cases climbed
        exact fun item member => Or.inl member
      · split at climbed <;> cases climbed
  | succ turns ih =>
      unfold climb at climbed
      split at climbed
      · cases climbed
        exact fun item member => Or.inl member
      · split at climbed
        · cases climbed
        · obtain ⟨next, found, later⟩ := (Program.except_bind_ok _ _ _).mp climbed
          intro item member
          rcases ih later item member with inResult | ⟨self, left, few, rest⟩
          · rcases List.mem_cons.mp inResult with rfl | older
            · exact Or.inr ⟨resource_again found, turns, Nat.le_succ turns, _, _, _, later⟩
            · exact Or.inl older
          · exact Or.inr ⟨self, left, Nat.le_succ_of_le few, rest⟩

/-- Whatever is above a resource has a chain of its own. -/
theorem ancestors_above {store : Store} {id : String} {above : List Resource}
    (climbed : ancestors app store id = .ok above) {item : Resource} (member : item ∈ above) :
    ∃ higher, ancestors app store item.id = .ok higher := by
  obtain ⟨row, _, later⟩ := (Program.except_bind_ok _ _ _).mp climbed
  rcases climb_members later item member with none | ⟨self, left, few, marks, start, _, inner⟩
  · cases none
  · obtain ⟨higher, found⟩ : ∃ higher,
        climb app store (store.resources.rows.length + 1) [] item [] = .ok higher :=
      climb_mono inner few (by simp)
    refine ⟨higher, ?_⟩
    rw [ancestors, self]
    exact found

theorem Chain.mem {store : Store} {row : Resource} {above : List Resource}
    (linked : Chain app store row above) : ∀ item ∈ above, item ∈ store.resources.rows := by
  induction linked with
  | root => simp
  | link isParent found tail ih =>
      intro item member
      rcases List.mem_append.mp member with upper | last
      · exact ih item upper
      · rw [List.mem_singleton] at last
        exact last ▸ resource_mem found

/-- A set of ids that contains a resource and is closed under parents contains
everything above the resource. -/
theorem Chain.closed {store : Store} {row : Resource} {above : List Resource}
    (linked : Chain app store row above) (inRows : row ∈ store.resources.rows)
    {upper : String → Prop} (start : upper row.id)
    (climbs : ∀ child ∈ store.resources.rows, upper child.id → ∀ parent next,
      child.parent = some parent → resource app store parent = .ok next → upper next.id) :
    ∀ item ∈ above, upper item.id := by
  induction linked with
  | root => simp
  | link isParent found tail ih =>
      have next := climbs _ inRows start _ _ isParent found
      intro item member
      rcases List.mem_append.mp member with higher | last
      · exact ih (resource_mem found) next item higher
      · rw [List.mem_singleton] at last
        exact last ▸ next

/-- The id names at least one stored resource. -/
def Known (app : App) (store : Store) (id : String) : Prop :=
  resource app store id ≠ .error { code := "not_found" }

theorem known_of_ok {store : Store} {id : String} {row : Resource}
    (found : resource app store id = .ok row) : Known app store id := by
  rw [Known, found]
  intro same
  cases same

/-- A lookup after an insert answers as before, unless it named nothing before. -/
theorem resource_insert {store : Store} {next : Table Resource.id} {row found : Resource}
    (inserted : store.resources.insert row = some next) {id : String}
    (lookup : resource app { store with resources := next } id = .ok found) :
    resource app store id = .ok found ∨ (found = row ∧ ¬ Known app store id) := by
  unfold Known resource at *
  split at lookup
  · rename_i hex
    simp only [Table.insert_rows inserted, List.filter_append] at lookup
    simp only [hex, if_true]
    by_cases matched : app.hexReference row.id == id
    · rw [List.filter_cons_of_pos (by simpa using matched), List.filter_nil] at lookup
      cases before : store.resources.rows.filter (fun other => app.hexReference other.id == id) with
      | nil =>
          rw [before] at lookup
          cases lookup
          exact Or.inr ⟨rfl, fun known => known rfl⟩
      | cons head rest =>
          rw [before] at lookup
          cases rest <;> simp at lookup
    · rw [List.filter_cons_of_neg (by simpa using matched), List.filter_nil,
        List.append_nil] at lookup
      exact Or.inl lookup
  · rename_i plain
    simp only [plain]
    rw [requireRow_ok, Table.find?_insert inserted] at lookup
    split at lookup
    · rename_i same
      cases lookup
      have fresh := Table.insert_fresh inserted
      rw [same] at fresh
      refine Or.inr ⟨rfl, fun known => known ?_⟩
      simp [fresh, requireRow]
    · exact Or.inl (by simp [lookup])

theorem known_insert {store : Store} {next : Table Resource.id} {row : Resource}
    (inserted : store.resources.insert row = some next) {id : String}
    (known : Known app store id) : Known app { store with resources := next } id := by
  unfold Known resource at *
  split
  · rename_i hex
    simp only [hex, if_true] at known
    simp only [Table.insert_rows inserted, List.filter_append]
    cases before : store.resources.rows.filter (fun other => app.hexReference other.id == id) with
    | nil => simp [before] at known
    | cons head rest =>
        cases rest with
        | cons second tail => simp
        | nil =>
            by_cases matched : app.hexReference row.id == id <;> simp [matched]
  · rename_i plain
    simp only [plain] at known
    cases found : store.resources.find? id with
    | none => simp [found, requireRow] at known
    | some old =>
        have different : ¬ row.id = id := by
          intro same
          have fresh := Table.insert_fresh inserted
          rw [same, found] at fresh
          cases fresh
        simp [Table.find?_insert inserted, different, found, requireRow]

theorem hex_changeAt (wanted id : String) (change : Resource → Resource) :
    (fun other : Resource => app.hexReference other.id == id) ∘
        Table.changeAt Resource.id wanted change =
      fun other => app.hexReference other.id == id := by
  funext other
  simp [Table.key_changeAt]

/-- A replace keeps every id, so every lookup finds the same row or its new version. -/
theorem resource_modify {store : Store} {row found : Resource} {id : String}
    (lookup : resource app
      { store with resources := store.resources.modify row.id fun _ => row } id = .ok found) :
    ∃ old, resource app store id = .ok old ∧
      found = if old.id = row.id then row else old := by
  have shape : ∀ other : Resource,
      Table.changeAt Resource.id row.id (fun _ => row) other =
        if other.id = row.id then row else other := by
    intro other
    by_cases same : other.id = row.id
    · simp [Table.changeAt, Table.rekeyed, same]
    · simp [Table.changeAt, same]
  unfold resource at lookup ⊢
  split at lookup
  · rename_i hex
    simp only [Table.modify, List.filter_map, hex_changeAt] at lookup
    simp only [hex, if_true]
    cases before : store.resources.rows.filter (fun other => app.hexReference other.id == id) with
    | nil => simp [before] at lookup
    | cons head rest =>
        cases rest with
        | cons second tail => simp [before] at lookup
        | nil =>
            simp only [before, List.map_cons, List.map_nil, Except.ok.injEq] at lookup
            exact ⟨head, rfl, by rw [← lookup, shape]⟩
  · rename_i plain
    rw [requireRow_ok, Table.find?_modify] at lookup
    simp only [plain]
    split at lookup
    · rename_i same
      obtain ⟨old, atOld, changed⟩ := Option.map_eq_some_iff.mp lookup
      have key := Table.find?_key atOld
      refine ⟨old, by simpa using atOld, ?_⟩
      rw [← changed, key, if_pos same, Table.rekeyed_of_key (by rw [key, same])]
    · rename_i different
      exact ⟨found, by simpa using lookup, by rw [Table.find?_key lookup, if_neg different]⟩

theorem known_modify {store : Store} {row : Resource} {id : String}
    (known : Known app store id) :
    Known app { store with resources := store.resources.modify row.id fun _ => row } id := by
  unfold Known resource at *
  split
  · rename_i hex
    simp only [hex, if_true] at known
    simp only [Table.modify, List.filter_map, hex_changeAt]
    cases before : store.resources.rows.filter (fun other => app.hexReference other.id == id) with
    | nil => simp [before] at known
    | cons head rest => cases rest <;> simp
  · rename_i plain
    simp only [plain] at known
    cases found : store.resources.find? id with
    | none => simp [found, requireRow] at known
    | some old =>
        rw [Table.find?_modify]
        split <;> simp [found, requireRow]

/-- What an accepted insert does. -/
theorem insertResource_ok {store next : Store} {row : Resource}
    (done : insertResource app store row = .ok next) :
    (∀ parent, row.parent = some parent → ∃ above, resource app store parent = .ok above) ∧
      ∃ grown, store.resources.insert row = some grown ∧
        next = { store with resources := grown } := by
  simp only [insertResource, Program.except_bind_ok, insertRow_ok, Program.except_pure,
    Except.ok.injEq] at done
  obtain ⟨_, exists', grown, inserted, rfl⟩ := done
  refine ⟨?_, grown, inserted, rfl⟩
  intro parent isParent
  simp only [parentExists, isParent, Program.except_bind_ok] at exists'
  obtain ⟨above, found, _⟩ := exists'
  exact ⟨above, found⟩

/-- What an accepted replace does. -/
theorem replaceResource_ok {store next : Store} {row : Resource} {expectedGeneration : Nat}
    (done : replaceResource app store row expectedGeneration = .ok next) :
    (∃ old, store.resources.find? row.id = some old) ∧
      (∀ parent, row.parent = some parent → ∃ above, resource app store parent = .ok above) ∧
      next = { store with resources := store.resources.modify row.id fun _ => row } := by
  simp only [replaceResource, Program.except_bind_ok, require_ok, Program.except_pure,
    Except.ok.injEq] at done
  obtain ⟨_, _, _, _, _, _, _, _, _, cycle, _, stored, rfl⟩ := done
  obtain ⟨old, found, _⟩ := Option.map_eq_some_iff.mp stored
  refine ⟨⟨old, found⟩, ?_, rfl⟩
  intro parent isParent
  simp only [parentCycleCheck, isParent, Program.except_bind_ok] at cycle
  obtain ⟨_, _, above, atParent, _⟩ := cycle
  exact ⟨above, atParent⟩

/-! Resolved ids name stored resources. -/

theorem rootId_stored {store : Store} {id : String} (found : rootId store = .ok id) :
    ∃ row ∈ store.resources.rows, row.id = id := by
  simp only [rootId, Program.except_bind_ok, requireRow_ok, Program.except_pure,
    Except.ok.injEq] at found
  obtain ⟨row, isRoot, same⟩ := found
  exact ⟨row, List.mem_of_find?_eq_some isRoot, same⟩

theorem descend_stored {store : Store} {parts : List String} {start id : String}
    (above : ∃ row ∈ store.resources.rows, row.id = start)
    (found : descend store start parts = .ok id) : ∃ row ∈ store.resources.rows, row.id = id := by
  induction parts generalizing start with
  | nil =>
      cases found
      exact above
  | cons part rest ih =>
      simp only [descend, Program.except_bind_ok, require_ok, requireRow_ok] at found
      obtain ⟨_, _, child, isChild, later⟩ := found
      exact ih ⟨child, List.mem_of_find?_eq_some isChild, rfl⟩ later

theorem resolveParts_stored {store : Store} {turns : Nat} {parts : List String} {id : String}
    (found : resolveParts app store turns parts = .ok id) :
    ∃ row ∈ store.resources.rows, row.id = id := by
  unfold resolveParts at found
  split at found
  · exact rootId_stored found
  · exact rootId_stored found
  · split at found
    · simp only [Program.except_bind_ok, Program.except_pure, Except.ok.injEq] at found
      obtain ⟨row, atId, same⟩ := found
      exact ⟨row, resource_mem atId, same⟩
    · split at found
      · obtain ⟨row, atId, later⟩ := (Program.except_bind_ok _ _ _).mp found
        refine ⟨row, resource_mem atId, ?_⟩
        split at later
        · exact Except.ok.inj later
        · simp only [Program.except_bind_ok, Program.except_pure, Except.ok.injEq] at later
          obtain ⟨_, _, _, _, same⟩ := later
          exact same
      · obtain ⟨root, isRoot, later⟩ := (Program.except_bind_ok _ _ _).mp found
        exact descend_stored (rootId_stored isRoot) later

theorem resolve_stored {store : Store} {value id : String}
    (found : resolve app store value = .ok id) : ∃ row ∈ store.resources.rows, row.id = id := by
  unfold resolve at found
  split at found
  · simp only [resolvePath, Program.except_bind_ok] at found
    obtain ⟨_, _, later⟩ := found
    exact resolveParts_stored later
  · simp only [Program.except_bind_ok, Program.except_pure, Except.ok.injEq] at found
    obtain ⟨_, _, row, atId, same⟩ := found
    exact ⟨row, resource_mem atId, same⟩

end MsgServer.ResourceTree
