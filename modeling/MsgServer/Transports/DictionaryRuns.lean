import MsgServer.Transports.DictionaryRows

/-!
Chains of published documents. A code never loses its identity; the row of an operation is
fixed as long as each document lists it, and may change where it was retired in between.
-/

namespace MsgServer.Dictionary

open Library Codec

variable {world : World}

/-! Equal rows -/

def SameEnum (left right : EnumRow) : Prop :=
  left.code = right.code ∧ normal left.value = normal right.value

structure SameField (left right : FieldRow) : Prop where
  name : left.name = right.name
  code : left.code = right.code
  type : normal left.type = normal right.type
  required : left.required = right.required
  order : left.order = right.order
  constraints : normal (.object left.constraints) = normal (.object right.constraints)
  enum : List.Forall₂ SameEnum left.enum right.enum

/-- Two rows are equal, as dictionaries whose members have no order. -/
structure SameRow (left right : OperationRow) : Prop where
  name : left.name = right.name
  version : left.version = right.version
  code : left.code = right.code
  «namespace» : left.«namespace» = right.«namespace»
  effect : left.effect = right.effect
  fields : List.Forall₂ SameField left.fields right.fields
  required : left.required = right.required
  shortestTemplate : left.shortestTemplate = right.shortestTemplate
  «example» : left.«example» = right.«example»
  direct : left.direct = right.direct
  requiresSecureChannel : left.requiresSecureChannel = right.requiresSecureChannel
  directWriteStatus : left.directWriteStatus = right.directWriteStatus

theorem mem_of_lookup {members : JsonMap} {key : Text} {value : Json}
    (found : members.lookup key = some value) : (key, value) ∈ members := by
  obtain ⟨first, rest, shape, -⟩ := List.lookup_eq_some_iff.mp found
  rw [shape]
  exact List.mem_append_right _ List.mem_cons_self

/-- Objects in one normal form have the same value under each key. -/
theorem member_eq {left right : JsonMap} (key : Text) {value other : Json}
    (same : normal (.object left) = normal (.object right))
    (unique : (right.map Prod.fst).Nodup) (here : left.lookup key = some value)
    (there : right.lookup key = some other) : normal value = normal other := by
  rw [normal, normal, Json.object.injEq] at same
  have inLeft : (key, normal value) ∈ sortMembers (normalMembers left) := by
    rw [sortMembers, List.mem_insertionSort, normalMembers_eq]
    exact List.mem_map.mpr ⟨(key, value), mem_of_lookup here, rfl⟩
  rw [same, sortMembers, List.mem_insertionSort, normalMembers_eq] at inLeft
  obtain ⟨entry, inside, shape⟩ := List.mem_map.mp inLeft
  rw [Prod.mk.injEq] at shape
  have entries : entry = (key, other) :=
    List.inj_on_of_nodup_map unique inside (mem_of_lookup there) shape.1
  rw [← shape.2, entries]

theorem str_eq {left right : Text} (same : normal (.str left) = normal (.str right)) :
    left = right := by
  simpa [normal] using same

theorem bool_eq {left right : Bool} (same : normal (.bool left) = normal (.bool right)) :
    left = right := by
  simpa [normal] using same

theorem nat_eq {left right : Nat}
    (same : normal (.int (Int.ofNat left)) = normal (.int (Int.ofNat right))) : left = right := by
  simpa [normal] using same

theorem text_eq {left right : Option Text}
    (same : normal (wireOption .str left) = normal (wireOption .str right)) : left = right := by
  cases left <;> cases right <;> simp_all [normal, wireOption]

theorem order_eq {left right : Option Nat}
    (same : normal (wireOption (fun order => .int (Int.ofNat order)) left) =
      normal (wireOption (fun order => .int (Int.ofNat order)) right)) : left = right := by
  cases left <;> cases right <;> simp_all [normal, wireOption]

theorem array_eq {α : Type} {wire : α → Json} {left right : List α}
    (same : normal (.array (left.map wire)) = normal (.array (right.map wire))) :
    List.Forall₂ (fun first second => normal (wire first) = normal (wire second)) left right := by
  rw [normal, normal, Json.array.injEq, normalItems_eq, normalItems_eq, List.map_map,
    List.map_map] at same
  have pairs : List.Forall₂ Eq (left.map (normal ∘ wire)) (right.map (normal ∘ wire)) := by
    rw [same]
    exact List.forall₂_refl _
  rw [List.forall₂_map_left_iff, List.forall₂_map_right_iff] at pairs
  exact pairs

theorem texts_eq {left right : List Text}
    (same : normal (.array (left.map .str)) = normal (.array (right.map .str))) : left = right := by
  have pairs : List.Forall₂ Eq left right := (array_eq same).imp fun _ _ => str_eq
  exact List.forall₂_eq_eq_eq ▸ pairs

def enumKeys : List Text := ["code", "value"].map String.toList

def fieldKeys : List Text :=
  ["name", "code", "type", "required", "order", "constraints", "enum"].map String.toList

def operationKeys : List Text :=
  ["name", "version", "code", "namespace", "effect", "fields", "required", "shortest_template",
    "example", "direct", "requires_secure_channel", "direct_write_template",
    "direct_expected_template", "direct_write_status"].map String.toList

theorem enum_eq {left right : EnumRow} (same : normal left.wire = normal right.wire) :
    SameEnum left right := by
  have unique : enumKeys.Nodup := by decide +kernel
  exact ⟨str_eq (member_eq "code".toList same unique rfl rfl),
    member_eq "value".toList same unique rfl rfl⟩

theorem field_eq {left right : FieldRow} (same : normal left.wire = normal right.wire) :
    SameField left right := by
  have unique : fieldKeys.Nodup := by decide +kernel
  have enums := array_eq (member_eq "enum".toList same unique rfl rfl)
  exact
    { name := str_eq (member_eq "name".toList same unique rfl rfl)
      code := str_eq (member_eq "code".toList same unique rfl rfl)
      type := member_eq "type".toList same unique rfl rfl
      required := bool_eq (member_eq "required".toList same unique rfl rfl)
      order := order_eq (member_eq "order".toList same unique rfl rfl)
      constraints := member_eq "constraints".toList same unique rfl rfl
      enum := enums.imp fun _ _ => enum_eq }

theorem row_eq {left right : OperationRow} (same : normal left.wire = normal right.wire) :
    SameRow left right := by
  have unique : operationKeys.Nodup := by decide +kernel
  have fields := array_eq (member_eq "fields".toList same unique rfl rfl)
  exact
    { name := str_eq (member_eq "name".toList same unique rfl rfl)
      version := nat_eq (member_eq "version".toList same unique rfl rfl)
      code := str_eq (member_eq "code".toList same unique rfl rfl)
      «namespace» := str_eq (member_eq "namespace".toList same unique rfl rfl)
      effect := str_eq (member_eq "effect".toList same unique rfl rfl)
      fields := fields.imp fun _ _ => field_eq
      required := texts_eq (member_eq "required".toList same unique rfl rfl)
      shortestTemplate := str_eq (member_eq "shortest_template".toList same unique rfl rfl)
      «example» := text_eq (member_eq "example".toList same unique rfl rfl)
      direct := bool_eq (member_eq "direct".toList same unique rfl rfl)
      requiresSecureChannel :=
        bool_eq (member_eq "requires_secure_channel".toList same unique rfl rfl)
      directWriteStatus := text_eq (member_eq "direct_write_status".toList same unique rfl rfl) }

theorem forall₂_trans {α : Type} {same : α → α → Prop} {first second third : List α}
    (left : List.Forall₂ same first second) (right : List.Forall₂ same second third)
    (trans : ∀ first second third, same first second → same second third → same first third) :
    List.Forall₂ same first third := by
  induction left generalizing third with
  | nil => exact right
  | cons head _ ih =>
      cases right with
      | cons next rest => exact .cons (trans _ _ _ head next) (ih rest)

theorem SameEnum.trans {first second third : EnumRow} (left : SameEnum first second)
    (right : SameEnum second third) : SameEnum first third :=
  ⟨left.1.trans right.1, left.2.trans right.2⟩

theorem SameField.trans {first second third : FieldRow} (left : SameField first second)
    (right : SameField second third) : SameField first third where
  name := left.name.trans right.name
  code := left.code.trans right.code
  type := left.type.trans right.type
  required := left.required.trans right.required
  order := left.order.trans right.order
  constraints := left.constraints.trans right.constraints
  enum := forall₂_trans left.enum right.enum fun _ _ _ => SameEnum.trans

theorem SameRow.trans {first second third : OperationRow} (left : SameRow first second)
    (right : SameRow second third) : SameRow first third where
  name := left.name.trans right.name
  version := left.version.trans right.version
  code := left.code.trans right.code
  «namespace» := left.«namespace».trans right.«namespace»
  effect := left.effect.trans right.effect
  fields := forall₂_trans left.fields right.fields fun _ _ _ => SameField.trans
  required := left.required.trans right.required
  shortestTemplate := left.shortestTemplate.trans right.shortestTemplate
  «example» := left.«example».trans right.«example»
  direct := left.direct.trans right.direct
  requiresSecureChannel := left.requiresSecureChannel.trans right.requiresSecureChannel
  directWriteStatus := left.directWriteStatus.trans right.directWriteStatus

/-! Sound rows -/

theorem sound_lookup {members : JsonMap} (sound : SoundMembers members) {key : Text} {value : Json}
    (found : members.lookup key = some value) : Sound value :=
  (soundMembers_iff members).mp sound _ (mem_of_lookup found)

theorem sound_type {schema : JsonMap} (sound : SoundMembers schema) : Sound (fieldType schema) := by
  unfold fieldType
  cases found : schema.lookup typeKey with
  | none => trivial
  | some value => exact sound_lookup sound found

theorem sound_choices {schema : JsonMap} (sound : SoundMembers schema) :
    SoundItems (choices schema) := by
  unfold choices
  cases listed : schema.lookup enumKey with
  | some value =>
      have known := sound_lookup sound listed
      cases value with
      | array items => exact known
      | _ => trivial
  | none =>
      cases fixed : schema.lookup constKey with
      | some value => exact ⟨sound_lookup sound fixed, trivial⟩
      | none => trivial

theorem sound_constraints {schema : JsonMap} (sound : SoundMembers schema) :
    SoundMembers (constraintsOf schema) := by
  rw [soundMembers_iff] at sound ⊢
  intro entry inside
  exact sound entry (List.mem_of_mem_filter inside)

theorem sound_enums {identity name : Text} {values : List Json} (sound : SoundItems values) :
    SoundItems ((enumRows world identity name values).map EnumRow.wire) := by
  rw [soundItems_iff] at sound ⊢
  intro item inside
  obtain ⟨row, listed, rfl⟩ := List.mem_map.mp inside
  obtain ⟨value, known, rfl⟩ := List.mem_map.mp listed
  exact ⟨trivial, sound value known, trivial⟩

theorem sound_text (value : Option Text) : Sound (wireOption .str value) := by
  cases value <;> trivial

theorem sound_order (value : Option Nat) :
    Sound (wireOption (fun order => .int (Int.ofNat order)) value) := by
  cases value <;> trivial

theorem sound_field {identity : Text} {required : List Text} {field : Text × JsonMap}
    (sound : SoundMembers field.2) : Sound (fieldRow world identity required field).wire :=
  ⟨trivial, trivial, sound_type sound, trivial, sound_order _,
    sound_constraints sound, sound_enums (sound_choices sound), trivial⟩

theorem sound_row (spec : Spec) : Sound (operationRow world spec).wire := by
  have fields : SoundItems ((operationRow world spec).fields.map FieldRow.wire) := by
    rw [soundItems_iff]
    intro item inside
    obtain ⟨row, listed, rfl⟩ := List.mem_map.mp inside
    obtain ⟨field, known, rfl⟩ := List.mem_map.mp listed
    exact sound_field (spec.input.sound field known)
  have required : SoundItems ((operationRow world spec).required.map .str) := by
    rw [soundItems_iff]
    intro item inside
    obtain ⟨name, -, rfl⟩ := List.mem_map.mp inside
    trivial
  exact ⟨trivial, trivial, trivial, trivial, trivial, fields, required, trivial,
    sound_text _, trivial, trivial, trivial, trivial,
    sound_text _, trivial⟩

/-! One build -/

/-- What a build that succeeds has done. -/
structure Built (world : World) (registry : Registry) (entry : Text) (published : Option Document)
    (document : Document) : Prop where
  operations : document.operations = (sortedSpecs registry entry).map (operationRow world)
  unique : (document.operations.map OperationRow.code).Nodup
  distinct : ∀ kind, ((document.codes kind).map CodeRow.code).Nodup
  kept : ∀ old, published = some old → ∀ kind, ∀ row ∈ old.codes kind,
    Lists (document.codes kind) row.code row.identity
  checked : ∀ old, published = some old → (old.operations.map OperationRow.code).Nodup →
    ∀ row ∈ old.operations, ∀ next ∈ document.operations, row.code = next.code →
      canonical row.wire = canonical next.wire

theorem preservePublished_ok {published document final : Document} {codes : Codes}
    (listed : ∀ kind, document.codes kind = sortedRows (codes.byCode kind).rows)
    (done : preservePublished published codes document = .ok final) :
    final.operations = document.operations ∧
      checkOperations (rowsByCode document.operations) (rowsByCode published.operations).rows =
        .ok () ∧
      ∀ kind, (∀ row ∈ published.codes kind, Lists (final.codes kind) row.code row.identity) ∧
        ((final.codes kind).map CodeRow.code).Nodup := by
  simp only [preservePublished, Program.except_bind_ok, require_ok, exists_const,
    Program.except_pure, Except.ok.injEq] at done
  obtain ⟨-, _, checked, namespaces, first, operations, second, fields, third, enums, fourth,
    rfl⟩ := done
  refine ⟨rfl, checked, ?_⟩
  have kept : ∀ kind rows,
      keepCodes (published.codes kind) (codes.byCode kind) (document.codes kind) = .ok rows →
        (∀ row ∈ published.codes kind, Lists rows row.code row.identity) ∧
          (rows.map CodeRow.code).Nodup := by
    intro kind rows taken
    rw [listed] at taken
    obtain ⟨lists, -, distinct⟩ := keepCodes_ok (covered_sorted _) taken
    exact ⟨lists, distinct⟩
  intro kind
  cases kind with
  | «namespace» => exact kept _ _ first
  | operation => exact kept _ _ second
  | field => exact kept _ _ third
  | enum => exact kept _ _ fourth

theorem sortedSpecs_unique (registry : Registry) (entry : Text) :
    ((sortedSpecs registry entry).map fun spec => (spec.name, spec.version)).Nodup :=
  ((List.perm_insertionSort specBefore _).map _).nodup_iff.mpr (registry.unique entry)

theorem build_ok {registry : Registry} {entry : Text} {published : Option Document}
    {document : Document} (done : build world registry entry published = .ok document) :
    Built world registry entry published document := by
  simp only [build, Program.except_bind_ok, require_ok, exists_const, Prod.exists] at done
  obtain ⟨-, rows, codes, added, final, spaces, finished⟩ := done
  have coded := coded_empty world
  have shape := (addSpecs_ok coded added).1
  have unique := addSpecs_codes coded (sortedSpecs_unique registry entry) added
  cases published with
  | none =>
      cases finished
      exact ⟨shape, unique, fun kind => (covered_sorted (final.byCode kind)).unique, by simp,
        by simp⟩
  | some old =>
      obtain ⟨same, checked, kept⟩ := preservePublished_ok (fun _ => rfl) finished
      refine ⟨same.trans shape, by rw [same]; exact unique, fun kind => (kept kind).2, ?_, ?_⟩
      · intro before here kind
        cases here
        exact (kept kind).1
      · intro before here distinct row inside next after equal
        cases here
        rw [same] at after
        have older := Table.find?_mem (rowsByCode_find distinct inside)
        apply checkOperations_ok checked row older
        rw [equal]
        exact rowsByCode_find unique after

/-- Rows of one code in a document and the next one are equal. -/
theorem rows_kept {first second : Registry} {entry : Text} {earlier : Option Document}
    {before after : Document} (older : Built world first entry earlier before)
    (newer : Built world second entry (some before) after) {row next : OperationRow}
    (inside : row ∈ before.operations) (here : next ∈ after.operations)
    (same : row.code = next.code) : SameRow row next := by
  have bytes := newer.checked before rfl older.unique row inside next here same
  rw [older.operations] at inside
  rw [newer.operations] at here
  obtain ⟨spec, -, rfl⟩ := List.mem_map.mp inside
  obtain ⟨other, -, rfl⟩ := List.mem_map.mp here
  exact row_eq (canonical_injective (sound_row spec) (sound_row other) bytes)

/-! Chains -/

/-- A registry with the document that was built from it. -/
structure Link where
  registry : Registry
  document : Document

/-- Each document is built with the one before it as published. -/
def Chain (world : World) (entry : Text) : Option Document → List Link → Prop
  | _, [] => True
  | published, link :: rest =>
      build world link.registry entry published = .ok link.document ∧
        Chain world entry (some link.document) rest

/-- Every code of the earlier document is in the later one, with its kind and its identity. -/
def Keeps (old new : Document) : Prop :=
  ∀ kind, ∀ row ∈ old.codes kind, Lists (new.codes kind) row.code row.identity ∧
    ∀ next ∈ new.codes kind, next.code = row.code → next.identity = row.identity

/-- An operation code that is active in both documents has one row. -/
def Fixed (old new : Document) : Prop :=
  ∀ row ∈ old.operations, ∀ next ∈ new.operations, row.code = next.code → SameRow row next

/-- The codes of the operations of a registry. -/
def Active (world : World) (registry : Registry) (entry code : Text) : Prop :=
  ∃ spec ∈ registry.operations entry, (operationRow world spec).code = code

/-- An operation that is brought back, after registries without it, is what it was in the last
registry that had it. -/
def Restored (world : World) (entry : Text) (links : List Link) : Prop :=
  ∀ earlier old gap new later, links = earlier ++ old :: (gap ++ new :: later) → gap ≠ [] →
    ∀ spec ∈ old.registry.operations entry, ∀ other ∈ new.registry.operations entry,
      (operationRow world spec).code = (operationRow world other).code →
      (∀ between ∈ gap,
        ¬ Active world between.registry entry (operationRow world spec).code) →
      SameRow (operationRow world spec) (operationRow world other)

theorem mem_rows {registry : Registry} {entry : Text} {published : Option Document}
    {document : Document} (built : Built world registry entry published document)
    {row : OperationRow} :
    row ∈ document.operations ↔ ∃ spec ∈ registry.operations entry, operationRow world spec = row := by
  rw [built.operations, List.mem_map]
  simp [sortedSpecs, List.mem_insertionSort]

/-- Every link of a chain is a build on what stands before it. -/
theorem Chain.built {entry : Text} {published : Option Document} {earlier later : List Link}
    {link : Link} (chain : Chain world entry published (earlier ++ link :: later)) :
    ∃ before, Built world link.registry entry before link.document := by
  induction earlier generalizing published with
  | nil => exact ⟨published, build_ok chain.1⟩
  | cons first rest ih => exact ih chain.2

theorem Chain.next {entry : Text} {published : Option Document} {earlier later : List Link}
    {first second : Link}
    (chain : Chain world entry published (earlier ++ first :: second :: later)) :
    Built world second.registry entry (some first.document) second.document := by
  induction earlier generalizing published with
  | nil => exact build_ok chain.2.1
  | cons head rest ih => exact ih chain.2

theorem identity_unique {rows : List CodeRow} (unique : (rows.map CodeRow.code).Nodup)
    {code identity : Text} (lists : Lists rows code identity) :
    ∀ row ∈ rows, row.code = code → row.identity = identity := by
  intro row inside same
  obtain ⟨known, listed, named, rfl⟩ := lists
  rw [List.inj_on_of_nodup_map unique inside listed (same.trans named.symm)]

theorem Chain.keeps_later {entry : Text} {document : Document} {rest : List Link}
    (chain : Chain world entry (some document) rest) :
    ∀ link ∈ rest, Keeps document link.document := by
  induction rest generalizing document with
  | nil => simp
  | cons first more ih =>
      have built := build_ok chain.1
      have step : Keeps document first.document := fun kind row inside =>
        have lists := built.kept document rfl kind row inside
        ⟨lists, identity_unique (built.distinct kind) lists⟩
      intro link inside
      rcases List.mem_cons.mp inside with rfl | later
      · exact step
      · intro kind row listed
        obtain ⟨known, here, named, same⟩ := (step kind row listed).1
        have on := ih chain.2 link later kind known here
        rw [named, same] at on
        exact on

theorem Chain.keeps {entry : Text} {published : Option Document} {links : List Link}
    (chain : Chain world entry published links) :
    links.Pairwise fun old new => Keeps old.document new.document := by
  induction links generalizing published with
  | nil => exact .nil
  | cons link rest ih => exact .cons chain.2.keeps_later (ih chain.2)

/-- From one document to a later one a row stays, if every operation that was brought back was
restored. -/
theorem Chain.fixed {entry : Text} {published : Option Document} {links : List Link}
    (chain : Chain world entry published links) (restored : Restored world entry links)
    (count : Nat) : ∀ earlier old gap new later, gap.length = count →
      links = earlier ++ old :: (gap ++ new :: later) → Fixed old.document new.document := by
  induction count using Nat.strong_induction_on with
  | _ count ih =>
      intro earlier old gap new later size shape row inside next here same
      subst shape
      obtain ⟨before, older⟩ := chain.built
      have newer : ∃ before, Built world new.registry entry before new.document := by
        have parted := chain
        rw [← List.cons_append, ← List.append_assoc] at parted
        exact parted.built
      obtain ⟨previous, newer⟩ := newer
      by_cases silent : ∀ between ∈ gap, ¬ Active world between.registry entry row.code
      · cases gap with
        | nil =>
            have adjacent := chain
            rw [List.nil_append] at adjacent
            exact rows_kept older adjacent.next inside here same
        | cons first rest =>
            obtain ⟨spec, known, rfl⟩ := (mem_rows older).mp inside
            obtain ⟨other, listed, rfl⟩ := (mem_rows newer).mp here
            exact restored earlier old (first :: rest) new later rfl (by simp) spec known other
              listed same silent
      · -- a document in between lists the operation: the row goes through it
        simp only [not_forall, not_not] at silent
        obtain ⟨between, within, spec, known, named⟩ := silent
        obtain ⟨first, rest, rfl⟩ := List.append_of_mem within
        rw [List.length_append, List.length_cons] at size
        have left : earlier ++ old :: ((first ++ between :: rest) ++ new :: later) =
            earlier ++ old :: (first ++ between :: (rest ++ new :: later)) := by simp
        have right : earlier ++ old :: ((first ++ between :: rest) ++ new :: later) =
            (earlier ++ old :: first) ++ between :: (rest ++ new :: later) := by simp
        have middle : ∃ before, Built world between.registry entry before between.document := by
          have parted := chain
          rw [right] at parted
          exact parted.built
        obtain ⟨former, built⟩ := middle
        have present : operationRow world spec ∈ between.document.operations :=
          (mem_rows built).mpr ⟨spec, known, rfl⟩
        have front := ih first.length (by omega) earlier old first between
          (rest ++ new :: later) rfl left row inside _ present named.symm
        have back := ih rest.length (by omega) (earlier ++ old :: first) between rest new later rfl
          right _ present next here (named.trans same)
        exact front.trans back

theorem Chain.pairs {links : List Link} {related : Link → Link → Prop}
    (each : ∀ earlier old gap new later, links = earlier ++ old :: (gap ++ new :: later) →
      related old new) : links.Pairwise related := by
  induction links with
  | nil => exact .nil
  | cons first rest ih =>
      refine .cons ?_ (ih fun earlier old gap new later shape =>
        each (first :: earlier) old gap new later (by rw [shape]; rfl))
      intro link inside
      obtain ⟨gap, later, rfl⟩ := List.append_of_mem inside
      exact each [] first gap link later rfl

/-- In every chain a code keeps its kind and its identity, and the rows of the operations are
fixed exactly if every operation that was brought back was restored. -/
theorem published_codes {entry : Text} {published : Option Document} {links : List Link}
    (chain : Chain world entry published links) :
    ((links.Pairwise fun old new => Keeps old.document new.document) ∧
      links.Pairwise fun old new => Fixed old.document new.document) ↔
    Restored world entry links := by
  constructor
  · rintro ⟨-, fixed⟩ earlier old gap new later shape - spec known other listed same -
    subst shape
    obtain ⟨before, older⟩ := chain.built
    have newer : ∃ before, Built world new.registry entry before new.document := by
      have parted := chain
      rw [← List.cons_append, ← List.append_assoc] at parted
      exact parted.built
    obtain ⟨previous, newer⟩ := newer
    have behind := (List.pairwise_append.mp fixed).2.1
    have pair := List.rel_of_pairwise_cons behind
      (List.mem_append_right gap (List.mem_cons_self (a := new) (l := later)))
    exact pair _ ((mem_rows older).mpr ⟨spec, known, rfl⟩) _
      ((mem_rows newer).mpr ⟨other, listed, rfl⟩) same
  · intro restored
    exact ⟨chain.keeps, Chain.pairs fun earlier old gap new later shape =>
      chain.fixed restored gap.length earlier old gap new later rfl shape⟩

/-! An operation that is retired and brought back -/

def plainWorld : World := { sha256 := List.reverse }

def network : Text := "network".toList

def readSpec : Spec where
  name := "notes.list".toList
  version := 1
  effect := "read".toList
  input :=
    { type := some (.str "object".toList)
      properties := [("limit".toList, [("type".toList, .str "integer".toList)])]
      required := ["limit".toList]
      sound := by simp [SoundMembers, Sound] }
  deprecated := false
  replacedBy := none

/-- The same name and version with another effect and another field. -/
def changedSpec : Spec where
  name := "notes.list".toList
  version := 1
  effect := "transaction".toList
  input :=
    { type := some (.str "object".toList)
      properties := [("text".toList, [("type".toList, .str "string".toList)])]
      required := ["text".toList]
      sound := by simp [SoundMembers, Sound] }
  deprecated := false
  replacedBy := none

def registryOf (spec : Spec) : Registry where
  frozen := true
  operations := fun _ => [spec]
  unique := fun _ => List.nodup_singleton _

def emptyRegistry : Registry where
  frozen := true
  operations := fun _ => []
  unique := fun _ => List.nodup_nil

def builtDocument (registry : Registry) (published : Option Document) : Document :=
  match build plainWorld registry network published with
  | .ok document => document
  | .error _ => { version := 1, entry := network, codes := fun _ => [], operations := [] }

theorem builtDocument_ok {registry : Registry} {published : Option Document}
    (succeeds : (build plainWorld registry network published).isOk = true) :
    build plainWorld registry network published = .ok (builtDocument registry published) := by
  unfold builtDocument
  cases done : build plainWorld registry network published with
  | ok document => rfl
  | error failure =>
      rw [done] at succeeds
      cases succeeds

def firstDocument : Document := builtDocument (registryOf readSpec) none
def retiredDocument : Document := builtDocument emptyRegistry (some firstDocument)

/-- The operation, a registry without it, and then a registry that has one of its name. -/
def revival (spec : Spec) : List Link :=
  [{ registry := registryOf readSpec, document := firstDocument },
    { registry := emptyRegistry, document := retiredDocument },
    { registry := registryOf spec
      document := builtDocument (registryOf spec) (some retiredDocument) }]

theorem revival_chain {spec : Spec}
    (succeeds :
      (build plainWorld (registryOf spec) network (some retiredDocument)).isOk = true) :
    Chain plainWorld network none (revival spec) := by
  have first : (build plainWorld (registryOf readSpec) network none).isOk = true := by
    decide +kernel
  have second : (build plainWorld emptyRegistry network (some firstDocument)).isOk = true := by
    decide +kernel
  exact ⟨builtDocument_ok first, builtDocument_ok second, builtDocument_ok succeeds, trivial⟩

theorem published_codes_restored :
    ((revival readSpec).Pairwise fun old new => Keeps old.document new.document) ∧
      (revival readSpec).Pairwise fun old new => Fixed old.document new.document := by
  have succeeds :
      (build plainWorld (registryOf readSpec) network (some retiredDocument)).isOk = true := by
    decide +kernel
  apply (published_codes (revival_chain succeeds)).mpr
  have only : ∀ link ∈ revival readSpec, ∀ spec ∈ link.registry.operations network,
      spec = readSpec := by
    simp [revival, registryOf, emptyRegistry]
  intro earlier old gap new later shape _ spec known other listed _ _
  rw [only old (by rw [shape]; simp) spec known, only new (by rw [shape]; simp) other listed]
  exact row_eq rfl

/-- Another contract comes back under the published code, and no build refuses it. -/
theorem row_changed :
    Chain plainWorld network none (revival changedSpec) ∧
      ¬ (((revival changedSpec).Pairwise fun old new => Keeps old.document new.document) ∧
        (revival changedSpec).Pairwise fun old new => Fixed old.document new.document) := by
  have succeeds :
      (build plainWorld (registryOf changedSpec) network (some retiredDocument)).isOk = true := by
    decide +kernel
  have chain := revival_chain succeeds
  refine ⟨chain, ?_⟩
  rintro ⟨-, fixed⟩
  have pair := List.rel_of_pairwise_cons fixed (List.mem_cons_of_mem _ List.mem_cons_self)
  have first : operationRow plainWorld readSpec ∈ firstDocument.operations :=
    (mem_rows (build_ok chain.1)).mpr ⟨readSpec, List.mem_singleton_self _, rfl⟩
  have last := (mem_rows (build_ok chain.2.2.1)).mpr ⟨changedSpec, List.mem_singleton_self _, rfl⟩
  have same := (pair _ first _ last rfl).effect
  revert same
  decide

end MsgServer.Dictionary
