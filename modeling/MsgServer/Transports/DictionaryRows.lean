import Mathlib.Data.List.Induction
import MsgServer.Core.JsonText
import MsgServer.Transports.Dictionary

/-!
What a dictionary that was built holds. The row of an operation depends on the operation
alone; a code has one identity; two rows with the same canonical bytes are equal.
-/

namespace MsgServer.Dictionary

open Library Codec

variable (world : World)

/-! Codes -/

/-- The code stands for the identity. -/
def Names (codes : Codes) (kind : Kind) (code identity : Text) : Prop :=
  ∃ row, (codes.byCode kind).find? code = some row ∧ row.identity = identity

/-- Every code that had an identity still has it. -/
def Grows (codes next : Codes) : Prop :=
  ∀ kind code identity, Names codes kind code identity → Names next kind code identity

theorem Grows.refl (codes : Codes) : Grows codes codes := fun _ _ _ names => names

theorem Grows.trans {first second third : Codes} (left : Grows first second)
    (right : Grows second third) : Grows first third :=
  fun kind code identity names => right kind code identity (left kind code identity names)

/-- `_by_identity` lists every identity with its code. -/
def Coded (codes : Codes) : Prop :=
  ∀ kind, ∀ entry ∈ (codes.byIdentity kind).rows, entry.2 = codeOf world kind entry.1

theorem coded_empty : Coded world Codes.empty := by
  intro kind entry inside
  cases inside

/-- What a call that adds rows leaves. -/
structure Added (codes next : Codes) : Prop where
  grows : Grows codes next
  coded : Coded world codes → Coded world next

theorem Added.refl (codes : Codes) : Added world codes codes :=
  ⟨Grows.refl codes, fun coded => coded⟩

variable {world}

theorem Added.trans {first second third : Codes} (left : Added world first second)
    (right : Added world second third) : Added world first third :=
  ⟨left.grows.trans right.grows, fun coded => right.coded (left.coded coded)⟩

/-- The identity that a row of a code may have. -/
theorem add_free {kind : Kind} {row : CodeRow} {codes next : Codes} {code : Text}
    (done : add world kind row codes = .ok (code, next)) {identity : Text}
    (names : Names codes kind code identity) : identity = row.identity := by
  simp only [add, Program.except_bind_ok, require_ok, exists_const, Program.except_pure,
    Except.ok.injEq, Prod.mk.injEq] at done
  obtain ⟨free, rfl, -⟩ := done
  obtain ⟨existing, found, rfl⟩ := names
  simpa [found] using free

theorem add_code {kind : Kind} {row : CodeRow} {codes next : Codes} {code : Text}
    (done : add world kind row codes = .ok (code, next)) : code = codeOf world kind row.identity := by
  simp only [add, Program.except_bind_ok, require_ok, exists_const, Program.except_pure,
    Except.ok.injEq, Prod.mk.injEq] at done
  exact done.2.1.symm

theorem add_grows {kind : Kind} {row : CodeRow} {codes next : Codes} {code : Text}
    (done : add world kind row codes = .ok (code, next)) : Grows codes next := by
  have free : ∀ identity, Names codes kind code identity → identity = row.identity :=
    fun _ names => add_free done names
  simp only [add, Program.except_bind_ok, require_ok, exists_const, Program.except_pure,
    Except.ok.injEq, Prod.mk.injEq] at done
  obtain ⟨-, rfl, rfl⟩ := done
  intro other wanted identity names
  obtain ⟨known, found, same⟩ := names
  by_cases here : other = kind
  · subst here
    by_cases taken : codeOf world other row.identity = wanted
    · -- a row of the same code is replaced by one of the same identity
      subst taken
      refine ⟨{ row with code := codeOf world other row.identity }, ?_,
        (free identity ⟨known, found, same⟩).symm⟩
      dsimp only
      rw [Function.update_self, Table.find?_put, if_pos rfl]
    · refine ⟨known, ?_, same⟩
      dsimp only
      rw [Function.update_self, Table.find?_put, if_neg taken]
      exact found
  · refine ⟨known, ?_, same⟩
    dsimp only
    rw [Function.update_of_ne here]
    exact found

theorem add_coded {kind : Kind} {row : CodeRow} {codes next : Codes} {code : Text}
    (done : add world kind row codes = .ok (code, next)) (coded : Coded world codes) :
    Coded world next := by
  simp only [add, Program.except_bind_ok, require_ok, exists_const, Program.except_pure,
    Except.ok.injEq, Prod.mk.injEq] at done
  obtain ⟨-, rfl, rfl⟩ := done
  intro other entry inside
  dsimp only at inside
  by_cases here : other = kind
  · subst here
    rw [Function.update_self, Table.mem_iff_find?, Table.find?_put] at inside
    split at inside
    · cases inside
      rfl
    · exact coded other entry (Table.find?_mem inside)
  · rw [Function.update_of_ne here] at inside
    exact coded other entry inside

theorem add_added {kind : Kind} {row : CodeRow} {codes next : Codes} {code : Text}
    (done : add world kind row codes = .ok (code, next)) : Added world codes next :=
  ⟨add_grows done, add_coded done⟩

theorem add_names {kind : Kind} {row : CodeRow} {codes next : Codes} {code : Text}
    (done : add world kind row codes = .ok (code, next)) : Names next kind code row.identity := by
  simp only [add, Program.except_bind_ok, require_ok, exists_const, Program.except_pure,
    Except.ok.injEq, Prod.mk.injEq] at done
  obtain ⟨-, rfl, rfl⟩ := done
  refine ⟨{ row with code := codeOf world kind row.identity }, ?_, rfl⟩
  dsimp only
  rw [Function.update_self, Table.find?_put, if_pos rfl]

theorem codeFor_ok {codes : Codes} (coded : Coded world codes) {kind : Kind}
    {identity code : Text} (done : codes.codeFor kind identity = .ok code) :
    code = codeOf world kind identity := by
  simp only [Codes.codeFor, Program.except_bind_ok, requireRow_ok, Program.except_pure,
    Except.ok.injEq] at done
  obtain ⟨entry, found, rfl⟩ := done
  rw [coded kind entry (Table.find?_mem found), Table.find?_key found]

/-! The row of an operation -/

section Rows

variable (world)

def enumRows (identity name : Text) (values : List Json) : List EnumRow :=
  values.map fun value =>
    { code := codeOf world .enum (enumIdentity identity name value), value := value }

def fieldRow (identity : Text) (required : List Text) (field : Text × JsonMap) : FieldRow where
  name := field.1
  code := codeOf world .field (fieldIdentity identity field.1)
  type := fieldType field.2
  required := field.1 ∈ required
  order := if field.1 ∈ required then some (required.idxOf field.1) else none
  constraints := constraintsOf field.2
  enum := enumRows world identity field.1 (choices field.2)

/-- The segment of one required field in the example of a direct read. -/
def exampleSegment (identity name : Text) (schema : JsonMap) : Text :=
  if (schema.lookup enumKey).isSome ∨ (schema.lookup constKey).isSome then
    match choices schema with
    | [] => []
    | first :: _ => codeOf world .enum (enumIdentity identity name first)
  else exampleValue schema

def exampleText (spec : Spec) : Option Text :=
  if spec.name ∈ secretOperations then none
  else if isDirect spec then
    some ("/-/g/".toList ++ codeOf world .operation (identityOf spec) ++
      spec.input.required.flatMap fun name =>
        '/' :: percentQuote (exampleSegment world (identityOf spec) name
          ((spec.input.properties.lookup name).getD [])))
  else none

/-- What is published about an operation. -/
def operationRow (spec : Spec) : OperationRow where
  name := spec.name
  version := spec.version
  code := codeOf world .operation (identityOf spec)
  «namespace» := namespaceOf spec.name
  effect := spec.effect
  fields := spec.input.properties.map (fieldRow world (identityOf spec) spec.input.required)
  required := spec.input.required
  shortestTemplate := templateOf spec (codeOf world .operation (identityOf spec))
  «example» := exampleText world spec
  direct := isDirect spec
  requiresSecureChannel := spec.name ∈ secretOperations
  directWriteStatus :=
    if spec.effect ≠ "read".toList ∧ plainRequired spec.input then
      some "rejected_legacy_secret_url".toList
    else none

end Rows

theorem addEnums_ok {identity name : Text} {values : List Json} {codes next : Codes}
    {rows : List EnumRow} (done : addEnums world identity name values codes = .ok (rows, next)) :
    rows = enumRows world identity name values ∧ Added world codes next := by
  induction values generalizing codes rows with
  | nil =>
      simp only [addEnums, Except.ok.injEq, Prod.mk.injEq] at done
      obtain ⟨rfl, rfl⟩ := done
      exact ⟨rfl, Added.refl world codes⟩
  | cons value rest ih =>
      simp only [addEnums, Program.except_bind_ok, Program.except_pure, Except.ok.injEq,
        Prod.mk.injEq, Prod.exists] at done
      obtain ⟨code, between, added, more, last, others, rfl, rfl⟩ := done
      obtain ⟨rfl, grown⟩ := ih others
      refine ⟨?_, (add_added added).trans grown⟩
      rw [add_code added]
      rfl

theorem addFields_ok {identity : Text} {required : List Text} {fields : List (Text × JsonMap)}
    {codes next : Codes} {rows : List FieldRow}
    (done : addFields world identity required fields codes = .ok (rows, next)) :
    rows = fields.map (fieldRow world identity required) ∧ Added world codes next := by
  induction fields generalizing codes rows with
  | nil =>
      simp only [addFields, Except.ok.injEq, Prod.mk.injEq] at done
      obtain ⟨rfl, rfl⟩ := done
      exact ⟨rfl, Added.refl world codes⟩
  | cons field rest ih =>
      simp only [addFields, Program.except_bind_ok, Program.except_pure, Except.ok.injEq,
        Prod.mk.injEq, Prod.exists] at done
      obtain ⟨code, between, added, enums, after, listed, more, last, others, rfl, rfl⟩ := done
      obtain ⟨rfl, enumerated⟩ := addEnums_ok listed
      obtain ⟨rfl, grown⟩ := ih others
      refine ⟨?_, ((add_added added).trans enumerated).trans grown⟩
      rw [add_code added]
      rfl

theorem segmentOf_ok {identity name : Text} {schema : JsonMap} {codes : Codes}
    (coded : Coded world codes) {segment : Text}
    (done : segmentOf identity name schema codes = .ok segment) :
    segment = exampleSegment world identity name schema := by
  unfold segmentOf at done
  unfold exampleSegment
  split at done
  · rename_i chosen
    rw [if_pos chosen]
    cases listed : choices schema with
    | nil =>
        rw [listed] at done
        cases done
    | cons first rest =>
        rw [listed] at done
        exact codeFor_ok coded done
  · rename_i free
    rw [if_neg free]
    exact (Except.ok.inj done).symm

theorem exampleSegments_ok {identity : Text} {properties : List (Text × JsonMap)} {codes : Codes}
    (coded : Coded world codes) {required : List Text} {segments : Text}
    (done : exampleSegments identity properties codes required = .ok segments) :
    segments = required.flatMap fun name =>
      '/' :: percentQuote (exampleSegment world identity name
        ((properties.lookup name).getD [])) := by
  induction required generalizing segments with
  | nil =>
      simp only [exampleSegments, Except.ok.injEq] at done
      exact done.symm
  | cons name rest ih =>
      simp only [exampleSegments, Program.except_bind_ok, Program.except_pure,
        Except.ok.injEq] at done
      obtain ⟨segment, taken, more, others, rfl⟩ := done
      rw [List.flatMap_cons, ← ih others, segmentOf_ok coded taken]

theorem exampleOf_ok {spec : Spec} {codes : Codes} (coded : Coded world codes)
    {sample : Option Text}
    (done : exampleOf spec (codeOf world .operation (identityOf spec)) codes = .ok sample) :
    sample = exampleText world spec := by
  unfold exampleOf at done
  unfold exampleText
  split at done
  · rename_i secret
    rw [if_pos secret]
    exact (Except.ok.inj done).symm
  · rename_i plain
    rw [if_neg plain]
    split at done
    · rename_i direct
      rw [if_pos direct]
      simp only [Program.except_bind_ok, Program.except_pure, Except.ok.injEq] at done
      obtain ⟨segments, taken, rfl⟩ := done
      rw [exampleSegments_ok coded taken]
    · rename_i indirect
      rw [if_neg indirect]
      exact (Except.ok.inj done).symm

/-- The row depends on nothing that was added before. -/
theorem addSpec_ok {spec : Spec} {codes next : Codes} {row : OperationRow}
    (coded : Coded world codes) (done : addSpec world spec codes = .ok (row, next)) :
    row = operationRow world spec ∧ Added world codes next ∧
      Names next .operation (operationRow world spec).code (identityOf spec) ∧
      ∀ identity, Names codes .operation (operationRow world spec).code identity →
        identity = identityOf spec := by
  simp only [addSpec, Program.except_bind_ok, Program.except_pure, Except.ok.injEq,
    Prod.mk.injEq, Prod.exists] at done
  obtain ⟨code, between, added, fields, after, listed, sample, shown, rfl, rfl⟩ := done
  have same := add_code added
  subst same
  obtain ⟨rfl, grown⟩ := addFields_ok listed
  have through := (add_added added).trans grown
  have shape := exampleOf_ok (through.coded coded) shown
  subst shape
  exact ⟨rfl, through, grown.grows _ _ _ (add_names added), fun _ names => add_free added names⟩

/-! Identities -/

theorem split_last {left right s t : Text} (leftDigits : ∀ char ∈ s, char.isDigit = true)
    (rightDigits : ∀ char ∈ t, char.isDigit = true)
    (same : left ++ '@' :: s = right ++ '@' :: t) : left = right ∧ s = t := by
  have turned := congrArg List.reverse same
  simp only [List.reverse_append, List.reverse_cons, List.append_assoc, List.singleton_append]
    at turned
  obtain ⟨ends, fronts⟩ := SelfDelimiting.split_stretch Char.isDigit
    (fun char inside => leftDigits char (List.mem_reverse.mp inside))
    (fun char inside => rightDigits char (List.mem_reverse.mp inside))
    (by simp) (by simp) turned
  rw [List.cons.injEq] at fronts
  exact ⟨List.reverse_injective fronts.2, List.reverse_injective ends⟩

/-- The identity tells the name and the version. -/
theorem identityOf_injective {left right : Spec} (same : identityOf left = identityOf right) :
    left.name = right.name ∧ left.version = right.version := by
  obtain ⟨names, versions⟩ := split_last digits_digit digits_digit same
  exact ⟨names, digits_injective versions⟩

theorem addSpecs_ok {specs : List Spec} {codes next : Codes} {rows : List OperationRow}
    (coded : Coded world codes) (done : addSpecs world specs codes = .ok (rows, next)) :
    rows = specs.map (operationRow world) ∧ Added world codes next ∧
      ∀ spec ∈ specs, Names next .operation (operationRow world spec).code (identityOf spec) ∧
        ∀ identity, Names codes .operation (operationRow world spec).code identity →
          identity = identityOf spec := by
  induction specs generalizing codes rows with
  | nil =>
      simp only [addSpecs, Except.ok.injEq, Prod.mk.injEq] at done
      obtain ⟨rfl, rfl⟩ := done
      exact ⟨rfl, Added.refl world codes, by simp⟩
  | cons spec rest ih =>
      simp only [addSpecs, Program.except_bind_ok, Program.except_pure, Except.ok.injEq,
        Prod.mk.injEq, Prod.exists] at done
      obtain ⟨row, between, added, more, last, others, rfl, rfl⟩ := done
      obtain ⟨rfl, grown, named, free⟩ := addSpec_ok coded added
      obtain ⟨rfl, through, known⟩ := ih (grown.coded coded) others
      refine ⟨rfl, grown.trans through, ?_⟩
      intro other inside
      rcases List.mem_cons.mp inside with rfl | later
      · exact ⟨through.grows _ _ _ named, free⟩
      · exact ⟨(known other later).1, fun identity names =>
          (known other later).2 identity (grown.grows _ _ _ names)⟩

/-- Operations of different names or versions have different codes. -/
theorem addSpecs_codes {specs : List Spec} {codes next : Codes} {rows : List OperationRow}
    (coded : Coded world codes)
    (unique : (specs.map fun spec => (spec.name, spec.version)).Nodup)
    (done : addSpecs world specs codes = .ok (rows, next)) :
    (rows.map OperationRow.code).Nodup := by
  induction specs generalizing codes rows with
  | nil =>
      simp only [addSpecs, Except.ok.injEq, Prod.mk.injEq] at done
      obtain ⟨rfl, rfl⟩ := done
      exact List.nodup_nil
  | cons spec rest ih =>
      simp only [addSpecs, Program.except_bind_ok, Program.except_pure, Except.ok.injEq,
        Prod.mk.injEq, Prod.exists] at done
      obtain ⟨row, between, added, more, last, others, rfl, rfl⟩ := done
      obtain ⟨rfl, grown, named, -⟩ := addSpec_ok coded added
      rw [List.map_cons, List.nodup_cons] at unique ⊢
      refine ⟨?_, ih (grown.coded coded) unique.2 others⟩
      intro taken
      obtain ⟨rfl, -, known⟩ := addSpecs_ok (grown.coded coded) others
      rw [List.map_map] at taken
      obtain ⟨other, later, same⟩ := List.mem_map.mp taken
      -- the later operation found the code taken by the first one's identity
      have identity := (known other later).2 (identityOf spec) (by
        rw [Function.comp_apply] at same
        rw [same]
        exact named)
      obtain ⟨names, versions⟩ := identityOf_injective identity
      exact unique.1 (List.mem_map.mpr ⟨other, later, by rw [names, versions]⟩)

/-! Published codes -/

/-- The code is listed with the identity. -/
def Lists (rows : List CodeRow) (code identity : Text) : Prop :=
  ∃ row ∈ rows, row.code = code ∧ row.identity = identity

theorem lists_sorted {rows : List CodeRow} {code identity : Text} :
    Lists (sortedRows rows) code identity ↔ Lists rows code identity := by
  unfold Lists sortedRows
  simp [List.mem_insertionSort]

/-- The list holds the codes of the dictionary, each once. -/
structure Covered (current : Table CodeRow.code) (listed : List CodeRow) : Prop where
  unique : (listed.map CodeRow.code).Nodup
  known : ∀ row ∈ listed, (current.find? row.code).isSome
  lists : ∀ code row, current.find? code = some row → Lists listed code row.identity

theorem codes_sorted (rows : List CodeRow) :
    ((sortedRows rows).map CodeRow.code).Perm (rows.map CodeRow.code) :=
  (List.perm_insertionSort _ rows).map _

theorem covered_sorted (current : Table CodeRow.code) :
    Covered current (sortedRows current.rows) where
  unique := (codes_sorted current.rows).nodup_iff.mpr current.unique
  known := by
    intro row inside
    rw [sortedRows, List.mem_insertionSort, Table.mem_iff_find?] at inside
    rw [inside]
    rfl
  lists := by
    intro code row found
    rw [lists_sorted]
    exact ⟨row, Table.find?_mem found, Table.find?_key found, rfl⟩

theorem Covered.retire {current : Table CodeRow.code} {listed : List CodeRow} {row : CodeRow}
    (covered : Covered current listed) (free : current.find? row.code = none) :
    Covered (current.put row) (listed ++ [row]) where
  unique := by
    rw [List.map_append, List.map_singleton]
    apply List.nodup_append.mpr
    refine ⟨covered.unique, List.nodup_singleton _, ?_⟩
    intro code inside last inLast same
    rw [List.mem_singleton] at inLast
    obtain ⟨other, listed, rfl⟩ := List.mem_map.mp inside
    have known := covered.known other listed
    rw [same, inLast, free] at known
    cases known
  known := by
    intro other inside
    rw [Table.find?_put]
    split
    · rfl
    · rename_i apart
      rcases List.mem_append.mp inside with older | newest
      · exact covered.known other older
      · rw [List.mem_singleton] at newest
        exact absurd (by rw [newest]) apart
  lists := by
    intro code found here
    rw [Table.find?_put] at here
    split at here
    · rename_i same
      cases here
      exact ⟨row, List.mem_append_right _ (List.mem_singleton_self row), same, rfl⟩
    · obtain ⟨known, inside, shape⟩ := covered.lists code found here
      exact ⟨known, List.mem_append_left _ inside, shape⟩

/-- Every published code is listed with its identity, and so is all that was listed; no code
is listed twice. -/
theorem keepCodes_ok {olds : List CodeRow} {current : Table CodeRow.code}
    {listed rows : List CodeRow} (covered : Covered current listed)
    (done : keepCodes olds current listed = .ok rows) :
    (∀ old ∈ olds, Lists rows old.code old.identity) ∧
      (∀ code identity, Lists listed code identity → Lists rows code identity) ∧
      (rows.map CodeRow.code).Nodup := by
  induction olds generalizing current listed with
  | nil =>
      simp only [keepCodes, Except.ok.injEq] at done
      subst done
      exact ⟨by simp, fun code identity lists => lists_sorted.mpr lists,
        (codes_sorted listed).nodup_iff.mpr covered.unique⟩
  | cons old rest ih =>
      unfold keepCodes at done
      split at done
      · rename_i row found
        simp only [Program.except_bind_ok, require_ok, exists_const] at done
        obtain ⟨same, others⟩ := done
        obtain ⟨kept, grown, distinct⟩ := ih covered others
        refine ⟨?_, grown, distinct⟩
        intro other inside
        rcases List.mem_cons.mp inside with rfl | later
        · exact grown _ _ (same ▸ covered.lists other.code row found)
        · exact kept other later
      · rename_i free
        have retired : Covered (current.put { old with deprecated := true })
            (listed ++ [{ old with deprecated := true }]) := covered.retire free
        obtain ⟨kept, grown, distinct⟩ := ih retired done
        refine ⟨?_, fun code identity lists => grown code identity ?_, distinct⟩
        · intro other inside
          rcases List.mem_cons.mp inside with rfl | later
          · exact grown _ _ ⟨_, List.mem_append_right _ (List.mem_singleton_self _), rfl, rfl⟩
          · exact kept other later
        · obtain ⟨row, inside, shape⟩ := lists
          exact ⟨row, List.mem_append_left _ inside, shape⟩

/-! Operations -/

theorem rowsByCode_concat (rows : List OperationRow) (row : OperationRow) :
    rowsByCode (rows ++ [row]) = (rowsByCode rows).put row := by
  simp [rowsByCode, List.foldl_append]

/-- Where the codes differ, the dictionary finds each row under its code. -/
theorem rowsByCode_find {rows : List OperationRow} (unique : (rows.map OperationRow.code).Nodup)
    {row : OperationRow} (inside : row ∈ rows) : (rowsByCode rows).find? row.code = some row := by
  induction rows using List.reverseRecOn with
  | nil => cases inside
  | append_singleton earlier last ih =>
      rw [rowsByCode_concat, Table.find?_put]
      rw [List.map_append, List.nodup_append] at unique
      rcases List.mem_append.mp inside with older | newest
      · have apart : last.code ≠ row.code := by
          intro same
          exact unique.2.2 _ (List.mem_map.mpr ⟨row, older, rfl⟩) last.code (by simp) same.symm
        rw [if_neg apart]
        exact ih unique.1 older
      · rw [List.mem_singleton] at newest
        subst newest
        rw [if_pos rfl]

theorem checkOperations_ok {current : Table OperationRow.code} {olds : List OperationRow}
    (done : checkOperations current olds = .ok ()) :
    ∀ old ∈ olds, ∀ row, current.find? old.code = some row →
      canonical old.wire = canonical row.wire := by
  induction olds with
  | nil => simp
  | cons first rest ih =>
      simp only [checkOperations, Program.except_bind_ok] at done
      obtain ⟨_, checked, others⟩ := done
      intro old inside row found
      rcases List.mem_cons.mp inside with rfl | later
      · simpa [checkOperation, found] using checked
      · exact ih others old later row found

end MsgServer.Dictionary
