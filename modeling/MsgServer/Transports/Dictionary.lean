import Mathlib.Data.List.Dedup
import MsgServer.Core.JsonText

/-!
The short codes of transports/dictionary.py: a code for every namespace, operation, field and
choice of a registry, the rows of its operations, and the check against the document that was
published before. The hash is a parameter; a registry is what the dictionary reads of one.
-/

namespace MsgServer.Dictionary

open Library Codec

/-! Codes -/

inductive Kind where
  | «namespace» | operation | field | enum
  deriving DecidableEq

/-- `_PREFIX`. -/
def Kind.letter : Kind → Char
  | .«namespace» => 'n'
  | .operation => 'o'
  | .field => 'f'
  | .enum => 'e'

def Kind.name : Kind → Text
  | .«namespace» => "namespace".toList
  | .operation => "operation".toList
  | .field => "field".toList
  | .enum => "enum".toList

structure World where
  sha256 : List UInt8 → List UInt8

variable (world : World)

def alphabet32 : Text := "ABCDEFGHIJKLMNOPQRSTUVWXYZ234567".toList

/-- The eight digits of five bytes. -/
def digits32 (bytes : List UInt8) : Text :=
  let value := bytes.foldl (fun total byte => total * 256 + byte.toNat) 0
  (List.range 8).map fun place => alphabet32.getD (value / 32 ^ (7 - place) % 32) 'A'

/-- `b32encode`: a last group of fewer bytes is filled up with zeros and padding. -/
def base32 : List UInt8 → Text
  | [] => []
  | first :: second :: third :: fourth :: fifth :: rest =>
      digits32 [first, second, third, fourth, fifth] ++ base32 rest
  | rest =>
      let count := (8 * rest.length + 4) / 5
      (digits32 (rest ++ List.replicate (5 - rest.length) 0)).take count ++
        List.replicate (8 - count) '='

/-- `_code`. -/
def codeOf (kind : Kind) (identity : Text) : Text :=
  let raw := world.sha256 (utf8 ("msg-dictionary-v1:".toList ++ kind.name ++ ':' :: identity))
  kind.letter :: ((base32 raw).map Char.toLower).take 7

structure CodeRow where
  code : Text
  identity : Text
  deprecated : Bool := false
  replacedBy : Option Text := none
  value : Json
  operation : Option Text := none
  path : Option Text := none

/-- `_by_code` and `_by_identity`. -/
structure Codes where
  byCode : Kind → Table CodeRow.code
  byIdentity : Kind → Table (Prod.fst : Text × Text → Text)

def Codes.empty : Codes := { byCode := fun _ => Table.empty, byIdentity := fun _ => Table.empty }

/-- `_add`; the code of the row is set here. -/
def add (kind : Kind) (row : CodeRow) (codes : Codes) : Except Failure (Text × Codes) := do
  let code := codeOf world kind row.identity
  require (((codes.byCode kind).find? code).all fun existing => existing.identity = row.identity)
    "short_code_collision"
  return (code,
    { byCode := Function.update codes.byCode kind
        ((codes.byCode kind).put { row with code := code })
      byIdentity := Function.update codes.byIdentity kind
        ((codes.byIdentity kind).put (row.identity, code)) })

def Codes.codeFor (codes : Codes) (kind : Kind) (identity : Text) : Except Failure Text := do
  let entry ← requireRow ((codes.byIdentity kind).find? identity) "unknown_short_code"
  return entry.2

/-! Registries -/

/-- The parts of an input schema that the dictionary reads. -/
structure Schema where
  type : Option Json
  properties : List (Text × JsonMap)
  required : List Text
  sound : ∀ property ∈ properties, SoundMembers property.2

/-- An operation with what `describe` says about its retirement. -/
structure Spec where
  name : Text
  version : Nat
  effect : Text
  input : Schema
  deprecated : Bool
  replacedBy : Option Text

def scalarTypes : List Text :=
  ["string".toList, "integer".toList, "number".toList, "boolean".toList]

def secretOperations : List Text :=
  ["identity.temporary", "identity.custodial_create", "identity.token_create",
    "identity.token_rotate", "identity.token_recover", "sharing.link_read"].map String.toList

def typeKey : Text := "type".toList
def enumKey : Text := "enum".toList
def constKey : Text := "const".toList

def fieldType (schema : JsonMap) : Json := (schema.lookup typeKey).getD .null

/-- `_choices`. -/
def choices (schema : JsonMap) : List Json :=
  match schema.lookup enumKey, schema.lookup constKey with
  | some (.array items), _ => items
  | some _, _ => []
  | none, some value => [value]
  | none, none => []

def isPlain : Json → Bool
  | .str _ | .int _ | .float _ | .bool _ => true
  | _ => false

/-- `_is_scalar`. -/
def isScalar (schema : JsonMap) : Bool :=
  (match fieldType schema with
    | .str kind => kind ∈ scalarTypes
    | _ => false) ||
  (choices schema ≠ [] && (choices schema).all isPlain)

/-- `str` of a plain value. -/
def printed : Json → Text
  | .str value => value
  | .int value => decimal value
  | .float value => value
  | .bool true => "True".toList
  | .bool false => "False".toList
  | .null => "None".toList
  | value => dumps value

/-- `_example`. -/
def exampleValue (schema : JsonMap) : Text :=
  match choices schema with
  | first :: _ => printed first
  | [] =>
      match fieldType schema with
      | .str kind =>
          if kind = "boolean".toList then "true".toList
          else if kind = "integer".toList ∨ kind = "number".toList then
            printed ((schema.lookup "minimum".toList).getD (.int 0))
          else "example".toList
      | _ => "example".toList

def isUnreserved (byte : UInt8) : Bool :=
  (Char.ofNat byte.toNat).isAlphanum || byte = 95 || byte = 46 || byte = 45 || byte = 126

/-- `urllib.parse.quote` without safe characters. -/
def percentQuote (value : Text) : Text :=
  (utf8 value).flatMap fun byte =>
    if isUnreserved byte then [Char.ofNat byte.toNat]
    else ['%', (hexDigit (byte.toNat / 16)).toUpper, (hexDigit (byte.toNat % 16)).toUpper]

/-! Rows -/

structure EnumRow where
  code : Text
  value : Json

structure FieldRow where
  name : Text
  code : Text
  type : Json
  required : Bool
  order : Option Nat
  constraints : JsonMap
  enum : List EnumRow

structure OperationRow where
  name : Text
  version : Nat
  code : Text
  «namespace» : Text
  effect : Text
  fields : List FieldRow
  required : List Text
  shortestTemplate : Text
  «example» : Option Text
  direct : Bool
  requiresSecureChannel : Bool
  directWriteStatus : Option Text

def identityOf (spec : Spec) : Text := spec.name ++ '@' :: Nat.toDigits 10 spec.version

def fieldIdentity (identity name : Text) : Text := identity ++ ':' :: name

def enumIdentity (identity name : Text) (value : Json) : Text :=
  fieldIdentity identity name ++ ':' :: dumps value

def addEnums (identity name : Text) : List Json → Codes → Except Failure (List EnumRow × Codes)
  | [], codes => .ok ([], codes)
  | value :: rest, codes => do
      let (code, codes) ← add world .enum
        { code := [], identity := enumIdentity identity name value, value := value
          operation := some identity, path := some name } codes
      let (rows, codes) ← addEnums identity name rest codes
      return ({ code := code, value := value } :: rows, codes)

/-- The members of a field's schema but its type and choices. -/
def constraintsOf (schema : JsonMap) : JsonMap :=
  schema.filter fun entry => entry.1 ≠ typeKey ∧ entry.1 ≠ enumKey

def addFields (identity : Text) (required : List Text) :
    List (Text × JsonMap) → Codes → Except Failure (List FieldRow × Codes)
  | [], codes => .ok ([], codes)
  | (name, schema) :: rest, codes => do
      let (code, codes) ← add world .field
        { code := [], identity := fieldIdentity identity name, value := .str name
          operation := some identity, path := some name } codes
      let (enums, codes) ← addEnums world identity name (choices schema) codes
      let row : FieldRow :=
        { name := name
          code := code
          type := fieldType schema
          required := name ∈ required
          order := if name ∈ required then some (required.idxOf name) else none
          constraints := constraintsOf schema
          enum := enums }
      let (rows, codes) ← addFields identity required rest codes
      return (row :: rows, codes)

/-- An object whose required fields are scalars. -/
def plainRequired (schema : Schema) : Bool :=
  (match schema.type with
    | some (.str kind) => kind = "object".toList
    | _ => false) &&
  schema.required.all fun name => (schema.properties.lookup name).any isScalar

def isDirect (spec : Spec) : Bool :=
  spec.name ≠ "sharing.link_read".toList && spec.effect = "read".toList && plainRequired spec.input

/-- The value of one required field in an example: the code of its first choice, if it has
any. -/
def segmentOf (identity name : Text) (schema : JsonMap) (codes : Codes) : Except Failure Text :=
  if (schema.lookup enumKey).isSome ∨ (schema.lookup constKey).isSome then
    match choices schema with
    | [] => .error { code := "IndexError" }
    | first :: _ => codes.codeFor .enum (enumIdentity identity name first)
  else .ok (exampleValue schema)

/-- The segments behind the code in the example of a direct read. -/
def exampleSegments (identity : Text) (properties : List (Text × JsonMap)) (codes : Codes) :
    List Text → Except Failure Text
  | [] => .ok []
  | name :: rest => do
      let segment ← segmentOf identity name ((properties.lookup name).getD []) codes
      let more ← exampleSegments identity properties codes rest
      return '/' :: percentQuote segment ++ more

def templateOf (spec : Spec) (code : Text) : Text :=
  if spec.name ∈ secretOperations then "/-/p/".toList ++ spec.name
  else if isDirect spec then
    "/-/g/".toList ++ code ++ spec.input.required.flatMap fun name => "/\x7b".toList ++ name ++ ['\x7d']
  else "/-/g/".toList ++ spec.name ++ "/j/\x7bpacket\x7d".toList

def exampleOf (spec : Spec) (code : Text) (codes : Codes) : Except Failure (Option Text) :=
  if spec.name ∈ secretOperations then .ok none
  else if isDirect spec then do
    let segments ← exampleSegments (identityOf spec) spec.input.properties codes spec.input.required
    return some ("/-/g/".toList ++ code ++ segments)
  else .ok none

def namespaceOf (name : Text) : Text := name.takeWhile fun char => char ≠ '.'

def addSpec (spec : Spec) (codes : Codes) : Except Failure (OperationRow × Codes) := do
  let identity := identityOf spec
  let (code, codes) ← add world .operation
    { code := [], identity := identity, value := .str identity, deprecated := spec.deprecated
      replacedBy := (spec.replacedBy.filter fun name => name ≠ []).map (codeOf world .operation) }
    codes
  let (fields, codes) ← addFields world identity spec.input.required spec.input.properties codes
  let sample ← exampleOf spec code codes
  return ({ name := spec.name
            version := spec.version
            code := code
            «namespace» := namespaceOf spec.name
            effect := spec.effect
            fields := fields
            required := spec.input.required
            shortestTemplate := templateOf spec code
            «example» := sample
            direct := isDirect spec
            requiresSecureChannel := spec.name ∈ secretOperations
            directWriteStatus :=
              if spec.effect ≠ "read".toList ∧ plainRequired spec.input then
                some "rejected_legacy_secret_url".toList
              else none }, codes)

def addSpecs : List Spec → Codes → Except Failure (List OperationRow × Codes)
  | [], codes => .ok ([], codes)
  | spec :: rest, codes => do
      let (row, codes) ← addSpec world spec codes
      let (rows, codes) ← addSpecs rest codes
      return (row :: rows, codes)

def addNamespaces : List Text → Codes → Except Failure Codes
  | [], codes => .ok codes
  | name :: rest, codes => do
      let (_, codes) ← add world .«namespace» { code := [], identity := name, value := .str name } codes
      addNamespaces rest codes

/-! Documents -/

/-- A registry as `operations` shows it at one entry: by name and version. -/
structure Registry where
  frozen : Bool
  operations : Text → List Spec
  unique : ∀ entry, ((operations entry).map fun spec => (spec.name, spec.version)).Nodup

/-- The document, as `operations` and the codes of each kind. -/
structure Document where
  version : Nat
  entry : Text
  codes : Kind → List CodeRow
  operations : List OperationRow

/-- The order of `sorted(..., key=lambda spec: (spec.name, spec.version))`. -/
def specBefore (first second : Spec) : Prop :=
  first.name < second.name ∨ first.name = second.name ∧ first.version ≤ second.version

instance : DecidableRel specBefore := fun _ _ => inferInstanceAs (Decidable (_ ∨ _))

def sortedSpecs (registry : Registry) (entry : Text) : List Spec :=
  (registry.operations entry).insertionSort specBefore

def sortedTexts (texts : List Text) : List Text := texts.insertionSort (· ≤ ·)

def sortedRows (rows : List CodeRow) : List CodeRow :=
  rows.insertionSort fun first second => first.code ≤ second.code

def EnumRow.wire (row : EnumRow) : Json :=
  .object [("code".toList, .str row.code), ("value".toList, row.value)]

def wireOption {α : Type} (wire : α → Json) : Option α → Json
  | some value => wire value
  | none => .null

def FieldRow.wire (row : FieldRow) : Json :=
  .object [("name".toList, .str row.name),
    ("code".toList, .str row.code),
    ("type".toList, row.type),
    ("required".toList, .bool row.required),
    ("order".toList, wireOption (fun order => .int (Int.ofNat order)) row.order),
    ("constraints".toList, .object row.constraints),
    ("enum".toList, .array (row.enum.map EnumRow.wire))]

def OperationRow.wire (row : OperationRow) : Json :=
  .object [("name".toList, .str row.name),
    ("version".toList, .int (Int.ofNat row.version)),
    ("code".toList, .str row.code),
    ("namespace".toList, .str row.«namespace»),
    ("effect".toList, .str row.effect),
    ("fields".toList, .array (row.fields.map FieldRow.wire)),
    ("required".toList, .array (row.required.map .str)),
    ("shortest_template".toList, .str row.shortestTemplate),
    ("example".toList, wireOption .str row.«example»),
    ("direct".toList, .bool row.direct),
    ("requires_secure_channel".toList, .bool row.requiresSecureChannel),
    ("direct_write_template".toList, .null),
    ("direct_expected_template".toList, .null),
    ("direct_write_status".toList, wireOption .str row.directWriteStatus)]

/-- A dictionary of rows by code, in which a later row takes the place of an earlier one. -/
def rowsByCode (rows : List OperationRow) : Table OperationRow.code :=
  rows.foldl Table.put Table.empty

/-- An operation that is published and still active has the row that was published. -/
def checkOperation (current : Table OperationRow.code) (old : OperationRow) :
    Except Failure Unit :=
  match current.find? old.code with
  | some row => require (canonical old.wire = canonical row.wire) "published_operation_changed"
  | none => .ok ()

def checkOperations (current : Table OperationRow.code) :
    List OperationRow → Except Failure Unit
  | [] => .ok ()
  | old :: rest => do
      checkOperation current old
      checkOperations current rest

/-- A published code keeps its identity, or is listed as retired. -/
def keepCodes : List CodeRow → Table CodeRow.code → List CodeRow → Except Failure (List CodeRow)
  | [], _, listed => .ok (sortedRows listed)
  | old :: rest, current, listed =>
      match current.find? old.code with
      | some row => do
          require (row.identity = old.identity) "published_short_code_reused"
          keepCodes rest current listed
      | none =>
          let retired := { old with deprecated := true }
          keepCodes rest (current.put retired) (listed ++ [retired])

/-- `_preserve_published`. -/
def preservePublished (published : Document) (codes : Codes) (document : Document) :
    Except Failure Document := do
  require (published.version = 1 ∧ published.entry = document.entry)
    "incompatible_published_dictionary"
  checkOperations (rowsByCode document.operations) (rowsByCode published.operations).rows
  let keep := fun kind => keepCodes (published.codes kind) (codes.byCode kind) (document.codes kind)
  let namespaces ← keep .«namespace»
  let operations ← keep .operation
  let fields ← keep .field
  let enums ← keep .enum
  return { document with
    codes := fun
      | .«namespace» => namespaces
      | .operation => operations
      | .field => fields
      | .enum => enums }

/-- `ShortCodeDictionary.__init__`, as far as the document. -/
def build (registry : Registry) (entry : Text) (published : Option Document) :
    Except Failure Document := do
  require (registry.frozen = true) "registry_not_frozen"
  let specs := sortedSpecs registry entry
  let (operations, codes) ← addSpecs world specs Codes.empty
  let namespaces := sortedTexts ((specs.map fun spec => namespaceOf spec.name).dedup)
  let codes ← addNamespaces world namespaces codes
  let document : Document :=
    { version := 1
      entry := entry
      codes := fun kind => sortedRows (codes.byCode kind).rows
      operations := operations }
  match published with
  | some published => preservePublished published codes document
  | none => return document

end MsgServer.Dictionary
