import Mathlib.Data.List.SplitOn
import MsgServer.Core.Models
import MsgServer.Library.Layers

/-!
The request-target check of transports/url_safety.py on raw bytes. The decoding is that of
`urllib.parse.unquote_to_bytes`; a loop over the layers of a value checks each of them before
it makes the next.
-/

namespace MsgServer.UrlSafety

open Library

abbrev Bytes := List UInt8

/-- The bytes of an ASCII literal. -/
def ascii (text : String) : Bytes := text.toList.map fun char => UInt8.ofNat char.toNat

def percent : UInt8 := 37

/-- One hexadecimal digit of `_hextobyte`. -/
def hexValue (byte : UInt8) : Option Nat :=
  if 48 ≤ byte ∧ byte ≤ 57 then some (byte.toNat - 48)
  else if 65 ≤ byte ∧ byte ≤ 70 then some (byte.toNat - 55)
  else if 97 ≤ byte ∧ byte ≤ 102 then some (byte.toNat - 87)
  else none

/-- The byte that two hexadecimal digits spell. -/
def hexByte (high low : UInt8) : Option UInt8 :=
  match hexValue high, hexValue low with
  | some first, some second => some (UInt8.ofNat (16 * first + second))
  | _, _ => none

/-- `unquote_to_bytes`. -/
def unquote : Bytes → Bytes
  | [] => []
  | [byte] => [byte]
  | [first, second] => [first, second]
  | byte :: high :: low :: rest =>
      if byte = percent then
        match hexByte high low with
        | some value => value :: unquote rest
        | none => byte :: unquote (high :: low :: rest)
      else byte :: unquote (high :: low :: rest)

/-- `_BAD_ESCAPE.search`. -/
def badEscape : Bytes → Bool
  | [] => false
  | byte :: rest =>
      (byte = percent && match rest with
        | high :: low :: _ => (hexByte high low).isNone
        | _ => true) || badEscape rest

/-- `_CONTROL.search`. -/
def hasControl (raw : Bytes) : Bool := raw.any fun byte => byte ≤ 32 || byte = 127

def maxDecodeLayers : Nat := 8

def invalidPath : Failure := { code := "invalid_path" }

/-- A loop over `_layers`. -/
def layers {β : Type} (check : Bytes → Except Failure β) (raw : Bytes) : Except Failure (List β) :=
  Layers.walk unquote check invalidPath (maxDecodeLayers + 1) raw

/-! Secret names -/

def secretNames : List (List Char) :=
  ["token", "accesstoken", "refreshtoken", "recoverysecret", "newrecoverysecret", "privatekey",
    "secret", "clientsecret", "bootstrapclaim", "password", "apikey", "authorization"].map
    String.toList

/-- `bytes.lower`. -/
def lower (raw : Bytes) : Bytes :=
  raw.map fun byte => if 65 ≤ byte ∧ byte ≤ 90 then byte + 32 else byte

def isSpace (byte : UInt8) : Bool := (9 ≤ byte && byte ≤ 13) || byte = 32

/-- `bytes.strip`. -/
def strip (raw : Bytes) : Bytes :=
  ((raw.dropWhile isSpace).reverse.dropWhile isSpace).reverse

/-- `decode('ascii', errors='replace')`. -/
def decodeAscii (raw : Bytes) : List Char :=
  raw.map fun byte => if byte < 128 then Char.ofNat byte.toNat else '\uFFFD'

def isDot (byte : UInt8) : Bool := byte = 46 || byte = 91 || byte = 93

/-- The name that a part is compared by: stripped, without `_` and `-`. -/
def normalized (part : Bytes) : List Char :=
  decodeAscii ((strip part).filter fun byte => byte ≠ 95 && byte ≠ 45)

/-- The parts of one layer of a name. -/
def nameParts (layer : Bytes) : List Bytes := (lower layer).splitOnP isDot

def secretLayer (layer : Bytes) : Bool :=
  (nameParts layer).any fun part => normalized part ∈ secretNames

/-- `is_secret_field`: the layers are read as far as the first secret one. -/
def secretWithin : Nat → Bytes → Except Failure Bool
  | 0, _ => .error invalidPath
  | bound + 1, layer =>
      if secretLayer layer then .ok true
      else if unquote layer = layer then .ok false
      else secretWithin bound (unquote layer)

def isSecretField (name : Bytes) : Except Failure Bool := secretWithin (maxDecodeLayers + 1) name

def refuseSecret (name : Bytes) : Except Failure Unit := do
  let secret ← isSecretField name
  require (secret = false) "secure_channel_required"

/-! One layer of a target -/

/-- `pair.partition(b'=')[0]`. -/
def nameOf (pair : Bytes) : Bytes := pair.takeWhile fun byte => byte ≠ 61

def pairs (layer : Bytes) : List Bytes := layer.splitOnP fun byte => byte = 38 || byte = 59

def segments (layer : Bytes) : List Bytes := layer.splitOnP fun byte => byte = 47

def checkAll (check : Bytes → Except Failure Unit) : List Bytes → Except Failure Unit
  | [] => .ok ()
  | item :: rest => do
      check item
      checkAll check rest

def checkQueryLayer (layer : Bytes) : Except Failure Unit :=
  checkAll (fun pair => refuseSecret (nameOf pair)) (pairs layer)

/-- The credential slot of an old GET route: the segment behind its operation. -/
def LegacySlot (layer : Bytes) : Prop :=
  5 ≤ (segments layer).length ∧ (segments layer).take 3 = [[], ascii "-", ascii "g"] ∧
    lower ((segments layer).getD 4 []) ∈ [ascii "token", ascii "bootstrap"]

instance (layer : Bytes) : Decidable (LegacySlot layer) :=
  inferInstanceAs (Decidable (_ ∧ _ ∧ _))

/-- What one layer adds to `ambiguous`. -/
def ambiguousLayer (raw layer : Bytes) : Bool :=
  let original := segments raw
  (layer = ascii "/-" || (ascii "/-/").isPrefixOf layer) &&
    (!(raw = ascii "/-" || (ascii "/-/").isPrefixOf raw) ||
      (segments layer).any (fun part => part = ascii "." || part = ascii "..") ||
      ((original.drop 2).take 2).any (fun part => percent ∈ part) ||
      (original.length > 4 && (original.getD 2 [] = ascii "g" || original.getD 2 [] = ascii "p") &&
        46 ∈ original.getD 3 [] && percent ∈ original.getD 4 []))

def checkPathLayer (raw layer : Bytes) : Except Failure Bool := do
  require (92 ∉ layer ∧ 0 ∉ layer) "invalid_path"
  require (¬ LegacySlot layer) "secure_channel_required"
  checkAll (fun segment => refuseSecret (nameOf segment))
    ((segments layer).filter fun segment => 61 ∈ segment)
  return ambiguousLayer raw layer

def requireSafeRequestTarget (rawPath query : Bytes) (maximum : Int) : Except Failure Unit := do
  require (((rawPath.length + query.length + if query = [] then 0 else 1 : Nat) : Int) ≤ maximum)
    "path_too_large"
  require (35 ∉ rawPath ∧ 35 ∉ query) "secure_channel_required"
  require ((ascii "/").isPrefixOf rawPath ∧ ¬ (ascii "//").isPrefixOf rawPath) "invalid_path"
  require (hasControl rawPath = false ∧ hasControl query = false) "invalid_path"
  require (badEscape rawPath = false ∧ badEscape query = false) "invalid_path"
  let _ ← layers checkQueryLayer query
  let ambiguous ← layers (checkPathLayer rawPath) rawPath
  require (ambiguous.any id = false) "not_found"

/-! What an accepted target has passed -/

theorem checkAll_ok {check : Bytes → Except Failure Unit} {items : List Bytes} :
    checkAll check items = .ok () ↔ ∀ item ∈ items, check item = .ok () := by
  induction items with
  | nil => simp [checkAll]
  | cons item rest ih =>
      rw [checkAll, Program.except_bind_ok, List.forall_mem_cons, ← ih]
      constructor
      · rintro ⟨_, first, later⟩
        exact ⟨first, later⟩
      · rintro ⟨first, later⟩
        exact ⟨(), first, later⟩

theorem secretWithin_false {bound : Nat} {layer : Bytes}
    (clean : secretWithin bound layer = .ok false) (depth : Nat) :
    secretLayer (unquote^[depth] layer) = false := by
  induction bound generalizing layer depth with
  | zero => simp [secretWithin] at clean
  | succ bound ih =>
      rw [secretWithin] at clean
      by_cases secret : secretLayer layer = true
      · simp [secret] at clean
      · by_cases fixed : unquote layer = layer
        · rw [Function.iterate_fixed fixed]
          simpa using secret
        · simp only [secret, fixed, if_false] at clean
          cases depth with
          | zero => simpa using secret
          | succ depth => exact ih clean depth

theorem refuseSecret_ok {name : Bytes} (passed : refuseSecret name = .ok ()) :
    isSecretField name = .ok false := by
  simp only [refuseSecret, Program.except_bind_ok, require_ok] at passed
  obtain ⟨secret, found, rfl⟩ := passed
  exact found

/-- What a path layer has passed. -/
structure PathLayer (layer : Bytes) : Prop where
  backslash : 92 ∉ layer
  nul : 0 ∉ layer
  legacy : ¬ LegacySlot layer
  segments : ∀ segment ∈ segments layer, 61 ∈ segment →
    isSecretField (nameOf segment) = .ok false

theorem checkPathLayer_ok {raw layer : Bytes} {ambiguous : Bool}
    (passed : checkPathLayer raw layer = .ok ambiguous) : PathLayer layer := by
  simp only [checkPathLayer, Program.except_bind_ok, require_ok, exists_const] at passed
  obtain ⟨plain, legacy, _, names, _⟩ := passed
  refine ⟨plain.1, plain.2, legacy, fun segment member label => ?_⟩
  exact refuseSecret_ok (checkAll_ok.mp names segment
    (List.mem_filter.mpr ⟨member, by simpa using label⟩))

/-- Every layer of an accepted target, at any depth, has passed. -/
structure Accepted (rawPath query : Bytes) : Prop where
  pairs : ∀ depth, ∀ pair ∈ pairs (unquote^[depth] query),
    isSecretField (nameOf pair) = .ok false
  path : ∀ depth, PathLayer (unquote^[depth] rawPath)

theorem accepted_of_ok {rawPath query : Bytes} {maximum : Int}
    (done : requireSafeRequestTarget rawPath query maximum = .ok ()) : Accepted rawPath query := by
  simp only [requireSafeRequestTarget, Program.except_bind_ok, require_ok, exists_const] at done
  obtain ⟨_, _, _, _, _, _, queryWalk, ambiguous, pathWalk, _⟩ := done
  constructor
  · intro depth pair member
    obtain ⟨_, _, passed⟩ := Layers.walk_ok queryWalk depth
    exact refuseSecret_ok (checkAll_ok.mp passed pair member)
  · intro depth
    obtain ⟨_, _, passed⟩ := Layers.walk_ok pathWalk depth
    exact checkPathLayer_ok passed

/-! Names as a reader sees them -/

/-- Neither the whole name nor one of its parts is secret once it is normalised. -/
def CleanName (name : Bytes) : Prop :=
  normalized (lower name) ∉ secretNames ∧ ∀ part ∈ nameParts name, normalized part ∉ secretNames

theorem mem_strip {byte : UInt8} {raw : Bytes} (plain : isSpace byte = false)
    (member : byte ∈ raw) : byte ∈ strip raw := by
  have survives : ∀ {text : Bytes}, byte ∈ text → byte ∈ text.dropWhile isSpace := by
    intro text inText
    induction text with
    | nil => exact inText
    | cons first rest ih =>
        rw [List.dropWhile_cons]
        split
        · rename_i space
          rcases List.mem_cons.mp inText with rfl | later
          · rw [plain] at space
            exact absurd space Bool.false_ne_true
          · exact ih later
        · exact inText
  rw [strip, List.mem_reverse]
  exact survives (List.mem_reverse.mpr (survives member))

/-- A separator of name parts is in no secret name and survives the normalisation. -/
theorem dotted_clean {name : Bytes} {byte : UInt8} (dot : isDot byte = true)
    (member : byte ∈ name) : normalized name ∉ secretNames := by
  have cases : byte = 46 ∨ byte = 91 ∨ byte = 93 := by
    simpa [isDot, or_assoc] using dot
  have kept : byte ∈ (strip name).filter fun other => other ≠ 95 && other ≠ 45 := by
    refine List.mem_filter.mpr ⟨mem_strip ?_ member, ?_⟩
    · rcases cases with rfl | rfl | rfl <;> decide
    · rcases cases with rfl | rfl | rfl <;> decide
  have shown := List.mem_map_of_mem (f := fun byte : UInt8 =>
    if byte < 128 then Char.ofNat byte.toNat else '\uFFFD') kept
  have none : ∀ text ∈ secretNames, '.' ∉ text ∧ '[' ∉ text ∧ ']' ∉ text := by decide
  intro secret
  have absent := none _ secret
  rcases cases with rfl | rfl | rfl
  · exact absent.1 shown
  · exact absent.2.1 shown
  · exact absent.2.2 shown

theorem cleanName_of {name : Bytes} (plain : isSecretField name = .ok false) : CleanName name := by
  have layer : secretLayer name = false := secretWithin_false plain 0
  have parts : ∀ part ∈ nameParts name, normalized part ∉ secretNames := by
    simpa [secretLayer] using layer
  refine ⟨?_, parts⟩
  by_cases dotted : ∃ byte ∈ lower name, isDot byte = true
  · obtain ⟨byte, member, dot⟩ := dotted
    exact dotted_clean dot member
  · apply parts
    rw [nameParts, List.splitOnP_eq_singleton (by simpa using dotted)]
    exact List.mem_singleton_self _

/-- A target that a secret name, a credential slot, a backslash or a NUL byte gives away, at
any depth of decoding. -/
def Hit (rawPath query : Bytes) : Prop :=
  (∃ depth, ∃ pair ∈ pairs (unquote^[depth] query), isSecretField (nameOf pair) = .ok true) ∨
    ∃ depth, 92 ∈ unquote^[depth] rawPath ∨ 0 ∈ unquote^[depth] rawPath ∨
      LegacySlot (unquote^[depth] rawPath) ∨
      ∃ segment ∈ segments (unquote^[depth] rawPath), 61 ∈ segment ∧
        isSecretField (nameOf segment) = .ok true

theorem not_hit {rawPath query : Bytes} (accepted : Accepted rawPath query) :
    ¬ Hit rawPath query := by
  rintro (⟨depth, pair, member, secret⟩ | ⟨depth, backslash | nul | legacy | label⟩)
  · rw [accepted.pairs depth pair member] at secret
    cases secret
  · exact (accepted.path depth).backslash backslash
  · exact (accepted.path depth).nul nul
  · exact (accepted.path depth).legacy legacy
  · obtain ⟨segment, member, named, secret⟩ := label
    rw [(accepted.path depth).segments segment member named] at secret
    cases secret

/-- A target that decodes to a hit is a hit itself. -/
theorem hit_encoded {rawPath query : Bytes} (first second : Nat)
    (hit : Hit (unquote^[first] rawPath) (unquote^[second] query)) : Hit rawPath query := by
  rcases hit with ⟨depth, found⟩ | ⟨depth, found⟩
  · rw [← Function.iterate_add_apply] at found
    exact .inl ⟨_, found⟩
  · rw [← Function.iterate_add_apply] at found
    exact .inr ⟨_, found⟩

/-- No encoding of a target that is refused for its secrets is let through, and in a target
that is let through no name is secret at any depth of decoding. -/
theorem no_bypass (rawPath query : Bytes) (maximum : Int) :
    (∀ first second, Hit (unquote^[first] rawPath) (unquote^[second] query) →
      ∃ failure, requireSafeRequestTarget rawPath query maximum = .error failure) ∧
    (requireSafeRequestTarget rawPath query maximum = .ok () → ∀ depth,
      (∀ pair ∈ pairs (unquote^[depth] query), CleanName (nameOf pair)) ∧
      ∀ segment ∈ segments (unquote^[depth] rawPath), 61 ∈ segment →
        CleanName (nameOf segment)) := by
  constructor
  · intro first second hit
    cases done : requireSafeRequestTarget rawPath query maximum with
    | error failure => exact ⟨failure, rfl⟩
    | ok _ => exact absurd (hit_encoded first second hit) (not_hit (accepted_of_ok done))
  · intro done depth
    have accepted := accepted_of_ok done
    exact ⟨fun pair member => cleanName_of (accepted.pairs depth pair member),
      fun segment member named =>
        cleanName_of ((accepted.path depth).segments segment member named)⟩

theorem no_bypass_ampersand : ∃ failure, requireSafeRequestTarget (ascii "/search")
    (ascii "ordinary=x%2526%2574oken=1") 8192 = .error failure :=
  (no_bypass (ascii "/search") (ascii "ordinary=x%2526%2574oken=1") 8192).1 0 2
    (.inl ⟨0, ascii "token=1", by decide +kernel, by decide +kernel⟩)

end MsgServer.UrlSafety
