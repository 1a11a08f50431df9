import MsgServer.Storage.Session

/-!
`resolve` of plugins/common.py over `resolve` of storage/session.py: an argument
that starts with a slash is a path of names, everything else is a bare id.
-/

namespace MsgServer.Session

open Library

def idLetter (letter : Char) : Bool :=
  letter.isAlphanum || letter == '_' || letter == '.' || letter == ':' || letter == '-'

def validId (value : String) : Bool :=
  value.toList.all idLetter && decide (1 ≤ value.length ∧ value.length ≤ 160)

/-- `split('/')`. -/
def splitSlashes : List Char → List (List Char)
  | [] => [[]]
  | letter :: rest =>
      if letter = '/' then [] :: splitSlashes rest
      else match splitSlashes rest with
        | [] => [[letter]]
        | first :: others => (letter :: first) :: others

/-- `path.rstrip('/').split('/')[1:]`, last part first. -/
def pathParts (path : String) : List String :=
  let stripped := (path.toList.reverse.dropWhile fun letter => letter == '/').reverse
  (((splitSlashes stripped).drop 1).map String.ofList).reverse

def plainPart (part : String) : Bool :=
  part != "." && part != ".." && part.toList.all fun letter => letter != '\\' && letter.toNat != 0

variable (app : App) (store : Store)

/-- The walk down from the root, one name at a time. -/
def descend : String → List String → Except Failure String
  | id, [] => .ok id
  | id, part :: rest => do
      require (part ≠ "") "invalid_path"
      let child ← requireRow
        (store.resources.rows.find? fun row => row.parent == some id && row.name == part)
        "not_found"
      descend child.id rest

def rootId : Except Failure String := do
  let root ← requireRow (store.resources.rows.find? fun row => row.parent == none) "not_initialized"
  return root.id

/-- `startswith('*')`, and what follows it. -/
def starred (part : String) : Option String :=
  match part.toList with
  | '*' :: rest => some (String.ofList rest)
  | _ => none

/-- Parts with the last one first. A starred last part is an id below the path
before it, which the source renders and strips again; every turn takes a part, so
the number of parts bounds the turns. -/
def resolveParts : Nat → List String → Except Failure String
  | _, [] => rootId store
  | 0, _ :: _ => rootId store
  | turns + 1, last :: before =>
      if before = ["_id"] then do
        let row ← resource app store last
        return row.id
      else match starred last with
        | some id => do
            let row ← resource app store id
            if before = [] then return row.id
            else do
              let parent ← resolveParts turns (before.dropWhile fun part => part == "")
              require (row.parent = some parent) "not_found"
              return row.id
        | none => do
            let root ← rootId store
            descend store root (last :: before).reverse

def resolvePath (path : String) : Except Failure String := do
  let parts := pathParts path
  require (parts.all plainPart = true) "invalid_path"
  resolveParts app store parts.length parts

def resolve (value : String) : Except Failure String :=
  if value.toList.head? = some '/' then resolvePath app store value
  else do
    require (validId value = true) "invalid_resource_id"
    let row ← resource app store value
    return row.id

end MsgServer.Session
