import MsgServer.Plugins.Conversations

/-!
The handlers of plugins/content.py that write resources, with `create_resource` of
plugins/common.py. A handler runs under the name its request gave it, as `file.create` is
`content.file_put` under another name; `content.move` is in Conversations. What a handler
refuses beside access, type and state (names, templates, patches, signatures, store and
board rules) is the argument `other`, and revisions are known by their ids.
-/

namespace MsgServer.Content

open Library Session Policy Authorization ResourceTree

variable (app : App)

/-- The request as `check_access` sees it; `now` is the validator's clock. -/
structure Caller where
  context : Context
  now : Nat
  name : Option String := none

/-- `check_access`. -/
def checkAccess (store : Store) (caller : Caller) (operation id : String) (check : Check) :
    Except Failure Unit := do
  let _ ← requireAccess app store caller.now caller.context caller.name [⟨id, operation, check⟩]
  return ()

structure NewResource where
  id : String
  type : String
  name : String
  group : String
  mode : Nat
  revision : Option String

/-- The stored row, its first revision in place. -/
def NewResource.row (new : NewResource) (parent owner : String) : Resource where
  id := new.id
  type := new.type
  typeVersion := 1
  name := new.name
  parent := some parent
  owner := owner
  group := new.group
  mode := new.mode
  generation := if new.revision.isSome then 1 else 0
  revision := new.revision
  state := .active

/-- `create_resource`: it asks for no access, its callers do. -/
def createResource (store : Store) (caller : Caller) (parentId : String) (new : NewResource)
    (other : Except Failure Unit) : Except Failure Store := do
  let parent ← resource app store parentId
  require (new.type ∉ ["order", "order_collection"] ∧ parent.type ≠ "order_collection")
    "order_controlled_resource"
  require (parent.state = .active) "ancestor_inactive"
  let container ← containerType app parent
  require (container = true) "not_a_container"
  other
  let author ← requireRow caller.context.principal.subject "subject_not_found"
  let owner ← subject store author
  insertResource app store (new.row parent.id owner.resourceId)

/-- `topic_create`, `post_create`, `file_put` and a new template: the access check is the
operation's declared requirement. -/
def create (store : Store) (caller : Caller) (operation parentId : String) (new : NewResource)
    (other : Except Failure Unit) : Except Failure Store := do
  let parent ← resource app store parentId
  checkAccess app store caller operation parent.id .create
  createResource app store caller parent.id new other

def topicCreate (store : Store) (caller : Caller) (operation parentId : String)
    (new : NewResource) (other : Except Failure Unit) : Except Failure Store :=
  create app store caller operation parentId { new with type := "topic", revision := none } other

def postCreate (store : Store) (caller : Caller) (operation parentId : String)
    (new : NewResource) (other : Except Failure Unit) : Except Failure Store :=
  create app store caller operation parentId { new with type := "post" } other

def filePut (store : Store) (caller : Caller) (operation parentId : String)
    (new : NewResource) (other : Except Failure Unit) : Except Failure Store :=
  create app store caller operation parentId { new with type := "file" } other

def templatePut (store : Store) (caller : Caller) (operation parentId : String)
    (new : NewResource) (other : Except Failure Unit) : Except Failure Store :=
  create app store caller operation parentId { new with type := "template" } other

/-- What the handlers below write into one row. -/
inductive Change where
  /-- `post_write`, `post_edit`, `post_rollback` and `post_patch`. -/
  | postEdit (revision : String)
  /-- `text_patch`, of a post or a file. -/
  | textPatch (revision : String)
  /-- A new version of a template, by `template_put`. -/
  | templateVersion (revision : String)
  | tagsSet
  /-- `post_edit_metadata`; a new name is a move in place. -/
  | postEditMetadata (name : Option String)
  | chmod (mode : Nat)
  | chgrp (group : String)
  | chown (owner : String)
  | purge
  | topicConfigure
  deriving DecidableEq

def Change.check (row : Resource) : Change → Check
  | .tagsSet => if row.type = "topic" ∨ row.type = "repo" then .manage else .write
  | .chmod _ => .chmod
  | .chgrp _ => .chgrp
  | .chown _ => .chown
  | .purge => .purge
  | .topicConfigure => .manage
  | _ => .write

def purgeTypes : List String := ["post", "file", "attachment", "template", "skill", "keystore"]

def Change.accepts (row : Resource) : Change → Except Failure Unit
  | .postEdit _ | .postEditMetadata _ =>
      require (row.type = "post" ∧ row.state = .active) "not_editable"
  | .textPatch _ =>
      require ((row.type = "post" ∨ row.type = "file") ∧ row.state = .active) "not_editable"
  | .templateVersion _ => require (row.type = "template") "name_conflict"
  | .tagsSet => require (row.state = .active) "resource_inactive"
  | .chmod _ =>
      require (row.type ∉ ["csr", "certificate", "tool", "delegation", "listing"] ∧
        row.id ≠ "t_store") "controlled_resource"
  | .chgrp _ => require (row.type ≠ "listing" ∧ row.id ≠ "t_store") "controlled_resource"
  | .chown _ =>
      require (row.type ∉ ["user", "organization", "certificate", "csr", "tool", "delegation",
        "listing"] ∧ row.id ≠ "t_store") "controlled_resource"
  | .purge => require (row.type ∈ purgeTypes) "purge_leaf_only"
  | .topicConfigure => require (row.type = "topic") "not_a_topic"

/-- `revise_resource`, and every other new generation of a row. -/
def Change.apply (row : Resource) : Change → Resource
  | .postEdit revision | .textPatch revision | .templateVersion revision =>
      { row with revision := some revision, generation := row.generation + 1 }
  | .tagsSet | .topicConfigure | .postEditMetadata none =>
      { row with generation := row.generation + 1 }
  | .postEditMetadata (some name) => { row with name := name, generation := row.generation + 1 }
  | .chmod mode => { row with mode := mode, generation := row.generation + 1 }
  | .chgrp group => { row with group := group, generation := row.generation + 1 }
  | .chown owner => { row with owner := owner, generation := row.generation + 1 }
  | .purge => { row with state := .purged, revision := none, generation := row.generation + 1 }

/-- `removable`, for the operation that asks. -/
def removable (store : Store) (caller : Caller) (operation : String) (row : Resource) :
    Except Failure Unit := do
  let above ← ancestors app store row.id
  require (∀ item ∈ above ++ [row], item.id ≠ "t_last_will") "legacy_directive_only"
  require (personalChild ["SOUL.md", "AGENTS.md", "notes", "todos"] (above ++ [row]) = false)
    "personal_managed_resource"
  require (row.id ≠ "r_agents" ∧ (∀ item ∈ above, item.id ≠ "r_rules") ∧ row.id ≠ "r_rules")
    "system_managed_resource"
  require (row.id ≠ rootSubject) "protected_resource"
  let parentId ← requireRow row.parent "protected_resource"
  let parent ← resource app store parentId
  checkAccess app store caller operation parent.id .remove
  require (parent.mode &&& stickyBit ≠ 0 →
    caller.context.principal.subject = some row.owner ∨
      caller.context.principal.subject = some parent.owner) "sticky_denied"

/-- The name check of `post_edit_metadata`. -/
def renames (store : Store) (caller : Caller) (operation : String) (row : Resource) :
    Change → Except Failure Unit
  | .postEditMetadata (some _) => removable app store caller operation row
  | _ => .ok ()

/-- The handlers that change one row, under their access requirement. -/
def change (store : Store) (caller : Caller) (operation id : String) (wanted : Change)
    (other : Except Failure Unit) : Except Failure Store := do
  let row ← resource app store id
  checkAccess app store caller operation row.id (wanted.check row)
  wanted.accepts row
  renames app store caller operation row wanted
  other
  replaceResource app store (wanted.apply row) row.generation

/-- `lifecycle`: archive and restore. -/
def lifecycle (store : Store) (caller : Caller) (operation id : String) (state : ResourceState)
    (other : Except Failure Unit) : Except Failure Store := do
  let row ← resource app store id
  require (row.type ∈ Conversations.movableTypes) "controlled_resource"
  removable app store caller operation row
  require (row.state ≠ .purged) "resource_purged"
  other
  replaceResource app store { row with state := state, generation := row.generation + 1 }
    row.generation

/-- `attach`: a file next to the post, and the post's next revision. -/
def attach (store : Store) (caller : Caller) (operation id : String) (new : NewResource)
    (revision : String) (other : Except Failure Unit) : Except Failure Store := do
  let post ← resource app store id
  require (post.type = "post" ∧ post.state = .active) "not_a_post"
  checkAccess app store caller operation post.id .write
  let parentId ← requireRow post.parent "not_found"
  let parent ← resource app store parentId
  checkAccess app store caller operation parent.id .create
  let grown ← createResource app store caller parent.id { new with type := "attachment" } other
  replaceResource app grown ((Change.postEdit revision).apply post) post.generation

/-- `prepare_text_patch`: every target is checked before the first is written. -/
def prepareTextPatch (store : Store) (caller : Caller) (operation : String)
    (item : String × String) : Except Failure (Resource × String) := do
  let row ← resource app store item.1
  (Change.textPatch item.2).accepts row
  checkAccess app store caller operation row.id .write
  return (row, item.2)

def publishPatches (store : Store) : List (Resource × String) → Except Failure Store
  | [] => .ok store
  | (row, revision) :: rest => do
      let next ← replaceResource app store ((Change.textPatch revision).apply row) row.generation
      publishPatches next rest

def textPatchBatch (store : Store) (caller : Caller) (operation : String)
    (items : List (String × String)) (other : Except Failure Unit) : Except Failure Store := do
  let prepared ← items.mapM (prepareTextPatch app store caller operation)
  require ((prepared.map fun item => item.1.id).Nodup) "duplicate_patch_target"
  other
  publishPatches app store prepared

@[simp] theorem apply_id (row : Resource) (wanted : Change) : (wanted.apply row).id = row.id := by
  cases wanted with
  | postEditMetadata name => cases name <;> rfl
  | _ => rfl

@[simp] theorem apply_parent (row : Resource) (wanted : Change) :
    (wanted.apply row).parent = row.parent := by
  cases wanted with
  | postEditMetadata name => cases name <;> rfl
  | _ => rfl

end MsgServer.Content
