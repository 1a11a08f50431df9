import MsgServer.Security.Authorization
import MsgServer.Storage.Tree
import MsgServer.Library.Run

/-!
Direct conversations of plugins/communication.py and the one operation that moves
a resource, `content.move` of plugins/content.py. A conversation is a topic right
below the namespace root with a row of dm_conversations; the two participants are
fixed when it is made. Posts, notices, names and revisions are left out, and what
they may refuse is an argument of the operation.
-/

namespace MsgServer.Conversations

open Library Session Policy Authorization ResourceTree

variable (app : App)

/-- `_signed_subject`. -/
def signedSubject (principal : Principal) : Except Failure String := do
  let subject ← requireRow principal.subject "signature_required"
  require (principal.actor = some subject ∧ principal.method = .signature) "signature_required"
  return subject

def blockedBetween (store : Store) (first second : String) : Bool :=
  decide ((first, second) ∈ store.dmBlocks) || decide ((second, first) ∈ store.dmBlocks)

def insertConversation (store : Store) (row : Conversation) : Except Failure Store := do
  require (row.participantA < row.participantB ∧
    ∀ other ∈ store.conversations.rows, other.resourceId ≠ row.resourceId) "constraint_conflict"
  let grown ← insertRow store.conversations row
  return { store with conversations := grown }

/-- `_dm_pair`, past its refusal of a conversation with oneself. -/
def participants (first second : String) : String × String :=
  if first < second then (first, second) else (second, first)

structure DmRequest where
  context : Context
  operation : String
  recipient : String
  topic : Resource
  /-- What creating the topic and its introduction may refuse on other grounds. -/
  created : Except Failure Unit

/-- The new topic: a container below the namespace root, private to its owner. -/
def DmRequest.row (request : DmRequest) : Resource :=
  { request.topic with type := "topic", parent := some app.namespaceRoot, state := .active }

def openConversation (store : Store) (request : DmRequest) (sender : String) :
    Except Failure Store := do
  request.created
  let grown ← insertResource app store (request.row app)
  insertConversation grown
    { pair := app.pairDigest (participants sender request.recipient)
      resourceId := (request.row app).id
      participantA := (participants sender request.recipient).1
      participantB := (participants sender request.recipient).2
      initiator := sender
      state := .pending }

/-- A repeated request answers with the conversation that is there. -/
def dmRequestWith (store : Store) (request : DmRequest) (sender : String) :
    Option Conversation → Except Failure Store
  | some row => do
      require (row.state ≠ .rejected) "dm_rejected"
      return store
  | none => openConversation app store request sender

def dmRequest (store : Store) (request : DmRequest) : Except Failure Store := do
  let sender ← signedSubject request.context.principal
  requireBase app store request.context.now request.context.principal request.operation sender
  let target ← resource app store request.recipient
  require (target.type = "user" ∧ target.state = .active) "invalid_recipient"
  let _ ← subject store request.recipient
  require (sender ≠ request.recipient) "dm_self_request"
  require (blockedBetween store sender request.recipient = false) "dm_blocked"
  dmRequestWith app store request sender
    (store.conversations.find? (app.pairDigest (participants sender request.recipient)))

structure DmDecision where
  context : Context
  operation : String
  conversationId : String
  desired : ConversationState

/-- `UPDATE dm_conversations SET state=? WHERE pair=? AND state='pending'`. -/
def decideRow (desired : ConversationState) (row : Conversation) : Conversation :=
  if row.state = .pending then { row with state := desired } else row

def dmDecisionOn (store : Store) (row : Conversation) (desired : ConversationState) :
    Except Failure Store :=
  if row.state = .pending then do
    require (blockedBetween store row.participantA row.participantB = false) "dm_blocked"
    return { store with conversations := store.conversations.modify row.pair (decideRow desired) }
  else .ok store

def dmDecision (store : Store) (request : DmDecision) : Except Failure Store := do
  let sender ← signedSubject request.context.principal
  requireBase app store request.context.now request.context.principal request.operation sender
  let row ← requireRow (directOf store request.conversationId) "dm_not_found"
  require (participates row (some sender)) "dm_not_found"
  require (sender ≠ row.initiator) "dm_recipient_required"
  require (row.state = .pending ∨ row.state = request.desired) "dm_request_closed"
  dmDecisionOn store row request.desired

/-- `direct_ancestor(...) is None`. -/
def noDirectAncestor (store : Store) (id : String) : Except Failure Unit := do
  let row ← resource app store id
  let above ← ancestors app store id
  require (∀ item ∈ above ++ [row], directOf store item.id = none) "dm_controlled_resource"

structure Move where
  context : Context
  now : Nat
  id : String
  target : String
  name : String
  /-- Board rules, namespace protection and the checks on names. -/
  named : Except Failure Unit

def moveOperation : String := "content.move@1"

def movableTypes : List String :=
  ["post", "file", "attachment", "topic", "template", "skill", "repo", "website", "keystore"]

def checkAccess (store : Store) (request : Move) (id : String) (check : Check) :
    Except Failure Unit := do
  let _ ← requireAccess app store request.now request.context (some request.name)
    [⟨id, moveOperation, check⟩]
  return ()

/-- `removable`. -/
def removable (store : Store) (request : Move) (row : Resource) : Except Failure Unit := do
  let above ← ancestors app store row.id
  require (∀ item ∈ above ++ [row], item.id ≠ "t_last_will") "legacy_directive_only"
  require (personalChild ["SOUL.md", "AGENTS.md", "notes", "todos"] (above ++ [row]) = false)
    "personal_managed_resource"
  require (row.id ≠ "r_agents" ∧ (∀ item ∈ above, item.id ≠ "r_rules") ∧ row.id ≠ "r_rules")
    "system_managed_resource"
  require (row.id ≠ rootSubject) "protected_resource"
  let parentId ← requireRow row.parent "protected_resource"
  let parent ← resource app store parentId
  checkAccess app store request parent.id .remove
  require (parent.mode &&& stickyBit ≠ 0 →
    request.context.principal.subject = some row.owner ∨
      request.context.principal.subject = some parent.owner) "sticky_denied"

def moved (request : Move) (row : Resource) : Resource :=
  { row with parent := some request.target, name := request.name, generation := row.generation + 1 }

def move (store : Store) (request : Move) : Except Failure Store := do
  let row ← resource app store request.id
  require (row.type ∈ movableTypes) "controlled_resource"
  removable app store request row
  noDirectAncestor app store row.id
  require (request.target ≠ "t_store") "store_controlled_resource"
  let target ← resource app store request.target
  require (target.type ≠ "order_collection") "order_controlled_resource"
  checkAccess app store request request.target .create
  let container ← containerType app target
  require (container = true) "not_a_container"
  request.named
  replaceResource app store (moved request row) row.generation

/-- Everything else the server does to these tables: new resources below any
parent, new versions of a resource in its place, and any change at all of
credentials, certificates, grants, modes, memberships and settings. -/
inductive TreeStep where
  | insert (row : Resource)
  | update (row : Resource) (expectedGeneration : Nat)
  | move (request : Move)
  | dmRequest (request : DmRequest)
  | dmDecision (request : DmDecision)
  | authority (change : Store → Store)

/-- A new version of a resource where it is. -/
def updateInPlace (store : Store) (row : Resource) (expectedGeneration : Nat) :
    Except Failure Store := do
  let old ← resource app store row.id
  replaceResource app store { row with parent := old.parent } expectedGeneration

def attempt (store : Store) : TreeStep → Except Failure Store
  | .insert row => insertResource app store row
  | .update row expectedGeneration => updateInPlace app store row expectedGeneration
  | .move request => move app store request
  | .dmRequest request => dmRequest app store request
  | .dmDecision request => dmDecision app store request
  | .authority change => .ok
      { change store with
        resources := store.resources
        conversations := store.conversations }

/-- A refused operation is rolled back. -/
def step (next : TreeStep) (store : Store) : Store :=
  match attempt app store next with
  | .ok changed => changed
  | .error _ => store

/-- Ids that include the namespace root, no conversation, and with a resource
everything above it: the part of the tree that conversations hang below. -/
structure Upper (store : Store) (upper : String → Prop) : Prop where
  root : upper app.namespaceRoot
  clear : ∀ conversation ∈ store.conversations.rows, ¬ upper conversation.resourceId
  climbs : ∀ child ∈ store.resources.rows, upper child.id → ∀ parent next,
    child.parent = some parent → resource app store parent = .ok next → upper next.id

/-- What every operation keeps: conversations stand side by side right below the
namespace root, so none is ever inside another. -/
structure Secluded (store : Store) : Prop where
  rooted : ∃ root, store.resources.find? app.namespaceRoot = some root
  known : ∀ row ∈ store.resources.rows, ∀ parent, row.parent = some parent →
    Known app store parent
  placed : ∀ conversation ∈ store.conversations.rows, ∃ row,
    store.resources.find? conversation.resourceId = some row ∧
      row.parent = some app.namespaceRoot
  single : ∀ left ∈ store.conversations.rows, ∀ right ∈ store.conversations.rows,
    left.resourceId = right.resourceId → left = right
  apart : ∃ upper, Upper app store upper

variable {app}

theorem directOf_mem {store : Store} {id : String} {direct : Conversation}
    (found : directOf store id = some direct) :
    direct ∈ store.conversations.rows ∧ direct.resourceId = id :=
  ⟨List.mem_of_find?_eq_some found, by simpa using List.find?_some found⟩

theorem directOf_none {store : Store} {id : String} :
    directOf store id = none ↔ ∀ direct ∈ store.conversations.rows, direct.resourceId ≠ id := by
  simp [directOf]

theorem directOf_conversation {store : Store} (secluded : Secluded app store)
    {direct : Conversation} (member : direct ∈ store.conversations.rows) :
    directOf store direct.resourceId = some direct := by
  cases found : directOf store direct.resourceId with
  | none => exact absurd rfl (directOf_none.mp found direct member)
  | some other =>
      obtain ⟨inRows, same⟩ := directOf_mem found
      rw [secluded.single other inRows direct member same]

theorem resource_root {store : Store} {row : Resource}
    (found : resource app store app.namespaceRoot = .ok row) : row.id = app.namespaceRoot := by
  rw [resource, app.namespaceRootPlain, if_neg (by simp), requireRow_ok] at found
  exact Table.find?_key found

/-- The chain above a conversation has no conversation in it. -/
theorem above_conversation {store : Store} (secluded : Secluded app store)
    {direct : Conversation} (member : direct ∈ store.conversations.rows) {item : Resource}
    (inRows : item ∈ store.resources.rows) (same : item.id = direct.resourceId)
    {first : List Resource} (linked : Chain app store item first) :
    ∀ other ∈ first, directOf store other.id = none := by
  obtain ⟨upper, isUpper⟩ := secluded.apart
  obtain ⟨row, found, below⟩ := secluded.placed direct member
  rw [← same, (Table.mem_iff_find? _ item).mp inRows] at found
  cases found
  cases linked with
  | root isRoot =>
      rw [isRoot] at below
      cases below
  | link isParent found tail =>
      rw [below] at isParent
      cases isParent
      have top : upper _ := (resource_root found).symm ▸ isUpper.root
      have higher := tail.closed (resource_mem found) top isUpper.climbs
      have free : ∀ id, upper id → directOf store id = none := by
        intro id inside
        rw [directOf_none]
        intro other inOther sameId
        exact isUpper.clear other inOther (sameId ▸ inside)
      intro other inside
      rcases List.mem_append.mp inside with above | last
      · exact free _ (higher other above)
      · rw [List.mem_singleton] at last
        exact last ▸ free _ top

/-- The first conversation of a chain is the only one. -/
theorem first_conversation {store : Store} (secluded : Secluded app store)
    {direct : Conversation} (member : direct ∈ store.conversations.rows) {row item : Resource}
    {above : List Resource} (inRows : row ∈ store.resources.rows)
    (linked : Chain app store row above) (inChain : item ∈ above ++ [row])
    (same : item.id = direct.resourceId) :
    ((above ++ [row]).findSome? fun other => directOf store other.id) = some direct := by
  have itemInRows : item ∈ store.resources.rows := by
    rcases List.mem_append.mp inChain with higher | last
    · exact linked.mem item higher
    · rw [List.mem_singleton] at last
      exact last ▸ inRows
  obtain ⟨first, later, split⟩ := List.append_of_mem inChain
  have none := above_conversation secluded member itemInRows same (linked.initial split)
  have hit : directOf store item.id = some direct := same ▸ directOf_conversation secluded member
  rw [split, List.findSome?_append, List.findSome?_eq_none_iff.mpr none]
  simp [hit]

theorem upper_insert {store : Store} {upper : String → Prop} {grown : Table Resource.id}
    {row : Resource} (secluded : Secluded app store) (isUpper : Upper app store upper)
    (inserted : store.resources.insert row = some grown) :
    Upper app { store with resources := grown }
      fun id => upper id ∧ store.resources.find? id ≠ none where
  root := by
    obtain ⟨root, found⟩ := secluded.rooted
    exact ⟨isUpper.root, by simp [found]⟩
  clear := fun direct member inside => isUpper.clear direct member inside.1
  climbs := by
    intro child member inside parent next isParent found
    have old : child ∈ store.resources.rows := by
      rcases (Table.mem_insert inserted child).mp member with old | new
      · exact old
      · exact absurd (Table.insert_fresh inserted) (new ▸ inside.2)
    rcases resource_insert inserted found with before | ⟨_, unknown⟩
    · refine ⟨isUpper.climbs child old inside.1 parent next isParent before, ?_⟩
      rw [(Table.mem_iff_find? _ next).mp (resource_mem before)]
      simp
    · exact absurd (secluded.known child old parent isParent) unknown

theorem find?_after_insert {store : Store} {grown : Table Resource.id} {row found : Resource}
    (inserted : store.resources.insert row = some grown) {id : String}
    (before : store.resources.find? id = some found) : grown.find? id = some found := by
  rw [Table.find?_insert inserted]
  split
  · rename_i same
    rw [← same, Table.insert_fresh inserted] at before
    cases before
  · exact before

theorem secluded_insert {store next : Store} {row : Resource} (secluded : Secluded app store)
    (done : insertResource app store row = .ok next) : Secluded app next := by
  obtain ⟨parents, grown, inserted, rfl⟩ := insertResource_ok done
  obtain ⟨upper, isUpper⟩ := secluded.apart
  refine ⟨?_, ?_, ?_, secluded.single, _, upper_insert secluded isUpper inserted⟩
  · obtain ⟨root, found⟩ := secluded.rooted
    exact ⟨root, find?_after_insert inserted found⟩
  · intro child member parent isParent
    apply known_insert inserted
    rcases (Table.mem_insert inserted child).mp member with old | rfl
    · exact secluded.known child old parent isParent
    · obtain ⟨above, found⟩ := parents parent isParent
      exact known_of_ok found
  · intro direct member
    obtain ⟨topic, found, below⟩ := secluded.placed direct member
    exact ⟨topic, find?_after_insert inserted found, below⟩

theorem insertConversation_ok {store next : Store} {row : Conversation}
    (done : insertConversation store row = .ok next) :
    (∀ other ∈ store.conversations.rows, other.resourceId ≠ row.resourceId) ∧
      ∃ grown, store.conversations.insert row = some grown ∧
        next = { store with conversations := grown } := by
  simp only [insertConversation, Program.except_bind_ok, require_ok, insertRow_ok,
    Program.except_pure, Except.ok.injEq] at done
  obtain ⟨_, unshared, grown, inserted, rfl⟩ := done
  exact ⟨unshared.2, grown, inserted, rfl⟩

theorem upper_congr {left right : Store} {upper : String → Prop}
    (same : left.resources = right.resources) (isUpper : Upper app left upper)
    (clear : ∀ direct ∈ right.conversations.rows, ¬ upper direct.resourceId) :
    Upper app right upper where
  root := isUpper.root
  clear := clear
  climbs := by
    intro child member inside parent next isParent found
    rw [← same] at member
    rw [← resource_congr same] at found
    exact isUpper.climbs child member inside parent next isParent found

/-- A new conversation stands on a topic that did not exist before. -/
theorem secluded_open {store next : Store} {request : DmRequest} {sender : String}
    (secluded : Secluded app store)
    (done : openConversation app store request sender = .ok next) : Secluded app next := by
  simp only [openConversation, Program.except_bind_ok] at done
  obtain ⟨_, _, middle, made, opened⟩ := done
  have kept := secluded_insert secluded made
  obtain ⟨_, grown, inserted, rfl⟩ := insertResource_ok made
  obtain ⟨unshared, listed, added, rfl⟩ := insertConversation_ok opened
  obtain ⟨upper, isUpper⟩ := secluded.apart
  have upperAfter := upper_insert secluded isUpper inserted
  refine ⟨kept.rooted, kept.known, ?_, ?_, _, upper_congr ?_ upperAfter ?_⟩
  · intro direct member
    rcases (Table.mem_insert added direct).mp member with old | rfl
    · exact kept.placed direct old
    · refine ⟨request.row app, ?_, rfl⟩
      show grown.find? (request.row app).id = _
      rw [Table.find?_insert inserted, if_pos rfl]
  · intro left inLeft right inRight same
    rcases (Table.mem_insert added left).mp inLeft with oldLeft | rfl
    · rcases (Table.mem_insert added right).mp inRight with oldRight | rfl
      · exact secluded.single left oldLeft right oldRight same
      · exact absurd same (unshared left oldLeft)
    · rcases (Table.mem_insert added right).mp inRight with oldRight | rfl
      · exact absurd same.symm (unshared right oldRight)
      · rfl
  · rfl
  · intro direct member inside
    rcases (Table.mem_insert added direct).mp member with old | rfl
    · exact upperAfter.clear direct old inside
    · exact inside.2 (Table.insert_fresh inserted)

theorem secluded_dmRequest {store next : Store} {request : DmRequest}
    (secluded : Secluded app store) (done : dmRequest app store request = .ok next) :
    Secluded app next := by
  simp only [dmRequest, Program.except_bind_ok] at done
  obtain ⟨sender, _, _, _, _, _, _, _, _, _, _, _, _, _, answered⟩ := done
  cases found : store.conversations.find? (app.pairDigest (participants sender request.recipient))
  · rw [found] at answered
    exact secluded_open secluded answered
  · simp only [found, dmRequestWith, Program.except_bind_ok, Program.except_pure,
      Except.ok.injEq] at answered
    obtain ⟨_, _, rfl⟩ := answered
    exact secluded

/-- A new version of a resource keeps conversations apart when a conversation
stays where it is and the parents of the upper part stay in it. -/
theorem secluded_replace {store : Store} {row old : Resource} {upper : String → Prop}
    (secluded : Secluded app store) (found : store.resources.find? row.id = some old)
    (parents : ∀ parent, row.parent = some parent → Known app store parent)
    (stays : directOf store row.id ≠ none → row.parent = old.parent)
    (isUpper : Upper app store upper)
    (climbs : upper row.id → ∀ parent next, row.parent = some parent →
      resource app store parent = .ok next → upper next.id) :
    Secluded app { store with resources := store.resources.modify row.id fun _ => row } := by
  have changed : ∀ id stored, store.resources.find? id = some stored →
      (store.resources.modify row.id fun _ => row).find? id =
        some (if id = row.id then row else stored) := by
    intro id stored atId
    rw [Table.find?_modify]
    split
    · rename_i same
      rw [atId, Option.map_some,
        Table.rekeyed_of_key (by rw [Table.find?_key atId, same])]
    · exact atId
  have version : ∀ child ∈ (store.resources.modify row.id fun _ => row).rows,
      child = row ∨ (child ∈ store.resources.rows ∧ child.id ≠ row.id) := by
    intro child member
    have atChild := (Table.mem_iff_find? _ child).mp member
    rw [Table.find?_modify] at atChild
    split at atChild
    · rename_i same
      rw [same, found] at atChild
      left
      simpa [Table.rekeyed_of_key, Table.find?_key found] using atChild.symm
    · rename_i different
      exact Or.inr ⟨Table.find?_mem atChild, different⟩
  refine ⟨?_, ?_, ?_, secluded.single, upper, isUpper.root, isUpper.clear, ?_⟩
  · obtain ⟨root, atRoot⟩ := secluded.rooted
    exact ⟨_, changed _ _ atRoot⟩
  · intro child member parent isParent
    apply known_modify
    rcases version child member with rfl | ⟨inRows, _⟩
    · exact parents parent isParent
    · exact secluded.known child inRows parent isParent
  · intro direct member
    obtain ⟨topic, atTopic, below⟩ := secluded.placed direct member
    refine ⟨_, changed _ _ atTopic, ?_⟩
    split
    · rename_i same
      have isDirect : directOf store row.id ≠ none := by
        rw [← same, directOf_conversation secluded member]
        simp
      rw [same, found] at atTopic
      cases atTopic
      rw [stays isDirect, below]
    · exact below
  · intro child member inside parent next isParent lookup
    obtain ⟨before, atBefore, shape⟩ := resource_modify lookup
    have sameId : next.id = before.id := by
      rw [shape]
      split
      · exact (‹before.id = row.id›).symm
      · rfl
    rw [sameId]
    rcases version child member with rfl | ⟨inRows, _⟩
    · exact climbs inside parent before isParent atBefore
    · exact isUpper.climbs child inRows inside parent before isParent atBefore

theorem secluded_update {store next : Store} {row : Resource} {expectedGeneration : Nat}
    (secluded : Secluded app store)
    (done : updateInPlace app store row expectedGeneration = .ok next) : Secluded app next := by
  obtain ⟨looked, lookup, replaced⟩ := (Program.except_bind_ok _ _ _).mp done
  obtain ⟨⟨old, found⟩, parents, rfl⟩ := replaceResource_ok replaced
  have key := Table.find?_key found
  have same : looked = old := by
    rw [← show old.id = row.id from key] at lookup
    exact resource_self (Table.find?_mem found) lookup
  obtain ⟨upper, isUpper⟩ := secluded.apart
  refine secluded_replace secluded found ?_ (fun _ => by rw [same]) isUpper ?_
  · intro parent isParent
    obtain ⟨above, atParent⟩ := parents parent isParent
    exact known_of_ok atParent
  · intro inside parent above isParent atParent
    refine isUpper.climbs old (Table.find?_mem found) ?_ parent above ?_ atParent
    · exact key ▸ inside
    · rw [← same]
      exact isParent

/-- Nothing can be moved below a conversation, not even by its participants. -/
theorem create_clear {store : Store} {request : Move} {target : Resource} {done : Unit}
    (passed : checkAccess app store request request.target .create = .ok done)
    (found : resource app store request.target = .ok target) :
    ∃ above, Chain app store target above ∧
      ∀ item ∈ above ++ [target], directOf store item.id = none := by
  obtain ⟨refs, access, _⟩ := (Program.except_bind_ok _ _ _).mp passed
  obtain ⟨row, above, atRow, climbed, decided⟩ :=
    requireCheck_direct (requireAccess_check access _ List.mem_cons_self)
  rw [found] at atRow
  cases atRow
  obtain ⟨other, again, linked⟩ := ancestors_chain climbed
  rw [resource_self (resource_mem found) again] at linked
  refine ⟨above, linked, ?_⟩
  cases first : (above ++ [target]).findSome? fun item => directOf store item.id with
  | none => exact List.findSome?_eq_none_iff.mp first
  | some direct =>
      obtain ⟨_, allowed⟩ := decided direct first
      simp [directAllowed, isReading, moveOperation] at allowed

theorem move_ok {store next : Store} {request : Move}
    (done : move app store request = .ok next) :
    ∃ row target above, resource app store request.id = .ok row ∧
      directOf store row.id = none ∧
      resource app store request.target = .ok target ∧ Chain app store target above ∧
      (∀ item ∈ above ++ [target], directOf store item.id = none) ∧
      replaceResource app store (moved request row) row.generation = .ok next := by
  simp only [move, Program.except_bind_ok] at done
  obtain ⟨row, found, _, _, _, _, _, apart, _, _, target, atTarget, _, _, _, access, _, _, _, _,
    _, _, replaced⟩ := done
  obtain ⟨above, linked, clear⟩ := create_clear access atTarget
  refine ⟨row, target, above, found, ?_, atTarget, linked, clear, replaced⟩
  simp only [noDirectAncestor, Program.except_bind_ok, require_ok] at apart
  obtain ⟨other, again, higher, _, free⟩ := apart
  rw [resource_self (resource_mem found) again] at free
  exact free row (by simp)

/-- The ids of one chain are closed under parents. -/
theorem chain_climbs {store : Store} {target : Resource} {above : List Resource}
    (inRows : target ∈ store.resources.rows) (linked : Chain app store target above) :
    ∀ child ∈ store.resources.rows, (∃ item ∈ above ++ [target], item.id = child.id) →
      ∀ parent next, child.parent = some parent → resource app store parent = .ok next →
        ∃ item ∈ above ++ [target], item.id = next.id := by
  intro child inStore inside parent next isParent found
  obtain ⟨item, member, same⟩ := inside
  have itemInRows : item ∈ store.resources.rows := by
    rcases List.mem_append.mp member with higher | last
    · exact linked.mem item higher
    · rw [List.mem_singleton] at last
      exact last ▸ inRows
  have isItem : item = child := Table.eq_of_key_eq itemInRows inStore same
  subst isItem
  obtain ⟨first, later, split⟩ := List.append_of_mem member
  cases linked.initial split with
  | root isRoot =>
      rw [isRoot] at isParent
      cases isParent
  | link isParent' found' tail =>
      rw [isParent] at isParent'
      cases isParent'
      rw [found] at found'
      cases found'
      exact ⟨next, by rw [split]; simp, rfl⟩

theorem secluded_move {store next : Store} {request : Move} (secluded : Secluded app store)
    (done : move app store request = .ok next) : Secluded app next := by
  obtain ⟨row, target, above, _, free, atTarget, linked, clear, replaced⟩ := move_ok done
  obtain ⟨⟨old, found⟩, parents, rfl⟩ := replaceResource_ok replaced
  obtain ⟨upper, isUpper⟩ := secluded.apart
  have climbs := chain_climbs (resource_mem atTarget) linked
  have joined : Upper app store
      fun id => upper id ∨ ∃ item ∈ above ++ [target], item.id = id :=
    { root := Or.inl isUpper.root
      clear := by
        rintro direct member (inside | ⟨item, inside, same⟩)
        · exact isUpper.clear direct member inside
        · exact directOf_none.mp (clear item inside) direct member same.symm
      climbs := by
        rintro child inRows (inside | inside) parent next isParent lookup
        · exact Or.inl (isUpper.climbs child inRows inside parent next isParent lookup)
        · exact Or.inr (climbs child inRows inside parent next isParent lookup) }
  refine secluded_replace secluded found ?_ (fun isDirect => absurd free isDirect) joined ?_
  · intro parent isParent
    obtain ⟨_, atParent⟩ := parents parent isParent
    exact known_of_ok atParent
  · intro _ parent next isParent lookup
    cases isParent
    rw [atTarget] at lookup
    cases lookup
    exact Or.inr ⟨target, by simp, rfl⟩

theorem decideRow_resource (desired : ConversationState) (row : Conversation) :
    (decideRow desired row).resourceId = row.resourceId ∧
      (decideRow desired row).pair = row.pair ∧
      (decideRow desired row).participantA = row.participantA ∧
      (decideRow desired row).participantB = row.participantB := by
  unfold decideRow
  split <;> simp

theorem secluded_decide {store : Store} (secluded : Secluded app store) (pair : String)
    (desired : ConversationState) :
    Secluded app
      { store with conversations := store.conversations.modify pair (decideRow desired) } := by
  have version : ∀ direct ∈ (store.conversations.modify pair (decideRow desired)).rows,
      ∃ old ∈ store.conversations.rows, direct.resourceId = old.resourceId ∧
        direct.pair = old.pair := by
    intro direct member
    rcases Table.mem_modify (fun row => (decideRow_resource desired row).2.1) member with
      ⟨old, _⟩ | ⟨old, found, rfl⟩
    · exact ⟨direct, old, rfl, rfl⟩
    · exact ⟨old, Table.find?_mem found, (decideRow_resource desired old).1,
        (decideRow_resource desired old).2.1⟩
  obtain ⟨upper, isUpper⟩ := secluded.apart
  refine ⟨secluded.rooted, secluded.known, ?_, ?_, upper, upper_congr ?_ isUpper ?_⟩
  · intro direct member
    obtain ⟨old, inRows, same, _⟩ := version direct member
    exact same ▸ secluded.placed old inRows
  · intro left inLeft right inRight same
    obtain ⟨oldLeft, inLeft', sameLeft, pairLeft⟩ := version left inLeft
    obtain ⟨oldRight, inRight', sameRight, pairRight⟩ := version right inRight
    have olds := secluded.single oldLeft inLeft' oldRight inRight'
      (by rw [← sameLeft, ← sameRight, same])
    exact Table.eq_of_key_eq inLeft inRight (by rw [pairLeft, pairRight, olds])
  · rfl
  · intro direct member inside
    obtain ⟨old, inRows, same, _⟩ := version direct member
    exact isUpper.clear old inRows (same ▸ inside)

theorem secluded_dmDecision {store next : Store} {request : DmDecision}
    (secluded : Secluded app store) (done : dmDecision app store request = .ok next) :
    Secluded app next := by
  simp only [dmDecision, Program.except_bind_ok] at done
  obtain ⟨_, _, _, _, row, _, _, _, _, _, _, _, decided⟩ := done
  unfold dmDecisionOn at decided
  split at decided
  · simp only [Program.except_bind_ok, Program.except_pure, Except.ok.injEq] at decided
    obtain ⟨_, _, rfl⟩ := decided
    exact secluded_decide secluded row.pair request.desired
  · cases decided
    exact secluded

theorem secluded_authority {store : Store} (secluded : Secluded app store)
    (change : Store → Store) :
    Secluded app
      { change store with
        resources := store.resources
        conversations := store.conversations } := by
  obtain ⟨upper, isUpper⟩ := secluded.apart
  refine ⟨secluded.rooted, ?_, secluded.placed, secluded.single, upper,
    upper_congr ?_ isUpper isUpper.clear⟩
  · exact secluded.known
  · rfl

theorem step_secluded (next : TreeStep) (store : Store) (secluded : Secluded app store) :
    Secluded app (step app next store) := by
  cases done : attempt app store next with
  | error failure => simpa [step, done] using secluded
  | ok changed =>
      rw [step, done]
      cases next with
      | insert row => exact secluded_insert secluded done
      | update row expectedGeneration => exact secluded_update secluded done
      | move request => exact secluded_move secluded done
      | dmRequest request => exact secluded_dmRequest secluded done
      | dmDecision request => exact secluded_dmDecision secluded done
      | authority change =>
          cases done
          exact secluded_authority secluded change

/-- A freshly bootstrapped tree: a namespace root and no conversation yet. -/
structure Founded (app : App) (store : Store) : Prop where
  rooted : ∃ root, store.resources.find? app.namespaceRoot = some root
  known : ∀ row ∈ store.resources.rows, ∀ parent, row.parent = some parent →
    Known app store parent
  quiet : store.conversations.rows = []

theorem founded_secluded {store : Store} (founded : Founded app store) : Secluded app store where
  rooted := founded.rooted
  known := founded.known
  placed := by simp [founded.quiet]
  single := by simp [founded.quiet]
  apart := ⟨fun _ => True, trivial, by simp [founded.quiet], fun _ _ _ _ _ _ _ => trivial⟩

/-- Whoever passes any check at all below a conversation takes part in it. -/
theorem passed_participates {store : Store} (secluded : Secluded app store) {now : Nat}
    {context : Context} {requestName : Option String} {checks : List AccessRequirement}
    {refs : List ResourceRef}
    (passed : requireAccess app store now context requestName checks = .ok refs)
    {check : AccessRequirement} (checked : check ∈ checks) {row item : Resource}
    {above : List Resource} (found : resource app store check.resourceId = .ok row)
    (climbed : ancestors app store row.id = .ok above) {direct : Conversation}
    (member : direct ∈ store.conversations.rows) (inChain : item ∈ above ++ [row])
    (same : item.id = direct.resourceId) : participates direct context.principal.subject := by
  obtain ⟨row', above', found', climbed', decided⟩ :=
    requireCheck_direct (requireAccess_check passed check checked)
  rw [found] at found'
  cases found'
  rw [climbed] at climbed'
  cases climbed'
  obtain ⟨other, again, linked⟩ := ancestors_chain climbed
  rw [resource_self (resource_mem found) again] at linked
  exact (decided direct
    (first_conversation secluded member (resource_mem found) linked inChain same)).1

/-- A conversation is closed to everybody else, in every state the server can reach
and whatever modes, owners, certificates, grants, overrides and shares say. -/
theorem conversations_isolated (start : Store) (founded : Founded app start)
    (steps : List TreeStep) (conversation : Conversation)
    (recorded : conversation ∈ (Run.run (step app) steps start).conversations.rows)
    (id : String) (row item : Resource) (above : List Resource)
    (found : resource app (Run.run (step app) steps start) id = .ok row)
    (climbed : ancestors app (Run.run (step app) steps start) row.id = .ok above)
    (inChain : item ∈ above ++ [row]) (below : item.id = conversation.resourceId)
    (now : Nat) (context : Context) (requestName : Option String)
    (outsider : ¬ participates conversation context.principal.subject) :
    (∀ checks, (∃ check ∈ checks, check.resourceId = id) →
      ∃ failure, requireAccess app (Run.run (step app) steps start) now context requestName
        checks = .error failure) ∧
    (∀ operation, visible app (Run.run (step app) steps start) now context requestName operation id
      ≠ .ok true) ∧
    ∀ grantor credentialId, shareLinkReadAllowed app (Run.run (step app) steps start) now grantor
      credentialId row above ≠ .ok true := by
  have secluded : Secluded app (Run.run (step app) steps start) :=
    Run.run_invariant (step app) step_secluded steps start (founded_secluded founded)
  have refused : ∀ checks, (∃ check ∈ checks, check.resourceId = id) → ∀ refs,
      requireAccess app (Run.run (step app) steps start) now context requestName checks
        ≠ .ok refs := by
    rintro checks ⟨check, checked, rfl⟩ refs passed
    exact outsider (passed_participates secluded passed checked found climbed recorded inChain below)
  refine ⟨?_, ?_, ?_⟩
  · intro checks covered
    cases outcome : requireAccess app (Run.run (step app) steps start) now context requestName
        checks with
    | error failure => exact ⟨failure, rfl⟩
    | ok refs => exact absurd outcome (refused checks covered refs)
  · intro operation shown
    obtain ⟨caught, passed, isSome⟩ := (Program.except_bind_ok _ _ _).mp shown
    cases caught with
    | none => cases isSome
    | some refs =>
        exact refused _ ⟨_, List.mem_cons_self, rfl⟩ refs (catches_some passed)
  · intro grantor credentialId
    apply shareLink_direct inChain
    rw [below, directOf_conversation secluded recorded]
    simp

/-! One conversation between two users, seen by a third. -/

def sampleResource (id type name : String) (parent : Option String) (owner : String) : Resource :=
  ⟨id, type, 1, name, parent, owner, "g_public", 0o755, 0, none, .active⟩

def sampleTree : Store :=
  { Store.empty with
    resources :=
      ⟨[sampleResource "r_root" "root" "/" none "u_root",
        sampleResource "u_ann" "user" "ann" (some "r_root") "u_ann",
        sampleResource "u_bob" "user" "bob" (some "r_root") "u_bob",
        sampleResource "u_eve" "user" "eve" (some "r_root") "u_eve"], by decide⟩
    subjects :=
      ⟨[⟨"u_ann", .registered, 0, false⟩, ⟨"u_bob", .registered, 0, false⟩,
        ⟨"u_eve", .registered, 0, false⟩], by decide⟩ }

def sampleGrant (operation : String) : CapabilityGrant :=
  ⟨"communication.basic", 1, ⟨"r_root", true⟩, [operation], []⟩

def samplePrincipal (subject operation : String) : Principal :=
  ⟨some subject, some subject, some "k_sample", .signature, [], [sampleGrant operation]⟩

def sampleContext (subject operation : String) : Context :=
  ⟨samplePrincipal subject operation, .network, 10⟩

def sampleSteps : List TreeStep :=
  [.dmRequest
    { context := sampleContext "u_ann" "communication.dm_request@1"
      operation := "communication.dm_request@1"
      recipient := "u_bob"
      topic := sampleResource "t_dm" "topic" "dm-1" none "u_ann"
      created := .ok () },
    .insert (sampleResource "p_hello" "post" "hello.md" (some "t_dm") "u_ann")]

def sampleConversation : Conversation :=
  ⟨"u_ann u_bob", "t_dm", "u_ann", "u_bob", "u_ann", .pending⟩

theorem sample_founded : Founded sampleApp sampleTree where
  rooted := ⟨_, rfl⟩
  known := by
    intro row member parent isParent
    have known : ∀ row ∈ sampleTree.resources.rows,
        row.parent = none ∨ row.parent = some "r_root" := by decide
    rcases known row member with isRoot | below
    · rw [isRoot] at isParent
      cases isParent
    · rw [below] at isParent
      cases isParent
      exact known_of_ok (show resource sampleApp sampleTree "r_root" =
        .ok (sampleResource "r_root" "root" "/" none "u_root") from rfl)
  quiet := rfl

theorem conversations_isolated_sample :
    ∃ failure, requireAccess sampleApp (Run.run (step sampleApp) sampleSteps sampleTree) 10
      (sampleContext "u_eve" "discovery.get@1") none
      [⟨"p_hello", "discovery.get@1", .read⟩] = .error failure :=
  (conversations_isolated sampleTree sample_founded sampleSteps sampleConversation
    (by decide) "p_hello" (sampleResource "p_hello" "post" "hello.md" (some "t_dm") "u_ann")
    (sampleResource "t_dm" "topic" "dm-1" (some "r_root") "u_ann")
    [sampleResource "r_root" "root" "/" none "u_root",
      sampleResource "t_dm" "topic" "dm-1" (some "r_root") "u_ann"]
    (by decide) (by decide) (by decide) (by decide) 10
    (sampleContext "u_eve" "discovery.get@1") none (by decide)).1 _
    ⟨_, List.mem_cons_self, rfl⟩

end MsgServer.Conversations
