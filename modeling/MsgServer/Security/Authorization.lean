import MsgServer.Security.Certificates

/-!
security/authorization.py: `AuthorizationService`, with security/sharing_policy.py
and the guards `require` calls in plugins/board_presentation.py and core/wiki.py.
`requireCheck` is one turn of the loop of `require`; where the source says
`continue`, it returns. A request is read only for its `name` argument.
-/

namespace MsgServer.Authorization

open Session Policy Certificates

inductive Check where
  | read | write | list | traverse | create | remove | chmod | chgrp | chown | manage
  | certgate | toolUse | purge
  deriving DecidableEq

structure AccessRequirement where
  resourceId : String
  operation : String
  check : Check
  deriving DecidableEq

structure Context where
  principal : Principal
  entry : Entry
  now : Nat
  deriving DecidableEq

def writeChecks : List Check :=
  [.write, .create, .remove, .chmod, .chgrp, .chown, .manage, .certgate, .purge, .toolUse]

def isWrite (check : Check) : Bool := decide (check ∈ writeChecks)

def overrideCapability : Check → Option String
  | .read => some "resource.read_override"
  | .list => some "resource.read_override"
  | .traverse => some "resource.read_override"
  | .write => some "resource.write_override"
  | .chmod => some "resource.chmod_override"
  | .chgrp => some "resource.chgrp_override"
  | .chown => some "resource.chown"
  | .purge => some "resource.purge"
  | .toolUse => some "tool.use"
  | .create => none
  | .remove => none
  | .manage => none
  | .certgate => none

variable (app : App) (store : Store) (now : Nat)

def ownedCertificate (principal : Principal) (id : String) : Except Failure Certificate := do
  let cert ← validate app store now id
  require (some cert.keyId = principal.credentialId ∧ some cert.subjectId = principal.actor)
    "certificate_subject_mismatch"
  return cert

def grants (principal : Principal) : Except Failure (List CapabilityGrant) := do
  requireCurrent store
  requireLiveAuthority store
  let certificates ← principal.certificates.mapM (ownedCertificate app store now principal)
  return certificates.flatMap Certificate.grants

def isLocalRoot (principal : Principal) : Bool :=
  principal.method == .local && principal.subject == some rootSubject

def certified (principal : Principal) (capability operation resourceId : String) :
    Except Failure Bool := do
  let held ← grants app store now principal
  anyOf held fun grant => grantCovers app store grant capability operation resourceId

def hasUnderCeiling (principal : Principal) (capability operation resourceId : String) :
    Except Failure Bool := do
  let covered ← anyOf principal.ceiling fun grant =>
    grantCovers app store grant capability operation resourceId
  if covered then certified app store now principal capability operation resourceId
  else return false

def has (principal : Principal) (capability operation resourceId : String) :
    Except Failure Bool := do
  requireCurrent store
  if isLocalRoot principal then return true
  else hasUnderCeiling app store now principal capability operation resourceId

def operationInScope (operation resourceId : String) (grant : CapabilityGrant) :
    Except Failure Bool :=
  if operation ∈ grant.operations then scopeContains app store grant.scope resourceId
  else .ok false

def toolOutputOperations : List String :=
  ["discovery.get@1", "discovery.raw@1", "job.get@1", "transfer.open@1", "transfer.part_get@1",
    "transfer.status@1", "transfer.seal@1", "transfer.cancel@1"]

/-- The output of a tool run is readable by whoever may still use the tool. -/
def ownsToolOutput (principal : Principal) (operation resourceId : String) :
    Except Failure Bool :=
  match setting store.toolOutputs resourceId with
  | none => .ok false
  | some output =>
      if some output.subject = principal.subject then
        has app store now principal "tool.use" operation output.toolId
      else .ok false

def ceilingAllows (principal : Principal) (operation resourceId : String) :
    Except Failure Bool := do
  let allowed ← anyOf principal.ceiling (operationInScope app store operation resourceId)
  if allowed then return true
  else if operation ∈ toolOutputOperations then
    ownsToolOutput app store now principal operation resourceId
  else return false

def delegatedBySource (principal : Principal) (cert : Certificate) (source : ResourceRef) :
    Except Failure (List CapabilityGrant) := do
  let fact ← validateAuthority app store now source cert
  return if some fact.grantor = principal.subject then cert.grants else []

def delegatedBy (principal : Principal) (id : String) : Except Failure (List CapabilityGrant) := do
  let cert ← validate app store now id
  if cert.kind = .delegation then do
    let granted ← cert.authoritySources.mapM (delegatedBySource app store now principal cert)
    return granted.flatten
  else return []

def delegationCheck (principal : Principal) (operation resourceId : String) :
    Except Failure Unit :=
  if principal.actor = principal.subject then .ok ()
  else do
    let delegated ← principal.certificates.mapM (delegatedBy app store now principal)
    let allowed ← anyOf delegated.flatten (operationInScope app store operation resourceId)
    require (allowed = true) "delegation_scope"

def ceilingCheck (principal : Principal) (operation resourceId : String) :
    Except Failure Unit :=
  if principal.method = .anonymous then .ok ()
  else do
    let allowed ← ceilingAllows app store now principal operation resourceId
    require (allowed = true) "credential_ceiling"
    delegationCheck app store now principal operation resourceId

/-- `_ceiling`. -/
def ceiling (principal : Principal) (operation resourceId : String) : Except Failure Unit := do
  requireCurrent store
  requireLiveAuthority store
  ceilingCheck app store now principal operation resourceId

def baseInScope (operation resourceId : String) (grant : CapabilityGrant) :
    Except Failure Bool :=
  if grant.capability ∈ app.baseFamilies then operationInScope app store operation resourceId grant
  else .ok false

def ordinary (principal : Principal) (operation resourceId : String) : Except Failure Bool :=
  if principal.method = .anonymous ∨ principal.method = .local then .ok true
  else anyOf principal.ceiling (baseInScope app store operation resourceId)

def requireBase (principal : Principal) (operation resourceId : String) :
    Except Failure Unit := do
  ceiling app store now principal operation resourceId
  let allowed ← ordinary app store principal operation resourceId
  require (allowed = true) "credential_ceiling"

/-! Sharing. -/

def forbiddenShareIds : List String := ["r_agents", "r_rules", "t_last_will"]

def forbiddenShareTypes : List String :=
  ["tool", "csr", "certificate", "credential", "legacy_directive", "dm_conversation"]

/-- A child of a user's own resource under one of these names. -/
def personalChild (names : List String) : List Resource → Bool
  | parent :: child :: rest =>
      (parent.type == "user" && decide (child.name ∈ names)) || personalChild names (child :: rest)
  | _ => false

def directOf (id : String) : Option Conversation :=
  store.conversations.rows.find? fun row => row.resourceId == id

def previewOf (item : Resource) : Option String :=
  (setting store.hostingPreviews item.id).or (setting store.hostingPreviewFiles item.id)

def containerType (row : Resource) : Except Failure Bool :=
  requireRow (app.container row.type row.typeVersion) "unknown_resource_type"

def inactiveIn (chain : List Resource) : Bool := chain.any fun item => item.state != .active

def shareForbidden (chain : List Resource) : Bool :=
  chain.any (fun item => decide (item.id ∈ forbiddenShareIds) ||
      decide (item.type ∈ forbiddenShareTypes)) ||
    personalChild ["SOUL.md", "AGENTS.md", "todos"] chain ||
    chain.any (fun item => (previewOf store item).isSome) ||
    chain.any fun item => (directOf store item.id).isSome

/-- `share_target_error(...)` as a truth value. -/
def shareTargetError (row : Resource) (chain : List Resource) : Except Failure Bool :=
  if row.state ≠ .active ∨ inactiveIn chain = true then .ok true
  else do
    let container ← containerType app row
    return container || shareForbidden store chain

def catches {α : Type} (codes : List String) (body : Except Failure α) : Except Failure (Option α) :=
  match body with
  | .ok value => .ok (some value)
  | .error failure => if failure.code ∈ codes then .ok none else .error failure

def granteeGroup (id : String) : Except Failure Resource := do
  let group ← resource app store id
  organization store id
  return group

def granteeHolds (grant : ShareGrantV2) (subject : Option String) : Except Failure Bool :=
  match grant.granteeKind with
  | .user => .ok (decide (some grant.grantee = subject))
  | .group => do
      let group ← catches ["not_found", "group_not_found"] (granteeGroup app store grant.grantee)
      match group with
      | none => return false
      | some group =>
          return group.state == .active && decide (grant.grantee ∈ memberships store subject)
  | .other => .ok false

/-- The times and rights of one grant of a source chain. -/
def grantTimes (grant : ShareGrantV2) (childExpiry : Option Nat) (reshare : Bool) : Option Nat :=
  match grant.expiresAt, grant.createdAt with
  | some expires, some created =>
      if grant.operations = ["read"] ∧ grant.constraints = [] ∧ created ≤ now ∧ now < expires ∧
          created < expires ∧ (∀ child, childExpiry = some child → child ≤ expires) ∧
          (reshare = true → grant.allowReshare = true) then some expires
      else none
  | _, _ => none

/-- The loop of `share_source_active`; `left` is 16 less the size of `seen`. -/
def shareSourceLoop : Nat → List String → Resource → String → Option String → Option Nat → Bool →
    Except Failure Bool
  | 0, _, _, _, _, _, _ => .ok false
  | left + 1, seen, row, grantId, subject, childExpiry, reshare =>
      if grantId ∈ seen then .ok false
      else match store.shareGrantsV2.find? (fun grant => grant.id == grantId) with
        | none => .ok false
        | some grant =>
            if grant.resourceId ≠ row.id ∨ grant.revokedAt ≠ none then .ok false
            else match grantTimes now grant childExpiry reshare with
              | none => .ok false
              | some expires => do
                  let holds ← granteeHolds app store grant subject
                  if holds then
                    match grant.parentId with
                    | none => return decide (grant.grantor = row.owner)
                    | some parent =>
                        shareSourceLoop left (grantId :: seen) row parent (some grant.grantor)
                          (some expires) true
                  else return false

def shareSourceActive (row : Resource) (subject : Option String) (grantId : String) :
    Except Failure Bool := do
  let above ← ancestors app store row.id
  let forbidden ← shareTargetError app store row (above ++ [row])
  if forbidden then return false
  else shareSourceLoop app store now 16 [] row grantId subject none false

/-- A live grant of the first sharing contract. -/
def legacyShare (row : Resource) (subject : String) : Bool :=
  match store.shareGrants.find? (fun grant => grant.resourceId == row.id &&
      grant.grantee == subject && grant.revokedAt == none) with
  | none => false
  | some grant =>
      grant.grantor == row.owner && row.state == .active &&
        match grant.expiresAt, grant.createdAt with
        | some expires, some created => decide (created ≤ now ∧ now < expires)
        | _, _ => false

def shareCandidates (row : Resource) : List String :=
  (store.shareGrantsV2.filter fun grant =>
    grant.resourceId == row.id && grant.revokedAt == none &&
      match grant.expiresAt with
      | some expires => decide (now < expires)
      | none => true).map ShareGrantV2.id

def sharedReadSource (row : Resource) (chain : List Resource) (subject : String) :
    Except Failure Bool := do
  let forbidden ← shareTargetError app store row chain
  if forbidden then return false
  else if legacyShare store now row subject then return true
  else if row.state ≠ .active then return false
  else anyOf (shareCandidates store now row) (shareSourceActive app store now row (some subject))

def sharedRead (principal : Principal) (row : Resource) (chain : List Resource) :
    Except Failure Bool :=
  match principal.subject with
  | none => .ok false
  | some subject =>
      if principal.actor = some subject then sharedReadSource app store now row chain subject
      else .ok false

/-- The revocation boundary of a bearer link: its owner's signing key. -/
def linkCredential (grantor credentialId : String) : Except Failure (Option Credential) := do
  let found ← catches ["credential_not_found"] (credential store (some credentialId))
  return found.filter fun key =>
    key.subjectId == grantor && key.kind == .signingKey && liveAt now key

def ownerReads (row : Resource) (above : List Resource) (grantor : String) :
    Except Failure Bool := do
  let readable ← allows row (some grantor) (memberships store (some grantor)) .read
  if readable then
    allOf above fun ancestor =>
      allows ancestor (some grantor) (memberships store (some grantor)) .traverse
  else return false

def linkScope (key : Option Credential) (row : Resource) : Except Failure Bool :=
  match key with
  | none => .ok false
  | some key => anyOf key.ceiling (operationInScope app store "sharing.link_create@1" row.id)

def linkUnderOwner (grantor credentialId : String) (row : Resource) (above : List Resource) :
    Except Failure Bool := do
  let readable ← ownerReads store row above grantor
  if readable then do
    let key ← linkCredential store now grantor credentialId
    linkScope app store key row
  else return false

def shareLinkReadAllowed (grantor credentialId : String) (row : Resource)
    (above : List Resource) : Except Failure Bool := do
  requireCurrent store
  if quarantineActive store then return false
  else if row.owner ≠ grantor then return false
  else do
    let forbidden ← shareTargetError app store row (above ++ [row])
    if forbidden then return false
    else linkUnderOwner app store now grantor credentialId row above

/-! The guards of `require`, in the order of the source. -/

def presentationFiles : List String := ["ABOUT.md", "HEADER.svg"]

/-- `is_admin`: the membership row of the topic's only key. -/
def isAdmin (topic subject : String) : Bool :=
  subject == rootSubject ||
    match store.topicMemberships.find? (fun row => row.topic == topic && row.subject == subject) with
    | some row => row.admin && row.active
    | none => false

def canEdit (topic : Resource) (subject : Option String) : Bool :=
  match subject with
  | none => false
  | some subject => subject != "" && (subject == topic.owner || isAdmin store topic.id subject)

def presentationTopic (row : Resource) : Except Failure (Option Resource) :=
  match row.parent with
  | none => .ok none
  | some parent =>
      if row.type = "file" ∧ row.name ∈ presentationFiles ∧ parent ≠ "" then do
        let above ← resource app store parent
        return if above.type = "topic" then some above else none
      else .ok none

def presentationOf (row : Resource) (check : Check) (requestName : Option String) :
    Except Failure (Option Resource) := do
  let presentation ← presentationTopic app store row
  return if row.type = "topic" ∧ check = .create ∧
      (∃ name ∈ presentationFiles, requestName = some name) then some row else presentation

/-- Returns whether this is an edit of a board's presentation by its managers. -/
def presentationGuard (row : Resource) (check : Check) (requestName subject : Option String) :
    Except Failure Bool := do
  let presentation ← presentationOf app store row check requestName
  require (∀ topic, presentation = some topic → isWrite check = true →
    canEdit store topic subject = true) "topic_admin_required"
  return presentation.isSome && isWrite check

def watchGuard (row : Resource) : Except Failure Unit :=
  require (row.type ≠ "watch") "permission_denied"

def savedQueryGuard (row : Resource) (operation : String) (principal : Principal) :
    Except Failure Unit :=
  require (row.type = "saved_query" →
    (operation = "query.save@1" ∨ operation = "query.saved_archive@1") ∧
      principal.subject = principal.actor ∧ principal.actor = some row.owner) "permission_denied"

def wikiId : String := "t_wiki"

def wikiForbidden : List String :=
  ["content.move", "content.archive", "content.restore", "content.purge", "content.chmod",
    "content.chgrp", "content.chown", "content.topic_configure", "content.topic_policy_set",
    "file.delete", "content.topic_remove", "content.topic_promote", "content.topic_demote",
    "content.topic_ban", "content.topic_unban", "content.topic_invite", "content.topic_approve"]

/-- `operation.split('@')[0]`. -/
def operationName (operation : String) : String :=
  String.ofList (operation.toList.takeWhile fun letter => letter != '@')

def wikiMemberOperation (operation : String) : Bool :=
  "content.topic_member_".toList.isPrefixOf operation.toList

def protectWiki (chain : List Resource) (operation : String) : Except Failure Unit :=
  require ((∃ item ∈ chain, item.id = wikiId) →
    operationName operation ∉ wikiForbidden ∧ wikiMemberOperation operation = false)
    "wiki_shared_resource"

def wikiGuard (chain : List Resource) (check : Check) (operation : String)
    (subject : Option String) : Except Failure Unit :=
  if isWrite check = true ∧ subject ≠ some rootSubject then protectWiki chain operation else .ok ()

def previewGuard (chain : List Resource) (context : Context) : Except Failure Unit :=
  match chain.findSome? (previewOf store) with
  | none => .ok ()
  | some owner =>
      require (context.principal.subject = some owner ∨
        (context.principal.subject = some rootSubject ∧ context.entry = .localAdmin ∧
          context.principal.method = .local)) "permission_denied"

def systemGuard (chain : List Resource) (check : Check) : Except Failure Unit :=
  require (¬ (isWrite check = true ∧ ∃ item ∈ chain, item.id = "r_agents" ∨ item.id = "r_rules"))
    "system_managed_resource"

def legacyOperations : List String :=
  ["identity.legacy_put@1", "identity.legacy_put@2", "identity.legacy_archive@1"]

def legacyGuard (chain : List Resource) (row : Resource) (check : Check)
    (presentationEdit : Bool) (operation : String) (subject : Option String) :
    Except Failure Unit :=
  require (isWrite check = true ∧ presentationEdit = false ∧ (∃ item ∈ chain, item.id = "t_last_will") →
    operation ∈ legacyOperations ∧ subject = some row.owner) "legacy_directive_only"

def noteSharingOperations : List String :=
  ["sharing.grant@1", "sharing.grant@2", "sharing.revoke@1", "sharing.revoke@2",
    "sharing.link_create@1", "sharing.link_revoke@1"]

def personalOperations : List String :=
  ["identity.personal_put@1", "identity.note_put@1", "identity.personal_put@2",
    "identity.note_put@2", "identity.soul_visibility@1", "identity.note_archive@1",
    "identity.note_restore@1", "identity.todo_put@1", "identity.todo_put@2",
    "identity.todo_archive@1", "identity.todo_restore@1"]

def personalGuard (chain : List Resource) (row : Resource) (check : Check) (operation : String)
    (subject : Option String) : Except Failure Unit :=
  require (isWrite check = true ∧
      personalChild ["SOUL.md", "AGENTS.md", "notes", "todos"] chain = true →
    ((operation ∈ noteSharingOperations ∧
        personalChild ["SOUL.md", "AGENTS.md", "todos"] chain = false) ∨
      operation ∈ personalOperations) ∧ subject = some row.owner) "personal_managed_resource"

def bannedFrom (topic subject : String) : Bool :=
  match store.topicBans.find? (fun ban =>
      ban.topic == topic && ban.subject == subject && ban.active) with
  | none => false
  | some ban =>
      match ban.expiresAt with
      | none => true
      | some expires => decide (now < expires)

def banGuard (chain : List Resource) (check : Check) (subject : Option String) :
    Except Failure Unit :=
  match subject with
  | none => .ok ()
  | some subject =>
      require (¬ (isWrite check = true ∧
        ∃ item ∈ chain, item.type = "topic" ∧ bannedFrom store now item.id subject = true))
        "topic_banned"

def dmBlocked (direct : Conversation) : Bool :=
  decide ((direct.participantA, direct.participantB) ∈ store.dmBlocks) ||
    decide ((direct.participantB, direct.participantA) ∈ store.dmBlocks)

def participates (direct : Conversation) (subject : Option String) : Prop :=
  subject = some direct.participantA ∨ subject = some direct.participantB

instance (direct : Conversation) (subject : Option String) :
    Decidable (participates direct subject) := by
  unfold participates
  infer_instance

def isReading (check : Check) : Bool := check == .read || check == .list || check == .traverse

/-- What a participant may do below a conversation; there is no other way through. -/
def directAllowed (direct : Conversation) (row : Resource) (check : Check) (operation : String)
    (subject : Option String) : Except Failure Unit :=
  if isReading check then .ok ()
  else if check = .create ∧ row.id = direct.resourceId ∧
      operation = "communication.dm_send@1" ∧ direct.state = .active then
    require (dmBlocked store direct = false) "dm_blocked"
  else if check = .write ∧ row.type = "post" ∧ subject = some row.owner ∧
      operation = "content.post_edit@1" then
    require (direct.state = .active ∧ dmBlocked store direct = false) "dm_blocked"
  else .error { code := "dm_controlled_resource" }

def directGuard (direct : Conversation) (row : Resource) (check : Check) (operation : String)
    (subject : Option String) : Except Failure Unit := do
  require (participates direct subject) "permission_denied"
  directAllowed store direct row check operation subject

/-! Modes, gates and overrides outside conversations. -/

def toolAccess (principal : Principal) (row : Resource) (operation : String) :
    Except Failure Bool :=
  if row.type = "tool" then has app store now principal "tool.use" operation row.id else .ok false

def readShared (principal : Principal) (row : Resource) (chain : List Resource) (check : Check) :
    Except Failure Bool :=
  if check = .read then sharedRead app store now principal row chain else .ok false

def traversable (principal : Principal) (members : List String) (operation : String)
    (free : Bool) (ancestor : Resource) : Except Failure Bool := do
  let readable ← allows ancestor principal.subject members .traverse
  if readable || free then return true
  else has app store now principal "resource.read_override" operation ancestor.id

def traversalCheck (principal : Principal) (members : List String) (operation : String)
    (tool shared : Bool) (ancestor : Resource) : Except Failure Unit := do
  let passes ← traversable app store now principal members operation
    ((tool && ancestor.id == toolsSpace) || shared) ancestor
  require (passes = true) "permission_denied"
  require (ancestor.state = .active) "ancestor_inactive"

def gateCheck (principal : Principal) (operation resourceId : String) (ancestor : Resource) :
    Except Failure Unit :=
  if ancestor.mode &&& certgateBit ≠ 0 then do
    let held ← has app store now principal "resource.certified_write" operation resourceId
    require (held = true) "certificate_gate"
  else .ok ()

def writeGate (principal : Principal) (check : Check) (operation resourceId : String)
    (chain : List Resource) : Except Failure Unit :=
  if isWrite check then do
    require (principal.subject ≠ none) "authentication_required"
    chain.forM (gateCheck app store now principal operation resourceId)
  else .ok ()

def bothBits (row : Resource) (subject : Option String) (members : List String) :
    Except Failure Bool := do
  let writable ← allows row subject members .write
  if writable then allows row subject members .traverse else return false

/-- The check's own rule, before base capabilities and overrides. -/
def checkAllowed (principal : Principal) (row : Resource) (members : List String) (check : Check)
    (operation : String) (shared : Bool) : Except Failure Bool :=
  match check with
  | .certgate => has app store now principal "resource.certified_write" operation row.id
  | .chmod | .chgrp | .manage => .ok (decide (principal.subject = some row.owner))
  | .create | .remove => bothBits row principal.subject members
  | .chown | .purge | .toolUse => .ok false
  | .read => do
      let readable ← allows row principal.subject members .read
      return readable || shared
  | .write => allows row principal.subject members .write
  | .list => allows row principal.subject members .list
  | .traverse => allows row principal.subject members .traverse

def ordinaryOrOutput (principal : Principal) (row : Resource) (check : Check) (operation : String) :
    Except Failure Bool := do
  let plain ← ordinary app store principal operation row.id
  if !plain && check == .read then ownsToolOutput app store now principal operation row.id
  else return plain

def overridden (principal : Principal) (row : Resource) (check : Check) (operation : String) :
    Except Failure Bool :=
  match overrideCapability check with
  | none => .ok false
  | some capability => has app store now principal capability operation row.id

def finalCheck (principal : Principal) (row : Resource) (members : List String) (check : Check)
    (operation : String) (shared presentationEdit : Bool) : Except Failure Unit := do
  let allowed ← checkAllowed app store now principal row members check operation shared
  let plain ← ordinaryOrOutput app store now principal row check operation
  if (allowed || (presentationEdit && (check == .write || check == .create))) && plain then
    return ()
  else do
    let override ← overridden app store now principal row check operation
    require (override = true) "permission_denied"

def csrCheck (principal : Principal) (row : Resource) (operation : String) :
    Except Failure Unit := do
  let request ← csr store row.id
  require (some request.requestedIssuer = principal.subject) "permission_denied"
  let held ← has app store now principal "cert.issue" operation row.id
  require (held = true) "permission_denied"

def controlledCheck (principal : Principal) (row : Resource) (members : List String)
    (check : Check) (operation : String) (tool shared presentationEdit : Bool) :
    Except Failure Unit :=
  if row.type = "tool" then do
    require (tool = true) "tool_certificate_required"
    require (check = .read ∨ check = .toolUse) "tool_read_only"
  else if row.type = "csr" ∧ check = .read ∧ principal.subject ≠ some row.owner then
    csrCheck app store now principal row operation
  else finalCheck app store now principal row members check operation shared presentationEdit

def modeCheck (principal : Principal) (row : Resource) (above : List Resource)
    (members : List String) (check : Check) (operation : String) (presentationEdit : Bool) :
    Except Failure Unit := do
  let tool ← toolAccess app store now principal row operation
  require (row.type = "tool" → tool = true) "tool_certificate_required"
  let shared ← readShared app store now principal row (above ++ [row]) check
  above.forM (traversalCheck app store now principal members operation tool shared)
  writeGate app store now principal check operation row.id (above ++ [row])
  controlledCheck app store now principal row members check operation tool shared presentationEdit

/-- Conversations are decided here and nowhere else: the first one of the chain. -/
def directOrMode (context : Context) (row : Resource) (above : List Resource)
    (members : List String) (check : Check) (operation : String) (presentationEdit : Bool) :
    Except Failure Unit :=
  match (above ++ [row]).findSome? fun item => directOf store item.id with
  | some direct => directGuard store direct row check operation context.principal.subject
  | none => modeCheck app store now context.principal row above members check operation
      presentationEdit

def requireCheck (context : Context) (requestName : Option String) (members : List String)
    (check : AccessRequirement) : Except Failure Unit := do
  let row ← resource app store check.resourceId
  watchGuard row
  savedQueryGuard row check.operation context.principal
  ceiling app store now context.principal check.operation row.id
  let above ← ancestors app store row.id
  let presentationEdit ← presentationGuard app store row check.check requestName
    context.principal.subject
  wikiGuard (above ++ [row]) check.check check.operation context.principal.subject
  previewGuard store (above ++ [row]) context
  systemGuard (above ++ [row]) check.check
  legacyGuard (above ++ [row]) row check.check presentationEdit check.operation
    context.principal.subject
  personalGuard (above ++ [row]) row check.check check.operation context.principal.subject
  banGuard store context.now (above ++ [row]) check.check context.principal.subject
  directOrMode app store now context row above members check.check check.operation presentationEdit

def rootGuard (context : Context) : Except Failure Unit :=
  require (context.principal.subject = some rootSubject ∨ context.principal.actor = some rootSubject →
    context.entry = .localAdmin ∧ context.principal.method = .local) "local_only"

/-- `AuthorizationService.require`; `now` is the validator's clock and `context.now`
the time of the request. It returns the references of the attached certificates. -/
def requireAccess (context : Context) (requestName : Option String)
    (checks : List AccessRequirement) : Except Failure (List ResourceRef) := do
  requireCurrent store
  requireLiveAuthority store
  rootGuard context
  checks.forM (requireCheck app store now context requestName
    (memberships store context.principal.subject))
  return context.principal.certificates.map fun id => { id := id }

def hiddenCodes : List String :=
  ["permission_denied", "credential_ceiling", "certificate_gate", "tool_certificate_required",
    "delegation_scope", "ancestor_inactive"]

/-- `discovery.visible`: one read check whose expected refusals mean invisible. -/
def visible (context : Context) (requestName : Option String) (operation resourceId : String) :
    Except Failure Bool := do
  let shown ← catches hiddenCodes (requireAccess app store now context requestName
    [⟨resourceId, operation, .read⟩])
  return shown.isSome

variable {app store now}

theorem catches_some {α : Type} {codes : List String} {body : Except Failure α} {value : α}
    (caught : catches codes body = .ok (some value)) : body = .ok value := by
  unfold catches at caught
  split at caught
  · cases caught
    rfl
  · split at caught <;> cases caught

/-- What one passed check says about the conversation it is decided by. -/
theorem requireCheck_direct {context : Context} {requestName : Option String}
    {members : List String} {check : AccessRequirement} {done : Unit}
    (passed : requireCheck app store now context requestName members check = .ok done) :
    ∃ row above, resource app store check.resourceId = .ok row ∧
      ancestors app store row.id = .ok above ∧
      ∀ direct, ((above ++ [row]).findSome? fun item => directOf store item.id) = some direct →
        participates direct context.principal.subject ∧
          directAllowed store direct row check.check check.operation
            context.principal.subject = .ok () := by
  simp only [requireCheck, Library.Program.except_bind_ok] at passed
  obtain ⟨row, found, _, _, _, _, _, _, above, climbed, _, _, _, _, _, _, _, _, _, _, _, _, _, _,
    decided⟩ := passed
  refine ⟨row, above, found, climbed, ?_⟩
  intro direct first
  simp only [directOrMode, first, directGuard, Library.Program.except_bind_ok, require_ok] at decided
  obtain ⟨_, inside, allowed⟩ := decided
  exact ⟨inside, allowed⟩

theorem requireAccess_check {context : Context} {requestName : Option String}
    {checks : List AccessRequirement} {refs : List ResourceRef}
    (passed : requireAccess app store now context requestName checks = .ok refs) :
    ∀ check ∈ checks, requireCheck app store now context requestName
      (memberships store context.principal.subject) check = .ok () := by
  simp only [requireAccess, Library.Program.except_bind_ok] at passed
  obtain ⟨_, _, _, _, _, _, _, all, _⟩ := passed
  exact (Library.Program.except_forM_ok _ _ _).mp all

/-- A chain with a conversation in it cannot be shared, with anybody. -/
theorem shareTargetError_direct {row : Resource} {chain : List Resource} {item : Resource}
    (member : item ∈ chain) (direct : directOf store item.id ≠ none) {answer : Bool}
    (asked : shareTargetError app store row chain = .ok answer) : answer = true := by
  unfold shareTargetError at asked
  split at asked
  · exact (Except.ok.inj asked).symm
  · obtain ⟨container, _, shape⟩ := (Library.Program.except_bind_ok _ _ _).mp asked
    have hit : chain.any (fun other => (directOf store other.id).isSome) = true :=
      List.any_eq_true.mpr ⟨item, member, Option.isSome_iff_ne_none.mpr direct⟩
    have forbidden : shareForbidden store chain = true := by
      simp [shareForbidden, hit]
    rw [forbidden, Bool.or_true] at shape
    exact (Except.ok.inj shape).symm

theorem shareLink_direct {grantor credentialId : String} {row item : Resource}
    {above : List Resource} (member : item ∈ above ++ [row])
    (direct : directOf store item.id ≠ none) :
    shareLinkReadAllowed app store now grantor credentialId row above ≠ .ok true := by
  intro allowed
  obtain ⟨_, _, later⟩ := (Library.Program.except_bind_ok _ _ _).mp allowed
  split at later
  · cases later
  · split at later
    · cases later
    · obtain ⟨forbidden, asked, answer⟩ := (Library.Program.except_bind_ok _ _ _).mp later
      rw [shareTargetError_direct member direct asked] at answer
      cases answer

end MsgServer.Authorization
