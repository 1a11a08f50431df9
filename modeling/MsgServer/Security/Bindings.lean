import MsgServer.Security.Attenuation
import MsgServer.Storage.Accounts

/-!
`require_source` and `require_binding` of security/oauth.py: what a token that was
made with somebody's authority still needs of that authority each time it is used.
-/

namespace MsgServer.Bindings

open Library Session Policy Certificates Attenuation Accounts

def invalidGrant : String := "invalid_grant"

/-- `get`: a row of oauth_states that has not expired. -/
def current {β : Type} (table : Expirings β) (id : String) (now : Nat) :
    Except Failure (Expiring β) := do
  let row ← requireRow (table.find? id) invalidGrant
  require (now < row.expires) invalidGrant
  return row

@[simp] theorem current_ok {β : Type} (table : Expirings β) (id : String) (now : Nat)
    (row : Expiring β) :
    current table id now = .ok row ↔ table.find? id = some row ∧ now < row.expires := by
  simp only [current, Program.except_bind_ok, requireRow_ok, require_ok, Program.except_pure,
    Except.ok.injEq]
  constructor
  · rintro ⟨found, atId, _, live, rfl⟩
    exact ⟨atId, live⟩
  · rintro ⟨atId, live⟩
    exact ⟨row, atId, (), live, rfl⟩

variable (app : Installation) (state : State)

def ceilingCovered (parent : List CapabilityGrant) (grant : CapabilityGrant) :
    Except Failure Unit := do
  let covered ← anyOf parent fun allowed => attenuates app.toApp state.view grant allowed
  require (covered = true) invalidGrant

def requireCeiling (ceiling parent : List CapabilityGrant) : Except Failure Unit :=
  ceiling.forM (ceilingCovered app state parent)

/-- A custodial source is bound to the live key of its vault. -/
def custodialSource (own : OwnSource) (subject : Subject) (parent : StoredCredential) :
    Except Failure Unit :=
  if own.custodial then
    require (subject.kind = .custodial ∧ (state.vaults.find? subject.resourceId).map (fun row =>
      (row.signingKeyId, row.status)) = some (parent.id, .active)) invalidGrant
  else .ok ()

def requireOwnSource (own : OwnSource) (now : Nat) : Except Failure Subject := do
  let parent ← storedCredential state own.parent
  let row ← subject state.store own.subject
  require (parent.subjectId = row.resourceId ∧ row.localOnly = false ∧
    row.authVersion = own.authVersion ∧ liveAt now parent.toCredential = true) invalidGrant
  custodialSource state own row parent
  requireCeiling app state own.ceiling
    (if own.custodial then app.temporaryCeiling else parent.ceiling)
  return row

def sessionSource (session : Option String) (now : Nat) : Except Failure Unit :=
  match session with
  | none => .ok ()
  | some id => do
      let row ← current state.oauth.sessions id now
      require (row.body.revoked = false) invalidGrant
      let _ ← requireOwnSource app state row.body.own now
      return ()

def requireSource (source : Source) (now : Nat) : Except Failure Subject := do
  let row ← requireOwnSource app state source.own now
  sessionSource app state source.session now
  return row

def clientFor (clientId : String) : Except Failure OAuthClient := do
  let config ← requireRow app.oauth "oauth_disabled"
  require (config.enabled = true) "oauth_disabled"
  requireRow (config.clients.find? fun client => client.clientId == clientId) "invalid_client"

def oauthEnabled : Except Failure Unit := do
  let config ← requireRow app.oauth "oauth_disabled"
  require (config.enabled = true) "oauth_disabled"

def idPrefix (kind id : String) : Bool := kind.toList.isPrefixOf id.toList

/-- Names that no derived token may call. -/
def restricted (spec : OperationSpec) : Bool :=
  idPrefix "identity." spec.name || idPrefix "root." spec.name || idPrefix "system." spec.name

/-- `replace(g, operations=g.operations & operations)` of the grants that keep any. -/
def limitedTo (operations : List String) (ceiling : List CapabilityGrant) : List CapabilityGrant :=
  (ceiling.map fun grant =>
    { grant with operations := grant.operations.filter fun name => decide (name ∈ operations) }).filter
      fun grant => grant.operations != []

def browserBinding (row : StoredCredential) (source : Source) (now : Nat) :
    Except Failure Unit := do
  oauthEnabled app
  require (row.sourceCredentialId = some source.own.parent ∧ row.subjectId = source.own.subject)
    invalidGrant
  let _ ← requireSource app state source now
  requireCeiling app state row.ceiling source.own.ceiling

/-- An API key stores no captured ceiling: its own stays within its parent's. -/
def apiBinding (row : StoredCredential) (now : Nat) : Except Failure Unit :=
  match state.oauth.apis.find? row.id with
  | none => .ok ()
  | some api => do
      require (row.sourceCredentialId = some api.body.parent) invalidGrant
      let _ ← requireOwnSource app state api.body now
      let parent ← storedCredential state api.body.parent
      requireCeiling app state row.ceiling parent.ceiling

def unboundToken (row : StoredCredential) : Except Failure Unit :=
  require (idPrefix "t_oauth_" row.id = false ∧ idPrefix "t_browser_" row.id = false ∧
    (row.sourceCredentialId = none ∨ state.oauth.apis.find? row.id ≠ none)) invalidGrant

def accessBinding (row : StoredCredential) (familyId : String) (now : Nat) :
    Except Failure Unit := do
  let family ← current state.oauth.families familyId now
  require (row.sourceCredentialId = some family.body.source.own.parent) invalidGrant
  let client ← clientFor app family.body.clientId
  require ((∀ scope ∈ family.body.scopes, scope ∈ client.scopes) ∧ family.body.revoked = false)
    invalidGrant
  let _ ← requireSource app state family.body.source now
  requireCeiling app state row.ceiling family.body.source.own.ceiling

def requireBinding (row : StoredCredential) (now : Nat) : Except Failure Unit :=
  match state.oauth.browsers.find? row.id with
  | some browser => browserBinding app state row browser.body now
  | none => do
      apiBinding app state row now
      match state.oauth.accesses.find? row.id with
      | none => unboundToken state row
      | some access => accessBinding app state row access.body now

variable {app state}

theorem requireCeiling_covered {ceiling parent : List CapabilityGrant} {done : Unit}
    (passed : requireCeiling app state ceiling parent = .ok done) :
    Covered app.toApp state.view ceiling parent := by
  intro grant member
  have one := (Program.except_forM_ok _ _ _).mp passed grant member
  simp only [ceilingCovered, Program.except_bind_ok, require_ok] at one
  obtain ⟨covered, hit, rfl⟩ := one
  obtain ⟨allowed, inParent, within⟩ := anyOf_true hit
  exact ⟨allowed, inParent, (attenuates_true _ _).mp within⟩

/-- A source that passes is live and its subject has not moved on. -/
structure LiveSource (app : Installation) (state : State) (own : OwnSource) (now : Nat) : Prop where
  parent : ∃ parent, state.credentials.find? own.parent = some parent ∧
    liveAt now parent.toCredential = true
  subject : ∃ row, state.store.subjects.find? own.subject = some row ∧
    row.authVersion = own.authVersion

theorem requireOwnSource_live {own : OwnSource} {now : Nat} {row : Subject}
    (passed : requireOwnSource app state own now = .ok row) : LiveSource app state own now := by
  simp only [requireOwnSource, storedCredential, subject, Program.except_bind_ok, requireRow_ok,
    require_ok] at passed
  obtain ⟨parent, atParent, subject, atSubject, _, ⟨_, _, version, live⟩, _⟩ := passed
  exact ⟨⟨parent, atParent, live⟩, ⟨subject, atSubject, version⟩⟩

end MsgServer.Bindings
