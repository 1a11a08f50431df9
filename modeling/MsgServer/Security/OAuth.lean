import MsgServer.Security.Bindings

/-!
security/oauth.py with the endpoints of transports/oauth_http.py that write. Every act is
one transaction: an error that is returned commits what was written before it, one that is
raised does not. Random values come with the act as its draws, and the tables are keyed by
their hashes. The id token, the pages and the parameters with one admissible value are
left out.
-/

namespace MsgServer.OAuth

open Library Session Policy Certificates Accounts Bindings

structure Draws where
  family : String
  credential : String
  value : String
  refresh : String
  cookie : String
  deriving DecidableEq

inductive Grant where
  | device (deviceCode : String)
  | code (code redirectUri verifier : String)
  | refresh (token : String)
  deriving DecidableEq

/-- A token handed in for revocation: one that starts with `t_oauth_`, or any other. -/
inductive Presented where
  | access (drawn secret : String)
  | refresh (token : String)
  deriving DecidableEq

structure AuthorizeArguments where
  clientId : String
  redirectUri : String
  scopes : List String
  challenge : String
  nonce : Option String
  deriving DecidableEq

inductive Act where
  | rate (address : String)
  | pending (kind : PendingKind) (clientId : String) (scopes : List String) (value code : String)
  | approve (principal : Principal) (code : String) (approved : Bool)
  | consent (cookie code : String) (approved : Bool)
  | login (value : String) (draws : Draws)
  | authorize (cookie : String) (arguments : AuthorizeArguments) (value : String)
  | exchange (clientId : String) (grant : Grant) (draws : Draws)
  | revoke (clientId : String) (presented : Presented)
  | logout (cookie : String)
  deriving DecidableEq

inductive Answer where
  | done
  | refused (error : String)
  | session (cookie : String) (expires : Nat)
  | tokens (credentialId secret : String) (scopes : List String) (refresh : Option String)
  deriving DecidableEq

variable (app : Installation) (state : State) (now : Nat)

def fence : Except Failure OAuthConfig := do
  let config ← requireRow app.oauth "oauth_disabled"
  require (config.enabled = true) "oauth_disabled"
  requireCurrent state.store
  requireLiveAuthority state.store
  return config

/-- `save`. -/
def saveBody {β : Type} (table : Expirings β) (id : String) (body : β) : Expirings β :=
  table.modify id fun row => { row with body := body }

def unexpired {β : Type} (now : Nat) (table : Expirings β) : Expirings β :=
  table.keep fun row => decide (now < row.expires)

/-- `DELETE FROM oauth_states WHERE expires<=?`. -/
def purge (now : Nat) (states : OAuthStates) : OAuthStates where
  pendings := unexpired now states.pendings
  polls := unexpired now states.polls
  sessions := unexpired now states.sessions
  browsers := unexpired now states.browsers
  codes := unexpired now states.codes
  families := unexpired now states.families
  refreshes := unexpired now states.refreshes
  accesses := unexpired now states.accesses
  apis := unexpired now states.apis
  rates := unexpired now states.rates

def size (states : OAuthStates) : Nat :=
  states.pendings.rows.length + states.polls.rows.length + states.sessions.rows.length +
    states.browsers.rows.length + states.codes.rows.length + states.families.rows.length +
    states.refreshes.rows.length + states.accesses.rows.length + states.apis.rows.length +
    states.rates.rows.length

def countedRate (states : OAuthStates) (id : String) : Expiring Nat :=
  (states.rates.find? id).getD ⟨id, now + app.seconds 600, 0⟩

def rate (address : String) : Except Failure (State × Answer) := do
  let _ ← fence app state
  let states := purge now state.oauth
  let row := countedRate app now states (app.sha256 address)
  require (row.body < 120) "slow_down"
  require (size states < 100000) "temporarily_unavailable"
  let rates := states.rates.put { row with body := row.body + 1 }
  return ({ state with oauth := { states with rates := rates } }, .done)

def scopesFor (client : OAuthClient) (scopes : List String) : Except Failure Unit :=
  require (scopes ≠ [] ∧ ∀ scope ∈ scopes, scope ∈ client.scopes) "invalid_scope"

def startPending (kind : PendingKind) (clientId : String) (scopes : List String)
    (value code : String) : Except Failure (State × Answer) := do
  let _ ← fence app state
  let client ← clientFor app clientId
  scopesFor client scopes
  let pendings := state.oauth.pendings.put ⟨app.sha256 code, now + app.seconds 600,
    { kind := kind, clientId := clientId, scopes := scopes, status := .pending,
      poll := app.sha256 value, interval := 5, nextPoll := now, source := none }⟩
  let polls := state.oauth.polls.put ⟨app.sha256 value, now + app.seconds 600, app.sha256 code⟩
  return ({ state with oauth := { state.oauth with pendings := pendings, polls := polls } }, .done)

/-- `source`: what the approving principal lends. -/
def lentBy (principal : Principal) : Except Failure OwnSource := do
  let id ← requireRow principal.subject "identity_owner_required"
  require (principal.actor = some id) "identity_owner_required"
  let row ← subject state.store id
  require ((row.kind = .registered ∨ row.kind = .custodial) ∧ row.localOnly = false)
    "registered_identity_required"
  require (principal.method = .signature ∨ (row.kind = .custodial ∧ principal.method = .token))
    "signature_required"
  let parent ← parentOf row
  return {
    subject := row.resourceId
    parent := parent
    authVersion := row.authVersion
    custodial := row.kind == .custodial
    ceiling := principal.ceiling
    authTime := now }
where
  parentOf (row : Subject) : Except Failure String :=
    if row.kind = .custodial then do
      let vault ← requireRow (state.vaults.find? row.resourceId) "custodial_vault_unavailable"
      require (vault.status = .active) "custodial_vault_unavailable"
      return vault.signingKeyId
    else requireRow principal.credentialId "credential_not_found"

def decided (row : Pending) (source : Option Source) : Pending :=
  match source with
  | some lent => { row with status := .approved, source := some lent }
  | none => { row with status := .denied }

def approve (principal : Principal) (code : String) (approved : Bool) :
    Except Failure (State × Answer) := do
  let _ ← fence app state
  let row ← current state.oauth.pendings (app.sha256 code) now
  require (row.body.status = .pending) invalidGrant
  let _ ← clientFor app row.body.clientId
  let own ← lentBy state now principal
  let body := decided row.body (if approved then some ⟨own, none⟩ else none)
  let pendings := saveBody state.oauth.pendings row.id body
  return ({ state with oauth := { state.oauth with pendings := pendings } }, .done)

/-- `session`: a browser session that is still good, as the source of a grant. -/
def sessionOf (cookie : String) : Except Failure (Nat × Source) := do
  let _ ← fence app state
  let row ← current state.oauth.sessions (app.sha256 cookie) now
  require (row.body.revoked = false) invalidGrant
  let _ ← requireOwnSource app state row.body.own now
  return (row.expires, ⟨row.body.own, some row.id⟩)

/-- The form of the consent page for a device. -/
def consent (cookie code : String) (approved : Bool) : Except Failure (State × Answer) := do
  let _ ← fence app state
  let row ← current state.oauth.pendings (app.sha256 code) now
  require (row.body.kind = .device ∧ row.body.status = .pending) invalidGrant
  let _ ← clientFor app row.body.clientId
  let session ← sessionOf app state now cookie
  let body := decided row.body (if approved then some session.2 else none)
  let pendings := saveBody state.oauth.pendings row.id body
  return ({ state with oauth := { state.oauth with pendings := pendings } }, .done)

def cut (limit : Option Nat) (expiry : Nat) : Nat :=
  match limit with
  | none => expiry
  | some bound => min expiry bound

def sessionEnd (session : Option String) : Except Failure (Option Nat) :=
  match session with
  | none => .ok none
  | some id => do
      let row ← current state.oauth.sessions id now
      return some row.expires

/-- The end of a new family: no later than its session's and its parent's. -/
def familyEnd (config : OAuthConfig) (source : Source) : Except Failure Nat := do
  let ends ← sessionEnd state now source.session
  let parent ← storedCredential state source.own.parent
  return cut parent.expiresAt (cut ends (now + config.sessionTtl))

def grantedOperations (scopes : List String) : List String :=
  (app.operations.filter fun spec => !spec.requireSignature && !restricted spec &&
    ((decide ("msg.read" ∈ scopes) && spec.effect == .read) ||
      (decide ("msg.write" ∈ scopes) && spec.effect != .read))).map OperationSpec.id

def accessRow (familyEnd now : Nat) (config : OAuthConfig) (subject : Subject) (family : Family)
    (draws : Draws) : StoredCredential where
  id := "t_oauth_" ++ draws.credential
  subjectId := subject.resourceId
  kind := .token
  verifier := app.sha256 draws.value
  ceiling := limitedTo (grantedOperations app family.scopes) family.source.own.ceiling
  notBefore := now
  expiresAt := some (min familyEnd (now + config.accessTtl))
  revokedAt := none
  sourceCredentialId := some family.source.own.parent

/-- `tokens` of a family that is there. -/
def tokens (config : OAuthConfig) (familyId : String) (expiry : Nat) (family : Family)
    (draws : Draws) : Except Failure (State × Answer) := do
  let subject ← requireSource app state family.source now
  let row := accessRow app expiry now config subject family draws
  let saved ← saveCredential state row subject.authVersion
  let accesses := saved.oauth.accesses.put
    ⟨row.id, min expiry (now + config.accessTtl), familyId⟩
  let offline := decide ("offline_access" ∈ family.scopes)
  let refreshes := if offline then
      saved.oauth.refreshes.put ⟨app.sha256 draws.refresh, expiry, ⟨familyId, false⟩⟩
    else saved.oauth.refreshes
  return ({ saved with oauth := { saved.oauth with accesses := accesses, refreshes := refreshes } },
    .tokens row.id draws.value family.scopes (if offline then some draws.refresh else none))

def openFamily (familyId : String) (expiry : Nat) (family : Family) : State :=
  { state with oauth := { state.oauth with
      families := state.oauth.families.put ⟨familyId, expiry, family⟩ } }

def browserWrites : List String :=
  ["content.post_create", "content.public_board_update", "content.post_edit", "discussion.like",
    "discussion.unlike", "discussion.bookmark", "discussion.unbookmark", "discussion.reply",
    "discussion.fork", "discussion.prove", "communication.follow", "communication.unfollow"]

def browserOperations (scopes : List String) : List String :=
  (app.operations.filter fun spec =>
    (spec.effect == .read || (decide ("msg.write" ∈ scopes) &&
        decide (spec.name ∈ browserWrites) && spec.version == 1)) &&
      !spec.requireSignature && !spec.anonymousOnly && !restricted spec).map OperationSpec.id

def wikiWrites : List String := ["content.post_create@1", "content.post_edit@1"]

def wikiScope : Scope := ⟨"t_wiki", true⟩

/-- The operations of a grant inside the set. -/
def within (operations : List String) (grant : CapabilityGrant) : CapabilityGrant :=
  { grant with operations := grant.operations.filter fun name => decide (name ∈ operations) }

/-- Writes to posts stay inside the wiki. -/
def wikiGrant (shared : CapabilityGrant) : Except Failure (List CapabilityGrant) := do
  let above ← scopeSubset app.toApp state.view wikiScope shared.scope
  if above then return [{ shared with scope := wikiScope }]
  else do
    let below ← scopeSubset app.toApp state.view shared.scope wikiScope
    return if below then [shared] else []

def browserGrant (operations : List String) (grant : CapabilityGrant) :
    Except Failure (List CapabilityGrant) := do
  let general := within (operations.filter fun name => decide (name ∉ wikiWrites)) grant
  let shared := within (operations.filter fun name => decide (name ∈ wikiWrites)) grant
  let wiki ← if shared.operations = [] then .ok [] else wikiGrant app state shared
  return (if general.operations = [] then [] else [general]) ++ wiki

def browserCeiling (scopes : List String) (ceiling : List CapabilityGrant) :
    Except Failure (List CapabilityGrant) := do
  let parts ← ceiling.mapM (browserGrant app state (browserOperations app scopes))
  return parts.flatten

/-- The login of a browser: a session, and a token that the server keeps for it. -/
def openSession (config : OAuthConfig) (body : Pending) (source : Source) (draws : Draws) :
    Except Failure (State × Answer) := do
  let parent ← storedCredential state source.own.parent
  let expiry := cut parent.expiresAt (now + config.sessionTtl)
  let ceiling ← browserCeiling app state body.scopes source.own.ceiling
  let row : StoredCredential :=
    { id := "t_browser_" ++ draws.credential
      subjectId := source.own.subject
      kind := .token
      verifier := app.sha256 (app.browserSecret draws.cookie)
      ceiling := ceiling
      notBefore := now
      expiresAt := some expiry
      revokedAt := none
      sourceCredentialId := some source.own.parent }
  let saved ← saveCredential state row source.own.authVersion
  let sessionId := app.sha256 draws.cookie
  let sessions := saved.oauth.sessions.put
    ⟨sessionId, expiry, ⟨source.own, body.scopes, some row.id, false⟩⟩
  let browsers := saved.oauth.browsers.put ⟨row.id, expiry, ⟨source.own, some sessionId⟩⟩
  return ({ saved with oauth := { saved.oauth with sessions := sessions, browsers := browsers } },
    .session draws.cookie expiry)

def savePending (id : String) (body : Pending) : State :=
  { state with oauth := { state.oauth with pendings := saveBody state.oauth.pendings id body } }

/-- An approved request is used up, for a session or for the first tokens of a family. -/
def redeem (config : OAuthConfig) (id : String) (body : Pending) (draws : Draws) :
    Except Failure (State × Answer) := do
  let source ← requireRow body.source "internal_error"
  let _ ← requireSource app state source now
  let used := savePending state id { body with status := .consumed }
  match body.kind with
  | .login => openSession app used now config body source draws
  | .device => do
      let ends ← familyEnd used now config source
      let family : Family := ⟨source, body.clientId, body.scopes, false⟩
      tokens app (openFamily used draws.family ends family) now config draws.family ends family draws

/-- `pending_result`. A poll that comes too early is answered, and counted, too. -/
def pendingResult (config : OAuthConfig) (value clientId : String) (kind : PendingKind)
    (draws : Draws) : Except Failure (State × Answer) := do
  let poll ← current state.oauth.polls (app.sha256 value) now
  let row ← current state.oauth.pendings poll.body now
  require (row.body.clientId = clientId ∧ row.body.kind = kind) invalidGrant
  require (row.body.status ≠ .consumed) invalidGrant
  if now < row.body.nextPoll then
    return (savePending state row.id { row.body with
      interval := row.body.interval + 5
      nextPoll := now + app.seconds (row.body.interval + 5) }, .refused "slow_down")
  else
    let body := { row.body with nextPoll := now + app.seconds row.body.interval }
    match row.body.status with
    | .pending => return (savePending state row.id body, .refused "authorization_pending")
    | .denied => return (savePending state row.id body, .refused "access_denied")
    | _ => redeem app (savePending state row.id body) now config row.id body draws

def login (value : String) (draws : Draws) : Except Failure (State × Answer) := do
  let config ← fence app state
  pendingResult app state now config value "msg-cli" .login draws

def challengeShape (challenge : String) : Bool :=
  challenge.length == 43 && challenge.toList.all fun letter =>
    letter.isAlphanum || letter == '-' || letter == '_'

/-- `authorization` and `authorize`. -/
def authorize (cookie : String) (arguments : AuthorizeArguments) (value : String) :
    Except Failure (State × Answer) := do
  let _ ← fence app state
  let client ← clientFor app arguments.clientId
  require (arguments.redirectUri ∈ client.redirectUris) "invalid_redirect_uri"
  require (challengeShape arguments.challenge = true) "invalid_request"
  scopesFor client arguments.scopes
  let session ← sessionOf app state now cookie
  let codes := state.oauth.codes.put ⟨app.sha256 value, min session.1 (now + app.seconds 60),
    { source := session.2, clientId := arguments.clientId, scopes := arguments.scopes,
      redirectUri := arguments.redirectUri, challenge := arguments.challenge,
      nonce := arguments.nonce, consumed := false, family := none }⟩
  return ({ state with oauth := { state.oauth with codes := codes } }, .done)

def revokeFamily (id : String) (body : Family) : State :=
  { state with oauth := { state.oauth with
      families := saveBody state.oauth.families id { body with revoked := true } } }

def verifierShape (verifier : String) : Bool :=
  decide (43 ≤ verifier.length ∧ verifier.length ≤ 128) && verifier.toList.all fun letter =>
    letter.isAlphanum || letter == '-' || letter == '.' || letter == '_' || letter == '~'

/-- A code that was used before comes back from its own client: its family is revoked. -/
def replayCode (body : Code) : Except Failure (State × Answer) := do
  let id ← requireRow body.family "internal_error"
  let family ← current state.oauth.families id now
  return (revokeFamily state family.id family.body, .refused invalidGrant)

def redeemCode (config : OAuthConfig) (clientId redirectUri verifier : String)
    (row : Expiring Code) (draws : Draws) : Except Failure (State × Answer) := do
  require (verifierShape verifier = true) invalidGrant
  require (row.body.consumed = false ∧ row.body.clientId = clientId ∧
    row.body.redirectUri = redirectUri ∧ row.body.challenge = app.sha256 verifier) invalidGrant
  let _ ← requireSource app state row.body.source now
  let codes := saveBody state.oauth.codes row.id
    { row.body with consumed := true, family := some draws.family }
  let used := { state with oauth := { state.oauth with codes := codes } }
  let ends ← familyEnd used now config row.body.source
  let family : Family := ⟨row.body.source, row.body.clientId, row.body.scopes, false⟩
  tokens app (openFamily used draws.family ends family) now config draws.family ends family draws

def exchangeCode (config : OAuthConfig) (clientId code redirectUri verifier : String)
    (draws : Draws) : Except Failure (State × Answer) := do
  let row ← current state.oauth.codes (app.sha256 code) now
  if row.body.consumed = true ∧ row.body.clientId = clientId then
    replayCode state now row.body
  else redeemCode app state now config clientId redirectUri verifier row draws

/-- A refresh does not extend the family's absolute lifetime. -/
def redeemRefresh (config : OAuthConfig) (row : Expiring Refresh) (family : Expiring Family)
    (draws : Draws) : Except Failure (State × Answer) := do
  require (family.body.revoked = false) invalidGrant
  let client ← clientFor app family.body.clientId
  require (∀ scope ∈ family.body.scopes, scope ∈ client.scopes) "invalid_scope"
  let _ ← requireSource app state family.body.source now
  let refreshes := saveBody state.oauth.refreshes row.id { row.body with used := true }
  let used := { state with oauth := { state.oauth with refreshes := refreshes } }
  tokens app used now config family.id family.expires family.body draws

def exchangeRefresh (config : OAuthConfig) (clientId token : String) (draws : Draws) :
    Except Failure (State × Answer) := do
  let row ← current state.oauth.refreshes (app.sha256 token) now
  let family ← current state.oauth.families row.body.family now
  require (family.body.clientId = clientId) invalidGrant
  if row.body.used then
    return (revokeFamily state family.id family.body, .refused invalidGrant)
  else redeemRefresh app state now config row family draws

def exchange (clientId : String) (grant : Grant) (draws : Draws) :
    Except Failure (State × Answer) := do
  let config ← fence app state
  let _ ← clientFor app clientId
  match grant with
  | .device deviceCode => pendingResult app state now config deviceCode clientId .device draws
  | .code code redirectUri verifier =>
      exchangeCode app state now config clientId code redirectUri verifier draws
  | .refresh token => exchangeRefresh app state now config clientId token draws

def bearer (credentialId secret : String) : Except Failure StoredCredential := do
  let row ← storedCredential state credentialId
  require (row.kind = .token ∧ liveAt now row.toCredential = true ∧
    row.verifier = app.sha256 secret) "invalid_token"
  bound row
where
  bound (row : StoredCredential) : Except Failure StoredCredential :=
    match requireBinding app state row now with
    | .ok _ => .ok row
    | .error failure =>
        if failure.code = "recovery_runtime_stale" ∨ failure.code = "recovery_quarantined" then
          .error failure
        else .error { code := "invalid_token" }

/-- The family that a presented token belongs to, if its row is still there. -/
def familyOf (presented : Presented) : Except Failure (Option String) :=
  match presented with
  | .access drawn secret => do
      let row ← bearer app state now ("t_oauth_" ++ drawn) secret
      return (state.oauth.accesses.find? row.id).map Expiring.body
  | .refresh token => .ok ((state.oauth.refreshes.find? (app.sha256 token)).map fun row =>
      row.body.family)

def revoke (clientId : String) (presented : Presented) : Except Failure (State × Answer) := do
  let _ ← fence app state
  let _ ← clientFor app clientId
  let named ← familyOf app state now presented
  match named with
  | none => return (state, .done)
  | some id => do
      let family ← current state.oauth.families id now
      if family.body.clientId = clientId then
        return (revokeFamily state family.id family.body, .done)
      else return (state, .done)

def logout (cookie : String) : Except Failure (State × Answer) := do
  let _ ← fence app state
  let row ← current state.oauth.sessions (app.sha256 cookie) now
  let sessions := saveBody state.oauth.sessions row.id { row.body with revoked := true }
  return ({ state with oauth := { state.oauth with sessions := sessions } }, .done)

def perform (act : Act) : Except Failure (State × Answer) :=
  match act with
  | .rate address => rate app state now address
  | .pending kind clientId scopes value code =>
      startPending app state now kind clientId scopes value code
  | .approve principal code approved => approve app state now principal code approved
  | .consent cookie code approved => consent app state now cookie code approved
  | .login value draws => login app state now value draws
  | .authorize cookie arguments value => authorize app state now cookie arguments value
  | .exchange clientId grant draws => exchange app state now clientId grant draws
  | .revoke clientId presented => revoke app state now clientId presented
  | .logout cookie => logout app state now cookie

end MsgServer.OAuth
