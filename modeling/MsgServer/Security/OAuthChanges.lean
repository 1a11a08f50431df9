import MsgServer.Security.OAuth

/-!
Every accepted act of OAuth is one `Change`: the rows it reads and the rows it writes. What
holds of the acts is read off a `Change`, never off the acts themselves.
-/

namespace MsgServer.OAuth

open Library Session Policy Certificates Accounts Bindings

variable {app : Installation} {state next : State} {now : Nat} {answer : Answer}

/-- First or further tokens of a family: an access token, and a refresh token where the
scopes ask for one. -/
inductive Granted (app : Installation) (now : Nat) (config : OAuthConfig) (familyId : String)
    (expiry : Nat) (family : Family) (draws : Draws) (state : State) : State → Answer → Prop
  | mk {subject : Subject} {saved : State} {refreshes : Expirings Refresh}
      {refresh : Option String}
      (live : requireSource app state family.source now = .ok subject)
      (save : saveCredential state (accessRow app expiry now config subject family draws)
        subject.authVersion = .ok saved)
      (offline : ("offline_access" ∈ family.scopes ∧ refresh = some draws.refresh ∧
          refreshes =
            saved.oauth.refreshes.put ⟨app.sha256 draws.refresh, expiry, ⟨familyId, false⟩⟩) ∨
        (refresh = none ∧ refreshes = saved.oauth.refreshes)) :
      Granted app now config familyId expiry family draws state
        { saved with oauth := { saved.oauth with
          accesses := saved.oauth.accesses.put
            ⟨"t_oauth_" ++ draws.credential, min expiry (now + config.accessTtl), familyId⟩
          refreshes := refreshes } }
        (.tokens ("t_oauth_" ++ draws.credential) draws.value family.scopes refresh)

theorem tokens_granted {config : OAuthConfig} {familyId : String} {expiry : Nat} {family : Family}
    {draws : Draws} (done : tokens app state now config familyId expiry family draws =
      .ok (next, answer)) : Granted app now config familyId expiry family draws state next answer := by
  simp only [tokens, Program.except_bind_ok, Program.except_pure, Except.ok.injEq,
    Prod.mk.injEq] at done
  obtain ⟨subject, live, saved, save, rfl, rfl⟩ := done
  by_cases offline : "offline_access" ∈ family.scopes
  · simp only [offline, decide_true, if_true]
    exact .mk live save (.inl ⟨offline, rfl, rfl⟩)
  · simp only [offline, decide_false, if_false, Bool.false_eq_true]
    exact .mk live save (.inr ⟨rfl, rfl⟩)

/-- The bound on a new family: it ends no later than its session and its parent. -/
structure Bounded (state : State) (now : Nat) (source : Source) (expiry : Nat) : Prop where
  session : ∀ id, source.session = some id →
    ∃ row, state.oauth.sessions.find? id = some row ∧ now < row.expires ∧ expiry ≤ row.expires
  parent : ∃ parent, state.credentials.find? source.own.parent = some parent ∧
    ∀ ends, parent.expiresAt = some ends → expiry ≤ ends

theorem cut_le (limit : Option Nat) (expiry : Nat) :
    cut limit expiry ≤ expiry ∧ ∀ bound, limit = some bound → cut limit expiry ≤ bound := by
  cases limit with
  | none =>
      refine ⟨Nat.le_refl _, ?_⟩
      intro bound absent
      cases absent
  | some limit =>
      refine ⟨Nat.min_le_left _ _, ?_⟩
      rintro bound ⟨⟩
      exact Nat.min_le_right _ _

theorem familyEnd_bounded {config : OAuthConfig} {source : Source} {expiry : Nat}
    (done : familyEnd state now config source = .ok expiry) : Bounded state now source expiry := by
  simp only [familyEnd, storedCredential, Program.except_bind_ok, requireRow_ok,
    Program.except_pure, Except.ok.injEq] at done
  obtain ⟨ends, bound, parent, stored, rfl⟩ := done
  constructor
  · intro id named
    rw [named] at bound
    simp only [sessionEnd, Program.except_bind_ok, current_ok, Program.except_pure,
      Except.ok.injEq] at bound
    obtain ⟨row, ⟨found, live⟩, rfl⟩ := bound
    refine ⟨row, found, live, Nat.le_trans (cut_le _ _).1 ?_⟩
    exact (cut_le _ _).2 _ rfl
  · exact ⟨parent, stored, (cut_le _ _).2⟩

/-- One accepted act. -/
inductive Change (app : Installation) (now : Nat) (state : State) : Act → State → Answer → Prop
  | rate {address : String} {row : Expiring Nat} :
      Change app now state (.rate address)
        { state with oauth := { purge now state.oauth with
          rates := (purge now state.oauth).rates.put row } } .done
  | pending {kind : PendingKind} {clientId value code : String} {scopes : List String} :
      Change app now state (.pending kind clientId scopes value code)
        { state with oauth := { state.oauth with
          pendings := state.oauth.pendings.put ⟨app.sha256 code, now + app.seconds 600,
            { kind := kind, clientId := clientId, scopes := scopes, status := .pending,
              poll := app.sha256 value, interval := 5, nextPoll := now, source := none }⟩
          polls := state.oauth.polls.put
            ⟨app.sha256 value, now + app.seconds 600, app.sha256 code⟩ } } .done
  | decided {act : Act} {row : Expiring Pending} {source : Option Source}
      (by' : (∃ principal code approved, act = .approve principal code approved) ∨
        ∃ cookie code approved, act = .consent cookie code approved)
      (found : state.oauth.pendings.find? row.id = some row)
      (open' : row.body.status = .pending) :
      Change app now state act (savePending state row.id (decided row.body source)) .done
  | polled {act : Act} {row : Expiring Pending} {body : Pending} {error : String}
      (by' : (∃ value draws, act = .login value draws) ∨
        ∃ clientId deviceCode draws, act = .exchange clientId (.device deviceCode) draws)
      (found : state.oauth.pendings.find? row.id = some row)
      (same : body.kind = row.body.kind ∧ body.status = row.body.status ∧
        body.source = row.body.source ∧ body.clientId = row.body.clientId ∧
        body.scopes = row.body.scopes) :
      Change app now state act (savePending state row.id body) (.refused error)
  | session {value : String} {draws : Draws} {row : Expiring Pending}
      {source : Source} {parent token : StoredCredential} {expiry : Nat} {saved : State}
      {used : Pending}
      (found : state.oauth.pendings.find? row.id = some row) (status : used.status = .consumed)
      (kind : used.kind = row.body.kind)
      (stored : state.credentials.find? source.own.parent = some parent)
      (ends : ∀ bound, parent.expiresAt = some bound → expiry ≤ bound)
      (shape : token.id = "t_browser_" ++ draws.credential ∧ token.kind = .token ∧
        token.expiresAt = some expiry ∧ token.sourceCredentialId = some source.own.parent)
      (save : saveCredential (savePending state row.id used) token source.own.authVersion =
        .ok saved) :
      Change app now state (.login value draws)
        { saved with oauth := { saved.oauth with
          sessions := saved.oauth.sessions.put
            ⟨app.sha256 draws.cookie, expiry, ⟨source.own, row.body.scopes, some token.id, false⟩⟩
          browsers := saved.oauth.browsers.put
            ⟨token.id, expiry, ⟨source.own, some (app.sha256 draws.cookie)⟩⟩ } }
        (.session draws.cookie expiry)
  | device {clientId deviceCode : String} {draws : Draws} {config : OAuthConfig}
      {poll : Expiring String} {row : Expiring Pending} {source : Source} {used : Pending}
      {expiry : Nat} {next : State} {answer : Answer}
      (polling : state.oauth.polls.find? (app.sha256 deviceCode) = some poll)
      (pollLive : now < poll.expires)
      (found : state.oauth.pendings.find? poll.body = some row) (pendingLive : now < row.expires)
      (kind : row.body.kind = .device) (approved : row.body.status = .approved)
      (lent : row.body.source = some source) (client : row.body.clientId = clientId)
      (status : used.status = .consumed ∧ used.kind = row.body.kind ∧ used.source = row.body.source ∧
        used.clientId = row.body.clientId ∧ used.scopes = row.body.scopes)
      (bounded : Bounded state now source expiry)
      (granted : Granted app now config draws.family expiry
        ⟨source, row.body.clientId, row.body.scopes, false⟩ draws
        (openFamily (savePending state row.id used) draws.family expiry
          ⟨source, row.body.clientId, row.body.scopes, false⟩) next answer) :
      Change app now state (.exchange clientId (.device deviceCode) draws) next answer
  | authorize {cookie value : String} {arguments : AuthorizeArguments} {session : Expiring SessionBody}
      {expiry : Nat}
      (found : state.oauth.sessions.find? (app.sha256 cookie) = some session)
      (live : now < session.expires) (bound : expiry ≤ session.expires) :
      Change app now state (.authorize cookie arguments value)
        { state with oauth := { state.oauth with
          codes := state.oauth.codes.put ⟨app.sha256 value, expiry,
            { source := ⟨session.body.own, some session.id⟩, clientId := arguments.clientId,
              scopes := arguments.scopes, redirectUri := arguments.redirectUri,
              challenge := arguments.challenge, nonce := arguments.nonce, consumed := false,
              family := none }⟩ } } .done
  | codeReplayed {clientId code redirectUri verifier familyId : String} {draws : Draws}
      {row : Expiring Code} {family : Expiring Family}
      (found : state.oauth.codes.find? (app.sha256 code) = some row) (live : now < row.expires)
      (consumed : row.body.consumed = true) (client : row.body.clientId = clientId)
      (named : row.body.family = some familyId)
      (family' : state.oauth.families.find? familyId = some family)
      (familyLive : now < family.expires) :
      Change app now state (.exchange clientId (.code code redirectUri verifier) draws)
        (revokeFamily state familyId family.body) (.refused invalidGrant)
  | codeRedeemed {clientId code redirectUri verifier : String} {draws : Draws}
      {config : OAuthConfig} {row : Expiring Code} {expiry : Nat} {next : State} {answer : Answer}
      (found : state.oauth.codes.find? (app.sha256 code) = some row) (live : now < row.expires)
      (unconsumed : row.body.consumed = false) (client : row.body.clientId = clientId)
      (bounded : Bounded state now row.body.source expiry)
      (granted : Granted app now config draws.family expiry
        ⟨row.body.source, row.body.clientId, row.body.scopes, false⟩ draws
        (openFamily { state with oauth := { state.oauth with
          codes := saveBody state.oauth.codes row.id
            { row.body with consumed := true, family := some draws.family } } }
          draws.family expiry ⟨row.body.source, row.body.clientId, row.body.scopes, false⟩) next answer) :
      Change app now state (.exchange clientId (.code code redirectUri verifier) draws) next answer
  | refreshReplayed {clientId token : String} {draws : Draws} {row : Expiring Refresh}
      {family : Expiring Family}
      (found : state.oauth.refreshes.find? (app.sha256 token) = some row) (live : now < row.expires)
      (used : row.body.used = true)
      (family' : state.oauth.families.find? row.body.family = some family)
      (familyLive : now < family.expires) (client : family.body.clientId = clientId) :
      Change app now state (.exchange clientId (.refresh token) draws)
        (revokeFamily state row.body.family family.body) (.refused invalidGrant)
  | refreshed {clientId token : String} {draws : Draws} {config : OAuthConfig}
      {row : Expiring Refresh} {family : Expiring Family} {next : State} {answer : Answer}
      (found : state.oauth.refreshes.find? (app.sha256 token) = some row) (live : now < row.expires)
      (unused : row.body.used = false)
      (family' : state.oauth.families.find? row.body.family = some family)
      (familyLive : now < family.expires) (client : family.body.clientId = clientId)
      (unrevoked : family.body.revoked = false)
      (granted : Granted app now config row.body.family family.expires family.body draws
        { state with oauth := { state.oauth with
          refreshes := saveBody state.oauth.refreshes row.id { row.body with used := true } } }
        next answer) :
      Change app now state (.exchange clientId (.refresh token) draws) next answer
  | revoked {clientId familyId : String} {presented : Presented} {family : Expiring Family}
      (family' : state.oauth.families.find? familyId = some family)
      (familyLive : now < family.expires) :
      Change app now state (.revoke clientId presented) (revokeFamily state familyId family.body)
        .done
  | unchanged {clientId : String} {presented : Presented} :
      Change app now state (.revoke clientId presented) state .done
  | logout {cookie : String} {row : Expiring SessionBody}
      (found : state.oauth.sessions.find? (app.sha256 cookie) = some row) :
      Change app now state (.logout cookie)
        { state with oauth := { state.oauth with
          sessions := saveBody state.oauth.sessions row.id { row.body with revoked := true } } } .done

theorem rate_change {address : String} (done : rate app state now address = .ok (next, answer)) :
    Change app now state (.rate address) next answer := by
  simp only [rate, Program.except_bind_ok, require_ok, Program.except_pure, Except.ok.injEq,
    Prod.mk.injEq] at done
  obtain ⟨_, _, _, _, _, _, rfl, rfl⟩ := done
  exact .rate

theorem startPending_change {kind : PendingKind} {clientId value code : String}
    {scopes : List String}
    (done : startPending app state now kind clientId scopes value code = .ok (next, answer)) :
    Change app now state (.pending kind clientId scopes value code) next answer := by
  simp only [startPending, Program.except_bind_ok, Program.except_pure, Except.ok.injEq,
    Prod.mk.injEq] at done
  obtain ⟨_, _, _, _, _, _, rfl, rfl⟩ := done
  exact .pending

theorem approve_change {principal : Principal} {code : String} {approved : Bool}
    (done : approve app state now principal code approved = .ok (next, answer)) :
    Change app now state (.approve principal code approved) next answer := by
  simp only [approve, Program.except_bind_ok, current_ok, require_ok, Program.except_pure,
    Except.ok.injEq, Prod.mk.injEq] at done
  obtain ⟨_, _, row, ⟨found, _⟩, _, status, _, _, _, _, rfl, rfl⟩ := done
  have same : row.id = app.sha256 code := Table.find?_key found
  exact .decided (.inl ⟨_, _, _, rfl⟩) (same ▸ found) status

theorem consent_change {cookie code : String} {approved : Bool}
    (done : consent app state now cookie code approved = .ok (next, answer)) :
    Change app now state (.consent cookie code approved) next answer := by
  simp only [consent, Program.except_bind_ok, current_ok, require_ok, Program.except_pure,
    Except.ok.injEq, Prod.mk.injEq] at done
  obtain ⟨_, _, row, ⟨found, _⟩, _, ⟨_, status⟩, _, _, _, _, rfl, rfl⟩ := done
  have same : row.id = app.sha256 code := Table.find?_key found
  exact .decided (.inr ⟨_, _, _, rfl⟩) (same ▸ found) status

theorem saveBody_saveBody {β : Type} (table : Expirings β) (id : String) (first last : β) :
    saveBody (saveBody table id first) id last = saveBody table id last := by
  unfold saveBody
  exact Table.modify_modify table id (fun _ => rfl) fun _ => rfl

theorem savePending_savePending (id : String) (first last : Pending) :
    savePending (savePending state id first) id last = savePending state id last := by
  simp only [savePending, saveBody_saveBody]

theorem openSession_change {value : String} {config : OAuthConfig} {row : Expiring Pending}
    {body used : Pending} {source : Source} {draws : Draws}
    (found : state.oauth.pendings.find? row.id = some row) (status : used.status = .consumed)
    (kind : used.kind = row.body.kind) (scopes : body.scopes = row.body.scopes)
    (done : openSession app (savePending state row.id used) now config body source draws =
      .ok (next, answer)) : Change app now state (.login value draws) next answer := by
  simp only [openSession, storedCredential, Program.except_bind_ok, requireRow_ok,
    Program.except_pure, Except.ok.injEq, Prod.mk.injEq] at done
  obtain ⟨parent, stored, ceiling, _, saved, save, rfl, rfl⟩ := done
  rw [scopes]
  exact .session found status kind stored (cut_le _ _).2 ⟨rfl, rfl, rfl, rfl⟩ save

/-- What a poll that is not too early leads to, for a login and for a device. -/
theorem pendingResult_login {value clientId : String} {config : OAuthConfig} {draws : Draws}
    (done : pendingResult app state now config value clientId .login draws = .ok (next, answer)) :
    Change app now state (.login value draws) next answer := by
  simp only [pendingResult, Program.except_bind_ok, current_ok, require_ok] at done
  obtain ⟨poll, _, row, ⟨found, _⟩, _, ⟨_, kind⟩, _, unconsumed, later⟩ := done
  have same : row.id = poll.body := Table.find?_key found
  rw [← same] at found
  split at later
  · cases later
    exact .polled (.inl ⟨_, _, rfl⟩) found ⟨rfl, rfl, rfl, rfl, rfl⟩
  · split at later
    · cases later
      exact .polled (.inl ⟨_, _, rfl⟩) found ⟨rfl, rfl, rfl, rfl, rfl⟩
    · cases later
      exact .polled (.inl ⟨_, _, rfl⟩) found ⟨rfl, rfl, rfl, rfl, rfl⟩
    · simp only [redeem, Program.except_bind_ok, requireRow_ok, kind] at later
      obtain ⟨source, _, _, _, opened⟩ := later
      rw [savePending_savePending] at opened
      exact openSession_change found rfl kind.symm rfl opened

theorem savePending_bounded {id : String} {body : Pending} {source : Source} {expiry : Nat}
    (bounded : Bounded (savePending state id body) now source expiry) :
    Bounded state now source expiry := ⟨bounded.session, bounded.parent⟩

theorem pendingResult_device {value clientId : String} {config : OAuthConfig} {draws : Draws}
    (done : pendingResult app state now config value clientId .device draws = .ok (next, answer)) :
    Change app now state (.exchange clientId (.device value) draws) next answer := by
  simp only [pendingResult, Program.except_bind_ok, current_ok, require_ok] at done
  obtain ⟨poll, ⟨polling, pollLive⟩, row, ⟨found, live⟩, _, ⟨client, kind⟩, _, unconsumed,
    later⟩ := done
  have same : row.id = poll.body := Table.find?_key found
  have here := found
  rw [← same] at here
  split at later
  · cases later
    exact .polled (.inr ⟨_, _, _, rfl⟩) here ⟨rfl, rfl, rfl, rfl, rfl⟩
  · split at later
    · cases later
      exact .polled (.inr ⟨_, _, _, rfl⟩) here ⟨rfl, rfl, rfl, rfl, rfl⟩
    · cases later
      exact .polled (.inr ⟨_, _, _, rfl⟩) here ⟨rfl, rfl, rfl, rfl, rfl⟩
    · rename_i notPending notDenied
      have approved : row.body.status = .approved := by
        cases status : row.body.status with
        | pending => exact absurd status notPending
        | denied => exact absurd status notDenied
        | consumed => exact absurd status unconsumed
        | approved => rfl
      simp only [redeem, Program.except_bind_ok, requireRow_ok, kind] at later
      obtain ⟨source, lent, _, _, expiry, bound, granted⟩ := later
      rw [savePending_savePending] at bound granted
      have family := tokens_granted granted
      refine .device polling pollLive found live kind approved lent client ?_
        (savePending_bounded (familyEnd_bounded bound)) family
      exact ⟨rfl, kind.symm, rfl, rfl, rfl⟩

theorem authorize_change {cookie value : String} {arguments : AuthorizeArguments}
    (done : authorize app state now cookie arguments value = .ok (next, answer)) :
    Change app now state (.authorize cookie arguments value) next answer := by
  simp only [authorize, sessionOf, Program.except_bind_ok, current_ok, require_ok,
    Program.except_pure, Except.ok.injEq, Prod.mk.injEq] at done
  obtain ⟨_, _, _, _, _, _, _, _, _, _, _, ⟨_, _, session, ⟨found, live⟩, _, _, _, _, rfl⟩, rfl,
    rfl⟩ := done
  exact .authorize found live (Nat.min_le_left _ _)

theorem exchangeCode_change {clientId code redirectUri verifier : String} {config : OAuthConfig}
    {draws : Draws}
    (done : exchangeCode app state now config clientId code redirectUri verifier draws =
      .ok (next, answer)) :
    Change app now state (.exchange clientId (.code code redirectUri verifier) draws) next
      answer := by
  simp only [exchangeCode, Program.except_bind_ok, current_ok] at done
  obtain ⟨row, ⟨found, live⟩, later⟩ := done
  split at later
  · rename_i replayed
    simp only [replayCode, Program.except_bind_ok, requireRow_ok, current_ok, Program.except_pure,
      Except.ok.injEq, Prod.mk.injEq] at later
    obtain ⟨id, named, family, ⟨family', familyLive⟩, rfl, rfl⟩ := later
    have same : family.id = id := Table.find?_key family'
    rw [same]
    exact .codeReplayed found live replayed.1 replayed.2 named family' familyLive
  · simp only [redeemCode, Program.except_bind_ok, require_ok] at later
    obtain ⟨_, _, _, ⟨unconsumed, client, _, _⟩, _, _, expiry, bound, granted⟩ := later
    have bounded := familyEnd_bounded bound
    exact .codeRedeemed found live unconsumed client ⟨bounded.session, bounded.parent⟩
      (tokens_granted granted)

theorem exchangeRefresh_change {clientId token : String} {config : OAuthConfig} {draws : Draws}
    (done : exchangeRefresh app state now config clientId token draws = .ok (next, answer)) :
    Change app now state (.exchange clientId (.refresh token) draws) next answer := by
  simp only [exchangeRefresh, Program.except_bind_ok, current_ok, require_ok] at done
  obtain ⟨row, ⟨found, live⟩, family, ⟨family', familyLive⟩, _, client, later⟩ := done
  have same : family.id = row.body.family := Table.find?_key family'
  split at later
  · rename_i used
    cases later
    rw [same]
    exact .refreshReplayed found live used family' familyLive client
  · rename_i unused
    simp only [redeemRefresh, Program.except_bind_ok, require_ok] at later
    obtain ⟨_, unrevoked, _, _, _, _, _, _, granted⟩ := later
    rw [same] at granted
    exact .refreshed found live (by simpa using unused) family' familyLive client unrevoked
      (tokens_granted granted)

theorem exchange_change {clientId : String} {grant : Grant} {draws : Draws}
    (done : exchange app state now clientId grant draws = .ok (next, answer)) :
    Change app now state (.exchange clientId grant draws) next answer := by
  simp only [exchange, Program.except_bind_ok] at done
  obtain ⟨_, _, _, _, later⟩ := done
  cases grant with
  | device deviceCode => exact pendingResult_device later
  | code code redirectUri verifier => exact exchangeCode_change later
  | refresh token => exact exchangeRefresh_change later

theorem revoke_change {clientId : String} {presented : Presented}
    (done : revoke app state now clientId presented = .ok (next, answer)) :
    Change app now state (.revoke clientId presented) next answer := by
  simp only [revoke, Program.except_bind_ok] at done
  obtain ⟨_, _, _, _, named, _, later⟩ := done
  cases named with
  | none =>
      cases later
      exact .unchanged
  | some id =>
      simp only [Program.except_bind_ok, current_ok] at later
      obtain ⟨family, ⟨found, live⟩, last⟩ := later
      have same : family.id = id := Table.find?_key found
      split at last
      · cases last
        rw [same]
        exact .revoked found live
      · cases last
        exact .unchanged

theorem logout_change {cookie : String}
    (done : logout app state now cookie = .ok (next, answer)) :
    Change app now state (.logout cookie) next answer := by
  simp only [logout, Program.except_bind_ok, current_ok, Program.except_pure, Except.ok.injEq,
    Prod.mk.injEq] at done
  obtain ⟨_, _, row, ⟨found, _⟩, rfl, rfl⟩ := done
  exact .logout found

theorem perform_change {act : Act} (done : perform app state now act = .ok (next, answer)) :
    Change app now state act next answer := by
  cases act with
  | rate address => exact rate_change done
  | pending kind clientId scopes value code => exact startPending_change done
  | approve principal code approved => exact approve_change done
  | consent cookie code approved => exact consent_change done
  | login value draws =>
      simp only [perform, login, Program.except_bind_ok] at done
      obtain ⟨_, _, later⟩ := done
      exact pendingResult_login later
  | authorize cookie arguments value => exact authorize_change done
  | exchange clientId grant draws => exact exchange_change done
  | revoke clientId presented => exact revoke_change done
  | logout cookie => exact logout_change done

/-! What an act does to the rest of the state. -/

/-- The token that an act makes. -/
structure Minted (state : State) (row : StoredCredential) (next : State) : Prop where
  isToken : row.kind = .token
  source : ∃ parent, row.sourceCredentialId = some parent
  owner : ∃ owner, state.store.subjects.find? row.subjectId = some owner
  after : next.credentials = state.credentials.put row

inductive Mint (state : State) : Act → State → Prop
  | nothing {act : Act} {next : State} (same : next.credentials = state.credentials) :
      Mint state act next
  | access {clientId : String} {grant : Grant} {draws : Draws} {row : StoredCredential}
      {next : State} (named : row.id = "t_oauth_" ++ draws.credential)
      (minted : Minted state row next) : Mint state (.exchange clientId grant draws) next
  | browser {value : String} {draws : Draws} {row : StoredCredential} {next : State}
      (named : row.id = "t_browser_" ++ draws.credential) (minted : Minted state row next) :
      Mint state (.login value draws) next

/-- A save of a credential as the rest of the state sees it. -/
theorem saveCredential_frame {row : StoredCredential} {version : Nat}
    (done : saveCredential state row version = .ok next) :
    (∃ owner, state.store.subjects.find? row.subjectId = some owner) ∧
      next = { state with credentials := state.credentials.put row } := by
  simp only [saveCredential, subject, Program.except_bind_ok, requireRow_ok, require_ok,
    Program.except_pure, Except.ok.injEq] at done
  obtain ⟨owner, stored, _, _, _, _, rfl⟩ := done
  exact ⟨⟨owner, stored⟩, rfl⟩

theorem Granted.minted {config : OAuthConfig} {familyId : String} {expiry : Nat} {family : Family}
    {draws : Draws} (granted : Granted app now config familyId expiry family draws state next answer) :
    ∃ row, row.id = "t_oauth_" ++ draws.credential ∧ Minted state row next := by
  cases granted with
  | mk live save offline =>
      obtain ⟨owner, shape⟩ := saveCredential_frame save
      refine ⟨_, rfl, rfl, ⟨_, rfl⟩, owner, ?_⟩
      rw [shape]

theorem Change.mint {act : Act} (change : Change app now state act next answer) :
    Mint state act next := by
  cases change with
  | session found _ _ _ _ shape save =>
      obtain ⟨owner, after⟩ := saveCredential_frame save
      obtain ⟨named, isToken, _, source⟩ := shape
      refine .browser named ⟨isToken, ⟨_, source⟩, owner, ?_⟩
      rw [after]
      rfl
  | device _ _ _ _ _ _ _ _ _ _ granted =>
      obtain ⟨row, named, minted⟩ := granted.minted
      exact .access named ⟨minted.isToken, minted.source, minted.owner, minted.after⟩
  | codeRedeemed _ _ _ _ _ granted =>
      obtain ⟨row, named, minted⟩ := granted.minted
      exact .access named ⟨minted.isToken, minted.source, minted.owner, minted.after⟩
  | refreshed _ _ _ _ _ _ _ granted =>
      obtain ⟨row, named, minted⟩ := granted.minted
      exact .access named ⟨minted.isToken, minted.source, minted.owner, minted.after⟩
  | _ => exact .nothing rfl

theorem Granted.frame {config : OAuthConfig} {familyId : String} {expiry : Nat} {family : Family}
    {draws : Draws} (granted : Granted app now config familyId expiry family draws state next answer) :
    next = { state with credentials := next.credentials, oauth := next.oauth } ∧
      next.oauth.browsers = state.oauth.browsers ∧ next.oauth.apis = state.oauth.apis := by
  cases granted with
  | mk live save offline =>
      obtain ⟨_, shape⟩ := saveCredential_frame save
      rw [shape]
      exact ⟨rfl, rfl, rfl⟩

/-- Only the credentials and the rows of OAuth are written. -/
theorem Change.frame {act : Act} (change : Change app now state act next answer) :
    next = { state with credentials := next.credentials, oauth := next.oauth } := by
  cases change with
  | session found _ _ _ _ _ save =>
      obtain ⟨_, after⟩ := saveCredential_frame save
      rw [after]
      rfl
  | device _ _ _ _ _ _ _ _ _ _ granted => rw [granted.frame.1]; rfl
  | codeRedeemed _ _ _ _ _ granted => rw [granted.frame.1]; rfl
  | refreshed _ _ _ _ _ _ _ granted => rw [granted.frame.1]
  | _ => rfl

theorem find?_unexpired {β : Type} {table : Expirings β} {id : String} {row : Expiring β} :
    (unexpired now table).find? id = some row ↔ table.find? id = some row ∧ now < row.expires := by
  rw [unexpired, Table.find?_keep, Option.filter_eq_some_iff, decide_eq_true_iff]

theorem Change.browsers {act : Act} {id : String} {browser : Expiring Source}
    (change : Change app now state act next answer)
    (found : next.oauth.browsers.find? id = some browser) :
    idPrefix "t_browser_" id = true ∨ state.oauth.browsers.find? id = some browser := by
  cases change with
  | rate => exact .inr (find?_unexpired.mp found).1
  | session _ _ _ _ _ shape save =>
      obtain ⟨_, after⟩ := saveCredential_frame save
      rw [after] at found
      change (state.oauth.browsers.put _).find? id = some browser at found
      rw [Table.find?_put] at found
      split at found
      · rename_i same
        change _ = id at same
        rw [← same, shape.1]
        exact .inl (by simp [idPrefix])
      · exact .inr found
  | device _ _ _ _ _ _ _ _ _ _ granted =>
      rw [granted.frame.2.1] at found
      exact .inr found
  | codeRedeemed _ _ _ _ _ granted =>
      rw [granted.frame.2.1] at found
      exact .inr found
  | refreshed _ _ _ _ _ _ _ granted =>
      rw [granted.frame.2.1] at found
      exact .inr found
  | _ => exact .inr found

theorem Granted.accesses {config : OAuthConfig} {familyId : String} {expiry : Nat} {family : Family}
    {draws : Draws} {id : String} {access : Expiring String}
    (granted : Granted app now config familyId expiry family draws state next answer)
    (found : next.oauth.accesses.find? id = some access) :
    (id = "t_oauth_" ++ draws.credential ∧
      access = ⟨id, min expiry (now + config.accessTtl), familyId⟩) ∨
        state.oauth.accesses.find? id = some access := by
  cases granted with
  | mk live save offline =>
      obtain ⟨_, shape⟩ := saveCredential_frame save
      rw [shape] at found
      change (state.oauth.accesses.put _).find? id = some access at found
      rw [Table.find?_put] at found
      split at found
      · rename_i same
        change _ = id at same
        cases found
        exact .inl ⟨same.symm, by rw [← same]⟩
      · exact .inr found

/-- A row of a purge or of an earlier state, or that of the token just made. -/
theorem Change.accesses {act : Act} {id : String} {access : Expiring String}
    (change : Change app now state act next answer)
    (found : next.oauth.accesses.find? id = some access) :
    idPrefix "t_oauth_" id = true ∨ state.oauth.accesses.find? id = some access := by
  have granted : ∀ {config familyId expiry family draws before},
      Granted app now config familyId expiry family draws before next answer →
        before.oauth.accesses = state.oauth.accesses →
          idPrefix "t_oauth_" id = true ∨ state.oauth.accesses.find? id = some access := by
    intro config familyId expiry family draws before done same
    rcases done.accesses found with ⟨named, _⟩ | earlier
    · rw [named]
      exact .inl (by simp [idPrefix])
    · exact .inr (same ▸ earlier)
  cases change with
  | rate => exact .inr (find?_unexpired.mp found).1
  | session _ _ _ _ _ _ save =>
      obtain ⟨_, after⟩ := saveCredential_frame save
      rw [after] at found
      exact .inr found
  | device _ _ _ _ _ _ _ _ _ _ done => exact granted done rfl
  | codeRedeemed _ _ _ _ _ done => exact granted done rfl
  | refreshed _ _ _ _ _ _ _ done => exact granted done rfl
  | _ => exact .inr found

/-- API keys lose their rows to a purge, and to nothing else. -/
theorem Change.apis {act : Act} {id : String} (change : Change app now state act next answer) :
    next.oauth.apis.find? id = state.oauth.apis.find? id ∨
      (next.oauth.apis.find? id = none ∧
        ∃ row, state.oauth.apis.find? id = some row ∧ row.expires ≤ now) := by
  cases change with
  | rate =>
      change (unexpired now state.oauth.apis).find? id = _ ∨
        ((unexpired now state.oauth.apis).find? id = none ∧ _)
      rw [unexpired, Table.find?_keep]
      cases found : state.oauth.apis.find? id with
      | none => exact .inl rfl
      | some row =>
          by_cases live : now < row.expires
          · exact .inl (by simp [live])
          · exact .inr ⟨by simpa using live, row, rfl, by omega⟩
  | session _ _ _ _ _ _ save =>
      obtain ⟨_, after⟩ := saveCredential_frame save
      rw [after]
      exact .inl rfl
  | device _ _ _ _ _ _ _ _ _ _ granted =>
      rw [granted.frame.2.2]
      exact .inl rfl
  | codeRedeemed _ _ _ _ _ granted =>
      rw [granted.frame.2.2]
      exact .inl rfl
  | refreshed _ _ _ _ _ _ _ granted =>
      rw [granted.frame.2.2]
      exact .inl rfl
  | _ => exact .inl rfl

end MsgServer.OAuth
