import MsgServer.Security.Credentials

/-!
What an account operation does to tokens and their deliveries. Four of them issue one
token each: the first token of a subject, a token made with a key, and the successors by
rotation and by recovery. All the others leave tokens, deliveries and bindings as they are,
but for marks of revocation.
-/

namespace MsgServer.Issuance

open Library Session Accounts Bindings Requests TokenDelivery Identity Credentials

/-! Writes beside the tokens. -/

structure Beside (state next : State) : Prop where
  credentials : next.credentials = state.credentials
  deliveries : next.deliveries = state.deliveries
  oauth : next.oauth = state.oauth

theorem Beside.refl (state : State) : Beside state state := ⟨rfl, rfl, rfl⟩

theorem Beside.trans {first second third : State} (left : Beside first second)
    (right : Beside second third) : Beside first third :=
  ⟨right.credentials.trans left.credentials, right.deliveries.trans left.deliveries,
    right.oauth.trans left.oauth⟩

variable {app : Installation} {state next : State} {step : Step} {data : Data}

theorem updateSubject_beside {record : Subject} {expected : Option Nat}
    (done : updateSubject state record expected = .ok next) : Beside state next := by
  simp only [updateSubject, Program.except_bind_ok, require_ok, Program.except_pure,
    Except.ok.injEq] at done
  obtain ⟨_, _, rfl⟩ := done
  exact ⟨rfl, rfl, rfl⟩

theorem insertIdentityKey_beside {row : IdentityKey}
    (done : insertIdentityKey state row = .ok next) : Beside state next := by
  simp only [insertIdentityKey, Program.except_bind_ok, require_ok, Program.except_pure,
    Except.ok.injEq] at done
  obtain ⟨_, _, _, _, rfl⟩ := done
  exact ⟨rfl, rfl, rfl⟩

theorem insertEncryptionSubkey_beside {row : EncryptionSubkey}
    (done : insertEncryptionSubkey state row = .ok next) : Beside state next := by
  simp only [insertEncryptionSubkey, Program.except_bind_ok, require_ok, Program.except_pure,
    Except.ok.injEq] at done
  obtain ⟨_, _, _, _, _, _, rfl⟩ := done
  exact ⟨rfl, rfl, rfl⟩

theorem keyed_beside {subject keyId publicKey encryptionId recipient : String} {now : Nat}
    (keys : Keyed state subject keyId publicKey encryptionId recipient now next) :
    Beside state next := by
  obtain ⟨keyed, first, second⟩ := keys.split
  exact (insertIdentityKey_beside first).trans (insertEncryptionSubkey_beside second)

theorem primaryOr_beside {subject keyId publicKey : String} {now : Nat}
    (done : primaryOr state subject keyId publicKey now = .ok next) : Beside state next := by
  unfold primaryOr at done
  split at done
  · exact insertIdentityKey_beside done
  · simp only [Program.except_bind_ok, Program.except_pure, Except.ok.injEq] at done
    obtain ⟨_, _, rfl⟩ := done
    exact Beside.refl _

theorem primarySubkeyOr_beside {subject keyId recipient : String} {now : Nat}
    (done : primarySubkeyOr state subject keyId recipient now = .ok next) : Beside state next := by
  unfold primarySubkeyOr at done
  split at done
  · exact insertEncryptionSubkey_beside done
  · simp only [Program.except_bind_ok, Program.except_pure, Except.ok.injEq] at done
    obtain ⟨_, _, rfl⟩ := done
    exact Beside.refl _

theorem dropKey_beside (state : State) (subject keyId : String) (now : Nat) :
    Beside state (dropKey state subject keyId now) := by
  unfold dropKey
  split
  · exact Beside.refl _
  · dsimp only
    split_ifs
    · split
      · exact ⟨rfl, rfl, rfl⟩
      · exact ⟨rfl, rfl, rfl⟩
    · exact ⟨rfl, rfl, rfl⟩
    · exact Beside.refl _

theorem activate_beside {subject : String} {keys : KeySwitch} {now : Nat}
    (done : activateEncryptionTarget state subject keys now = .ok next) : Beside state next := by
  unfold activateEncryptionTarget at done
  split at done
  · cases done
  · split at done
    · cases done
      exact Beside.refl _
    · simp only [Program.except_bind_ok] at done
      obtain ⟨_, _, inserted⟩ := done
      have outer : Beside state (retireSubkeys state subject now) := ⟨rfl, rfl, rfl⟩
      exact outer.trans (insertEncryptionSubkey_beside inserted)

theorem finished_beside {aside : Aside} (finished : Finished aside state next) :
    Beside state next := by
  obtain ⟨store, _, rfl⟩ := finished
  exact ⟨rfl, rfl, rfl⟩

/-! Operations that issue nothing. -/

structure Quiet (state next : State) : Prop where
  tokens : TokensKept state next
  deliveries : next.deliveries = state.deliveries
  oauth : next.oauth = state.oauth

theorem Beside.quiet (beside : Beside state next) : Quiet state next :=
  ⟨TokensKept.of_credentials beside.credentials, beside.deliveries, beside.oauth⟩

theorem Quiet.trans {first second third : State} (left : Quiet first second)
    (right : Quiet second third) : Quiet first third :=
  ⟨left.tokens.trans right.tokens, right.deliveries.trans left.deliveries,
    right.oauth.trans left.oauth⟩

theorem saved_quiet {row : StoredCredential} {version : Nat}
    (done : saveCredential state row version = .ok next) (plain : row.kind ≠ .token) :
    Quiet state next := by
  have saved := saveCredential_saved done
  refine ⟨saved.key plain, ?_, ?_⟩
  all_goals rw [saved.after]

theorem revoke_quiet {row : StoredCredential} {version now : Nat}
    (done : saveCredential state (revoked now row) version = .ok next) (held : Held state row) :
    Quiet state next := by
  have saved := saveCredential_saved done
  obtain ⟨ends, found⟩ := held
  refine ⟨saved.revoke found, ?_, ?_⟩
  all_goals rw [saved.after]

theorem revokeEach_quiet {rows : List StoredCredential} {now version : Nat}
    (held : ∀ row ∈ rows, Held state row) (done : revokeEach state rows now version = .ok next) :
    Quiet state next := by
  have after := revokeEach_revoked held done
  refine ⟨after.tokens, ?_, ?_⟩
  all_goals rw [after.frame]

/-! Operations that issue a token. -/

/-- The delivery that goes with a new token. -/
structure Recorded (app : Installation) (step : Step) (row : StoredCredential)
    (inherited : Option Nat) (state : State) (delivery : Delivery) (next : State) : Prop where
  credential : delivery.credentialId = row.id
  request : delivery.requestId = step.request.requestId
  ends : ∃ expiresAt, row.expiresAt = some expiresAt ∧
    delivery.recoveryExpiresAt = deadline app expiresAt step.now inherited ∧
    step.now < delivery.recoveryExpiresAt
  unclaimed : delivery.claimedAt = none
  unconsumed : delivery.consumedAt = none
  insert : state.deliveries.insert delivery = some next.deliveries
  credentials : next.credentials = state.credentials
  oauth : next.oauth = state.oauth
  store : next.store = state.store

theorem recordTokenDelivery_recorded {row : StoredCredential} {inherited : Option Nat}
    (done : recordTokenDelivery app state step.request row step.now inherited = .ok next) :
    ∃ delivery, Recorded app step row inherited state delivery next := by
  simp only [recordTokenDelivery, Program.except_bind_ok, requireRow_ok, require_ok, insertRow_ok,
    Program.except_pure, Except.ok.injEq] at done
  obtain ⟨_, _, _, _, _, _, _, _, _, _, expiresAt, ends, _, inTime, _, _, _, inserted, rfl⟩ := done
  exact ⟨_, rfl, rfl, ⟨expiresAt, ends, rfl, inTime⟩, rfl, rfl, inserted, rfl, rfl, rfl⟩

/-- One token was issued. Deliveries of other tokens are as they were, but for one that
may have been touched. -/
structure Issued (app : Installation) (step : Step) (row : StoredCredential)
    (inherited : Option Nat) (touched : Option String) (state next : State) : Prop where
  new : NewToken state row next
  undelivered : state.deliveries.find? row.id = none
  delivery : ∃ delivery expiresAt, next.deliveries.find? row.id = some delivery ∧
    row.expiresAt = some expiresAt ∧
    delivery.recoveryExpiresAt = deadline app expiresAt step.now inherited ∧
    delivery.requestId = step.request.requestId ∧
    delivery.claimedAt = none ∧ delivery.consumedAt = none
  others : ∀ id, id ≠ row.id → touched ≠ some id →
    next.deliveries.find? id = state.deliveries.find? id

/-- A save and a record, in the order of the handlers that save first. -/
theorem issued_of_save {row : StoredCredential} {version : Nat} {inherited : Option Nat}
    {middle saved delivered : State} (lead : Quiet state middle)
    (unknown : state.credentials.find? row.id = none)
    (still : middle.credentials.find? row.id = none) (isToken : row.kind = .token)
    (save : saveCredential middle row version = .ok saved)
    (record : recordTokenDelivery app saved step.request row step.now inherited = .ok delivered) :
    Issued app step row inherited none state delivered ∧ delivered.oauth = state.oauth := by
  have stored := saveCredential_saved save
  obtain ⟨delivery, recorded⟩ := recordTokenDelivery_recorded record
  have deliveries : saved.deliveries = state.deliveries := by
    rw [stored.after]
    exact lead.deliveries
  have insert := recorded.insert
  rw [deliveries] at insert
  have fresh := Table.insert_fresh insert
  rw [recorded.credential] at fresh
  obtain ⟨expiresAt, ends, deadline, _⟩ := recorded.ends
  have kept : TokensKept saved delivered := TokensKept.of_credentials recorded.credentials
  refine ⟨⟨?_, fresh, ⟨delivery, expiresAt, ?_, ends, deadline, recorded.request,
    recorded.unclaimed, recorded.unconsumed⟩, ?_⟩, ?_⟩
  · exact ((stored.issue isToken still).before lead.tokens unknown).after kept
  · rw [Table.find?_insert insert, if_pos recorded.credential]
  · intro id other _
    rw [Table.find?_insert insert, recorded.credential, if_neg (Ne.symm other)]
  · rw [recorded.oauth, stored.after]
    exact lead.oauth

theorem Issued.quiet {row : StoredCredential} {inherited : Option Nat} {touched : Option String}
    {last : State} (issued : Issued app step row inherited touched state next)
    (quiet : Quiet next last) : Issued app step row inherited touched state last := by
  refine ⟨issued.new.after quiet.tokens, issued.undelivered, ?_, ?_⟩
  · rw [quiet.deliveries]
    exact issued.delivery
  · intro id other untouched
    rw [quiet.deliveries]
    exact issued.others id other untouched

/-- Where the binding of a token made with a key is: nowhere, or in a row of its own. -/
inductive Api (step : Step) (owner : Subject) (row : StoredCredential) (state next : State) : Prop
  | unbound (old : step.request.contractVersion < 3) (source : row.sourceCredentialId = none)
      (same : next.oauth = state.oauth)
  | bound (parent : String) (expiresAt : Nat)
      (caller : step.context.principal.credentialId = some parent)
      (source : row.sourceCredentialId = some parent) (ends : row.expiresAt = some expiresAt)
      (put : next.oauth = { state.oauth with
        apis := state.oauth.apis.put ⟨row.id, expiresAt, apiSource owner parent⟩ })

/-- The binding of a recovered token is its predecessor's. -/
inductive Copied (old row : StoredCredential) (state next : State) : Prop
  | unbound (none : state.oauth.apis.find? old.id = none) (same : next.oauth = state.oauth)
  | bound (api : Expiring OwnSource) (expiresAt : Nat)
      (found : state.oauth.apis.find? old.id = some api) (ends : row.expiresAt = some expiresAt)
      (put : next.oauth = { state.oauth with
        apis := state.oauth.apis.put ⟨row.id, expiresAt, api.body⟩ })

/-- What an accepted operation issues. -/
inductive Issues (app : Installation) (step : Step) (state : State) : State → Data → Prop
  | nothing {next : State} {data : Data} (asked : step.request.arguments.delivering = none)
      (quiet : Quiet state next) : Issues app step state next data
  | first {next : State} {data : Data} {row : StoredCredential}
      (asked : (∃ nonce secret publicKey recipient possession,
          step.request.arguments = .temporary nonce secret publicKey recipient possession) ∨
        ∃ nonce secret publicKey recipient,
          step.request.arguments = .custodialCreate nonce secret publicKey recipient)
      (caller : step.context.principal.credentialId = some row.id)
      (issued : Issued app step row none none state next) (source : row.sourceCredentialId = none)
      (oauth : next.oauth = state.oauth) (answer : data.credentialId = some row.id) :
      Issues app step state next data
  | created {next : State} {data : Data} {row : StoredCredential} {owner : Subject}
      {nonce secret : String} {asking : Option (List CapabilityGrant)} {ttl : Nat}
      {previous : Option String}
      (asked : step.request.arguments = .tokenCreate nonce asking ttl secret previous)
      (owns : Owns step state owner) (subject : row.subjectId = owner.resourceId)
      (named : row.id = app.tokenId step.request.requestId owner.resourceId)
      (issued : Issued app step row none none state next) (api : Api step owner row state next)
      (answer : data.credentialId = some row.id) :
      Issues app step state next data
  | rotated {next : State} {data : Data} {row old : StoredCredential} {owner : Subject}
      {nonce secret : String}
      (asked : step.request.arguments = .tokenRotate nonce secret)
      (owns : Owns step state owner)
      (caller : step.context.principal.credentialId = some old.id)
      (held : tokenAt state old.id = some old)
      (named : row.id = app.tokenId step.request.requestId owner.resourceId)
      (source : row.sourceCredentialId = none)
      (issued : Issued app step row none none state next)
      (gone : tokenAt next old.id = some (revoked step.now old)) (oauth : next.oauth = state.oauth)
      (answer : data.credentialId = some row.id) (before : data.previousCredential = some old.id) :
      Issues app step state next data
  | recovered {next : State} {data : Data} {row old : StoredCredential} {owner : Subject}
      {delivery : Delivery} {original spent nonce secret : String}
      (asked : step.request.arguments = .tokenRecover old.id original spent nonce secret)
      (owns : Owns step state owner)
      (held : tokenAt state old.id = some old) (live : old.revokedAt = none)
      (unexpired : ∀ ends, old.expiresAt = some ends → step.now < ends)
      (subject : old.subjectId = owner.resourceId)
      (kept : state.deliveries.find? old.id = some delivery) (fresh : delivery.consumedAt = none)
      (inTime : step.now < delivery.recoveryExpiresAt)
      (named : row.id = app.tokenId step.request.requestId owner.resourceId)
      (shape : row.ceiling = old.ceiling ∧ row.expiresAt = old.expiresAt ∧
        row.subjectId = old.subjectId ∧ row.sourceCredentialId = old.sourceCredentialId)
      (issued : Issued app step row (some delivery.recoveryExpiresAt) (some old.id) state next)
      (gone : tokenAt next old.id = some (revoked step.now old))
      (consumed : next.deliveries.find? old.id = some (consume step.now delivery))
      (copied : Copied old row state next)
      (answer : data.credentialId = some row.id) (before : data.previousCredential = some old.id) :
      Issues app step state next data

/-! What every reachable state keeps of tokens. -/

structure Formed (state : State) : Prop where
  owners : ∀ id row, state.credentials.find? id = some row →
    ∃ owner, state.store.subjects.find? row.subjectId = some owner
  tokenIds : ∀ id row, tokenAt state id = some row → idPrefix "t_" id = true
  delivered : ∀ id row, tokenAt state id = some row →
    (∃ delivery, state.deliveries.find? id = some delivery) ∨ idPrefix "t_oauth_" id = true ∨
      idPrefix "t_browser_" id = true
  issued : ∀ id delivery, state.deliveries.find? id = some delivery →
    ∃ row, tokenAt state id = some row
  browsers : ∀ id browser, state.oauth.browsers.find? id = some browser →
    idPrefix "t_browser_" id = true
  accesses : ∀ id access, state.oauth.accesses.find? id = some access →
    idPrefix "t_oauth_" id = true

theorem idPrefix_append (kind id : String) : idPrefix kind (kind ++ id) = true := by
  simp [idPrefix]

/-- Digits do not begin with a word that has another letter in it. -/
theorem digits_plain {digits word : String} {letter : Char} (hex : hexText digits = true)
    (member : letter ∈ word.toList) (plain : hexText (String.ofList [letter]) = false) :
    idPrefix ("t_" ++ word) ("t_" ++ digits) = false := by
  by_contra begins
  rw [Bool.not_eq_false, idPrefix, List.isPrefixOf_iff_prefix, String.toList_append,
    String.toList_append, List.prefix_append_right_inj] at begins
  have inside := List.all_eq_true.mp hex letter (begins.subset member)
  simp [hexText, inside] at plain

theorem tokenId_plain (requestId subject : String) :
    idPrefix "t_oauth_" (app.tokenId requestId subject) = false ∧
      idPrefix "t_browser_" (app.tokenId requestId subject) = false := by
  have hex := app.requestTagHex requestId subject
  have oauth : ("t_oauth_" : String) = "t_" ++ "oauth_" := by decide
  have browser : ("t_browser_" : String) = "t_" ++ "browser_" := by decide
  constructor
  · rw [oauth]
    exact @digits_plain _ _ 'o' hex (by decide) (by decide)
  · rw [browser]
    exact @digits_plain _ _ 'o' hex (by decide) (by decide)

/-- A token that gets a delivery, under a name made for its request, was not there. -/
theorem token_unknown {row : StoredCredential} {requestId subject : String} (formed : Formed state)
    (same : identityUnchanged (state.credentials.find? row.id) row) (isToken : row.kind = .token)
    (named : row.id = app.tokenId requestId subject)
    (undelivered : state.deliveries.find? row.id = none) :
    state.credentials.find? row.id = none := by
  cases found : state.credentials.find? row.id with
  | none => rfl
  | some old =>
      have kind := (same old found).kind
      have here := (tokenAt_some row.id).mpr ⟨found, kind.trans isToken⟩
      obtain ⟨oauth, browser⟩ := @tokenId_plain app requestId subject
      rcases formed.delivered _ _ here with ⟨delivery, known⟩ | isOAuth | isBrowser
      · rw [undelivered] at known
        cases known
      · rw [named, oauth] at isOAuth
        cases isOAuth
      · rw [named, browser] at isBrowser
        cases isBrowser

/-- The name of a token that is saved, and then gets its delivery, was free. -/
theorem saved_unknown {row : StoredCredential} {requestId subject : String} {version : Nat}
    {inherited : Option Nat} {saved delivered : State} (formed : Formed state)
    (isToken : row.kind = .token) (named : row.id = app.tokenId requestId subject)
    (save : saveCredential state row version = .ok saved)
    (record : recordTokenDelivery app saved step.request row step.now inherited = .ok delivered) :
    state.credentials.find? row.id = none := by
  have stored := saveCredential_saved save
  obtain ⟨delivery, recorded⟩ := recordTokenDelivery_recorded record
  have fresh := Table.insert_fresh recorded.insert
  rw [recorded.credential, stored.after] at fresh
  exact token_unknown formed stored.same isToken named fresh

/-- So was the name of one that gets its delivery first. -/
theorem recorded_unknown {row : StoredCredential} {requestId subject : String} {version : Nat}
    {inherited : Option Nat} {saved delivered : State} (formed : Formed state)
    (isToken : row.kind = .token) (named : row.id = app.tokenId requestId subject)
    (record : recordTokenDelivery app state step.request row step.now inherited = .ok delivered)
    (save : saveCredential delivered row version = .ok saved) :
    state.credentials.find? row.id = none := by
  have same := (saveCredential_saved save).same
  obtain ⟨delivery, recorded⟩ := recordTokenDelivery_recorded record
  have fresh := Table.insert_fresh recorded.insert
  rw [recorded.credential] at fresh
  rw [recorded.credentials] at same
  exact token_unknown formed same isToken named fresh

theorem makeUser_new {user : String} {kind : SubjectKind}
    (done : makeUser state user kind = .ok next) : state.store.subjects.find? user = none := by
  simp only [makeUser, updateSubject, Program.except_bind_ok, require_ok] at done
  obtain ⟨_, fresh, _⟩ := done
  simpa [subjectGeneration] using fresh

/-- A subject that was not there had no credentials. -/
theorem credential_unknown {row : StoredCredential} {user : String} (formed : Formed state)
    (absent : state.store.subjects.find? user = none) (mine : row.subjectId = user)
    (same : identityUnchanged (state.credentials.find? row.id) row) :
    state.credentials.find? row.id = none := by
  cases found : state.credentials.find? row.id with
  | none => rfl
  | some old =>
      obtain ⟨owner, stored⟩ := formed.owners _ _ found
      have subject := (same old found).subject
      rw [subject, mine, absent] at stored
      cases stored

/-- The first token of a new subject, after its first key. -/
theorem first_unknown {token : StoredCredential} {user publicKey : String}
    {ceiling : List CapabilityGrant} {kind : SubjectKind} {version : Nat}
    {made signed keyed saved : State} (formed : Formed state)
    (make : makeUser state user kind = .ok made)
    (sign : saveCredential made (signingKey app publicKey user ceiling step.now) version =
      .ok signed) (beside : Beside signed keyed) (mine : token.subjectId = user)
    (isToken : token.kind = .token) (save : saveCredential keyed token version = .ok saved) :
    state.credentials.find? token.id = none ∧ keyed.credentials.find? token.id = none := by
  have absent := makeUser_new make
  have stored := saveCredential_saved save
  have signing := saveCredential_saved sign
  have made' : made.credentials = state.credentials := (updateSubject_beside make).credentials
  have same := stored.same
  rw [beside.credentials, signing.find?] at same
  by_cases key : (signingKey app publicKey user ceiling step.now).id = token.id
  · rw [if_pos key] at same
    have kinds := (same _ rfl).kind
    rw [isToken] at kinds
    cases kinds
  · rw [if_neg key, made'] at same
    have unknown := credential_unknown formed absent mine same
    refine ⟨unknown, ?_⟩
    rw [beside.credentials, signing.find?, if_neg key, made']
    exact unknown

theorem firstToken_ok {token : StoredCredential} {user nonce : String}
    (first : firstToken app step user nonce = .ok token) :
    step.context.principal.credentialId = some token.id ∧ token.subjectId = user ∧
      token.kind = .token ∧ token.sourceCredentialId = none := by
  simp only [firstToken, Program.except_bind_ok, requireRow_ok, Program.except_pure,
    Except.ok.injEq] at first
  obtain ⟨id, caller, rfl⟩ := first
  exact ⟨caller, rfl, rfl, rfl⟩

theorem tokenAt_revoked {old : StoredCredential} {version : Nat}
    (save : saveCredential state (revoked step.now old) version = .ok next)
    (isToken : old.kind = .token) : tokenAt next old.id = some (revoked step.now old) := by
  have stored := saveCredential_saved save
  rw [tokenAt_some]
  exact ⟨(stored.find? old.id).trans (if_pos rfl), isToken⟩

theorem Beside.tokenAt {id : String} (beside : Beside state next) :
    tokenAt next id = tokenAt state id := by
  simp only [Credentials.tokenAt, beside.credentials]

theorem rotate_issues {nonce secret : String} {owner : Subject} {old row : StoredCredential}
    {saved delivered ended : State} (formed : Formed state)
    (asked : step.request.arguments = .tokenRotate nonce secret)
    (owns : Owns step state owner)
    (caller : step.context.principal.credentialId = some old.id)
    (held : state.credentials.find? old.id = some old) (isToken : old.kind = .token)
    (shape : row = tokenRow app (app.tokenId step.request.requestId owner.resourceId)
      owner.resourceId (app.issuedToken owner.resourceId step.request.requestId nonce) old.ceiling
      step.now (step.now + app.temporaryTtl) none)
    (save : saveCredential state row owner.authVersion = .ok saved)
    (record : recordTokenDelivery app saved step.request row step.now none = .ok delivered)
    (revoke : saveCredential delivered (revoked step.now old) owner.authVersion = .ok ended)
    (finished : Finished step.aside ended next) (answer : data.credentialId = some row.id)
    (before : data.previousCredential = some old.id) : Issues app step state next data := by
  have newKind : row.kind = .token := by rw [shape]; rfl
  have named : row.id = app.tokenId step.request.requestId owner.resourceId := by rw [shape]; rfl
  have stored := saveCredential_saved save
  obtain ⟨delivery, recorded⟩ := recordTokenDelivery_recorded record
  have unknown := saved_unknown formed newKind named save record
  have other : row.id ≠ old.id := by
    intro same
    rw [same, held] at unknown
    cases unknown
  obtain ⟨issued, oauth⟩ := issued_of_save (Beside.refl state).quiet unknown unknown newKind save record
  have stillOld : Held delivered old := by
    refine Held.of_find? ?_
    rw [recorded.credentials, stored.find?, if_neg other]
    exact held
  have tail := (revoke_quiet revoke stillOld).trans (finished_beside finished).quiet
  refine .rotated asked owns caller ((tokenAt_some _).mpr ⟨held, isToken⟩) named (by rw [shape]; rfl)
    (issued.quiet tail) ?_ (tail.oauth.trans oauth) answer before
  rw [(finished_beside finished).tokenAt]
  exact tokenAt_revoked revoke isToken

/-- Replacing the previous key, too, only revokes. -/
theorem replacePrevious_quiet {owner : Subject} {now : Nat} {previous : Option String}
    (done : replacePrevious state owner now previous = .ok next) : Quiet state next := by
  cases previous with
  | none =>
      cases done
      exact (Beside.refl _).quiet
  | some id =>
      simp only [replacePrevious, storedCredential, Program.except_bind_ok, requireRow_ok,
        require_ok] at done
      obtain ⟨old, found, _, _, _, _, revoke⟩ := done
      have same : old.key = id := Table.find?_key found
      subst same
      exact revoke_quiet revoke (Held.of_find? found)

theorem putApi_ok {row : StoredCredential} {own : OwnSource}
    (done : putApi state row own = .ok next) :
    ∃ expiresAt, row.expiresAt = some expiresAt ∧ next = { state with oauth := { state.oauth with
      apis := state.oauth.apis.put ⟨row.id, expiresAt, own⟩ } } := by
  simp only [putApi, Program.except_bind_ok, requireRow_ok, Program.except_pure,
    Except.ok.injEq] at done
  obtain ⟨expiresAt, ends, rfl⟩ := done
  exact ⟨expiresAt, ends, rfl⟩

theorem putApi_tokens {row : StoredCredential} {own : OwnSource}
    (done : putApi state row own = .ok next) :
    TokensKept state next ∧ next.deliveries = state.deliveries := by
  obtain ⟨_, _, rfl⟩ := putApi_ok done
  exact ⟨TokensKept.of_credentials rfl, rfl⟩

theorem Issued.tail {row : StoredCredential} {inherited : Option Nat} {touched : Option String}
    {last : State} (issued : Issued app step row inherited touched state next)
    (tokens : TokensKept next last) (deliveries : last.deliveries = next.deliveries) :
    Issued app step row inherited touched state last := by
  refine ⟨issued.new.after tokens, issued.undelivered, ?_, ?_⟩
  · rw [deliveries]
    exact issued.delivery
  · intro id other untouched
    rw [deliveries]
    exact issued.others id other untouched

theorem create_issues {nonce secret : String} {asking : Option (List CapabilityGrant)} {ttl : Nat}
    {previous : Option String} {owner : Subject} {ceiling : List CapabilityGrant}
    {row : StoredCredential} {saved delivered bound : State} (formed : Formed state)
    (asked : step.request.arguments = .tokenCreate nonce asking ttl secret previous)
    (owns : Owns step state owner)
    (shape : row = tokenRow app (app.tokenId step.request.requestId owner.resourceId)
      owner.resourceId (app.issuedToken owner.resourceId step.request.requestId nonce) ceiling
      step.now (step.now + app.seconds ttl) (tokenSource step))
    (save : saveCredential state row owner.authVersion = .ok saved)
    (record : recordTokenDelivery app saved step.request row step.now none = .ok delivered)
    (binding : Bound step owner row previous delivered bound)
    (finished : Finished step.aside bound next) (answer : data.credentialId = some row.id) :
    Issues app step state next data := by
  have newKind : row.kind = .token := by rw [shape]; rfl
  have named : row.id = app.tokenId step.request.requestId owner.resourceId := by rw [shape]; rfl
  have source : row.sourceCredentialId = tokenSource step := by rw [shape]; rfl
  have subject : row.subjectId = owner.resourceId := by rw [shape]; rfl
  have unknown := saved_unknown formed newKind named save record
  obtain ⟨issued, oauth⟩ := issued_of_save (Beside.refl state).quiet unknown unknown newKind save record
  have last := (finished_beside finished).quiet
  cases binding with
  | unbound old =>
      refine .created asked owns subject named (issued.quiet last)
        (.unbound old ?_ (last.oauth.trans oauth)) answer
      rw [source, tokenSource, if_neg (by omega)]
  | @api parent bound _ recent caller put replaced =>
      have after := replacePrevious_quiet replaced
      obtain ⟨tokens, deliveries⟩ := putApi_tokens put
      obtain ⟨expiresAt, ends, shape⟩ := putApi_ok put
      have tail := (issued.tail tokens deliveries).quiet (after.trans last)
      refine .created asked owns subject named tail (.bound parent expiresAt caller ?_ ends ?_) answer
      · rw [source, tokenSource, if_pos recent, caller]
      · rw [last.oauth, after.oauth, shape, oauth]

theorem copyApi_copied {old row : StoredCredential} (done : copyApi state old.id row = .ok next) :
    Copied old row state next ∧ TokensKept state next ∧ next.deliveries = state.deliveries := by
  unfold copyApi at done
  split at done
  · rename_i absent
    cases done
    exact ⟨.unbound absent rfl, TokensKept.refl _, rfl⟩
  · rename_i api found
    obtain ⟨expiresAt, ends, shape⟩ := putApi_ok done
    obtain ⟨tokens, deliveries⟩ := putApi_tokens done
    refine ⟨.bound api expiresAt found ends ?_, tokens, deliveries⟩
    rw [shape]

theorem consumeDelivery_ok {id : String} {now : Nat}
    (done : consumeDelivery state id now = .ok next) :
    next = { state with deliveries := state.deliveries.modify id (consume now) } := by
  simp only [consumeDelivery, Program.except_bind_ok, requireRow_ok, require_ok,
    Program.except_pure, Except.ok.injEq] at done
  obtain ⟨_, _, _, _, rfl⟩ := done
  rfl

/-- What `token_recover` does, from the row it gives up to the one it makes. -/
theorem recover_issues {original spent nonce secret : String} {owner : Subject}
    {old row : StoredCredential} {expiresAt : Nat} {delivery : Delivery}
    {delivered saved ended bound consumed : State} (formed : Formed state)
    (asked : step.request.arguments = .tokenRecover old.id original spent nonce secret)
    (owns : Owns step state owner)
    (held : state.credentials.find? old.id = some old) (ends : old.expiresAt = some expiresAt)
    (good : old.subjectId = owner.resourceId ∧ old.kind = .token ∧ old.revokedAt = none ∧
      step.now < expiresAt)
    (kept : state.deliveries.find? old.id = some delivery)
    (free : delivery.consumedAt = none ∧ step.now < delivery.recoveryExpiresAt)
    (shape : row = tokenRow app (app.tokenId step.request.requestId owner.resourceId)
      owner.resourceId (app.issuedToken owner.resourceId step.request.requestId nonce) old.ceiling
      step.now expiresAt old.sourceCredentialId)
    (other : row.id ≠ old.id)
    (record : recordTokenDelivery app state step.request row step.now
      (some delivery.recoveryExpiresAt) = .ok delivered)
    (save : saveCredential delivered row owner.authVersion = .ok saved)
    (revoke : saveCredential saved (revoked step.now old) owner.authVersion = .ok ended)
    (copy : copyApi ended old.id row = .ok bound)
    (consume : consumeDelivery bound old.id step.now = .ok consumed)
    (finished : Finished step.aside consumed next) (answer : data.credentialId = some row.id)
    (before : data.previousCredential = some old.id) : Issues app step state next data := by
  have newKind : row.kind = .token := by rw [shape]; rfl
  have named : row.id = app.tokenId step.request.requestId owner.resourceId := by rw [shape]; rfl
  have stored := saveCredential_saved save
  obtain ⟨newDelivery, recorded⟩ := recordTokenDelivery_recorded record
  have undelivered : state.deliveries.find? row.id = none := by
    have fresh := Table.insert_fresh recorded.insert
    rw [recorded.credential] at fresh
    exact fresh
  have unknown := recorded_unknown formed newKind named record save
  have still : delivered.credentials.find? row.id = none := by
    rw [recorded.credentials]
    exact unknown
  have heldSaved : Held saved old := by
    refine Held.of_find? ?_
    rw [stored.find?, if_neg other, recorded.credentials]
    exact held
  have ending := revoke_quiet revoke heldSaved
  obtain ⟨copied, copyTokens, copyDeliveries⟩ := copyApi_copied copy
  have shapeConsumed := consumeDelivery_ok consume
  have last := finished_beside finished
  have deliveries : bound.deliveries = delivered.deliveries := by
    rw [copyDeliveries, ending.deliveries, stored.after]
  have final : next.deliveries = delivered.deliveries.modify old.id (TokenDelivery.consume step.now) := by
    rw [last.deliveries, shapeConsumed]
    exact congrArg (fun table => table.modify old.id (TokenDelivery.consume step.now)) deliveries
  obtain ⟨newEnds, newExpiry, deadline, _⟩ := recorded.ends
  have tokens : TokensKept saved next := by
    have consumed' : TokensKept bound consumed := TokensKept.of_credentials (by rw [shapeConsumed])
    exact ((ending.tokens.trans copyTokens).trans consumed').trans last.quiet.tokens
  have recordedTokens : TokensKept state delivered := TokensKept.of_credentials recorded.credentials
  have oldKept : delivered.deliveries.find? old.id = some delivery := by
    rw [Table.find?_insert recorded.insert, recorded.credential, if_neg other]
    exact kept
  have unexpired : ∀ bound, old.expiresAt = some bound → step.now < bound := by
    intro bound here
    rw [ends] at here
    cases here
    exact good.2.2.2
  refine .recovered asked owns ((tokenAt_some _).mpr ⟨held, good.2.1⟩) good.2.2.1 unexpired good.1
    kept free.1 free.2 named ⟨by rw [shape]; rfl, ?_, ?_, by rw [shape]; rfl⟩ ⟨?_, undelivered, ?_, ?_⟩ ?_ ?_ ?_
    answer before
  · rw [shape, ends]
    rfl
  · rw [shape, good.1]
    rfl
  · exact ((stored.issue newKind still).before recordedTokens unknown).after tokens
  · refine ⟨newDelivery, newEnds, ?_, newExpiry, deadline, recorded.request, recorded.unclaimed,
      recorded.unconsumed⟩
    rw [final, Table.find?_modify_ne _ _ other, Table.find?_insert recorded.insert,
      if_pos recorded.credential]
  · intro id different untouched
    have apart : id ≠ old.id := fun equal => untouched (congrArg some equal.symm)
    rw [final, Table.find?_modify_ne _ _ apart, Table.find?_insert recorded.insert,
      recorded.credential, if_neg (Ne.symm different)]
  · have later : next.credentials = ended.credentials := by
      rw [last.credentials, shapeConsumed]
      cases copied with
      | unbound absent _ =>
          unfold copyApi at copy
          rw [absent] at copy
          cases copy
          rfl
      | bound api _ found _ _ =>
          unfold copyApi at copy
          rw [found] at copy
          obtain ⟨_, _, rfl⟩ := putApi_ok copy
          rfl
    simp only [tokenAt, later]
    exact tokenAt_revoked revoke good.2.1
  · rw [final, Table.find?_modify_self _ _ (TokenDelivery.consume step.now) fun _ => rfl, oldKept]
    rfl
  · -- The bindings are untouched before the copy and after it.
    have lead : ended.oauth = state.oauth := by
      rw [ending.oauth, stored.after]
      exact recorded.oauth
    have trail : next.oauth = bound.oauth := by rw [last.oauth, shapeConsumed]
    cases copied with
    | unbound absent same =>
        exact .unbound (by rw [← lead]; exact absent) (by rw [trail, same, lead])
    | bound api expiry found expires put =>
        exact .bound api expiry (by rw [← lead]; exact found) expires (by rw [trail, put, lead])

/-- The tokens of a new subject come with its keys. -/
theorem temporary_issues {user nonce publicKey recipient encryptionId : String}
    {token : StoredCredential} {made signed keyed saved delivered : State} (formed : Formed state)
    (asked : (∃ nonce secret publicKey recipient possession,
        step.request.arguments = .temporary nonce secret publicKey recipient possession) ∨
      ∃ nonce secret publicKey recipient,
        step.request.arguments = .custodialCreate nonce secret publicKey recipient)
    (make : makeUser state user .temporary = .ok made)
    (sign : saveCredential made (signingKey app publicKey user app.temporaryCeiling step.now) 0 =
      .ok signed)
    (keys : Keyed signed user (app.keyId publicKey) publicKey encryptionId recipient step.now keyed)
    (first : firstToken app step user nonce = .ok token)
    (save : saveCredential keyed token 0 = .ok saved)
    (record : recordTokenDelivery app saved step.request token step.now none = .ok delivered)
    (finished : Finished step.aside delivered next) (answer : data.credentialId = some token.id) :
    Issues app step state next data := by
  obtain ⟨caller, mine, isToken, source⟩ := firstToken_ok first
  obtain ⟨unknown, still⟩ := first_unknown formed make sign (keyed_beside keys) mine isToken save
  have keySaved : Quiet made signed := saved_quiet sign (by simp [signingKey])
  have lead := ((updateSubject_beside make).quiet.trans keySaved).trans (keyed_beside keys).quiet
  obtain ⟨issued, oauth⟩ := issued_of_save lead unknown still isToken save record
  have last := (finished_beside finished).quiet
  exact .first asked caller (issued.quiet last) source (last.oauth.trans oauth) answer

theorem custodial_issues {user nonce publicKey recipient encryptionId : String}
    {token : StoredCredential} {made signed saved delivered keyed : State}
    {vaults : Table Vault.subject} (formed : Formed state)
    (asked : (∃ nonce secret publicKey recipient possession,
        step.request.arguments = .temporary nonce secret publicKey recipient possession) ∨
      ∃ nonce secret publicKey recipient,
        step.request.arguments = .custodialCreate nonce secret publicKey recipient)
    (make : makeUser state user .custodial = .ok made)
    (sign : saveCredential made (signingKey app publicKey user [] step.now) 0 = .ok signed)
    (first : firstToken app step user nonce = .ok token)
    (save : saveCredential signed token 0 = .ok saved)
    (record : recordTokenDelivery app saved step.request token step.now none = .ok delivered)
    (keys : Keyed delivered user (app.keyId publicKey) publicKey encryptionId recipient step.now
      keyed)
    (finished : Finished step.aside { keyed with vaults := vaults } next)
    (answer : data.credentialId = some token.id) : Issues app step state next data := by
  obtain ⟨caller, mine, isToken, source⟩ := firstToken_ok first
  obtain ⟨unknown, still⟩ := first_unknown formed make sign (Beside.refl _) mine isToken save
  have keySaved : Quiet made signed := saved_quiet sign (by simp [signingKey])
  have lead := (updateSubject_beside make).quiet.trans keySaved
  obtain ⟨issued, oauth⟩ := issued_of_save lead unknown still isToken save record
  have vaulted : Beside keyed { keyed with vaults := vaults } := ⟨rfl, rfl, rfl⟩
  have last := ((keyed_beside keys).trans (vaulted.trans (finished_beside finished))).quiet
  exact .first asked caller (issued.quiet last) source (last.oauth.trans oauth) answer

theorem bumpSubject_beside {owner : Subject} (done : bumpSubject state owner = .ok next) :
    Beside state next := updateSubject_beside done

theorem verifierKey_quiet {owner publicKey : String}
    (done : verifierKey app state step owner publicKey = .ok next) : Quiet state next := by
  unfold verifierKey at done
  split at done
  · simp only [Program.except_bind_ok, Program.except_pure, Except.ok.injEq] at done
    obtain ⟨_, _, rfl⟩ := done
    exact (Beside.refl _).quiet
  · simp only [Program.except_bind_ok] at done
    obtain ⟨_, _, save⟩ := done
    exact saved_quiet save (by simp [signingKey])

/-- A certificate fills the ceiling of a key, whose name no token has. -/
theorem fillCeiling_quiet {cert : Certificate} {publicKey : String} (formed : Formed state)
    (named : cert.keyId = app.keyId publicKey) (done : fillCeiling state cert = .ok next) :
    Quiet state next := by
  simp only [fillCeiling, storedCredential, Program.except_bind_ok, requireRow_ok] at done
  obtain ⟨row, found, _, _, later⟩ := done
  split at later
  · refine saved_quiet later ?_
    intro isToken
    have prefixed := formed.tokenIds _ _ ((tokenAt_some _).mpr ⟨found, isToken⟩)
    rw [named] at prefixed
    simp [idPrefix, Installation.keyId, List.isPrefixOf] at prefixed
  · cases later
    exact (Beside.refl _).quiet

theorem switchIdentity_quiet {owner : Subject} {keys : KeySwitch} {retain : Bool}
    (done : switchIdentity app state step owner keys retain = .ok next) : Quiet state next := by
  simp only [switchIdentity, Program.except_bind_ok, Program.except_pure, Except.ok.injEq] at done
  obtain ⟨_, _, _, _, _, _, ended, revoke, saved, save, keyed, insert, targeted, activate, raised,
    raise, rfl⟩ := done
  have ending := revokeEach_quiet (fun row member => filtered_held row member) revoke
  have keySaved : Quiet ended saved := saved_quiet save (by simp [signingKey])
  have retired : Beside saved (retireKeys saved owner.resourceId step.now) := ⟨rfl, rfl, rfl⟩
  have vaulted : Beside raised { raised with
      vaults := raised.vaults.modify owner.resourceId (retireVault retain) } := ⟨rfl, rfl, rfl⟩
  have tail := (retired.trans (insertIdentityKey_beside insert)).trans
    ((activate_beside activate).trans ((updateSubject_beside raise).trans vaulted))
  exact (ending.trans keySaved).trans tail.quiet

theorem Formed.requests (formed : Formed state) (requests : Table CertificateRequest.resourceId) :
    Formed { state with requests := requests } :=
  ⟨formed.owners, formed.tokenIds, formed.delivered, formed.issued, formed.browsers,
    formed.accesses⟩

theorem change_issues (formed : Formed state) (change : Change app step state next data) :
    Issues app step state next data := by
  cases change with
  | register asked _ make save keys finished =>
      have keySaved := saved_quiet save (by simp [signingKey])
      exact .nothing (by rw [asked]; rfl) (((updateSubject_beside make).quiet.trans keySaved).trans
        ((keyed_beside keys).trans (finished_beside finished)).quiet)
  | temporary asked _ make sign keys first save record finished =>
      exact temporary_issues formed (.inl ⟨_, _, _, _, _, asked⟩) make sign keys first save record
        finished rfl
  | custodial asked _ make sign first save record keys _ finished =>
      exact custodial_issues formed (.inr ⟨_, _, _, _, asked⟩) make sign first save record keys
        finished rfl
  | rotate asked owns caller held isToken shape save record revoke finished =>
      exact rotate_issues formed asked owns caller held isToken shape save record revoke finished
        rfl rfl
  | upgrade asked _ _ raise save primary subkey revoke finished =>
      have keySaved := saved_quiet save (by simp [signingKey])
      have ending := revokeEach_quiet (fun row member => filtered_held row member) revoke
      exact .nothing (by rw [asked]; rfl) (((updateSubject_beside raise).quiet.trans keySaved).trans
        (((primaryOr_beside primary).trans (primarySubkeyOr_beside subkey)).quiet.trans
          (ending.trans (finished_beside finished).quiet)))
  | keyAdd asked _ _ save keys bump finished =>
      have keySaved := saved_quiet save (by simp [signingKey])
      exact .nothing (by rw [asked]; rfl) (keySaved.trans ((insertIdentityKey_beside keys).trans
        ((bumpSubject_beside bump).trans (finished_beside finished))).quiet)
  | @keyRevoke keyId _ row saved _ _ asked _ held _ _ save bump finished =>
      have same : row.key = keyId := Table.find?_key held
      subst same
      have ending := revoke_quiet save (Held.of_find? held)
      exact .nothing (by rw [asked]; rfl) (ending.trans ((dropKey_beside saved _ _ _).trans
        ((bumpSubject_beside bump).trans (finished_beside finished))).quiet)
  | tokenCreate asked owns _ shape save record binding finished =>
      exact create_issues formed asked owns shape save record binding finished rfl
  | @tokenRecover oldId _ _ _ _ _ old _ _ _ _ _ _ _ _ _ asked owns held ends good kept free shape
      other record save revoke copy consume finished =>
      have same : old.key = oldId := Table.find?_key held
      subst same
      exact recover_issues formed asked owns held ends good kept ⟨free.2.2.1, free.2.2.2.1⟩ shape
        other record save revoke copy consume finished rfl rfl
  | @certRequest _ _ _ saved _ requests asked _ save _ finished =>
      have listed : Beside saved { saved with requests := requests } := ⟨rfl, rfl, rfl⟩
      exact .nothing (by rw [asked]; rfl) ((verifierKey_quiet save).trans
        (listed.trans (finished_beside finished)).quiet)
  | certPublish asked _ named fill finished =>
      have filled := (fillCeiling_quiet (formed.requests _) named fill).trans
        (finished_beside finished).quiet
      exact .nothing (by rw [asked]; rfl) ⟨filled.tokens, filled.deliveries, filled.oauth⟩
  | recover asked _ _ revoke save bump finished =>
      have ending := revokeEach_quiet (fun row member => credentialsOf_held row member) revoke
      have keySaved := saved_quiet save (by simp [signingKey])
      exact .nothing (by rw [asked]; rfl) ((ending.trans keySaved).trans
        ((bumpSubject_beside bump).trans (finished_beside finished)).quiet)
  | @encryptionKeyRotate _ _ owner _ _ _ asked _ _ insert finished =>
      have retired : Beside state (retireSubkeys state owner.resourceId step.now) := ⟨rfl, rfl, rfl⟩
      exact .nothing (by rw [asked]; rfl) (retired.trans
        ((insertEncryptionSubkey_beside insert).trans (finished_beside finished))).quiet
  | sshKeyAdd asked _ _ save finished =>
      have keySaved := saved_quiet save (by simp [sshKey])
      exact .nothing (by rw [asked]; rfl) (keySaved.trans (finished_beside finished).quiet)
  | @sshKeyRevoke keyId _ row _ _ asked _ held _ save finished =>
      have same : row.key = keyId := Table.find?_key held
      subst same
      have ending := revoke_quiet save (Held.of_find? held)
      exact .nothing (by rw [asked]; rfl) (ending.trans (finished_beside finished).quiet)
  | @delegatedCreate publicKey _ _ _ _ _ _ _ _ _ keyed _ asked _ make save keys finished =>
      have keySaved := saved_quiet save (by simp [delegatedKey, signingKey])
      have last := finished_beside finished
      have listed : Beside keyed next := ⟨last.credentials, last.deliveries, last.oauth⟩
      exact .nothing (by rw [asked]; rfl) (((updateSubject_beside make).quiet.trans keySaved).trans
        ((keyed_beside keys).trans listed).quiet)
  | idle asked _ finished =>
      exact .nothing (by rw [asked]; rfl) (finished_beside finished).quiet
  | target asked _ activate finished =>
      exact .nothing (by rw [asked]; rfl)
        ((activate_beside activate).trans (finished_beside finished)).quiet
  | switch asked _ exit finished =>
      exact .nothing (by rw [asked]; rfl)
        ((switchIdentity_quiet exit).trans (finished_beside finished).quiet)
  | retire asked _ finished =>
      have last := finished_beside finished
      have vaulted : Beside state next := ⟨last.credentials, last.deliveries, last.oauth⟩
      exact .nothing (by rw [asked]; rfl) vaulted.quiet
  | other asked finished =>
      exact .nothing (by rw [asked]; rfl) (finished_beside finished).quiet

end MsgServer.Issuance
