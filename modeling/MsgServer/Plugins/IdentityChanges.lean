import MsgServer.Plugins.Identity

/-!
Every accepted account operation is one `Change`: the rows it writes, in the order it
writes them. What holds of the operations is read off a `Change`, never off the
operations themselves.
-/

namespace MsgServer.Identity

open Library Session Policy Accounts Bindings Requests Authorization TokenDelivery Certificates

variable {app : Installation}

/-- The last write of an operation: what it does beside the accounts. -/
def Finished (aside : Aside) (state next : State) : Prop :=
  ∃ store, aside.act state.store = .ok store ∧ next = { state with store := store }

theorem finish_ok {aside : Aside} {state next : State} {data given : Data}
    (done : finish state aside given = .ok (next, data)) :
    Finished aside state next ∧ data = given := by
  simp only [finish, Program.except_bind_ok, Program.except_pure, Except.ok.injEq,
    Prod.mk.injEq] at done
  obtain ⟨store, acted, rfl, rfl⟩ := done
  exact ⟨⟨store, acted, rfl⟩, rfl⟩

/-- The caller acts for nobody else, and `owner` is the caller. -/
structure Owns (step : Step) (state : State) (owner : Subject) : Prop where
  stored : state.store.subjects.find? owner.resourceId = some owner
  caller : step.context.principal.subject = some owner.resourceId
  acting : step.context.principal.actor = some owner.resourceId

theorem controlledOwner_ok {state : State} {step : Step} {owner : Subject}
    (done : controlledOwner app state step = .ok owner) : Owns step state owner := by
  simp only [controlledOwner, subject, Program.except_bind_ok, requireRow_ok, require_ok] at done
  obtain ⟨target, caller, _, acting, _, _, _, _, stored⟩ := done
  have same := Table.find?_key stored
  subst same
  exact ⟨stored, caller, acting⟩

/-- Both keys of a new subject. -/
structure Keyed (state : State) (subject keyId publicKey encryptionId recipient : String)
    (now : Nat) (next : State) : Prop where
  split : ∃ keyed, insertIdentityKey state ⟨keyId, subject, publicKey, now, none, true⟩ = .ok keyed ∧
    insertEncryptionSubkey keyed ⟨encryptionId, subject, recipient, now, none, true⟩ = .ok next

theorem insertKeys_ok {state next : State} {subject keyId publicKey encryptionId recipient : String}
    {now : Nat}
    (done : insertKeys state subject keyId publicKey encryptionId recipient now = .ok next) :
    Keyed state subject keyId publicKey encryptionId recipient now next := by
  simp only [insertKeys, Program.except_bind_ok] at done
  exact ⟨done⟩

/-- The binding of an API key as `token_create` writes it, and the key it replaces. -/
inductive Bound (step : Step) (owner : Subject) (row : StoredCredential)
    (previous : Option String) (state : State) : State → Prop
  | unbound (old : step.request.contractVersion < 3) : Bound step owner row previous state state
  | api {parent : String} {bound next : State} (recent : 3 ≤ step.request.contractVersion)
      (caller : step.context.principal.credentialId = some parent)
      (put : putApi state row (apiSource owner parent) = .ok bound)
      (replaced : replacePrevious bound owner step.now previous = .ok next) :
      Bound step owner row previous state next

theorem bindApi_ok {state next : State} {step : Step} {owner : Subject} {row : StoredCredential}
    {previous : Option String} (done : bindApi state step owner row previous = .ok next) :
    Bound step owner row previous state next := by
  unfold bindApi at done
  split at done
  · rename_i recent
    simp only [Program.except_bind_ok, requireRow_ok] at done
    obtain ⟨parent, caller, bound, put, replaced⟩ := done
    exact .api recent caller put replaced
  · rename_i old
    cases done
    exact .unbound (by omega)

/-- One accepted operation. -/
inductive Change (app : Installation) (step : Step) (state : State) : State → Data → Prop
  | register {user publicKey recipient encryptionId : String} {made saved keyed next : State}
      (asked : step.request.arguments = .register publicKey recipient)
      (caller : step.context.principal.subject = some user)
      (make : makeUser state user .registered = .ok made)
      (save : saveCredential made (signingKey app publicKey user app.primaryCeiling step.now) 0 =
        .ok saved)
      (keys : Keyed saved user (app.keyId publicKey) publicKey encryptionId recipient step.now keyed)
      (finished : Finished step.aside keyed next) :
      Change app step state next
        { subjectId := user, keyId := some (app.keyId publicKey),
          encryptionKeyId := some encryptionId }
  | temporary {user nonce secret publicKey recipient encryptionId : String} {possession : Signature}
      {token : StoredCredential} {made signed keyed saved delivered next : State}
      (asked : step.request.arguments = .temporary nonce secret publicKey recipient possession)
      (caller : step.context.principal.subject = some user)
      (make : makeUser state user .temporary = .ok made)
      (sign : saveCredential made (signingKey app publicKey user app.temporaryCeiling step.now) 0 =
        .ok signed)
      (keys : Keyed signed user (app.keyId publicKey) publicKey encryptionId recipient step.now keyed)
      (first : firstToken app step user nonce = .ok token)
      (save : saveCredential keyed token 0 = .ok saved)
      (record : recordTokenDelivery app saved step.request token step.now none = .ok delivered)
      (finished : Finished step.aside delivered next) :
      Change app step state next
        { subjectId := user, credentialId := some token.id, keyId := some (app.keyId publicKey),
          encryptionKeyId := some encryptionId, expiresAt := token.expiresAt }
  | custodial {user nonce secret publicKey recipient encryptionId : String}
      {token : StoredCredential} {made signed saved delivered keyed next : State}
      {vaults : Table Vault.subject}
      (asked : step.request.arguments = .custodialCreate nonce secret publicKey recipient)
      (caller : step.context.principal.subject = some user)
      (make : makeUser state user .custodial = .ok made)
      (sign : saveCredential made (signingKey app publicKey user [] step.now) 0 = .ok signed)
      (first : firstToken app step user nonce = .ok token)
      (save : saveCredential signed token 0 = .ok saved)
      (record : recordTokenDelivery app saved step.request token step.now none = .ok delivered)
      (keys : Keyed delivered user (app.keyId publicKey) publicKey encryptionId recipient step.now
        keyed)
      (vault : keyed.vaults.insert ⟨user, app.keyId publicKey, encryptionId, true, true, .active⟩ =
        some vaults)
      (finished : Finished step.aside { keyed with vaults := vaults } next) :
      Change app step state next
        { subjectId := user, credentialId := some token.id, keyId := some (app.keyId publicKey),
          encryptionKeyId := some encryptionId, expiresAt := token.expiresAt }
  | rotate {nonce secret : String} {owner : Subject} {old row : StoredCredential}
      {saved delivered ended next : State}
      (asked : step.request.arguments = .tokenRotate nonce secret)
      (owns : Owns step state owner)
      (caller : step.context.principal.credentialId = some old.id)
      (held : state.credentials.find? old.id = some old) (isToken : old.kind = .token)
      (shape : row = tokenRow app (app.tokenId step.request.requestId owner.resourceId)
        owner.resourceId (app.issuedToken owner.resourceId step.request.requestId nonce) old.ceiling
        step.now (step.now + app.temporaryTtl) none)
      (save : saveCredential state row owner.authVersion = .ok saved)
      (record : recordTokenDelivery app saved step.request row step.now none = .ok delivered)
      (revoke : saveCredential delivered (revoked step.now old) owner.authVersion = .ok ended)
      (finished : Finished step.aside ended next) :
      Change app step state next
        { subjectId := owner.resourceId, credentialId := some row.id,
          previousCredential := some old.id, expiresAt := row.expiresAt }
  | upgrade {handle publicKey recipient encryptionId : String} {possession : Signature}
      {owner : Subject} {raised saved keyed sealed ended next : State}
      (asked : step.request.arguments = .upgrade handle publicKey possession recipient)
      (owns : Owns step state owner) (kind : owner.kind = .temporary)
      (raise : updateSubject state
        { owner with kind := .registered, authVersion := owner.authVersion + 1 }
        (some owner.authVersion) = .ok raised)
      (save : saveCredential raised
        (signingKey app publicKey owner.resourceId app.primaryCeiling step.now)
        (owner.authVersion + 1) = .ok saved)
      (primary : primaryOr saved owner.resourceId (app.keyId publicKey) publicKey step.now =
        .ok keyed)
      (subkey : primarySubkeyOr keyed owner.resourceId encryptionId recipient step.now = .ok sealed)
      (revoke : revokeEach sealed
        ((credentialsOf sealed owner.resourceId).filter fun old =>
          old.kind == .token && old.revokedAt == none) step.now (owner.authVersion + 1) = .ok ended)
      (finished : Finished step.aside ended next) :
      Change app step state next
        { subjectId := owner.resourceId, keyId := some (app.keyId publicKey),
          encryptionKeyId := some encryptionId }
  | keyAdd {publicKey : String} {possession : Signature} {ceiling : List CapabilityGrant}
      {owner : Subject} {saved keyed raised next : State}
      (asked : step.request.arguments = .keyAdd publicKey possession ceiling)
      (owns : Owns step state owner)
      (unknown : state.credentials.find? (app.keyId publicKey) = none)
      (save : saveCredential state (signingKey app publicKey owner.resourceId ceiling step.now)
        owner.authVersion = .ok saved)
      (keys : insertIdentityKey saved
        ⟨app.keyId publicKey, owner.resourceId, publicKey, step.now, none, false⟩ = .ok keyed)
      (bump : bumpSubject keyed owner = .ok raised)
      (finished : Finished step.aside raised next) :
      Change app step state next
        { subjectId := owner.resourceId, keyId := some (app.keyId publicKey) }
  | keyRevoke {keyId : String} {owner : Subject} {row : StoredCredential} {saved raised next : State}
      (asked : step.request.arguments = .keyRevoke keyId)
      (owns : Owns step state owner)
      (held : state.credentials.find? keyId = some row) (mine : row.subjectId = owner.resourceId)
      (spare : row.kind ≠ .signingKey ∨ otherSigningKey state row = true)
      (save : saveCredential state (revoked step.now row) owner.authVersion = .ok saved)
      (bump : bumpSubject (dropKey saved owner.resourceId row.id step.now) owner = .ok raised)
      (finished : Finished step.aside raised next) :
      Change app step state next { subjectId := owner.resourceId, keyId := some row.id }
  | tokenCreate {nonce secret : String} {asking : Option (List CapabilityGrant)} {ttl : Nat}
      {previous : Option String} {owner : Subject} {ceiling : List CapabilityGrant}
      {row : StoredCredential} {saved delivered bound next : State}
      (asked : step.request.arguments = .tokenCreate nonce asking ttl secret previous)
      (owns : Owns step state owner)
      (allowed : validateCeiling app state step ceiling = .ok ())
      (shape : row = tokenRow app (app.tokenId step.request.requestId owner.resourceId)
        owner.resourceId (app.issuedToken owner.resourceId step.request.requestId nonce) ceiling
        step.now (step.now + app.seconds ttl) (tokenSource step))
      (save : saveCredential state row owner.authVersion = .ok saved)
      (record : recordTokenDelivery app saved step.request row step.now none = .ok delivered)
      (binding : Bound step owner row previous delivered bound)
      (finished : Finished step.aside bound next) :
      Change app step state next
        { subjectId := owner.resourceId, credentialId := some row.id, expiresAt := row.expiresAt }
  | tokenRecover {oldId original spent nonce secret : String} {owner : Subject}
      {old row : StoredCredential} {expiresAt : Nat} {delivery : Delivery}
      {delivered saved ended bound consumed next : State}
      (asked : step.request.arguments = .tokenRecover oldId original spent nonce secret)
      (owns : Owns step state owner)
      (held : state.credentials.find? oldId = some old) (ends : old.expiresAt = some expiresAt)
      (good : old.subjectId = owner.resourceId ∧ old.kind = .token ∧ old.revokedAt = none ∧
        step.now < expiresAt)
      (kept : state.deliveries.find? old.id = some delivery)
      (open' : delivery.subject = owner.resourceId ∧ delivery.requestId = original ∧
        delivery.consumedAt = none ∧ step.now < delivery.recoveryExpiresAt ∧
        step.request.requestId ≠ delivery.requestId)
      (shape : row = tokenRow app (app.tokenId step.request.requestId owner.resourceId)
        owner.resourceId (app.issuedToken owner.resourceId step.request.requestId nonce) old.ceiling
        step.now expiresAt old.sourceCredentialId)
      (other : row.id ≠ old.id)
      (record : recordTokenDelivery app state step.request row step.now
        (some delivery.recoveryExpiresAt) = .ok delivered)
      (save : saveCredential delivered row owner.authVersion = .ok saved)
      (revoke : saveCredential saved (revoked step.now old) owner.authVersion = .ok ended)
      (copy : copyApi ended old.id row = .ok bound)
      (consume : consumeDelivery bound old.id step.now = .ok consumed)
      (finished : Finished step.aside consumed next) :
      Change app step state next
        { subjectId := owner.resourceId, credentialId := some row.id,
          previousCredential := some old.id, expiresAt := row.expiresAt }
  | certRequest {publicKey drawn owner : String} {saved next : State}
      {requests : Table CertificateRequest.resourceId}
      (asked : step.request.arguments = .certRequest publicKey drawn)
      (caller : step.context.principal.subject = some owner)
      (save : verifierKey app state step owner publicKey = .ok saved)
      (insert : saved.requests.insert ⟨drawn, owner, publicKey, true⟩ = some requests)
      (finished : Finished step.aside { saved with requests := requests } next) :
      Change app step state next { subjectId := owner }
  | certPublish {csrId : String} {cert : Certificate} {csr : CertificateRequest}
      {filled next : State}
      (asked : step.request.arguments = .certPublish csrId cert)
      (found : state.requests.find? csrId = some csr)
      (named : cert.keyId = app.keyId csr.publicKey)
      (fill : fillCeiling { state with requests := state.requests.modify csrId answered } cert =
        .ok filled)
      (finished : Finished step.aside filled next) :
      Change app step state next { subjectId := csr.subject }
  | recover {target publicKey id : String} {possession : Signature} {owner : Subject}
      {ended saved raised next : State}
      (asked : step.request.arguments = .recover target publicKey possession)
      (resolved : resolve app.toApp state.view target = .ok id)
      (stored : state.store.subjects.find? id = some owner)
      (revoke : revokeEach state (credentialsOf state id) step.now owner.authVersion = .ok ended)
      (save : saveCredential ended (signingKey app publicKey id app.primaryCeiling step.now)
        owner.authVersion = .ok saved)
      (bump : bumpSubject saved owner = .ok raised)
      (finished : Finished step.aside raised next) :
      Change app step state next { subjectId := id, keyId := some (app.keyId publicKey) }
  | encryptionKeyRotate {recipient keyId : String} {owner : Subject} {current : EncryptionSubkey}
      {rotated next : State}
      (asked : step.request.arguments = .encryptionKeyRotate recipient)
      (owns : Owns step state owner)
      (primary : primarySubkey state owner.resourceId = some current)
      (insert : insertEncryptionSubkey (retireSubkeys state owner.resourceId step.now)
        ⟨keyId, owner.resourceId, recipient, step.now, none, true⟩ = .ok rotated)
      (finished : Finished step.aside rotated next) :
      Change app step state next
        { subjectId := owner.resourceId, keyId := some keyId, previousKeyId := some current.keyId }
  | sshKeyAdd {publicKey : String} {possession : Signature} {ceiling : List CapabilityGrant}
      {owner : Subject} {saved next : State}
      (asked : step.request.arguments = .sshKeyAdd publicKey possession ceiling)
      (owns : Owns step state owner)
      (unknown : state.credentials.find? (app.keyId publicKey) = none)
      (save : saveCredential state (sshKey app publicKey owner.resourceId ceiling step.now)
        owner.authVersion = .ok saved)
      (finished : Finished step.aside saved next) :
      Change app step state next
        { subjectId := owner.resourceId, keyId := some (app.keyId publicKey) }
  | sshKeyRevoke {keyId : String} {owner : Subject} {row : StoredCredential} {saved next : State}
      (asked : step.request.arguments = .sshKeyRevoke keyId)
      (owns : Owns step state owner)
      (held : state.credentials.find? keyId = some row)
      (mine : row.kind = .sshKey ∧ row.subjectId = owner.resourceId)
      (save : saveCredential state (revoked step.now row) owner.authVersion = .ok saved)
      (finished : Finished step.aside saved next) :
      Change app step state next { subjectId := owner.resourceId, keyId := some row.id }
  | delegatedCreate {publicKey recipient grantor encryptionId drawn : String}
      {grants : List CapabilityGrant} {ends : Nat} {maxUses : Option Nat}
      {made saved keyed next : State}
      (asked : step.request.arguments =
        .delegatedCreate publicKey recipient grants ends maxUses drawn)
      (unknown : state.credentials.find? (app.keyId publicKey) = none)
      (make : makeUser state (app.subjectId publicKey) .temporary = .ok made)
      (save : saveCredential made
        (delegatedKey app publicKey (app.subjectId publicKey) grants step.now ends) 0 = .ok saved)
      (keys : Keyed saved (app.subjectId publicKey) (app.keyId publicKey) publicKey encryptionId
        recipient step.now keyed)
      (finished : Finished step.aside { keyed with
        delegatedIdentities := (app.subjectId publicKey, ⟨grantor, drawn, maxUses, 0⟩) ::
          keyed.delegatedIdentities } next) :
      Change app step state next
        { subjectId := app.subjectId publicKey, keyId := some (app.keyId publicKey),
          encryptionKeyId := some encryptionId }
  | idle {challengeId : String} {owner : Subject} {next : State}
      (asked : step.request.arguments = .custodialUpgradeFinish challengeId .idle)
      (owns : Owns step state owner)
      (finished : Finished step.aside state next) :
      Change app step state next { subjectId := owner.resourceId }
  | target {challengeId : String} {keys : KeySwitch} {owner : Subject} {targeted next : State}
      (asked : step.request.arguments = .custodialUpgradeFinish challengeId (.target keys))
      (owns : Owns step state owner)
      (activate : activateEncryptionTarget state owner.resourceId keys step.now = .ok targeted)
      (finished : Finished step.aside targeted next) :
      Change app step state next { subjectId := owner.resourceId }
  | switch {challengeId : String} {keys : KeySwitch} {retain : Bool} {owner : Subject}
      {switched next : State}
      (asked : step.request.arguments = .custodialUpgradeFinish challengeId (.switch keys retain))
      (owns : Owns step state owner)
      (exit : switchIdentity app state step owner keys retain = .ok switched)
      (finished : Finished step.aside switched next) :
      Change app step state next
        { subjectId := owner.resourceId, credentialId := some keys.newIdentityKeyId,
          previousCredential := step.context.principal.credentialId,
          keyId := some keys.newIdentityKeyId, encryptionKeyId := some keys.newEncryptionKeyId }
  | retire {challengeId : String} {retain : Bool} {owner : Subject} {next : State}
      (asked : step.request.arguments = .custodialUpgradeFinish challengeId (.retire retain))
      (owns : Owns step state owner)
      (finished : Finished step.aside { state with
        vaults := state.vaults.modify owner.resourceId (retireVault retain) } next) :
      Change app step state next { subjectId := owner.resourceId }
  | other {operation : OtherOperation} {subject : String} {next : State}
      (asked : step.request.arguments = .other operation)
      (finished : Finished step.aside state next) :
      Change app step state next { subjectId := subject }

variable {state next : State} {step : Step} {data : Data}

theorem register_change {publicKey recipient : String}
    (asked : step.request.arguments = .register publicKey recipient)
    (done : register app state step publicKey recipient = .ok (next, data)) :
    Change app step state next data := by
  simp only [register, Program.except_bind_ok, requireRow_ok, require_ok] at done
  obtain ⟨user, caller, _, _, encryptionId, _, made, make, saved, save, keyed, keys, last⟩ := done
  obtain ⟨finished, rfl⟩ := finish_ok last
  exact .register asked caller make save (insertKeys_ok keys) finished

theorem temporary_change {nonce secret publicKey recipient : String} {possession : Signature}
    (asked : step.request.arguments = .temporary nonce secret publicKey recipient possession)
    (done : temporary app state step nonce publicKey recipient possession = .ok (next, data)) :
    Change app step state next data := by
  simp only [temporary, Program.except_bind_ok, requireRow_ok, require_ok] at done
  obtain ⟨_, _, user, caller, encryptionId, _, _, _, made, make, signed, sign, keyed, keys, token,
    first, saved, save, delivered, record, last⟩ := done
  obtain ⟨finished, rfl⟩ := finish_ok last
  exact .temporary asked caller make sign (insertKeys_ok keys) first save record finished

theorem custodialCreate_change {nonce secret publicKey recipient : String}
    (asked : step.request.arguments = .custodialCreate nonce secret publicKey recipient)
    (done : custodialCreate app state step nonce publicKey recipient = .ok (next, data)) :
    Change app step state next data := by
  simp only [custodialCreate, Program.except_bind_ok, requireRow_ok, insertRow_ok] at done
  obtain ⟨user, caller, encryptionId, _, made, make, signed, sign, token, first, saved, save,
    delivered, record, keyed, keys, vaults, vault, last⟩ := done
  obtain ⟨finished, rfl⟩ := finish_ok last
  exact .custodial asked caller make sign first save record (insertKeys_ok keys) vault finished

theorem tokenRotate_change {nonce secret : String}
    (asked : step.request.arguments = .tokenRotate nonce secret)
    (done : tokenRotate app state step nonce = .ok (next, data)) :
    Change app step state next data := by
  simp only [tokenRotate, storedCredential, Program.except_bind_ok, requireRow_ok,
    require_ok] at done
  obtain ⟨owner, owned, oldId, caller, old, held, _, isToken, _, _, saved, save, delivered, record,
    ended, revoke, last⟩ := done
  obtain ⟨finished, rfl⟩ := finish_ok last
  have same : old.key = oldId := Table.find?_key held
  subst same
  exact .rotate asked (controlledOwner_ok owned) caller held isToken rfl save record revoke finished

theorem upgrade_change {handle publicKey recipient : String} {possession : Signature}
    (asked : step.request.arguments = .upgrade handle publicKey possession recipient)
    (done : upgrade app state step handle publicKey possession recipient = .ok (next, data)) :
    Change app step state next data := by
  simp only [upgrade, Program.except_bind_ok, require_ok] at done
  obtain ⟨_, _, owner, owned, _, kind, encryptionId, _, _, _, raised, raise, saved, save, keyed,
    primary, sealed, subkey, ended, revoke, last⟩ := done
  obtain ⟨finished, rfl⟩ := finish_ok last
  exact .upgrade asked (controlledOwner_ok owned) kind raise save primary subkey revoke finished

theorem keyAdd_change {publicKey : String} {possession : Signature} {ceiling : List CapabilityGrant}
    (asked : step.request.arguments = .keyAdd publicKey possession ceiling)
    (done : keyAdd app state step publicKey possession ceiling = .ok (next, data)) :
    Change app step state next data := by
  simp only [keyAdd, Program.except_bind_ok, require_ok] at done
  obtain ⟨owner, owned, _, _, _, _, _, _, _, unknown, saved, save, keyed, keys, raised, bump,
    last⟩ := done
  obtain ⟨finished, rfl⟩ := finish_ok last
  exact .keyAdd asked (controlledOwner_ok owned) unknown save keys bump finished

theorem keyRevoke_change {keyId : String}
    (asked : step.request.arguments = .keyRevoke keyId)
    (done : keyRevoke app state step keyId = .ok (next, data)) :
    Change app step state next data := by
  simp only [keyRevoke, storedCredential, Program.except_bind_ok, requireRow_ok,
    require_ok] at done
  obtain ⟨owner, owned, row, held, _, mine, _, spare, saved, save, raised, bump, last⟩ := done
  obtain ⟨finished, rfl⟩ := finish_ok last
  exact .keyRevoke asked (controlledOwner_ok owned) held mine spare save bump finished

theorem tokenCreate_change {nonce secret : String} {asking : Option (List CapabilityGrant)}
    {ttl : Nat} {previous : Option String}
    (asked : step.request.arguments = .tokenCreate nonce asking ttl secret previous)
    (done : tokenCreate app state step nonce asking ttl previous = .ok (next, data)) :
    Change app step state next data := by
  simp only [tokenCreate, Program.except_bind_ok, require_ok] at done
  obtain ⟨owner, owned, ceiling, _, _, allowed, _, _, saved, save, delivered, record, bound, binding,
    last⟩ := done
  obtain ⟨finished, rfl⟩ := finish_ok last
  exact .tokenCreate asked (controlledOwner_ok owned) allowed rfl save record (bindApi_ok binding)
    finished

theorem tokenRecover_change {oldId original spent nonce secret : String}
    (asked : step.request.arguments = .tokenRecover oldId original spent nonce secret)
    (done : tokenRecover app state step oldId original nonce = .ok (next, data)) :
    Change app step state next data := by
  simp only [tokenRecover, storedCredential, Program.except_bind_ok, requireRow_ok,
    require_ok] at done
  obtain ⟨owner, owned, old, held, expiresAt, ends, _, good, delivery, kept, _, open', _, _, _, _, _,
    other, delivered, record, saved, save, ended, revoke, bound, copy, consumed, consume,
    last⟩ := done
  obtain ⟨finished, rfl⟩ := finish_ok last
  exact .tokenRecover asked (controlledOwner_ok owned) held ends good kept open' rfl other record
    save revoke copy consume finished

theorem certRequest_change {publicKey drawn : String}
    (asked : step.request.arguments = .certRequest publicKey drawn)
    (done : certRequest app state step publicKey drawn = .ok (next, data)) :
    Change app step state next data := by
  simp only [certRequest, Program.except_bind_ok, requireRow_ok, insertRow_ok] at done
  obtain ⟨owner, caller, _, _, _, _, saved, save, requests, insert, last⟩ := done
  obtain ⟨finished, rfl⟩ := finish_ok last
  exact .certRequest asked caller save insert finished

theorem certPublish_change {csrId : String} {cert : Certificate}
    (asked : step.request.arguments = .certPublish csrId cert)
    (done : certPublish app state step csrId cert = .ok (next, data)) :
    Change app step state next data := by
  simp only [certPublish, Program.except_bind_ok, requireRow_ok, require_ok] at done
  obtain ⟨csr, found, _, _, _, _, _, _, _, _, _, _, _, matched, filled, fill, last⟩ := done
  obtain ⟨finished, rfl⟩ := finish_ok last
  exact .certPublish asked found matched.2 fill finished

theorem recover_change {target publicKey : String} {possession : Signature}
    (asked : step.request.arguments = .recover target publicKey possession)
    (done : recover app state step target publicKey possession = .ok (next, data)) :
    Change app step state next data := by
  simp only [recover, subject, Program.except_bind_ok, requireRow_ok, require_ok] at done
  obtain ⟨id, resolved, owner, stored, _, _, _, _, _, _, _, _, _, _, ended, revoke, saved, save,
    raised, bump, last⟩ := done
  obtain ⟨finished, rfl⟩ := finish_ok last
  exact .recover asked resolved stored revoke save bump finished

theorem encryptionKeyRotate_change {recipient : String}
    (asked : step.request.arguments = .encryptionKeyRotate recipient)
    (done : encryptionKeyRotate app state step recipient = .ok (next, data)) :
    Change app step state next data := by
  simp only [encryptionKeyRotate, Program.except_bind_ok, requireRow_ok, require_ok] at done
  obtain ⟨owner, owned, _, _, current, primary, _, _, _, _, rotated, insert, last⟩ := done
  obtain ⟨finished, rfl⟩ := finish_ok last
  exact .encryptionKeyRotate asked (controlledOwner_ok owned) primary insert finished

theorem sshKeyAdd_change {publicKey : String} {possession : Signature}
    {ceiling : List CapabilityGrant}
    (asked : step.request.arguments = .sshKeyAdd publicKey possession ceiling)
    (done : sshKeyAdd app state step publicKey possession ceiling = .ok (next, data)) :
    Change app step state next data := by
  simp only [sshKeyAdd, Program.except_bind_ok, require_ok] at done
  obtain ⟨owner, owned, _, _, _, _, _, _, _, _, _, unknown, saved, save, last⟩ := done
  obtain ⟨finished, rfl⟩ := finish_ok last
  exact .sshKeyAdd asked (controlledOwner_ok owned) unknown save finished

theorem sshKeyRevoke_change {keyId : String}
    (asked : step.request.arguments = .sshKeyRevoke keyId)
    (done : sshKeyRevoke app state step keyId = .ok (next, data)) :
    Change app step state next data := by
  simp only [sshKeyRevoke, storedCredential, Program.except_bind_ok, requireRow_ok,
    require_ok] at done
  obtain ⟨owner, owned, row, held, _, mine, saved, save, last⟩ := done
  obtain ⟨finished, rfl⟩ := finish_ok last
  exact .sshKeyRevoke asked (controlledOwner_ok owned) held mine save finished

theorem delegatedCreate_change {publicKey recipient drawn : String} {grants : List CapabilityGrant}
    {ends : Nat} {maxUses : Option Nat}
    (asked : step.request.arguments =
      .delegatedCreate publicKey recipient grants ends maxUses drawn)
    (done : delegatedCreate app state step publicKey recipient grants ends maxUses drawn =
      .ok (next, data)) : Change app step state next data := by
  simp only [delegatedCreate, Program.except_bind_ok, requireRow_ok, require_ok] at done
  obtain ⟨grantor, _, _, _, encryptionId, _, _, unknown, made, make, saved, save, keyed, keys,
    last⟩ := done
  obtain ⟨finished, rfl⟩ := finish_ok last
  exact .delegatedCreate asked unknown make save (insertKeys_ok keys) finished

theorem custodialUpgradeFinish_change {challengeId : String} {custody : Custody}
    (asked : step.request.arguments = .custodialUpgradeFinish challengeId custody)
    (done : custodialUpgradeFinish app state step custody = .ok (next, data)) :
    Change app step state next data := by
  simp only [custodialUpgradeFinish, Program.except_bind_ok] at done
  obtain ⟨owner, owned, later⟩ := done
  have owns := controlledOwner_ok owned
  cases custody with
  | idle =>
      obtain ⟨finished, rfl⟩ := finish_ok later
      exact .idle asked owns finished
  | target keys =>
      simp only [Program.except_bind_ok] at later
      obtain ⟨targeted, activate, last⟩ := later
      obtain ⟨finished, rfl⟩ := finish_ok last
      exact .target asked owns activate finished
  | switch keys retain =>
      simp only [Program.except_bind_ok] at later
      obtain ⟨switched, exit, last⟩ := later
      obtain ⟨finished, rfl⟩ := finish_ok last
      exact .switch asked owns exit finished
  | retire retain =>
      simp only [Program.except_bind_ok] at later
      obtain ⟨_, _, last⟩ := later
      obtain ⟨finished, rfl⟩ := finish_ok last
      exact .retire asked owns finished

theorem perform_change (done : perform app state step = .ok (next, data)) :
    Change app step state next data := by
  unfold perform at done
  split at done
  next asked => exact register_change asked done
  next asked => exact temporary_change asked done
  next asked => exact custodialCreate_change asked done
  next asked => exact tokenRotate_change asked done
  next asked => exact upgrade_change asked done
  next asked => exact keyAdd_change asked done
  next asked => exact keyRevoke_change asked done
  next asked => exact tokenCreate_change asked done
  next asked => exact tokenRecover_change asked done
  next asked => exact certRequest_change asked done
  next asked => exact certPublish_change asked done
  next asked => exact recover_change asked done
  next asked => exact encryptionKeyRotate_change asked done
  next asked => exact sshKeyAdd_change asked done
  next asked => exact sshKeyRevoke_change asked done
  next asked => exact delegatedCreate_change asked done
  next asked => exact custodialUpgradeFinish_change asked done
  next asked =>
      obtain ⟨finished, rfl⟩ := finish_ok done
      exact .other asked finished

end MsgServer.Identity
