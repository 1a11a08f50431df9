import MsgServer.Security.Formation
import MsgServer.Security.Principals

/-!
Revocation over whole runs. The store compares the identity of a saved credential, not its
revocation, so every writer decides for itself what becomes of a row that is revoked.
-/

namespace MsgServer.Revocation

open Library Session Policy Accounts Bindings Requests TokenDelivery Identity Authentication
  Credentials Issuance Machine Formation Certificates

variable {app : Installation} {first state next : State} {step : Step} {data : Data}

/-- What was revoked is revoked, since the same time. -/
def RevocationsKept (state next : State) : Prop := ∀ id row ends,
  state.credentials.find? id = some row → row.revokedAt = some ends →
    ∃ later, next.credentials.find? id = some later ∧ later.revokedAt = some ends

theorem RevocationsKept.refl (state : State) : RevocationsKept state state :=
  fun _ row _ found gone => ⟨row, found, gone⟩

theorem RevocationsKept.trans {first second third : State} (left : RevocationsKept first second)
    (right : RevocationsKept second third) : RevocationsKept first third := by
  intro id row ends found gone
  obtain ⟨later, foundLater, goneLater⟩ := left id row ends found gone
  exact right id later ends foundLater goneLater

theorem RevocationsKept.beside (same : next.credentials = state.credentials) :
    RevocationsKept state next := by
  intro id row ends found gone
  rw [same]
  exact ⟨row, found, gone⟩

theorem RevocationsKept.after {last : State} (kept : RevocationsKept state next)
    (same : last.credentials = next.credentials) : RevocationsKept state last :=
  kept.trans (RevocationsKept.beside same)

/-- A save is careful when the row it replaces is not revoked, or stays revoked as it was. -/
theorem RevocationsKept.save {row : StoredCredential} {version : Nat}
    (done : saveCredential state row version = .ok next)
    (careful : ∀ old ends, state.credentials.find? row.id = some old → old.revokedAt = some ends →
      row.revokedAt = some ends) : RevocationsKept state next := by
  have saved := saveCredential_saved done
  intro id old ends found gone
  rw [saved.find?]
  by_cases here : row.id = id
  · rw [if_pos here]
    rw [← here] at found
    exact ⟨row, rfl, careful old ends found gone⟩
  · rw [if_neg here]
    exact ⟨old, found, gone⟩

theorem RevocationsKept.new {row : StoredCredential} {version : Nat}
    (done : saveCredential state row version = .ok next)
    (unknown : state.credentials.find? row.id = none) : RevocationsKept state next := by
  apply RevocationsKept.save done
  intro old ends found
  rw [unknown] at found
  cases found

/-- Revoking a row that is not revoked yet, or was in this very instant. -/
theorem RevocationsKept.revoke {row : StoredCredential} {version now : Nat}
    (done : saveCredential state (revoked now row) version = .ok next)
    (held : state.credentials.find? row.id = some row)
    (careful : ∀ ends, row.revokedAt = some ends → ends = now) : RevocationsKept state next := by
  apply RevocationsKept.save done
  intro old ends found gone
  have same : some row = some old := held.symm.trans found
  cases same
  rw [careful ends gone]
  rfl

theorem credentialsOf_found {subject : String} {row : StoredCredential}
    (member : row ∈ credentialsOf state subject) : state.credentials.find? row.id = some row :=
  (Table.mem_iff_find? _ row).mp (List.mem_filter.mp member).1

/-- A revoked row is left alone by the revocation of a list that it is not in. -/
theorem revokeEach_spares {rows : List StoredCredential} {now version : Nat} {id : String}
    {row : StoredCredential} (held : ∀ other ∈ rows, state.credentials.find? other.id = some other)
    (done : revokeEach state rows now version = .ok next)
    (found : state.credentials.find? id = some row) (outside : row ∉ rows) :
    next.credentials.find? id = some row := by
  have after := revokeEach_revoked (fun other member => Held.of_find? (held other member)) done
  rw [after.others id, found]
  intro other member same
  have twin := held other member
  rw [same, found, Option.some.injEq] at twin
  exact outside (twin ▸ member)

theorem revokeEach_kept {rows : List StoredCredential} {now version : Nat}
    (held : ∀ row ∈ rows, state.credentials.find? row.id = some row)
    (done : revokeEach state rows now version = .ok next)
    (careful : ∀ row ∈ rows, ∀ ends, row.revokedAt = some ends → ends = now) :
    RevocationsKept state next := by
  intro id row ends found gone
  by_cases member : row ∈ rows
  · have after := revokeEach_revoked (fun other member => Held.of_find? (held other member)) done
    have same : row.key = id := Table.find?_key found
    subst same
    refine ⟨_, after.listed row member, ?_⟩
    rw [careful row member ends gone]
    rfl
  · exact ⟨row, revokeEach_spares held done found member, gone⟩

/-! The writers that do not look. -/

def revocation (state : State) (id : String) : Option Nat :=
  (state.credentials.find? id).bind fun row => row.revokedAt

/-- The row is not revoked, or was in this very instant. -/
def spared (state : State) (id : String) (now : Nat) : Bool :=
  revocation state id == none || revocation state id == some now

/-- What the request of a careful caller does not ask for: to revoke a key for a second
time, or to install a key that was revoked. A recovery revokes every key of its target. -/
def careful (app : Installation) (state : State) (arguments : Arguments) (now : Nat) : Bool :=
  match arguments with
  | .keyRevoke keyId => spared state keyId now
  | .sshKeyRevoke keyId => spared state keyId now
  | .upgrade _ publicKey _ _ => revocation state (app.keyId publicKey) == none
  | .custodialUpgradeFinish _ (.switch keys _) =>
      revocation state (app.keyId keys.publicKey) == none
  | .recover target publicKey _ =>
      match resolve app.toApp state.view target with
      | .error _ => true
      | .ok id => (credentialsOf state id).all fun row => row.revokedAt == none ||
          (row.revokedAt == some now && row.id != app.keyId publicKey)
  | _ => true

theorem spared_ends {id : String} {now ends : Nat} {row : StoredCredential}
    (spare : spared state id now = true) (found : state.credentials.find? id = some row)
    (gone : row.revokedAt = some ends) : ends = now := by
  simpa [spared, revocation, found, gone] using spare

theorem unrevoked_none {id : String} {row : StoredCredential}
    (live : (revocation state id == none) = true) (found : state.credentials.find? id = some row) :
    row.revokedAt = none := by
  simpa [revocation, found] using live

theorem recover_careful {target publicKey id : String} {possession : Signature} {now ends : Nat}
    {row : StoredCredential}
    (cautious : careful app state (.recover target publicKey possession) now = true)
    (resolved : resolve app.toApp state.view target = .ok id)
    (member : row ∈ credentialsOf state id) (gone : row.revokedAt = some ends) :
    ends = now ∧ row.id ≠ app.keyId publicKey := by
  simp only [careful, resolved] at cautious
  have mine := List.all_eq_true.mp cautious row member
  simpa [gone] using mine

/-- The key of a new subject is new. -/
theorem key_unknown {user publicKey : String} {ceiling : List CapabilityGrant} {kind : SubjectKind}
    {version now : Nat} {made signed : State} (formed : Formed state)
    (make : makeUser state user kind = .ok made)
    (sign : saveCredential made (signingKey app publicKey user ceiling now) version = .ok signed) :
    state.credentials.find? (app.keyId publicKey) = none := by
  have same := (saveCredential_saved sign).same
  rw [(updateSubject_beside make).credentials] at same
  exact credential_unknown formed (makeUser_new make) rfl same

theorem makeUser_kept {user : String} {kind : SubjectKind} {made : State}
    (make : makeUser state user kind = .ok made) : made.credentials = state.credentials :=
  (updateSubject_beside make).credentials

theorem first_key_kept {user publicKey : String} {ceiling : List CapabilityGrant}
    {kind : SubjectKind} {version now : Nat} {made signed : State} (formed : Formed state)
    (make : makeUser state user kind = .ok made)
    (sign : saveCredential made (signingKey app publicKey user ceiling now) version = .ok signed) :
    RevocationsKept state signed := by
  have unknown := key_unknown formed make sign
  rw [← makeUser_kept make] at unknown
  exact (RevocationsKept.beside (makeUser_kept make)).trans (RevocationsKept.new sign unknown)

/-- A row that is revoked before a recovery is neither its key nor revoked at another time. -/
theorem recover_kept {publicKey id : String} {owner : Subject} {version : Nat}
    {ended saved : State} {now : Nat}
    (mine : ∀ row ∈ credentialsOf state id, ∀ ends, row.revokedAt = some ends →
      ends = now ∧ row.id ≠ app.keyId publicKey)
    (revoke : revokeEach state (credentialsOf state id) now owner.authVersion = .ok ended)
    (save : saveCredential ended (signingKey app publicKey id app.primaryCeiling now) version =
      .ok saved) : RevocationsKept state saved := by
  have kept := revokeEach_kept (fun row member => credentialsOf_found member) revoke
    fun row member ends gone => (mine row member ends gone).1
  have stored := saveCredential_saved save
  intro id' row ends found gone
  obtain ⟨later, foundLater, goneLater⟩ := kept id' row ends found gone
  have other : (signingKey app publicKey id app.primaryCeiling now).id ≠ id' := by
    intro same
    have key : row.key = id' := Table.find?_key found
    subst key
    -- Whoever holds the key, it is the target: the save would have been refused.
    by_cases member : row ∈ credentialsOf state id
    · exact (mine row member ends gone).2 same.symm
    · have spared := revokeEach_spares (fun other inside => credentialsOf_found inside) revoke found
        member
      have here : ended.credentials.find? (signingKey app publicKey id app.primaryCeiling now).id =
          some row := same ▸ spared
      have subject := stored.subject here
      exact member (List.mem_filter.mpr ⟨Table.find?_mem found, by simpa [signingKey] using subject⟩)
  refine ⟨later, ?_, goneLater⟩
  rw [stored.find?, if_neg other]
  exact foundLater

theorem switch_kept {owner : Subject} {keys : KeySwitch} {retain : Bool}
    (live : ∀ row, state.credentials.find? (app.keyId keys.publicKey) = some row →
      row.revokedAt = none)
    (done : switchIdentity app state step owner keys retain = .ok next) :
    RevocationsKept state next := by
  simp only [switchIdentity, Program.except_bind_ok, Program.except_pure, Except.ok.injEq] at done
  obtain ⟨_, _, _, _, _, _, ended, revoke, saved, save, keyed, insert, targeted, activate, raised,
    raise, rfl⟩ := done
  have stored := saveCredential_saved save
  have lead : RevocationsKept state saved := by
    intro id row ends found gone
    have spared := revokeEach_spares
      (fun other member => credentialsOf_found (List.mem_filter.mp member).1) revoke found (by
        intro member
        have picked := (List.mem_filter.mp member).2
        simp [switchRevokes, gone] at picked)
    refine ⟨row, ?_, gone⟩
    rw [stored.find?, if_neg]
    · exact spared
    · intro same
      change app.keyId keys.publicKey = id at same
      rw [← same] at found
      rw [live row found] at gone
      cases gone
  have retired : Beside saved (retireKeys saved owner.resourceId step.now) := ⟨rfl, rfl, rfl⟩
  have tail := (retired.trans (insertIdentityKey_beside insert)).trans
    ((activate_beside activate).trans (updateSubject_beside raise))
  exact lead.after tail.credentials

theorem record_kept {row : StoredCredential} {inherited : Option Nat}
    (record : recordTokenDelivery app state step.request row step.now inherited = .ok next) :
    next.credentials = state.credentials := by
  obtain ⟨_, recorded⟩ := recordTokenDelivery_recorded record
  exact recorded.credentials

theorem live_revoke {row : StoredCredential} {version now : Nat}
    (done : saveCredential state (revoked now row) version = .ok next)
    (held : state.credentials.find? row.id = some row) (live : row.revokedAt = none) :
    RevocationsKept state next := by
  apply RevocationsKept.revoke done held
  intro ends gone
  rw [live] at gone
  cases gone

theorem replacePrevious_kept {owner : Subject} {now : Nat} {previous : Option String}
    (done : replacePrevious state owner now previous = .ok next) : RevocationsKept state next := by
  cases previous with
  | none =>
      cases done
      exact RevocationsKept.refl _
  | some id =>
      simp only [replacePrevious, storedCredential, Program.except_bind_ok, requireRow_ok,
        require_ok] at done
      obtain ⟨old, found, _, ⟨_, _, live⟩, _, _, revoke⟩ := done
      have same : old.key = id := Table.find?_key found
      subst same
      exact live_revoke revoke found live

theorem bound_kept {owner : Subject} {row : StoredCredential} {previous : Option String}
    (binding : Bound step owner row previous state next) : RevocationsKept state next := by
  cases binding with
  | unbound _ => exact RevocationsKept.refl _
  | api _ _ put replaced =>
      obtain ⟨_, _, shape⟩ := putApi_ok put
      exact (RevocationsKept.beside (by rw [shape])).trans (replacePrevious_kept replaced)

theorem verifierKey_kept {owner publicKey : String}
    (done : verifierKey app state step owner publicKey = .ok next) : RevocationsKept state next := by
  unfold verifierKey at done
  split at done
  · simp only [Program.except_bind_ok, Program.except_pure, Except.ok.injEq] at done
    obtain ⟨_, _, rfl⟩ := done
    exact RevocationsKept.refl _
  · rename_i unknown
    simp only [Program.except_bind_ok] at done
    obtain ⟨_, _, save⟩ := done
    exact RevocationsKept.new save unknown

theorem fillCeiling_kept {cert : Certificate} (done : fillCeiling state cert = .ok next) :
    RevocationsKept state next := by
  simp only [fillCeiling, storedCredential, Program.except_bind_ok, requireRow_ok] at done
  obtain ⟨row, found, _, _, later⟩ := done
  split at later
  · have same : row.key = cert.keyId := Table.find?_key found
    rw [← same] at found
    apply RevocationsKept.save later
    intro old ends here gone
    have twin : some row = some old := found.symm.trans here
    cases twin
    exact gone
  · cases later
    exact RevocationsKept.refl _

/-- One operation, case by case. -/
theorem change_kept (formed : Formed state)
    (cautious : careful app state step.request.arguments step.now = true)
    (starts : Starts state step) (change : Change app step state next data) :
    RevocationsKept state next := by
  cases change with
  | register _ _ make save keys finished =>
      have tail := (keyed_beside keys).trans (finished_beside finished)
      exact (first_key_kept formed make save).after tail.credentials
  | temporary _ _ make sign keys first save record finished =>
      obtain ⟨_, mine, isToken, _⟩ := firstToken_ok first
      obtain ⟨_, unknown⟩ := first_unknown formed make sign (keyed_beside keys) mine isToken save
      have signed := (first_key_kept formed make sign).after (keyed_beside keys).credentials
      exact ((signed.trans (RevocationsKept.new save unknown)).after (record_kept record)).after
        (finished_beside finished).credentials
  | custodial _ _ make sign first save record keys _ finished =>
      obtain ⟨_, mine, isToken, _⟩ := firstToken_ok first
      obtain ⟨_, unknown⟩ := first_unknown formed make sign (Beside.refl _) mine isToken save
      have issued := (first_key_kept formed make sign).trans (RevocationsKept.new save unknown)
      exact ((issued.after (record_kept record)).after (keyed_beside keys).credentials).after
        (finished_beside finished).credentials
  | rotate asked _ caller held isToken shape save record revoke finished =>
      have live := starts _ _ _ asked caller held
      have unknown := saved_unknown formed (by rw [shape]; rfl) (by rw [shape]; rfl) save record
      have stored := saveCredential_saved save
      refine (((RevocationsKept.new save unknown).after (record_kept record)).trans
        (live_revoke revoke ?_ live)).after (finished_beside finished).credentials
      rw [record_kept record, stored.find?, if_neg, held]
      intro same
      rw [same, held] at unknown
      cases unknown
  | upgrade asked _ _ raise save primary subkey revoke finished =>
      rw [asked] at cautious
      have raised := (updateSubject_beside raise).credentials
      have signed : RevocationsKept _ _ := RevocationsKept.save save (by
        intro old ends found gone
        rw [raised] at found
        rw [unrevoked_none cautious found] at gone
        cases gone)
      have ended := revokeEach_kept
        (fun row member => credentialsOf_found (List.mem_filter.mp member).1) revoke (by
          intro row member ends gone
          have picked := (List.mem_filter.mp member).2
          simp [gone] at picked)
      have keyed := (primaryOr_beside primary).trans (primarySubkeyOr_beside subkey)
      have lead := ((RevocationsKept.beside raised).trans signed).after keyed.credentials
      exact (lead.trans ended).after (finished_beside finished).credentials
  | keyAdd _ _ unknown save keys bump finished =>
      have tail := (insertIdentityKey_beside keys).trans
        ((bumpSubject_beside bump).trans (finished_beside finished))
      exact (RevocationsKept.new save unknown).after tail.credentials
  | @keyRevoke keyId _ row saved _ _ asked _ held _ _ save bump finished =>
      rw [asked] at cautious
      have same : row.key = keyId := Table.find?_key held
      subst same
      have tail := (dropKey_beside saved _ _ _).trans
        ((bumpSubject_beside bump).trans (finished_beside finished))
      exact (RevocationsKept.revoke save held fun ends => spared_ends cautious held).after
        tail.credentials
  | tokenCreate _ _ _ shape save record binding finished =>
      have unknown := saved_unknown formed (by rw [shape]; rfl) (by rw [shape]; rfl) save record
      have issued := (RevocationsKept.new save unknown).after (record_kept record)
      exact (issued.trans (bound_kept binding)).after (finished_beside finished).credentials
  | @tokenRecover oldId _ _ _ _ _ old row _ _ delivered saved ended bound consumed _ _ _ held _ good
      _ _ shape other record save revoke copy consume finished =>
      have same : old.key = oldId := Table.find?_key held
      subst same
      have unknown := recorded_unknown formed (by rw [shape]; rfl) (by rw [shape]; rfl) record save
      rw [← record_kept record] at unknown
      have stored := saveCredential_saved save
      have still : saved.credentials.find? old.id = some old := by
        rw [stored.find?, if_neg other, record_kept record]
        exact held
      have copied : bound.credentials = ended.credentials := by
        unfold copyApi at copy
        split at copy
        · cases copy
          rfl
        · obtain ⟨_, _, rfl⟩ := putApi_ok copy
          rfl
      have used : consumed.credentials = bound.credentials := by rw [consumeDelivery_ok consume]
      have lead := (RevocationsKept.beside (record_kept record)).trans
        (RevocationsKept.new save unknown)
      have ended := (lead.trans (live_revoke revoke still good.2.2.1)).after copied
      exact (ended.after used).after (finished_beside finished).credentials
  | certRequest _ _ save _ finished =>
      exact (verifierKey_kept save).after (finished_beside finished).credentials
  | certPublish _ _ _ fill finished =>
      have filled := (fillCeiling_kept fill).after (finished_beside finished).credentials
      exact fun id row ends found gone => filled id row ends found gone
  | recover asked resolved _ revoke save bump finished =>
      rw [asked] at cautious
      have tail := (bumpSubject_beside bump).trans (finished_beside finished)
      exact (recover_kept (fun row member ends => recover_careful cautious resolved member) revoke
        save).after tail.credentials
  | @encryptionKeyRotate _ _ owner _ _ _ _ _ _ insert finished =>
      have retired : Beside state (retireSubkeys state owner.resourceId step.now) := ⟨rfl, rfl, rfl⟩
      have tail := (retired.trans (insertEncryptionSubkey_beside insert)).trans
        (finished_beside finished)
      exact RevocationsKept.beside tail.credentials
  | sshKeyAdd _ _ unknown save finished =>
      exact (RevocationsKept.new save unknown).after (finished_beside finished).credentials
  | @sshKeyRevoke keyId _ row _ _ asked _ held _ save finished =>
      rw [asked] at cautious
      have same : row.key = keyId := Table.find?_key held
      subst same
      exact (RevocationsKept.revoke save held fun ends => spared_ends cautious held).after
        (finished_beside finished).credentials
  | @delegatedCreate publicKey _ _ _ _ _ _ _ made _ keyed _ _ unknown make save keys finished =>
      rw [← makeUser_kept make] at unknown
      have last := (finished_beside finished).credentials
      have tail : next.credentials = keyed.credentials := last
      have signed := (RevocationsKept.beside (makeUser_kept make)).trans
        (RevocationsKept.new save unknown)
      exact (signed.after (keyed_beside keys).credentials).after tail
  | idle _ _ finished => exact RevocationsKept.beside (finished_beside finished).credentials
  | target _ _ activate finished =>
      exact RevocationsKept.beside ((activate_beside activate).trans
        (finished_beside finished)).credentials
  | switch asked _ exit finished =>
      rw [asked] at cautious
      exact (switch_kept (fun row => unrevoked_none cautious) exit).after (finished_beside finished).credentials
  | retire _ _ finished =>
      have last := (finished_beside finished).credentials
      exact RevocationsKept.beside last
  | other _ finished => exact RevocationsKept.beside (finished_beside finished).credentials

/-! What a revoked credential still authenticates. -/

/-- A credential that is revoked names no packet that does new work. -/
theorem revoked_idle {id : String} {request : Request} {now : Nat} {principal : Principal}
    {aside : Aside} (formed : Formed state) {row : StoredCredential}
    (found : state.credentials.find? id = some row) (gone : row.revokedAt ≠ none)
    (named : principal.credentialId = some id)
    (unanswered : requestResult state (principal.subject.getD "") request.requestId
      request.payloadDigest = .ok none)
    (authentic : Authentic app state request now principal)
    (change : Change app ⟨⟨principal, .network, now⟩, request, aside⟩ state next data) : False := by
  cases authentic with
  | registering asked _ _ =>
      cases named
      cases change with
      | register asked' _ make save _ _ =>
          cases asked.symm.trans asked'
          rw [key_unknown formed make save] at found
          cases found
      | _ asked' => exact absurd (asked.symm.trans asked') (by simp)
  | claiming asked _ =>
      have unknown : ∀ token : StoredCredential, some token.id = some id →
          state.credentials.find? token.id = none → False := by
        intro token same free
        cases same
        rw [free] at found
        cases found
      have caller := named
      rcases asked with ⟨_, _, _, _, asked⟩ | ⟨_, _, _, asked⟩
      all_goals cases change with
        | temporary _ _ make sign keys first save _ _ =>
            obtain ⟨given, mine, isToken, _⟩ := firstToken_ok first
            exact unknown _ (given.symm.trans caller)
              (first_unknown formed make sign (keyed_beside keys) mine isToken save).1
        | custodial _ _ make sign first save _ _ _ _ =>
            obtain ⟨given, mine, isToken, _⟩ := firstToken_ok first
            exact unknown _ (given.symm.trans caller)
              (first_unknown formed make sign (Beside.refl _) mine isToken save).1
        | _ asked' => exact absurd (asked.symm.trans asked') (by simp)
  | recovering asked _ held _ _ _ _ _ spare =>
      cases named
      rw [held] at found
      cases found
      rcases unspent_ok spare with ⟨_, live⟩ | ⟨result, answered⟩
      · exact gone live
      · have both := answered.symm.trans unanswered
        cases both
  | proving _ proves owner live _ =>
      cases named
      have held := proves.found
      rw [found] at held
      cases held
      rcases unrevoked_live live with unended | rotation
      · exact gone unended
      · exact ownRotation_answered rotation owner unanswered change

/-- The credential is good for nothing new: whatever is authenticated with it is no read, and
is answered with a stored result; and OAuth takes no bearer of it. -/
structure Spent (app : Installation) (state : State) (id : String) : Prop where
  packets : ∀ request now principal, authenticate app state request now = .ok principal →
    principal.credentialId = some id → request.arguments.reads = false ∧
      ∀ aside next answer, execute app state request now aside = .ok (next, answer) →
        next = state ∧ answer.replayed = true
  bearers : ∀ now secret row, OAuth.bearer app state now id secret ≠ .ok row

theorem revoked_reads {request : Request} {now : Nat} {principal : Principal} {id : String}
    {row : StoredCredential} (found : state.credentials.find? id = some row)
    (gone : row.revokedAt ≠ none) (named : principal.credentialId = some id)
    (authentic : Authentic app state request now principal) : request.arguments.reads = false := by
  cases authentic with
  | registering asked _ _ => rw [asked]; rfl
  | claiming asked _ =>
      rcases asked with ⟨_, _, _, _, asked⟩ | ⟨_, _, _, asked⟩
      · rw [asked]; rfl
      · rw [asked]; rfl
  | recovering asked _ _ _ _ _ _ _ _ => rw [asked]; rfl
  | proving _ proves owner live _ =>
      cases named
      have held := proves.found
      rw [found] at held
      cases held
      rcases unrevoked_live live with unended | rotation
      · exact absurd unended gone
      · rcases replayable_arguments (ownRotation_replays rotation).1 with ⟨_, _, asked⟩ |
          ⟨_, _, asked⟩
        · rw [asked]; rfl
        · rw [asked]; rfl

theorem revoked_spent {id : String} {row : StoredCredential} (formed : Formed state)
    (found : state.credentials.find? id = some row) (gone : row.revokedAt ≠ none) :
    Spent app state id := by
  constructor
  · intro request now principal authentic named
    have shape := authenticate_authentic authentic
    refine ⟨revoked_reads found gone named shape, ?_⟩
    intro aside next answer done
    cases execute_executed done with
    | replayed _ _ => exact ⟨rfl, rfl⟩
    | committed again unanswered change _ =>
        rw [authentic] at again
        cases again
        exact (revoked_idle formed found gone named unanswered shape change).elim
  · intro now secret other done
    simp only [OAuth.bearer, storedCredential, Program.except_bind_ok, requireRow_ok,
      require_ok] at done
    obtain ⟨stored, held, _, ⟨_, live, _⟩, _⟩ := done
    rw [found] at held
    cases held
    simp only [liveAt, Bool.and_eq_true, beq_iff_eq] at live
    exact gone live.1.1

/-! Runs. -/

/-- The account operation of an event that ran, and was not answered from a stored result. -/
def Event.ran (event : Event) : Option Arguments :=
  match event.outcome with
  | .committed request _ => some request.arguments
  | .handled _ =>
      match event.deed with
      | .inner step => some step.request.arguments
      | _ => none
  | _ => none

/-- Whether the account operation of the event, if one ran, was careful. -/
def Event.careful (app : Installation) (event : Event) : Bool :=
  (Event.ran event).all fun arguments =>
    Revocation.careful app event.before arguments event.deed.now

theorem transaction_kept {deed : Deed} {outcome : Outcome} (formed : Formed state)
    (fresh : freshDraws state deed)
    (cautious : Event.careful app ⟨state, deed, outcome⟩ = true)
    (transaction : Transaction app state deed next outcome) : RevocationsKept state next := by
  cases transaction with
  | committed authentic unanswered change booked =>
      have kept := change_kept formed (by exact cautious)
        (rotation_starts authentic unanswered change) change
      obtain ⟨_, _, _, rfl⟩ := booked.written
      exact kept.after rfl
  | replayed _ _ => exact RevocationsKept.refl _
  | handled plain change =>
      refine change_kept formed (by exact cautious) ?_ change
      intro nonce secret old asked
      rw [asked] at plain
      cases plain
  | responded _ _ released =>
      cases released with
      | plain _ => exact RevocationsKept.refl _
      | token _ _ _ _ _ _ _ _ => exact RevocationsKept.beside rfl
  | oauth change =>
      have minted : ∀ row, OAuth.Minted state row next → state.credentials.find? row.id = none →
          RevocationsKept state next := by
        intro row minted unknown id old ends found gone
        rw [minted.after, Table.find?_put, if_neg]
        · exact ⟨old, found, gone⟩
        · intro same
          change row.id = id at same
          rw [← same, unknown] at found
          cases found
      cases change.mint with
      | nothing same => exact RevocationsKept.beside same
      | access named made => exact minted _ made (by rw [named]; exact fresh _ rfl)
      | browser named made => exact minted _ made (by rw [named]; exact fresh _ rfl)
  | elsewhere _ => exact RevocationsKept.beside rfl

/-- What is revoked in a run stays revoked from the same time on, and is good for nothing new. -/
theorem revocation_permanent {clock : Nat} {past : List Event} (initial : Initial first)
    (run : Run app first state clock past)
    (cautious : ∀ event ∈ past, Event.careful app event = true) :
    (∀ event ∈ past, RevocationsKept event.before state) ∧
      ∀ id row, state.credentials.find? id = some row → row.revokedAt ≠ none →
        Spent app state id := by
  constructor
  · induction run with
    | start => intro event absent; cases absent
    | @deed state next clock past deed outcome before later fresh done ih =>
        have kept : RevocationsKept state next :=
          transaction_kept (run_formed initial before) fresh
            (cautious ⟨state, deed, outcome⟩ List.mem_cons_self) (perform_transaction done)
        intro event member
        rcases List.mem_cons.mp member with rfl | older
        · exact kept
        · exact (ih (fun event inside => cautious event (List.mem_cons_of_mem _ inside)) event
            older).trans kept
  · intro id row found gone
    exact revoked_spent (run_formed initial run) found gone

/-- Ann adds a second key and revokes it at 3. -/
def sampleRevocation : List Deed :=
  [samplePacket "third" 1 3 (.keyRevoke "k_two") Aside.idle,
    samplePacket "second" 1 2 (.keyAdd "two" (sampleSignature "two" "proof") []) Aside.idle,
    sampleRegister]

theorem revocation_permanent_sample :
    ∃ row, (sampleTrace sampleRevocation).1.credentials.find? "k_two" = some row ∧
      row.revokedAt = some 3 ∧ Spent sampleInstallation (sampleTrace sampleRevocation).1 "k_two" := by
  have kept := revocation_permanent sampleSystem_initial (sampleTrace_run sampleRevocation (by decide +kernel))
    (List.all_eq_true.mp (by decide +kernel))
  exact ⟨_, rfl, rfl, kept.2 "k_two" _ rfl (Option.some_ne_none 3)⟩

/-- With another packet Ann revokes the key again, at 4. -/
def sampleRevokedAgain : List Deed :=
  samplePacket "fourth" 1 4 (.keyRevoke "k_two") Aside.idle :: sampleRevocation

theorem revoked_again : ¬ ∀ (app : Installation) (first state : State) (clock : Nat)
    (past : List Event), Initial first → Run app first state clock past →
      (∀ event ∈ past, RevocationsKept event.before state) ∧
        ∀ id row, state.credentials.find? id = some row → row.revokedAt ≠ none →
          Spent app state id := by
  intro claim
  have kept := (claim _ _ _ _ _ sampleSystem_initial
    (sampleTrace_run sampleRevokedAgain (by decide +kernel))).1 _ List.mem_cons_self
  obtain ⟨later, found, gone⟩ := kept "k_two" _ 3 rfl rfl
  cases found
  cases gone

end MsgServer.Revocation
