import MsgServer.Security.Transactions
import Mathlib.Logic.Relation

/-!
Every reachable state is well formed. An account operation is taken apart into its writes;
what each write keeps, the operation keeps.
-/

namespace MsgServer.Formation

open Library Session Accounts Bindings Requests TokenDelivery Identity Authentication Credentials
  Issuance Machine

variable {app : Installation} {first state next : State} {step : Step} {data : Data}

inductive Write (state next : State) : Prop
  | credential {row : StoredCredential} {version : Nat}
      (save : saveCredential state row version = .ok next)
  | subject {record : Subject} {expected : Option Nat}
      (update : updateSubject state record expected = .ok next)
  | beside (credentials : next.credentials = state.credentials)
      (subjects : next.store.subjects = state.store.subjects)
      (results : next.results = state.results)

def Written : State → State → Prop := Relation.ReflTransGen Write

theorem Written.refl (state : State) : Written state state := Relation.ReflTransGen.refl

theorem Written.trans {first second third : State} (left : Written first second)
    (right : Written second third) : Written first third := Relation.ReflTransGen.trans left right

theorem Written.save {row : StoredCredential} {version : Nat}
    (done : saveCredential state row version = .ok next) : Written state next :=
  Relation.ReflTransGen.single (.credential done)

theorem Written.subject {record : Subject} {expected : Option Nat}
    (done : updateSubject state record expected = .ok next) : Written state next :=
  Relation.ReflTransGen.single (.subject done)

theorem Written.bump {owner : Subject} (done : bumpSubject state owner = .ok next) :
    Written state next := Written.subject done

theorem Written.beside (credentials : next.credentials = state.credentials)
    (subjects : next.store.subjects = state.store.subjects)
    (results : next.results = state.results) : Written state next :=
  Relation.ReflTransGen.single (.beside credentials subjects results)

theorem Written.after {middle : State} (rest : Written middle next)
    (credentials : middle.credentials = state.credentials)
    (subjects : middle.store.subjects = state.store.subjects)
    (results : middle.results = state.results) : Written state next :=
  (Written.beside credentials subjects results).trans rest

theorem Written.identityKey {row : IdentityKey} (done : insertIdentityKey state row = .ok next) :
    Written state next := by
  simp only [insertIdentityKey, Program.except_bind_ok, require_ok, Program.except_pure,
    Except.ok.injEq] at done
  obtain ⟨_, _, _, _, rfl⟩ := done
  exact Written.beside rfl rfl rfl

theorem Written.subkey {row : EncryptionSubkey}
    (done : insertEncryptionSubkey state row = .ok next) : Written state next := by
  simp only [insertEncryptionSubkey, Program.except_bind_ok, require_ok, Program.except_pure,
    Except.ok.injEq] at done
  obtain ⟨_, _, _, _, _, _, rfl⟩ := done
  exact Written.beside rfl rfl rfl

theorem Written.keys {subject keyId publicKey encryptionId recipient : String} {now : Nat}
    (keys : Keyed state subject keyId publicKey encryptionId recipient now next) :
    Written state next := by
  obtain ⟨keyed, first, second⟩ := keys.split
  exact (Written.identityKey first).trans (Written.subkey second)

theorem Written.primary {subject keyId publicKey : String} {now : Nat}
    (done : primaryOr state subject keyId publicKey now = .ok next) : Written state next := by
  unfold primaryOr at done
  split at done
  · exact Written.identityKey done
  · simp only [Program.except_bind_ok, Program.except_pure, Except.ok.injEq] at done
    obtain ⟨_, _, rfl⟩ := done
    exact Written.refl _

theorem Written.primarySubkey {subject keyId recipient : String} {now : Nat}
    (done : primarySubkeyOr state subject keyId recipient now = .ok next) : Written state next := by
  unfold primarySubkeyOr at done
  split at done
  · exact Written.subkey done
  · simp only [Program.except_bind_ok, Program.except_pure, Except.ok.injEq] at done
    obtain ⟨_, _, rfl⟩ := done
    exact Written.refl _

theorem Written.drop (state : State) (subject keyId : String) (now : Nat) :
    Written state (dropKey state subject keyId now) := by
  unfold dropKey
  split
  · exact Written.refl _
  · dsimp only
    split_ifs
    · split
      · exact Written.beside rfl rfl rfl
      · exact Written.beside rfl rfl rfl
    · exact Written.beside rfl rfl rfl
    · exact Written.refl _

theorem Written.target {subject : String} {keys : KeySwitch} {now : Nat}
    (done : activateEncryptionTarget state subject keys now = .ok next) : Written state next := by
  unfold activateEncryptionTarget at done
  split at done
  · cases done
  · split at done
    · cases done
      exact Written.refl _
    · simp only [Program.except_bind_ok] at done
      obtain ⟨_, _, inserted⟩ := done
      have outer : Written state (retireSubkeys state subject now) := Written.beside rfl rfl rfl
      exact outer.trans (Written.subkey inserted)

theorem Written.each {rows : List StoredCredential} {now version : Nat}
    (done : revokeEach state rows now version = .ok next) : Written state next := by
  induction rows generalizing state with
  | nil =>
      cases done
      exact Written.refl _
  | cons row rest ih =>
      simp only [revokeEach, List.foldlM_cons, Program.except_bind_ok] at done
      obtain ⟨middle, first, later⟩ := done
      exact (Written.save first).trans (ih later)

theorem Written.finished {aside : Aside} (finished : Finished aside state next) :
    Written state next := by
  obtain ⟨store, acted, rfl⟩ := finished
  exact Written.beside rfl (aside.keeps _ _ acted) rfl

theorem Written.record {request : Request} {row : StoredCredential} {now : Nat}
    {inherited : Option Nat}
    (done : recordTokenDelivery app state request row now inherited = .ok next) :
    Written state next := by
  simp only [recordTokenDelivery, Program.except_bind_ok, Program.except_pure,
    Except.ok.injEq] at done
  obtain ⟨_, _, _, _, _, _, _, _, _, _, _, _, _, _, _, _, _, _, rfl⟩ := done
  exact Written.beside rfl rfl rfl

theorem Written.api {row : StoredCredential} {own : OwnSource}
    (done : putApi state row own = .ok next) : Written state next := by
  obtain ⟨_, _, rfl⟩ := putApi_ok done
  exact Written.beside rfl rfl rfl

theorem Written.previous {owner : Subject} {now : Nat} {previous : Option String}
    (done : replacePrevious state owner now previous = .ok next) : Written state next := by
  cases previous with
  | none =>
      cases done
      exact Written.refl _
  | some id =>
      simp only [replacePrevious, Program.except_bind_ok] at done
      obtain ⟨_, _, _, _, _, _, save⟩ := done
      exact Written.save save

theorem Written.bound {owner : Subject} {row : StoredCredential} {previous : Option String}
    (binding : Bound step owner row previous state next) : Written state next := by
  cases binding with
  | unbound _ => exact Written.refl _
  | api _ _ put replaced => exact (Written.api put).trans (Written.previous replaced)

theorem Written.copy {oldId : String} {row : StoredCredential}
    (done : copyApi state oldId row = .ok next) : Written state next := by
  unfold copyApi at done
  split at done
  · cases done
    exact Written.refl _
  · exact Written.api done

theorem Written.verifier {owner publicKey : String}
    (done : verifierKey app state step owner publicKey = .ok next) : Written state next := by
  unfold verifierKey at done
  split at done
  · simp only [Program.except_bind_ok, Program.except_pure, Except.ok.injEq] at done
    obtain ⟨_, _, rfl⟩ := done
    exact Written.refl _
  · simp only [Program.except_bind_ok] at done
    obtain ⟨_, _, save⟩ := done
    exact Written.save save

theorem Written.fill {cert : Certificate} (done : fillCeiling state cert = .ok next) :
    Written state next := by
  simp only [fillCeiling, Program.except_bind_ok] at done
  obtain ⟨_, _, _, _, later⟩ := done
  split at later
  · exact Written.save later
  · cases later
    exact Written.refl _

theorem Written.exit {owner : Subject} {keys : KeySwitch} {retain : Bool}
    (done : switchIdentity app state step owner keys retain = .ok next) : Written state next := by
  simp only [switchIdentity, Program.except_bind_ok, Program.except_pure, Except.ok.injEq] at done
  obtain ⟨_, _, _, _, _, _, ended, revoke, saved, save, keyed, insert, targeted, activate, raised,
    raise, rfl⟩ := done
  have retired : Written saved (retireKeys saved owner.resourceId step.now) :=
    Written.beside rfl rfl rfl
  have vaulted : Written raised { raised with
      vaults := raised.vaults.modify owner.resourceId (retireVault retain) } :=
    Written.beside rfl rfl rfl
  have lead := (Written.each revoke).trans (Written.save save)
  have middle := retired.trans ((Written.identityKey insert).trans (Written.target activate))
  exact lead.trans (middle.trans ((Written.subject raise).trans vaulted))

theorem change_written (change : Change app step state next data) : Written state next := by
  cases change with
  | register _ _ make save keys finished =>
      exact (Written.subject make).trans ((Written.save save).trans
        ((Written.keys keys).trans (Written.finished finished)))
  | temporary _ _ make sign keys _ save record finished =>
      have lead := (Written.subject make).trans ((Written.save sign).trans (Written.keys keys))
      exact lead.trans ((Written.save save).trans
        ((Written.record record).trans (Written.finished finished)))
  | @custodial _ _ _ _ _ _ _ _ _ _ _ keyed _ vaults _ _ make sign _ save record keys _ finished =>
      have vaulted : Written keyed { keyed with vaults := vaults } := Written.beside rfl rfl rfl
      have lead := (Written.subject make).trans ((Written.save sign).trans (Written.save save))
      exact lead.trans ((Written.record record).trans
        ((Written.keys keys).trans (vaulted.trans (Written.finished finished))))
  | rotate _ _ _ _ _ _ save record revoke finished =>
      exact (Written.save save).trans ((Written.record record).trans
        ((Written.save revoke).trans (Written.finished finished)))
  | upgrade _ _ _ raise save primary subkey revoke finished =>
      have lead := (Written.subject raise).trans (Written.save save)
      have keyed := (Written.primary primary).trans (Written.primarySubkey subkey)
      exact lead.trans (keyed.trans ((Written.each revoke).trans (Written.finished finished)))
  | keyAdd _ _ _ save keys bump finished =>
      exact (Written.save save).trans ((Written.identityKey keys).trans
        ((Written.bump bump).trans (Written.finished finished)))
  | @keyRevoke _ _ _ saved _ _ _ _ _ _ _ save bump finished =>
      exact (Written.save save).trans ((Written.drop saved _ _ _).trans
        ((Written.bump bump).trans (Written.finished finished)))
  | tokenCreate _ _ _ _ save record binding finished =>
      exact (Written.save save).trans ((Written.record record).trans
        ((Written.bound binding).trans (Written.finished finished)))
  | @tokenRecover _ _ _ _ _ _ _ _ _ _ delivered saved ended bound consumed _ _ _ _ _ _ _ _ _ _
      record save revoke copy consume finished =>
      have used : Written bound consumed := by
        rw [consumeDelivery_ok consume]
        exact Written.beside rfl rfl rfl
      have lead := (Written.record record).trans ((Written.save save).trans (Written.save revoke))
      exact lead.trans ((Written.copy copy).trans (used.trans (Written.finished finished)))
  | @certRequest _ _ _ saved _ requests _ _ save _ finished =>
      have listed : Written saved { saved with requests := requests } := Written.beside rfl rfl rfl
      exact (Written.verifier save).trans (listed.trans (Written.finished finished))
  | certPublish _ _ _ fill finished =>
      have filled := (Written.fill fill).trans (Written.finished finished)
      exact filled.after rfl rfl rfl
  | recover _ _ _ revoke save bump finished =>
      have lead := (Written.each revoke).trans (Written.save save)
      exact lead.trans ((Written.bump bump).trans (Written.finished finished))
  | @encryptionKeyRotate _ _ owner _ _ _ _ _ _ insert finished =>
      have retired : Written state (retireSubkeys state owner.resourceId step.now) :=
        Written.beside rfl rfl rfl
      exact retired.trans ((Written.subkey insert).trans (Written.finished finished))
  | sshKeyAdd _ _ _ save finished => exact (Written.save save).trans (Written.finished finished)
  | sshKeyRevoke _ _ _ _ save finished => exact (Written.save save).trans (Written.finished finished)
  | delegatedCreate _ _ make save keys finished =>
      have lead := (Written.subject make).trans ((Written.save save).trans (Written.keys keys))
      exact lead.trans ((Written.finished finished).after rfl rfl rfl)
  | idle _ _ finished => exact Written.finished finished
  | target _ _ activate finished => exact (Written.target activate).trans (Written.finished finished)
  | switch _ _ exit finished => exact (Written.exit exit).trans (Written.finished finished)
  | retire _ _ finished =>
      exact (Written.finished finished).after rfl rfl rfl
  | other _ finished => exact Written.finished finished

/-- Every credential has a subject. -/
def Owned (state : State) : Prop := ∀ id row, state.credentials.find? id = some row →
  ∃ owner, state.store.subjects.find? row.subjectId = some owner

theorem Write.owned (write : Write state next) (owned : Owned state) : Owned next := by
  cases write with
  | @credential row version save =>
      have saved := saveCredential_saved save
      have store : next.store = state.store := by rw [saved.after]
      intro id other found
      rw [saved.find?] at found
      rw [store]
      split at found
      · cases found
        exact saved.owner
      · exact owned id other found
  | @subject record expected update =>
      simp only [updateSubject, Program.except_bind_ok, require_ok, Program.except_pure,
        Except.ok.injEq] at update
      obtain ⟨_, _, rfl⟩ := update
      intro id row found
      obtain ⟨owner, stored⟩ := owned id row found
      change ∃ owner, (state.store.subjects.put record).find? row.subjectId = some owner
      rw [Table.find?_put]
      split
      · exact ⟨record, rfl⟩
      · exact ⟨owner, stored⟩
  | beside credentials subjects _ =>
      intro id row found
      rw [credentials] at found
      rw [subjects]
      exact owned id row found

theorem Written.owned (written : Written state next) (owned : Owned state) : Owned next := by
  induction written with
  | refl => exact owned
  | tail _ write ih => exact write.owned ih

theorem Written.results (written : Written state next) : next.results = state.results := by
  induction written with
  | refl => rfl
  | tail _ write ih =>
      rw [← ih]
      cases write with
      | credential save => rw [(saveCredential_saved save).after]
      | subject update =>
          simp only [updateSubject, Program.except_bind_ok, Program.except_pure,
            Except.ok.injEq] at update
          obtain ⟨_, _, rfl⟩ := update
          rfl
      | beside _ _ results => exact results

/-! The steps of the invariant. -/

theorem Quiet.formed (quiet : Quiet state next) (owned : Owned next) (formed : Formed state) :
    Formed next := by
  refine ⟨owned, ?_, ?_, ?_, ?_, ?_⟩
  · intro id row here
    have aged := quiet.tokens id
    rw [here] at aged
    obtain ⟨old, _, before, _, _⟩ := aged.of_some
    exact formed.tokenIds id old before
  · intro id row here
    have aged := quiet.tokens id
    rw [here] at aged
    obtain ⟨old, _, before, _, _⟩ := aged.of_some
    rw [quiet.deliveries]
    exact formed.delivered id old before
  · intro id delivery kept
    rw [quiet.deliveries] at kept
    obtain ⟨row, before⟩ := formed.issued id delivery kept
    have aged := quiet.tokens id
    rw [before] at aged
    obtain ⟨ends, here, _⟩ := aged.some
    exact ⟨_, here⟩
  · intro id browser found
    rw [quiet.oauth] at found
    exact formed.browsers id browser found
  · intro id access found
    rw [quiet.oauth] at found
    exact formed.accesses id access found

theorem Issued.formed {row : StoredCredential} {inherited : Option Nat} {touched : Option String}
    (issued : Issued app step row inherited touched state next) (owned : Owned next)
    (browsers : next.oauth.browsers = state.oauth.browsers)
    (accesses : next.oauth.accesses = state.oauth.accesses)
    (named : idPrefix "t_" row.id = true)
    (kept : ∀ id, touched = some id → (∃ token, tokenAt state id = some token) ∧
      ∃ delivery, next.deliveries.find? id = some delivery)
    (formed : Formed state) : Formed next := by
  obtain ⟨ends, here⟩ := issued.new.here
  obtain ⟨delivery, _, delivered, _⟩ := issued.delivery
  refine ⟨owned, ?_, ?_, ?_, ?_, ?_⟩
  · intro id other found
    by_cases same : id = row.id
    · rw [same]
      exact named
    · have aged := issued.new.others id same
      rw [found] at aged
      obtain ⟨old, _, before, _, _⟩ := aged.of_some
      exact formed.tokenIds id old before
  · intro id other found
    by_cases same : id = row.id
    · rw [same]
      exact .inl ⟨delivery, delivered⟩
    · by_cases hit : touched = some id
      · exact .inl (kept id hit).2
      · have aged := issued.new.others id same
        rw [found] at aged
        obtain ⟨old, _, before, _, _⟩ := aged.of_some
        rw [issued.others id same hit]
        exact formed.delivered id old before
  · intro id other found
    by_cases same : id = row.id
    · rw [same]
      exact ⟨_, here⟩
    · have before : ∃ token, tokenAt state id = some token := by
        by_cases hit : touched = some id
        · exact (kept id hit).1
        · rw [issued.others id same hit] at found
          exact formed.issued id other found
      obtain ⟨token, before⟩ := before
      have aged := issued.new.others id same
      rw [before] at aged
      obtain ⟨later, found', _⟩ := aged.some
      exact ⟨_, found'⟩
  · intro id browser found
    rw [browsers] at found
    exact formed.browsers id browser found
  · intro id access found
    rw [accesses] at found
    exact formed.accesses id access found

/-- A first token is named by the claim that made its subject. -/
def ClaimNamed (step : Step) : Prop := ∀ id, step.context.principal.credentialId = some id →
  (∃ nonce secret publicKey recipient possession,
      step.request.arguments = .temporary nonce secret publicKey recipient possession) ∨
    (∃ nonce secret publicKey recipient,
      step.request.arguments = .custodialCreate nonce secret publicKey recipient) →
  idPrefix "t_" id = true

theorem untouched {id : String} (absurd' : (none : Option String) = some id) :
    (∃ token, tokenAt state id = some token) ∧
      ∃ delivery, next.deliveries.find? id = some delivery := by cases absurd'

theorem change_formed (claim : ClaimNamed step) (change : Change app step state next data)
    (formed : Formed state) : Formed next := by
  have owned : Owned next := (change_written change).owned formed.owners
  cases change_issues formed change with
  | nothing _ quiet => exact Quiet.formed quiet owned formed
  | first asked caller issued _ oauth _ =>
      exact Issued.formed issued owned (by rw [oauth]) (by rw [oauth]) (claim _ caller asked)
        (fun _ => untouched) formed
  | created _ _ _ named issued api _ =>
      have beside : next.oauth.browsers = state.oauth.browsers ∧
          next.oauth.accesses = state.oauth.accesses := by
        cases api with
        | unbound _ _ same => rw [same]; exact ⟨rfl, rfl⟩
        | bound _ _ _ _ _ put => rw [put]; exact ⟨rfl, rfl⟩
      exact Issued.formed issued owned beside.1 beside.2 (by rw [named]; exact idPrefix_append _ _)
        (fun _ => untouched) formed
  | rotated _ _ _ _ named _ issued _ oauth _ _ =>
      exact Issued.formed issued owned (by rw [oauth]) (by rw [oauth])
        (by rw [named]; exact idPrefix_append _ _) (fun _ => untouched) formed
  | recovered _ _ held _ _ _ _ _ _ named _ issued _ consumed copied _ _ =>
      have beside : next.oauth.browsers = state.oauth.browsers ∧
          next.oauth.accesses = state.oauth.accesses := by
        cases copied with
        | unbound _ same => rw [same]; exact ⟨rfl, rfl⟩
        | bound _ _ _ _ put => rw [put]; exact ⟨rfl, rfl⟩
      apply Issued.formed issued owned beside.1 beside.2 (by rw [named]; exact idPrefix_append _ _)
        _ formed
      rintro id ⟨⟩
      exact ⟨⟨_, held⟩, ⟨_, consumed⟩⟩

theorem idPrefix_trans {short long id : String} (first : short.toList <+: long.toList)
    (second : idPrefix long id = true) : idPrefix short id = true := by
  rw [idPrefix, List.isPrefixOf_iff_prefix] at *
  exact first.trans second

/-- A token that OAuth makes has a name of its own kind. -/
theorem minted_formed {row : StoredCredential} (minted : OAuth.Minted state row next)
    (unknown : state.credentials.find? row.id = none)
    (named : idPrefix "t_oauth_" row.id = true ∨ idPrefix "t_browser_" row.id = true)
    (store : next.store = state.store) (deliveries : next.deliveries = state.deliveries)
    (browsers : ∀ id browser, next.oauth.browsers.find? id = some browser →
      idPrefix "t_browser_" id = true)
    (accesses : ∀ id access, next.oauth.accesses.find? id = some access →
      idPrefix "t_oauth_" id = true) (formed : Formed state) : Formed next := by
  have found : ∀ id, next.credentials.find? id =
      if row.id = id then some row else state.credentials.find? id := by
    intro id
    rw [minted.after]
    exact Table.find?_put _ _ _
  have tokens : ∀ id, tokenAt next id = if row.id = id then some row else tokenAt state id := by
    intro id
    rw [tokenAt, found]
    split
    · simp [minted.isToken]
    · rfl
  refine ⟨?_, ?_, ?_, ?_, browsers, accesses⟩
  · intro id other here
    rw [found] at here
    rw [store]
    split at here
    · cases here
      exact minted.owner
    · exact formed.owners id other here
  · intro id other here
    rw [tokens] at here
    split at here
    · rename_i same
      rw [← same]
      rcases named with isOAuth | isBrowser
      · exact idPrefix_trans (by decide) isOAuth
      · exact idPrefix_trans (by decide) isBrowser
    · exact formed.tokenIds id other here
  · intro id other here
    rw [tokens] at here
    rw [deliveries]
    split at here
    · rename_i same
      rw [← same]
      exact .inr named
    · exact formed.delivered id other here
  · intro id delivery kept
    rw [deliveries] at kept
    obtain ⟨token, before⟩ := formed.issued id delivery kept
    refine ⟨token, ?_⟩
    rw [tokens, if_neg, before]
    intro same
    rw [tokenAt_some, ← same, unknown] at before
    cases before.1

theorem oauth_formed {act : OAuth.Act} {now : Nat} {answer : OAuth.Answer}
    (fresh : freshDraws state (.oauth act now)) (change : OAuth.Change app now state act next answer)
    (formed : Formed state) : Formed next := by
  have frame := change.frame
  have store : next.store = state.store := by rw [frame]
  have deliveries : next.deliveries = state.deliveries := by rw [frame]
  have browsers : ∀ id browser, next.oauth.browsers.find? id = some browser →
      idPrefix "t_browser_" id = true := by
    intro id browser found
    rcases change.browsers found with named | before
    · exact named
    · exact formed.browsers id browser before
  have accesses : ∀ id access, next.oauth.accesses.find? id = some access →
      idPrefix "t_oauth_" id = true := by
    intro id access found
    rcases change.accesses found with named | before
    · exact named
    · exact formed.accesses id access before
  cases change.mint with
  | nothing same =>
      have tokens : ∀ id, tokenAt next id = tokenAt state id := by
        intro id
        simp only [tokenAt, same]
      refine ⟨?_, ?_, ?_, ?_, browsers, accesses⟩
      · rw [same, store]
        exact formed.owners
      · intro id row here
        exact formed.tokenIds id row (tokens id ▸ here)
      · intro id row here
        rw [deliveries]
        exact formed.delivered id row (tokens id ▸ here)
      · intro id delivery kept
        rw [tokens]
        exact formed.issued id delivery (deliveries ▸ kept)
  | @access _ _ draws row _ named made =>
      have unknown : state.credentials.find? row.id = none := by
        rw [named]
        exact fresh _ rfl
      have shaped : idPrefix "t_oauth_" row.id = true := named ▸ idPrefix_append _ _
      exact minted_formed made unknown (.inl shaped) store deliveries browsers accesses
        formed
  | @browser _ draws row _ named made =>
      have unknown : state.credentials.find? row.id = none := by
        rw [named]
        exact fresh _ rfl
      have shaped : idPrefix "t_browser_" row.id = true := named ▸ idPrefix_append _ _
      exact minted_formed made unknown (.inr shaped) store deliveries browsers accesses
        formed

/-- A claim names its first token `t_`. -/
theorem authenticate_claim {request : Request} {now : Nat} {aside : Aside} {principal : Principal}
    (authentic : authenticate app state request now = .ok principal) :
    ClaimNamed ⟨⟨principal, .network, now⟩, request, aside⟩ := by
  intro id caller asked
  change principal.credentialId = some id at caller
  simp only [authenticate, identified, Program.except_bind_ok, Program.except_pure,
    Except.ok.injEq] at authentic
  obtain ⟨_, _, given, ⟨_, _, claimed⟩, _, _, _, _, rfl⟩ := authentic
  rcases asked with ⟨_, _, _, _, _, asked⟩ | ⟨_, _, _, _, asked⟩
  all_goals
    change request.arguments = _ at asked
    rw [asked] at claimed
    simp only [bootstrap, Program.except_bind_ok, Program.except_pure, Except.ok.injEq] at claimed
    obtain ⟨_, _, _, _, _, _, _, _, rfl⟩ := claimed
    cases caller
    exact idPrefix_append _ _

theorem unclaimed_named (plain : step.request.arguments.delivering = none) : ClaimNamed step := by
  intro id _ asked
  rcases asked with ⟨_, _, _, _, _, asked⟩ | ⟨_, _, _, _, asked⟩
  all_goals
    rw [asked] at plain
    cases plain

theorem released_formed {request : Request} {result : Result} {now : Nat} {data : Data}
    (released : Released app state request result now next data) (formed : Formed state) :
    Formed next := by
  cases released with
  | plain _ => exact formed
  | @token _ row delivery _ _ _ _ kept _ _ _ =>
      have found : ∀ id, (state.deliveries.modify row.id (claim now)).find? id =
          if id = row.id then (state.deliveries.find? id).map (claim now)
          else state.deliveries.find? id := by
        intro id
        split
        · rename_i same
          rw [same]
          exact Table.find?_modify_self _ _ _ fun _ => rfl
        · rename_i other
          exact Table.find?_modify_ne _ _ other
      refine ⟨formed.owners, formed.tokenIds, ?_, ?_, formed.browsers, formed.accesses⟩
      · intro id token here
        rcases formed.delivered id token here with ⟨delivery, known⟩ | other
        · refine .inl ?_
          change ∃ delivery, (state.deliveries.modify row.id (claim now)).find? id = some delivery
          rw [found, known]
          split
          · exact ⟨_, rfl⟩
          · exact ⟨_, rfl⟩
        · exact .inr other
      · intro id later known
        change (state.deliveries.modify row.id (claim now)).find? id = some later at known
        rw [found] at known
        split at known
        · obtain ⟨old, before, _⟩ := Option.map_eq_some_iff.mp known
          exact formed.issued id old before
        · exact formed.issued id later known

theorem transaction_formed {deed : Deed} {outcome : Outcome} (fresh : freshDraws state deed)
    (transaction : Transaction app state deed next outcome) (formed : Formed state) :
    Formed next := by
  cases transaction with
  | committed authentic _ change booked =>
      have acted := change_formed (authenticate_claim authentic) change formed
      obtain ⟨_, _, _, rfl⟩ := booked.written
      exact ⟨acted.owners, acted.tokenIds, acted.delivered, acted.issued, acted.browsers,
        acted.accesses⟩
  | replayed _ _ => exact formed
  | handled plain change => exact change_formed (unclaimed_named plain) change formed
  | responded _ _ released => exact released_formed released formed
  | oauth change => exact oauth_formed fresh change formed
  | @elsewhere aside _ store acted =>
      have subjects := aside.keeps _ _ acted
      refine ⟨?_, formed.tokenIds, formed.delivered, formed.issued, formed.browsers,
        formed.accesses⟩
      intro id row here
      rw [subjects]
      exact formed.owners id row here

theorem initial_formed (initial : Initial first) : Formed first := by
  have plain : ∀ id, tokenAt first id = none := by
    intro id
    cases found : first.credentials.find? id with
    | none => simp [tokenAt, found]
    | some row => exact tokenAt_none_of_kind found (initial.keys row (Table.find?_mem found)).1
  refine ⟨?_, ?_, ?_, ?_, ?_, ?_⟩
  · intro id row found
    exact initial.owners row (Table.find?_mem found)
  · intro id row here
    rw [plain] at here
    cases here
  · intro id row here
    rw [plain] at here
    cases here
  · intro id delivery kept
    rw [initial.deliveries] at kept
    cases kept
  · intro id browser found
    rw [initial.oauth] at found
    cases found
  · intro id access found
    rw [initial.oauth] at found
    cases found

theorem formed_kept (state : State × Nat) (event : Event) (next : State × Nat)
    (formed : Formed state.1) (passes : Passes app state event next) : Formed next.1 :=
  transaction_formed passes.fresh passes.transaction formed

theorem run_formed {clock : Nat} {past : List Event} (initial : Initial first)
    (run : Run app first state clock past) : Formed state :=
  run.trace.invariant (initial_formed initial) formed_kept

end MsgServer.Formation
