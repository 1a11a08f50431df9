import MsgServer.Security.Succession

/-!
Keys for programs: tokens of `token_create` from its third version on. Such a token is bound
to the signing key that asked for it, by a field of its own and by a row beside it. What
becomes of the binding when the token is given up for another is the subject here.
-/

namespace MsgServer.ApiKeys

open Library Session Policy Accounts Bindings Requests TokenDelivery Identity Authentication
  Credentials Issuance Machine Formation Succession Certificates Attenuation

variable {app : Installation} {first state next : State} {step : Step} {data : Data}

/-! Which tokens come from a key. -/

/-- The event creates a token with a signing key, while its subject has this generation. -/
def Creates (event : Event) (parent : String) (version : Nat) (id : String) : Prop :=
  ∃ request result, event.outcome = .committed request result ∧ 3 ≤ request.contractVersion ∧
    (∃ nonce asking ttl secret previous,
      request.arguments = .tokenCreate nonce asking ttl secret previous) ∧
    (∃ signature certificates, request.proof = .signature signature certificates ∧
      signature.keyId = parent) ∧
    subjectGeneration event.before result.subject = some version ∧
    result.data.credentialId = some id

/-- The tokens that a run obtains from one that was made with the key. -/
inductive Derived (parent : String) (version : Nat) : List Event → String → Prop
  | created {event : Event} {past : List Event} {id : String}
      (creates : Creates event parent version id) : Derived parent version (event :: past) id
  | succeeded {event : Event} {past : List Event} {old id : String}
      (before : Derived parent version past old)
      (succeeds : succession event = some (old, id)) : Derived parent version (event :: past) id
  | earlier {event : Event} {past : List Event} {id : String}
      (before : Derived parent version past id) : Derived parent version (event :: past) id

/-- The packet is proved with a token that is bound to a key. -/
def boundCaller (state : State) (request : Request) : Bool :=
  match request.proof with
  | .token id _ => ((state.credentials.find? id).bind StoredCredential.sourceCredentialId).isSome
  | _ => false

/-- A rotation that its token asked for, and the token is bound to a key. -/
def rotatesBound (event : Event) : Bool :=
  match event.outcome with
  | .committed request _ =>
      request.operation == "identity.token_rotate" && boundCaller event.before request
  | _ => false

/-- What a derived token has: its source, and a binding that records the generation, for as
long as the token has not expired. -/
structure Tied (state : State) (clock : Nat) (parent : String) (version : Nat) (id : String) :
    Prop where
  plain : idPrefix "t_oauth_" id = false ∧ idPrefix "t_browser_" id = false
  row : ∃ row, tokenAt state id = some row ∧ row.sourceCredentialId = some parent ∧
    ∃ expiresAt, row.expiresAt = some expiresAt ∧
      ((∃ api, state.oauth.apis.find? id = some api ∧ api.expires = expiresAt ∧
          api.body.parent = parent ∧ api.body.authVersion = version ∧
          api.body.subject = row.subjectId) ∨
        (state.oauth.apis.find? id = none ∧ expiresAt ≤ clock))

theorem Tied.standing {clock now version : Nat} {parent id : String}
    (tied : Tied state clock parent version id) (later : clock ≤ now)
    (stands : Standing state next now id) : Tied next now parent version id := by
  obtain ⟨row, here, source, expiresAt, ends, binding⟩ := tied.row
  have aged := stands.token
  rw [here] at aged
  obtain ⟨revokedAt, after, _⟩ := aged.some
  refine ⟨tied.plain, ended revokedAt row, after, source, expiresAt, ends, ?_⟩
  rcases binding with ⟨api, found, expires, parent, version, subject⟩ | ⟨gone, past⟩
  · rcases stands.api with same | ⟨purged, other, held, due⟩
    · exact .inl ⟨api, same ▸ found, expires, parent, version, subject⟩
    · rw [found] at held
      cases held
      exact .inr ⟨purged, by omega⟩
  · rcases stands.api with same | ⟨purged, _⟩
    · exact .inr ⟨same ▸ gone, by omega⟩
    · exact .inr ⟨purged, by omega⟩

theorem tokenId_named {row : StoredCredential} {requestId subject : String}
    (named : row.id = app.tokenId requestId subject) :
    idPrefix "t_oauth_" row.id = false ∧ idPrefix "t_browser_" row.id = false := by
  rw [named]
  exact tokenId_plain requestId subject

/-- The caller of a signed request for a token is the key that signed it. -/
theorem signed_caller {request : Request} {now : Nat} {principal : Principal}
    {signature : Signature} {certificates : List String} {nonce secret : String} {ttl : Nat}
    {asking : Option (List CapabilityGrant)} {previous : Option String}
    (asked : request.arguments = .tokenCreate nonce asking ttl secret previous)
    (proof : request.proof = .signature signature certificates)
    (authentic : authenticate app state request now = .ok principal) :
    principal.credentialId = some signature.keyId := by
  cases authenticate_authentic authentic with
  | registering asked' _ _ => exact absurd (asked.symm.trans asked') (by simp)
  | claiming asked' _ =>
      rcases asked' with ⟨_, _, _, _, asked'⟩ | ⟨_, _, _, asked'⟩
      · exact absurd (asked.symm.trans asked') (by simp)
      · exact absurd (asked.symm.trans asked') (by simp)
  | recovering asked' _ _ _ _ _ _ _ _ => exact absurd (asked.symm.trans asked') (by simp)
  | proving _ proves _ _ _ =>
      cases proves with
      | signature proof' signer _ _ _ =>
          cases proof.symm.trans proof'
          exact congrArg some signer.symm
      | token proof' _ _ _ _ => exact absurd (proof.symm.trans proof') (by simp)

theorem created_tied {deed : Deed} {outcome : Outcome} {parent id : String} {version : Nat}
    (formed : Formed state) (creates : Creates ⟨state, deed, outcome⟩ parent version id)
    (transaction : Transaction app state deed next outcome) :
    Tied next deed.now parent version id := by
  obtain ⟨request, result, is, recent, ⟨nonce, asking, ttl, secret, previous, asked⟩,
    ⟨signature, certificates, proof, signer⟩, generation, named⟩ := creates
  dsimp only at is generation
  cases transaction with
  | @committed _ _ _ _ _ acted _ _ authentic _ change booked =>
      cases is
      obtain ⟨_, _, _, rfl⟩ := booked.written
      have answer := booked.answer
      cases change_issues formed change with
      | nothing asked' _ =>
          rw [show request.arguments.delivering = _ from congrArg _ asked] at asked'
          cases asked'
      | first asked' _ _ _ _ _ =>
          rcases asked' with ⟨_, _, _, _, _, asked'⟩ | ⟨_, _, _, _, asked'⟩
          · exact absurd (asked.symm.trans asked') (by simp)
          · exact absurd (asked.symm.trans asked') (by simp)
      | rotated asked' _ _ _ _ _ _ _ _ _ _ => exact absurd (asked.symm.trans asked') (by simp)
      | recovered asked' _ _ _ _ _ _ _ _ _ _ _ _ _ _ _ _ =>
          exact absurd (asked.symm.trans asked') (by simp)
      | @created row owner _ _ _ _ _ _ owns subject named' issued api answered =>
          have same : row.id = id := by
            rw [answer] at named
            exact Option.some.inj (answered.symm.trans named)
          have mine : result.subject = owner.resourceId := by
            rw [answer]
            exact congrArg (fun given => given.getD "") owns.caller
          rw [mine, subjectGeneration, owns.stored] at generation
          cases generation
          obtain ⟨revokedAt, here⟩ := issued.new.here
          subst same
          refine ⟨tokenId_named named', ?_⟩
          cases api with
          | unbound old _ _ =>
              change request.contractVersion < 3 at old
              omega
          | bound key expiresAt caller source ends put =>
              have key := (signed_caller asked proof authentic).symm.trans caller
              rw [signer, Option.some.injEq] at key
              subst key
              refine ⟨_, here, source, expiresAt, ends,
                .inl ⟨⟨row.id, expiresAt, apiSource owner parent⟩, ?_, rfl, rfl, rfl, subject.symm⟩⟩
              change acted.oauth.apis.find? row.id = _
              rw [put]
              exact (Table.find?_put _ _ row.id).trans (if_pos rfl)
  | _ => cases is

/-- The token that asks for its own rotation is the one its packet names. -/
theorem rotation_proof {request : Request} {now : Nat} {principal : Principal}
    {nonce secret : String} {old : StoredCredential}
    (asked : request.arguments = .tokenRotate nonce secret)
    (authentic : authenticate app state request now = .ok principal)
    (caller : principal.credentialId = some old.id) (held : tokenAt state old.id = some old) :
    ∃ token, request.proof = .token old.id token := by
  cases authenticate_authentic authentic with
  | registering asked' _ _ => exact absurd (asked.symm.trans asked') (by simp)
  | claiming asked' _ =>
      rcases asked' with ⟨_, _, _, _, asked'⟩ | ⟨_, _, _, asked'⟩
      · exact absurd (asked.symm.trans asked') (by simp)
      · exact absurd (asked.symm.trans asked') (by simp)
  | recovering asked' _ _ _ _ _ _ _ _ => exact absurd (asked.symm.trans asked') (by simp)
  | proving _ proves _ _ _ =>
      have same := Option.some.inj caller
      cases proves with
      | signature _ _ found _ kind =>
          obtain ⟨stored, isToken⟩ := (tokenAt_some _).mp held
          change _ = old.id at same
          rw [same, stored] at found
          cases found
          exact absurd (kind.symm.trans isToken) (by simp)
      | token proof _ _ _ _ =>
          change _ = old.id at same
          rw [same] at proof
          exact ⟨_, proof⟩

theorem succeeded_tied {deed : Deed} {outcome : Outcome} {parent old id : String}
    {clock version : Nat} (formed : Formed state) (later : clock ≤ deed.now)
    (tied : Tied state clock parent version old)
    (succeeds : succession ⟨state, deed, outcome⟩ = some (old, id))
    (unbound : rotatesBound ⟨state, deed, outcome⟩ = false)
    (transaction : Transaction app state deed next outcome) :
    Tied next deed.now parent version id := by
  obtain ⟨request, result, is, asked, gave, named⟩ := succession_some succeeds
  dsimp only at is
  cases transaction with
  | @committed _ _ now _ _ acted _ _ authentic _ change booked =>
      cases is
      obtain ⟨_, _, _, rfl⟩ := booked.written
      change clock ≤ now at later
      rw [booked.answer] at gave named
      obtain ⟨token, here, source, expiresAt, ends, binding⟩ := tied.row
      cases change_issues formed change with
      | nothing asked' _ =>
          rcases asked with ⟨_, _, asked⟩ | ⟨_, _, _, _, _, asked⟩
          all_goals
            rw [show request.arguments.delivering = _ from congrArg _ asked] at asked'
            cases asked'
      | first asked' _ _ _ _ _ =>
          rcases asked with ⟨_, _, asked⟩ | ⟨_, _, _, _, _, asked⟩
          all_goals
            rcases asked' with ⟨_, _, _, _, _, asked'⟩ | ⟨_, _, _, _, asked'⟩
            · exact absurd (asked.symm.trans asked') (by simp)
            · exact absurd (asked.symm.trans asked') (by simp)
      | created asked' _ _ _ _ _ _ =>
          rcases asked with ⟨_, _, asked⟩ | ⟨_, _, _, _, _, asked⟩
          · exact absurd (asked.symm.trans asked') (by simp)
          · exact absurd (asked.symm.trans asked') (by simp)
      | rotated asked' _ caller held _ _ _ _ _ _ before =>
          have same := Option.some.inj (before.symm.trans gave)
          rw [same, here, Option.some.injEq] at held
          have given := here.trans (congrArg some held)
          rw [← same] at given
          obtain ⟨_, proof⟩ := rotation_proof asked' authentic caller given
          have stored := ((tokenAt_some _).mp here).1
          change request.arguments = _ at asked'
          change request.proof = _ at proof
          simp [rotatesBound, boundCaller, Request.operation, asked', Arguments.operation, proof, same,
            stored, source] at unbound
      | @recovered row given owner _ _ _ _ _ asked' _ held _ unexpired _ _ _ _ named' shape issued _ _
          copied answered before =>
          have same := Option.some.inj (before.symm.trans gave)
          have mine := Option.some.inj (answered.symm.trans named)
          rw [same, here, Option.some.injEq] at held
          obtain ⟨revokedAt, there⟩ := issued.new.here
          subst mine held
          refine ⟨tokenId_named named', ended revokedAt row, there, ?_, expiresAt, ?_, ?_⟩
          · exact shape.2.2.2.trans source
          · exact shape.2.1.trans ends
          · have live := unexpired expiresAt ends
            change now < expiresAt at live
            rcases binding with ⟨api, found, _, key, generation, subject⟩ | ⟨_, past⟩
            · cases copied with
              | unbound absent _ =>
                  rw [same, found] at absent
                  cases absent
              | bound other bound held ends' put =>
                  rw [same, found] at held
                  cases held
                  have equal := Option.some.inj (ends'.symm.trans (shape.2.1.trans ends))
                  refine .inl ⟨⟨row.id, bound, api.body⟩, ?_, equal, key, generation,
                    subject.trans shape.2.2.1.symm⟩
                  change acted.oauth.apis.find? row.id = _
                  rw [put]
                  exact (Table.find?_put _ _ row.id).trans (if_pos rfl)
            · omega
  | _ => cases is

theorem derived_tied {clock version : Nat} {past : List Event} {parent id : String}
    (initial : Initial first) (run : Run app first state clock past)
    (unbound : ∀ event ∈ past, rotatesBound event = false)
    (derived : Derived parent version past id) : Tied state clock parent version id := by
  induction run generalizing id with
  | start => cases derived
  | @deed state next clock past deed outcome before later fresh done ih =>
      have formed := run_formed initial before
      have transaction := perform_transaction done
      have rest : ∀ event ∈ past, rotatesBound event = false :=
        fun event inside => unbound event (List.mem_cons_of_mem _ inside)
      cases derived with
      | created creates => exact created_tied formed creates transaction
      | succeeded older succeeds =>
          exact succeeded_tied formed later (ih rest older) succeeds
            (unbound _ List.mem_cons_self) transaction
      | earlier older =>
          have tied := ih rest older
          obtain ⟨row, here, _⟩ := tied.row
          exact tied.standing later (transaction_standing formed fresh here transaction)

/-! What a tied token needs of its key. -/

/-- The request is proved with the token, or with its recovery secret. -/
def Presents (request : Request) (id : String) : Prop :=
  (∃ token, request.proof = .token id token) ∨ ∃ original secret nonce newSecret,
    request.arguments = .tokenRecover id original secret nonce newSecret

/-- The key is live, its subject has not moved on, and it covers the token. -/
structure UnderKey (app : Installation) (state : State) (now : Nat) (parent : String)
    (version : Nat) (id : String) : Prop where
  covered : ∃ key row, state.credentials.find? parent = some key ∧
    state.credentials.find? id = some row ∧ liveAt now key.toCredential = true ∧
    subjectGeneration state row.subjectId = some version ∧
    Covered app.toApp state.view row.ceiling key.ceiling

theorem tied_binding {clock now version : Nat} {parent id : String} {row : StoredCredential}
    (formed : Formed state) (tied : Tied state clock parent version id)
    (found : state.credentials.find? id = some row)
    (passed : requireBinding app state row now = .ok ()) :
    UnderKey app state now parent version id := by
  obtain ⟨token, here, source, expiresAt, ends, binding⟩ := tied.row
  have stored := ((tokenAt_some _).mp here).1
  rw [found] at stored
  cases stored
  have same : row.key = id := Table.find?_key found
  subst same
  have noBrowser : state.oauth.browsers.find? row.id = none := by
    cases browser : state.oauth.browsers.find? row.id with
    | none => rfl
    | some other =>
        have named := formed.browsers _ _ browser
        rw [show idPrefix "t_browser_" row.id = false from tied.plain.2] at named
        cases named
  have noAccess : state.oauth.accesses.find? row.id = none := by
    cases access : state.oauth.accesses.find? row.id with
    | none => rfl
    | some other =>
        have named := formed.accesses _ _ access
        rw [show idPrefix "t_oauth_" row.id = false from tied.plain.1] at named
        cases named
  simp only [requireBinding, noBrowser, noAccess, Program.except_bind_ok, unboundToken,
    require_ok] at passed
  obtain ⟨_, bound, _, _, free⟩ := passed
  rcases binding with ⟨api, held, _, key, generation, subject⟩ | ⟨gone, _⟩
  · simp only [apiBinding, show state.oauth.apis.find? row.id = some api from held,
      storedCredential, Program.except_bind_ok, requireRow_ok] at bound
    obtain ⟨_, _, owner, live, parentRow, atParent, covers⟩ := bound
    have lives := requireOwnSource_live live
    obtain ⟨⟨parent', atParent', alive⟩, ⟨moved, atSubject, version'⟩⟩ := lives
    rw [atParent] at atParent'
    cases atParent'
    rw [key] at atParent
    refine ⟨parentRow, row, atParent, found, alive, ?_, requireCeiling_covered covers⟩
    rw [subjectGeneration, ← subject, atSubject, ← generation, ← version']
    rfl
  · rcases free with unsourced | held
    · rw [source] at unsourced
      cases unsourced
    · exact absurd gone held

/-- What was made with a key, and whatever it was given up for, is good only under that key. -/
theorem key_binding_inherited {clock version now : Nat} {past : List Event} {parent id : String}
    (initial : Initial first) (run : Run app first state clock past)
    (unbound : ∀ event ∈ past, rotatesBound event = false)
    (derived : Derived parent version past id) {request : Request} {principal : Principal}
    (presents : Presents request id)
    (authentic : authenticate app state request now = .ok principal) :
    UnderKey app state now parent version id := by
  have formed := run_formed initial run
  have tied := derived_tied initial run unbound derived
  cases authenticate_authentic authentic with
  | registering asked proof _ =>
      obtain ⟨_, _, proof⟩ := proof
      rcases presents with ⟨_, named⟩ | ⟨_, _, _, _, named⟩
      · exact absurd (proof.symm.trans named) (by simp)
      · exact absurd (asked.symm.trans named) (by simp)
  | claiming asked proof =>
      rcases presents with ⟨_, named⟩ | ⟨_, _, _, _, named⟩
      · exact absurd (proof.symm.trans named) (by simp)
      · rcases asked with ⟨_, _, _, _, asked⟩ | ⟨_, _, _, asked⟩
        · exact absurd (asked.symm.trans named) (by simp)
        · exact absurd (asked.symm.trans named) (by simp)
  | recovering asked proof found bound _ _ _ _ _ =>
      rcases presents with ⟨_, named⟩ | ⟨_, _, _, _, named⟩
      · exact absurd (proof.symm.trans named) (by simp)
      · cases asked.symm.trans named
        exact tied_binding formed tied found bound
  | proving other proves _ _ _ =>
      rcases presents with ⟨_, named⟩ | ⟨_, _, _, _, named⟩
      · cases proves with
        | signature proof _ _ _ _ => exact absurd (proof.symm.trans named) (by simp)
        | token proof found _ _ bound =>
            cases proof.symm.trans named
            exact tied_binding formed tied found bound
      · exact absurd named (other _ _ _ _ _)

/-- A rotation that the token of a request asks for. -/
def sampleRotation (issued requestId : String) (id : String) (now : Nat) : Request :=
  sampleRequest (.token id ("u_ann" ++ issued)) requestId 2 now (.tokenRotate "nonce" "other")

def sampleTokenPrincipal (id : String) : Principal :=
  ⟨some "u_ann", some "u_ann", some id, .token, [], [sampleGrant]⟩

theorem sampleCreates : Derived "k_ann" 1 (sampleTrace sampleCreated).2.2 "t_1" :=
  .created ⟨_, _, rfl, by decide, ⟨_, _, _, _, _, rfl⟩, ⟨_, _, rfl, rfl⟩, rfl, rfl⟩

theorem key_binding_inherited_sample :
    UnderKey sampleInstallation (sampleTrace sampleCreated).1 4 "k_ann" 1 "t_1" := by
  have unbound : (sampleTrace sampleCreated).2.2.any rotatesBound = false := rfl
  have good : authenticate sampleInstallation (sampleTrace sampleCreated).1
      (sampleRotation "create" "rotate" "t_1" 4) 4 = .ok (sampleTokenPrincipal "t_1") := rfl
  have presents : Presents (sampleRotation "create" "rotate" "t_1" 4) "t_1" := .inl ⟨_, rfl⟩
  exact key_binding_inherited sampleSystem_initial (sampleTrace_run sampleCreated (by decide +kernel))
    (fun event inside => by simpa using List.any_eq_false.mp unbound event inside) sampleCreates
    presents good

/-- The token is rotated, and then the key that made it is revoked. -/
def sampleRotated : List Deed :=
  [samplePacket "revoke" 1 5 (.keyRevoke "k_ann") Aside.idle,
    .packet (sampleRotation "create" "rotate" "t_1" 4) Aside.idle 4] ++ sampleCreated

theorem sampleSucceeds : Derived "k_ann" 1 (sampleTrace sampleRotated).2.2 "t_2" :=
  .earlier (.succeeded sampleCreates rfl)

theorem rotation_unbinds : ¬ ∀ (app : Installation) (first state : State) (clock version now : Nat)
    (past : List Event) (parent id : String), Initial first → Run app first state clock past →
      Derived parent version past id → ∀ request principal, Presents request id →
        authenticate app state request now = .ok principal →
          UnderKey app state now parent version id := by
  intro claim
  have good : authenticate sampleInstallation (sampleTrace sampleRotated).1
      (sampleRotation "rotate" "again" "t_2" 6) 6 = .ok (sampleTokenPrincipal "t_2") := rfl
  have presents : Presents (sampleRotation "rotate" "again" "t_2" 6) "t_2" := .inl ⟨_, rfl⟩
  have under := claim _ _ _ _ 1 6 _ "k_ann" "t_2" sampleSystem_initial
    (sampleTrace_run sampleRotated (by decide +kernel)) sampleSucceeds _ _ presents good
  obtain ⟨key, row, found, _, alive, _⟩ := under.covered
  cases found
  cases alive

end MsgServer.ApiKeys
