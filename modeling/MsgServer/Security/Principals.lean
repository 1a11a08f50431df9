import MsgServer.Security.Transactions

/-!
What an authenticated principal is, read off `authenticate` once: by which of its four ways
it came in, and what was found on that way.
-/

namespace MsgServer.Authentication

open Library Session Certificates Accounts Bindings Requests TokenDelivery Identity

variable {app : Installation} {state next : State} {request : Request} {now : Nat}

/-- What a proof shows of the credential it names. -/
inductive Proves (app : Installation) (state : State) (request : Request) (now : Nat) :
    Proven → Prop
  | signature {row : StoredCredential} {signature : Signature} {certificates : List String}
      (proof : request.proof = .signature signature certificates) (named : signature.keyId = row.id)
      (found : state.credentials.find? row.id = some row) (timely : inTime now row)
      (kind : row.kind = .signingKey) :
      Proves app state request now ⟨row, .signature, certificates⟩
  | token {row : StoredCredential} {token : String} (proof : request.proof = .token row.id token)
      (found : state.credentials.find? row.id = some row) (timely : inTime now row)
      (kind : row.kind = .token) (bound : requireBinding app state row now = .ok ()) :
      Proves app state request now ⟨row, .token, []⟩

theorem proven_proves {held : Proven} (done : proven app state request now = .ok held) :
    Proves app state request now held := by
  unfold proven at done
  split at done
  · cases done
  · rename_i signature certificates proof
    simp only [storedCredential, Program.except_bind_ok, requireRow_ok, require_ok,
      Program.except_pure, Except.ok.injEq] at done
    obtain ⟨row, found, _, timely, _, kind, _, _, rfl⟩ := done
    have same : row.key = signature.keyId := Table.find?_key found
    rw [← same] at found
    exact .signature proof same.symm found timely kind
  · rename_i id token proof
    simp only [storedCredential, Program.except_bind_ok, requireRow_ok, require_ok,
      Program.except_pure, Except.ok.injEq] at done
    obtain ⟨row, found, _, timely, _, kind, _, _, _, bound, rfl⟩ := done
    have same : row.key = id := Table.find?_key found
    subst same
    exact .token proof found timely kind bound

theorem Proves.found {held : Proven} (proves : Proves app state request now held) :
    state.credentials.find? held.row.id = some held.row := by
  cases proves with
  | signature _ _ found _ _ => exact found
  | token _ found _ _ _ => exact found

inductive Authentic (app : Installation) (state : State) (request : Request) (now : Nat) :
    Principal → Prop
  | registering {publicKey recipient : String}
      (asked : request.arguments = .register publicKey recipient)
      (proof : ∃ signature certificates, request.proof = .signature signature certificates)
      (named : request.subject = some (app.subjectId publicKey)) :
      Authentic app state request now
        ⟨request.subject, request.subject, some (app.keyId publicKey), .signature, [],
          app.primaryCeiling⟩
  | claiming {kind nonce : String}
      (asked : (∃ secret publicKey recipient possession,
          request.arguments = .temporary nonce secret publicKey recipient possession) ∨
        ∃ secret publicKey recipient,
          request.arguments = .custodialCreate nonce secret publicKey recipient)
      (proof : request.proof = .none) :
      Authentic app state request now
        ⟨some ("u_" ++ (kind ++ app.nonceTag nonce)), some ("u_" ++ (kind ++ app.nonceTag nonce)),
          some ("t_" ++ (kind ++ app.nonceTag nonce)), .token, [], app.temporaryCeiling⟩
  | recovering {original secret nonce newSecret : String} {old : StoredCredential}
      {delivery : Delivery}
      (asked : request.arguments = .tokenRecover old.id original secret nonce newSecret)
      (proof : request.proof = .none)
      (found : state.credentials.find? old.id = some old)
      (bound : requireBinding app state old now = .ok ()) (isToken : old.kind = .token)
      (kept : state.deliveries.find? old.id = some delivery)
      (opens : delivery.recoveryVerifier = app.recoveryHash secret)
      (inTime : now < delivery.recoveryExpiresAt)
      (spare : unspent state request now old delivery = .ok ()) :
      Authentic app state request now
        ⟨some old.subjectId, some old.subjectId, some old.id, .recovery, [], recoveryCeiling app⟩
  | proving {held : Proven} {actor subject : Subject} {valid : List Certificate}
      (other : ∀ id original secret nonce newSecret,
        request.arguments ≠ .tokenRecover id original secret nonce newSecret)
      (proves : Proves app state request now held)
      (owner : state.store.subjects.find? held.row.subjectId = some actor)
      (live : unrevoked state request now held = .ok ())
      (checks : requestChecks request held actor subject = .ok ()) :
      Authentic app state request now
        ⟨some actor.resourceId, some subject.resourceId, some held.row.id, held.method,
          valid.map Certificate.resourceId, held.row.ceiling⟩

theorem registering_authentic {publicKey recipient : String} {principal : Principal}
    (asked : request.arguments = .register publicKey recipient)
    (done : registering app state request publicKey = .ok principal) :
    Authentic app state request now principal := by
  unfold registering at done
  split at done
  · rename_i signature certificates proof
    simp only [Program.except_bind_ok, require_ok, Program.except_pure, Except.ok.injEq] at done
    obtain ⟨_, _, _, ⟨_, named⟩, _, _, rfl⟩ := done
    exact .registering asked ⟨signature, certificates, proof⟩ named
  · cases done

theorem recovering_authentic {id original secret nonce newSecret : String} {principal : Principal}
    (asked : request.arguments = .tokenRecover id original secret nonce newSecret)
    (done : recovering app state request now id original secret = .ok principal) :
    Authentic app state request now principal := by
  simp only [recovering, recoveryVerifier, storedCredential, subject, Program.except_bind_ok, requireRow_ok,
    require_ok, Program.except_pure, Except.ok.injEq] at done
  obtain ⟨_, proof, wanted, _, old, found, _, bound, _, ⟨isToken, _⟩, actor, stored, _, _, _,
    ⟨_, _, _, _, rfl⟩, delivery, kept, _, ⟨_, opens, inTime, _⟩, _, spare, _, _, rfl⟩ := done
  have same : old.key = id := Table.find?_key found
  have owner : actor.resourceId = old.subjectId := Table.find?_key stored
  subst same
  rw [owner]
  exact .recovering asked proof found bound isToken kept opens inTime spare

theorem proving_authentic {principal : Principal}
    (other : ∀ id original secret nonce newSecret,
      request.arguments ≠ .tokenRecover id original secret nonce newSecret)
    (done : proving app state request now = .ok principal) :
    Authentic app state request now principal := by
  simp only [proving, subject, Program.except_bind_ok, requireRow_ok, Program.except_pure,
    Except.ok.injEq] at done
  obtain ⟨held, proved, actor, owner, _, live, subject, _, _, _, _, checks, valid, _, _, _,
    rfl⟩ := done
  exact .proving other (proven_proves proved) owner live checks

theorem bootstrap_authentic {kind nonce : String} {publicKey : Option String}
    {principal : Principal}
    (asked : (∃ secret publicKey recipient possession,
        request.arguments = .temporary nonce secret publicKey recipient possession) ∨
      ∃ secret publicKey recipient,
        request.arguments = .custodialCreate nonce secret publicKey recipient)
    (done : bootstrap app state request kind nonce publicKey = .ok principal) :
    Authentic app state request now principal := by
  simp only [bootstrap, Program.except_bind_ok, require_ok, Program.except_pure,
    Except.ok.injEq] at done
  obtain ⟨_, ⟨proof, _⟩, _, _, _, _, _, _, rfl⟩ := done
  exact .claiming asked proof

theorem authenticate_authentic {principal : Principal}
    (done : authenticate app state request now = .ok principal) :
    Authentic app state request now principal := by
  simp only [authenticate, identified, Program.except_bind_ok, Program.except_pure,
    Except.ok.injEq] at done
  obtain ⟨_, _, given, ⟨_, _, found⟩, _, _, _, _, rfl⟩ := done
  split at found
  · rename_i asked
    exact registering_authentic asked found
  · rename_i asked
    exact bootstrap_authentic (.inl ⟨_, _, _, _, asked⟩) found
  · rename_i asked
    exact bootstrap_authentic (.inr ⟨_, _, _, asked⟩) found
  · rename_i asked
    exact recovering_authentic asked found
  · rename_i other
    exact proving_authentic (fun _ _ _ _ _ asked => other _ _ _ _ _ asked) found

/-- Only its own rotation, or the exit of its subject, answers to a token that is revoked. -/
theorem ownRotation_replays {held : Proven} (done : ownRotation state request now held = .ok ()) :
    request.operation ∈ replayable ∧ held.method = .token ∧
      ∃ result, requestResult state held.row.subjectId request.requestId request.payloadDigest =
        .ok (some result) := by
  simp only [ownRotation, Program.except_bind_ok, requireRow_ok, require_ok] at done
  obtain ⟨_, ⟨method, named⟩, _, looked, result, rfl, _⟩ := done
  exact ⟨named, method, result, looked⟩

theorem unrevoked_live {held : Proven} (done : unrevoked state request now held = .ok ()) :
    held.row.revokedAt = none ∨ ownRotation state request now held = .ok () := by
  unfold unrevoked at done
  split at done
  · rename_i live
    exact .inl live
  · exact .inr done

/-- A secret is spent on a token that is not revoked, or has been used for this request. -/
theorem unspent_ok {old : StoredCredential} {delivery : Delivery}
    (done : unspent state request now old delivery = .ok ()) :
    (delivery.consumedAt = none ∧ old.revokedAt = none) ∨
      ∃ result, requestResult state old.subjectId request.requestId request.payloadDigest =
        .ok (some result) := by
  unfold unspent at done
  split at done
  · simp only [Program.except_bind_ok, require_ok] at done
    obtain ⟨previous, looked, answered⟩ := done
    cases previous with
    | none => cases answered
    | some result => exact .inr ⟨result, looked⟩
  · rename_i unconsumed
    simp only [Program.except_bind_ok, requireRow_ok, require_ok] at done
    obtain ⟨_, _, live, _⟩ := done
    exact .inl ⟨unconsumed, live⟩

/-- An operation of this name is one of the two. -/
theorem replayable_arguments (named : request.operation ∈ replayable) :
    (∃ nonce secret, request.arguments = .tokenRotate nonce secret) ∨
      ∃ challengeId custody, request.arguments = .custodialUpgradeFinish challengeId custody := by
  rw [Request.operation] at named
  cases asked : request.arguments with
  | tokenRotate nonce secret => exact .inl ⟨nonce, secret, rfl⟩
  | custodialUpgradeFinish challengeId custody => exact .inr ⟨challengeId, custody, rfl⟩
  | other operation =>
      rw [asked] at named
      have among : operation.name ∈ accountOperations := by
        have inside : replayable ⊆ accountOperations := by decide
        exact inside named
      exact absurd among operation.other
  | _ =>
      rw [asked] at named
      simp [Arguments.operation, replayable] at named

theorem ownRotation_answered {request : Request} {now : Nat} {held : Proven} {actor subject : Subject}
    {valid : List Certificate} {data : Data} {aside : Aside}
    (rotation : ownRotation state request now held = .ok ())
    (owner : state.store.subjects.find? held.row.subjectId = some actor)
    (unanswered : requestResult state subject.resourceId request.requestId request.payloadDigest =
      .ok none)
    (change : Change app ⟨⟨⟨some actor.resourceId, some subject.resourceId, some held.row.id,
      held.method, valid.map Certificate.resourceId, held.row.ceiling⟩, .network, now⟩, request,
      aside⟩ state next data) : False := by
  obtain ⟨named, _, result, answered⟩ := ownRotation_replays rotation
  have mine : actor.resourceId = held.row.subjectId := Table.find?_key owner
  -- The owner of both operations acts for nobody else.
  have other : subject.resourceId ≠ actor.resourceId := by
    intro same
    rw [same, mine, answered] at unanswered
    cases unanswered
  have owns : ∀ {owner : Subject}, Owns ⟨⟨⟨some actor.resourceId, some subject.resourceId,
      some held.row.id, held.method, valid.map Certificate.resourceId, held.row.ceiling⟩, .network,
      now⟩, request, aside⟩ state owner → False := by
    intro owner owns
    exact other (Option.some.inj (owns.caller.trans owns.acting.symm))
  rcases replayable_arguments named with ⟨_, _, asked⟩ | ⟨_, _, asked⟩
  all_goals cases change with
    | rotate _ controls => exact owns controls
    | idle _ controls => exact owns controls
    | target _ controls => exact owns controls
    | switch _ controls => exact owns controls
    | retire _ controls => exact owns controls
    | _ asked' => exact absurd (asked.symm.trans asked') (by simp)

/-- A rotation starts from a token that is not revoked: the packets of a token that is are
answered with its rotation. -/
def Starts (state : State) (step : Step) : Prop := ∀ nonce secret old,
  step.request.arguments = .tokenRotate nonce secret →
    step.context.principal.credentialId = some old.id →
      state.credentials.find? old.id = some old → old.revokedAt = none

theorem rotation_starts {request : Request} {now : Nat} {principal : Principal} {aside : Aside}
    (authentic : authenticate app state request now = .ok principal)
    (unanswered : requestResult state (principal.subject.getD "") request.requestId
      request.payloadDigest = .ok none)
    (change : Change app ⟨⟨principal, .network, now⟩, request, aside⟩ state next data) :
    Starts state ⟨⟨principal, .network, now⟩, request, aside⟩ := by
  intro nonce secret old asked caller held
  by_contra gone
  cases authenticate_authentic authentic with
  | registering asked' _ _ => exact absurd (asked.symm.trans asked') (by simp)
  | claiming asked' _ =>
      rcases asked' with ⟨_, _, _, _, asked'⟩ | ⟨_, _, _, asked'⟩
      · exact absurd (asked.symm.trans asked') (by simp)
      · exact absurd (asked.symm.trans asked') (by simp)
  | recovering asked' _ _ _ _ _ _ _ _ => exact absurd (asked.symm.trans asked') (by simp)
  | proving _ proves owner live _ =>
      have same := Option.some.inj caller
      have found := proves.found
      rw [same, held, Option.some.injEq] at found
      rcases unrevoked_live live with unended | rotation
      · exact gone (found ▸ unended)
      · exact ownRotation_answered rotation owner unanswered change

end MsgServer.Authentication
