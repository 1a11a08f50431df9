import MsgServer.Security.Formation
import MsgServer.Security.Principals

/-!
The delivery of tokens and their succession, over whole runs: a token goes out once, its
recovery secret is good once and in time, and it is given up for one other token at most.
-/

namespace MsgServer.Succession

open Library Session Accounts Bindings Requests TokenDelivery Identity Authentication Credentials
  Issuance Machine Formation

variable {app : Installation} {first state next : State} {step : Step} {data : Data}

/-! What an event answers. -/

def answered (outcome : Outcome) : Option Data :=
  match outcome with
  | .committed _ result => some result.data
  | .replayed result => some result.data
  | .handled data => some data
  | .responded data => some data
  | .answered _ => none
  | .nothing => none

/-- The answer carries the secret of the token. -/
def carries (id : String) (event : Event) : Bool :=
  (answered event.outcome).any fun data => data.credentialId == some id && data.token.isSome

/-- The token given up and the token made, by a rotation or a recovery that was accepted. -/
def succession (event : Event) : Option (String × String) :=
  match event.outcome with
  | .committed request result =>
      if request.operation = "identity.token_rotate" ∨
          request.operation = "identity.token_recover" then
        result.data.previousCredential.bind fun old =>
          result.data.credentialId.map fun id => (old, id)
      else none
  | _ => none

def succeeds (old : String) (event : Event) : Bool :=
  (succession event).any fun pair => pair.1 == old

def isRecovery (event : Event) : Bool :=
  match event.outcome with
  | .committed request _ => request.operation == "identity.token_recover"
  | _ => false

def recovers (old : String) (event : Event) : Bool := succeeds old event && isRecovery event

def recoversTo (old id : String) (event : Event) : Bool :=
  isRecovery event && succession event == some (old, id)

theorem rotate_arguments {request : Request} (named : request.operation = "identity.token_rotate") :
    ∃ nonce secret, request.arguments = .tokenRotate nonce secret := by
  have among : request.operation ∈ replayable := by
    rw [named]
    exact List.mem_cons_self
  rcases replayable_arguments among with rotation | ⟨_, _, asked⟩
  · exact rotation
  · rw [Request.operation, asked] at named
    simp [Arguments.operation] at named

theorem recover_arguments {request : Request} (named : request.operation = "identity.token_recover") :
    ∃ id original spent nonce secret,
      request.arguments = .tokenRecover id original spent nonce secret := by
  rw [Request.operation] at named
  cases asked : request.arguments with
  | tokenRecover id original spent nonce secret => exact ⟨_, _, _, _, _, rfl⟩
  | other operation =>
      rw [asked] at named
      have among : operation.name ∈ accountOperations := by
        rw [show operation.name = _ from named]
        decide
      exact absurd among operation.other
  | _ =>
      rw [asked] at named
      simp [Arguments.operation] at named

theorem succession_some {event : Event} {old id : String} (is : succession event = some (old, id)) :
    ∃ request result, event.outcome = .committed request result ∧
      ((∃ nonce secret, request.arguments = .tokenRotate nonce secret) ∨
        ∃ credentialId original spent nonce secret,
          request.arguments = .tokenRecover credentialId original spent nonce secret) ∧
      result.data.previousCredential = some old ∧ result.data.credentialId = some id := by
  unfold succession at is
  split at is
  · rename_i request result outcome
    split at is
    · rename_i named
      simp only [Option.bind_eq_some_iff, Option.map_eq_some_iff, Prod.mk.injEq] at is
      obtain ⟨_, before, _, after, rfl, rfl⟩ := is
      refine ⟨request, result, outcome, ?_, before, after⟩
      rcases named with rotation | recovery
      · exact .inl (rotate_arguments rotation)
      · exact .inr (recover_arguments recovery)
    · cases is
  · cases is

theorem succeeds_some {event : Event} {old : String} (is : succeeds old event = true) :
    ∃ id, succession event = some (old, id) := by
  simp only [succeeds, Option.any_eq_true, beq_iff_eq] at is
  obtain ⟨⟨_, id⟩, found, rfl⟩ := is
  exact ⟨id, found⟩

/-! One step: tokens and deliveries that are there. -/

/-- A delivery keeps its deadline, and neither claim nor use is taken back. -/
structure DeliveryKept (before after : Delivery) : Prop where
  deadline : after.recoveryExpiresAt = before.recoveryExpiresAt
  claimed : before.claimedAt ≠ none → after.claimedAt ≠ none

theorem DeliveryKept.refl (delivery : Delivery) : DeliveryKept delivery delivery := ⟨rfl, id⟩

/-- What a step leaves of a token: the row, its delivery, and its binding unless a purge
takes it. -/
structure Standing (state next : State) (now : Nat) (id : String) : Prop where
  token : Aged (tokenAt state id) (tokenAt next id)
  delivery : ∀ delivery, state.deliveries.find? id = some delivery →
    ∃ later, next.deliveries.find? id = some later ∧ DeliveryKept delivery later
  api : next.oauth.apis.find? id = state.oauth.apis.find? id ∨
    (next.oauth.apis.find? id = none ∧
      ∃ row, state.oauth.apis.find? id = some row ∧ row.expires ≤ now)

theorem deliveries_same {id : String} (same : next.deliveries = state.deliveries) :
    ∀ delivery, state.deliveries.find? id = some delivery →
      ∃ later, next.deliveries.find? id = some later ∧ DeliveryKept delivery later := by
  intro delivery found
  rw [same]
  exact ⟨delivery, found, .refl delivery⟩

theorem Standing.refl (state : State) (now : Nat) (id : String) : Standing state state now id :=
  ⟨Aged.refl _, deliveries_same rfl, .inl rfl⟩

theorem issued_other {row token : StoredCredential} {id : String}
    (new : NewToken state row next) (here : tokenAt state id = some token) : id ≠ row.id := by
  intro same
  rw [same, tokenAt_some, new.unknown] at here
  cases here.1

theorem issued_standing {row token : StoredCredential} {inherited : Option Nat} {id : String}
    {now : Nat} (issued : Issued app step row inherited none state next)
    (here : tokenAt state id = some token)
    (api : id ≠ row.id → next.oauth.apis.find? id = state.oauth.apis.find? id) :
    Standing state next now id := by
  have other := issued_other issued.new here
  refine ⟨issued.new.others id other, ?_, .inl (api other)⟩
  intro delivery found
  rw [issued.others id other (by simp)]
  exact ⟨delivery, found, .refl delivery⟩

theorem issues_standing {id : String} {token : StoredCredential}
    (here : tokenAt state id = some token) (issues : Issues app step state next data) :
    Standing state next step.now id := by
  cases issues with
  | nothing _ quiet =>
      exact ⟨quiet.tokens id, deliveries_same quiet.deliveries, .inl (by rw [quiet.oauth])⟩
  | first _ _ issued _ oauth _ => exact issued_standing issued here fun _ => by rw [oauth]
  | created _ _ _ _ issued api _ =>
      apply issued_standing issued here
      intro other
      cases api with
      | unbound _ _ same => rw [same]
      | bound _ _ _ _ _ put =>
          rw [put]
          exact (Table.find?_put _ _ id).trans (if_neg (Ne.symm other))
  | rotated _ _ _ _ _ _ issued _ oauth _ _ =>
      exact issued_standing issued here fun _ => by rw [oauth]
  | @recovered row old _ kept _ _ _ _ _ _ _ _ _ _ found _ _ _ _ issued _ consumed copied _ _ =>
      have other := issued_other issued.new here
      refine ⟨issued.new.others id other, ?_, .inl ?_⟩
      · intro delivery held
        by_cases same : old.id = id
        · rw [same] at found consumed
          rw [found] at held
          cases held
          exact ⟨_, consumed, rfl, fun claimed => claimed⟩
        · rw [issued.others id other (by simpa using same)]
          exact ⟨delivery, held, .refl delivery⟩
      · cases copied with
        | unbound _ same => rw [same]
        | bound _ _ _ _ put =>
            rw [put]
            exact (Table.find?_put _ _ id).trans (if_neg (Ne.symm other))

theorem released_standing {request : Request} {result : Result} {now clock : Nat} {data : Data}
    (id : String) (released : Released app state request result now next data) :
    Standing state next clock id := by
  cases released with
  | plain _ => exact Standing.refl _ _ _
  | @token _ row delivery _ _ _ _ _ _ _ _ =>
      refine ⟨Aged.refl _, ?_, .inl rfl⟩
      intro before found
      change ∃ later, (state.deliveries.modify row.id (claim now)).find? id = some later ∧ _
      by_cases same : id = row.id
      · rw [same, Table.find?_modify_self _ _ (claim now) fun _ => rfl, ← same, found]
        exact ⟨claim now before, rfl, rfl, fun _ => Option.some_ne_none now⟩
      · rw [Table.find?_modify_ne _ _ same]
        exact ⟨before, found, .refl before⟩

theorem minted_aged {row token : StoredCredential} {id : String}
    (minted : OAuth.Minted state row next) (unknown : state.credentials.find? row.id = none)
    (here : tokenAt state id = some token) : Aged (tokenAt state id) (tokenAt next id) := by
  have other : row.id ≠ id := by
    intro same
    rw [tokenAt_some, ← same, unknown] at here
    cases here.1
  have stored : next.credentials.find? id = state.credentials.find? id := by
    rw [minted.after, Table.find?_put]
    exact if_neg other
  have same : tokenAt next id = tokenAt state id := by rw [tokenAt, tokenAt, stored]
  rw [same]
  exact Aged.refl _

theorem transaction_standing {deed : Deed} {outcome : Outcome} {id : String}
    {token : StoredCredential} (formed : Formed state) (fresh : freshDraws state deed)
    (here : tokenAt state id = some token)
    (transaction : Transaction app state deed next outcome) :
    Standing state next deed.now id := by
  cases transaction with
  | committed _ _ change booked =>
      have stands := issues_standing here (change_issues formed change)
      obtain ⟨_, _, _, rfl⟩ := booked.written
      exact ⟨stands.token, stands.delivery, stands.api⟩
  | replayed _ _ => exact Standing.refl _ _ _
  | handled _ change => exact issues_standing here (change_issues formed change)
  | responded _ _ released => exact released_standing id released
  | oauth change =>
      refine ⟨?_, deliveries_same (by rw [change.frame]), change.apis⟩
      cases change.mint with
      | nothing same => exact TokensKept.of_credentials same id
      | access named made => exact minted_aged made (by rw [named]; exact fresh _ rfl) here
      | browser named made => exact minted_aged made (by rw [named]; exact fresh _ rfl) here
  | elsewhere _ => exact ⟨Aged.refl _, deliveries_same rfl, .inl rfl⟩

/-! Stored results carry no secret. -/

theorem change_tokenless (change : Change app step state next data) : data.token = none := by
  cases change <;> rfl

def Sealed (state : State) : Prop := ∀ key result, state.results.find? key = some result →
  result.data.token = none

theorem transaction_sealed {deed : Deed} {outcome : Outcome}
    (transaction : Transaction app state deed next outcome) (sealed : Sealed state) :
    Sealed next := by
  cases transaction with
  | @committed _ _ _ _ data acted _ result _ _ change booked =>
      have same := (change_written change).results
      obtain ⟨_, _, inserted, rfl⟩ := booked.written
      intro key other found
      change Table.find? _ key = some other at found
      rw [Table.find?_insert inserted, same] at found
      split at found
      · cases found
        rw [booked.answer]
        exact change_tokenless change
      · exact sealed key other found
  | replayed _ _ => exact sealed
  | handled _ change =>
      unfold Sealed
      rw [(change_written change).results]
      exact sealed
  | responded _ _ released =>
      cases released with
      | plain _ => exact sealed
      | token _ _ _ _ _ _ _ _ => exact sealed
  | oauth change =>
      have frame := change.frame
      unfold Sealed
      rw [frame]
      exact sealed
  | elsewhere _ => exact sealed

/-- What holds of every reachable state. -/
structure Sound (state : State × Nat) : Prop where
  formed : Formed state.1
  sealed : Sealed state.1

theorem sound_kept (state : State × Nat) (event : Event) (next : State × Nat) (sound : Sound state)
    (passes : Passes app state event next) : Sound next :=
  ⟨formed_kept state event next sound.formed passes,
    transaction_sealed passes.transaction sound.sealed⟩

theorem initial_sound (initial : Initial first) : Sound (first, 0) := by
  refine ⟨initial_formed initial, ?_⟩
  intro key result found
  change first.results.find? key = some result at found
  rw [initial.results] at found
  cases found

/-! A token goes out once. -/

def Claimed (id : String) (state : State × Nat) : Prop :=
  ∃ delivery, state.1.deliveries.find? id = some delivery ∧ delivery.claimedAt ≠ none

theorem claimed_stays (id : String) (state : State × Nat) (event : Event) (next : State × Nat)
    (sound : Sound state) (passes : Passes app state event next) (claimed : Claimed id state) :
    Claimed id next := by
  obtain ⟨delivery, found, gone⟩ := claimed
  obtain ⟨token, here⟩ := sound.formed.issued id delivery found
  have stands := transaction_standing sound.formed passes.fresh here passes.transaction
  obtain ⟨later, foundLater, kept⟩ := stands.delivery delivery found
  exact ⟨later, foundLater, kept.claimed gone⟩

theorem tokenless_carries {id : String} {event : Event} {data : Data}
    (is : answered event.outcome = some data) (none : data.token = none) :
    carries id event = false := by
  simp [carries, is, none]

/-- Only a release carries a secret, and it finds the delivery unclaimed and claims it. -/
theorem carries_claims {id : String} {state next : State × Nat} {event : Event}
    (sound : Sound state) (passes : Passes app state event next)
    (carried : carries id event = true) : Claimed id next ∧ ¬ Claimed id state := by
  have plain : ∀ {data}, answered event.outcome = some data → data.token ≠ none := by
    intro data is none
    rw [tokenless_carries is none] at carried
    cases carried
  obtain ⟨before, deed, outcome⟩ := event
  obtain ⟨state, clock⟩ := state
  obtain ⟨next, now⟩ := next
  have transaction := passes.transaction
  dsimp only at transaction
  cases transaction with
  | committed _ _ change booked =>
      refine absurd ?_ (plain rfl)
      rw [booked.answer]
      exact change_tokenless change
  | replayed _ looked =>
      exact absurd (sound.sealed _ _ (requestResult_some looked).1) (plain rfl)
  | handled _ change => exact absurd (change_tokenless change) (plain rfl)
  | @responded _ _ instant _ _ _ stored _ released =>
      cases released with
      | plain _ => exact absurd (sound.sealed _ _ stored) (plain rfl)
      | @token secrets row delivery _ named _ _ kept _ _ unclaimed =>
          have same : row.id = id := by simpa [carries, answered, named] using carried
          subst same
          constructor
          · refine ⟨claim instant delivery, ?_, Option.some_ne_none instant⟩
            change (state.deliveries.modify row.id (claim instant)).find? row.id = _
            rw [Table.find?_modify_self _ _ (claim instant) fun _ => rfl, kept]
            rfl
          · rintro ⟨other, found, gone⟩
            change state.deliveries.find? row.id = some other at found
            rw [kept] at found
            cases found
            exact gone unclaimed
  | oauth _ => cases carried
  | elsewhere _ => cases carried

/-! A token is given up once. -/

/-- The predecessor was a live token, and is revoked. -/
structure Gave (state next : State) (now : Nat) (old : String) : Prop where
  live : ∃ row, tokenAt state old = some row ∧ row.revokedAt = none ∧
    tokenAt next old = some (revoked now row)

/-- The successor has the end and the ceiling of its predecessor, and no later deadline. -/
structure Narrowed (state : State) (old id : String) : Prop where
  rows : ∃ before after, tokenAt state old = some before ∧ tokenAt state id = some after ∧
    after.ceiling = before.ceiling ∧ after.expiresAt = before.expiresAt
  deadlines : ∃ before after, state.deliveries.find? old = some before ∧
    state.deliveries.find? id = some after ∧ after.recoveryExpiresAt ≤ before.recoveryExpiresAt

/-- The secret of the delivery was presented in time. -/
structure InTime (app : Installation) (state : State) (now : Nat) (request : Request)
    (old : String) : Prop where
  delivery : ∃ delivery original secret nonce newSecret,
    request.arguments = .tokenRecover old original secret nonce newSecret ∧
      state.deliveries.find? old = some delivery ∧
      delivery.recoveryVerifier = app.recoveryHash secret ∧ now < delivery.recoveryExpiresAt

/-- What a succession is, case by case: a rotation, or a recovery. -/
inductive Succeeded (app : Installation) (state : State) (request : Request) (now : Nat)
    (next : State) (old id : String) : Prop
  | rotated {nonce secret : String} (asked : request.arguments = .tokenRotate nonce secret)
      (gave : Gave state next now old)
  | recovered (recovery : request.operation = "identity.token_recover")
      (gave : Gave state next now old) (narrowed : Narrowed next old id)
      (inTime : InTime app state now request old)

theorem deadline_le (expiresAt now bound : Nat) :
    deadline app expiresAt now (some bound) ≤ bound := Nat.min_le_right _ _

theorem recovery_inTime {request : Request} {now : Nat} {principal : Principal}
    {oldId original spent nonce secret : String}
    (asked : request.arguments = .tokenRecover oldId original spent nonce secret)
    (authentic : authenticate app state request now = .ok principal) :
    InTime app state now request oldId := by
  cases authenticate_authentic authentic with
  | registering asked' _ _ => exact absurd (asked.symm.trans asked') (by simp)
  | claiming asked' _ =>
      rcases asked' with ⟨_, _, _, _, asked'⟩ | ⟨_, _, _, asked'⟩
      · exact absurd (asked.symm.trans asked') (by simp)
      · exact absurd (asked.symm.trans asked') (by simp)
  | recovering asked' _ _ _ _ kept opens inTime _ =>
      cases asked.symm.trans asked'
      exact ⟨_, _, _, _, _, asked, kept, opens, inTime⟩
  | proving other _ _ _ _ => exact absurd asked (other _ _ _ _ _)

theorem succession_succeeded {request : Request} {now : Nat} {principal : Principal} {aside : Aside}
    {old id : String} (formed : Formed state)
    (asked : (∃ nonce secret, request.arguments = .tokenRotate nonce secret) ∨
      ∃ credentialId original spent nonce secret,
        request.arguments = .tokenRecover credentialId original spent nonce secret)
    (gave : data.previousCredential = some old) (named : data.credentialId = some id)
    (authentic : authenticate app state request now = .ok principal)
    (unanswered : requestResult state (principal.subject.getD "") request.requestId
      request.payloadDigest = .ok none)
    (change : Change app ⟨⟨principal, .network, now⟩, request, aside⟩ state next data) :
    Succeeded app state request now next old id := by
  have starts := rotation_starts authentic unanswered change
  cases change_issues formed change with
  | nothing asked' _ =>
      rcases asked with ⟨_, _, asked⟩ | ⟨_, _, _, _, _, asked⟩
      all_goals
        rw [show request.arguments.delivering = _ from congrArg _ asked] at asked'
        cases asked'
  | first asked' _ _ _ _ _ =>
      rcases asked with ⟨_, _, asked⟩ | ⟨_, _, _, _, _, asked⟩
      all_goals
        rcases asked' with ⟨_, _, _, _, _, asked'⟩ | ⟨_, _, _, _, asked'⟩
        · exact absurd (asked.symm.trans asked') (by simp)
        · exact absurd (asked.symm.trans asked') (by simp)
  | created asked' _ _ _ _ _ _ =>
      rcases asked with ⟨_, _, asked⟩ | ⟨_, _, _, _, _, asked⟩
      · exact absurd (asked.symm.trans asked') (by simp)
      · exact absurd (asked.symm.trans asked') (by simp)
  | @rotated row given _ _ _ asked' _ caller held _ _ _ gone _ _ before =>
      have same := Option.some.inj (before.symm.trans gave)
      subst same
      have live := starts _ _ given asked' caller ((tokenAt_some _).mp held).1
      exact .rotated asked' ⟨given, held, live, gone⟩
  | @recovered row given _ delivery _ _ _ _ asked' _ held live _ _ kept _ _ _ shape issued gone
      consumed _ answered before =>
      have same := Option.some.inj (before.symm.trans gave)
      have mine := Option.some.inj (answered.symm.trans named)
      subst same mine
      obtain ⟨revokedAt, there⟩ := issued.new.here
      obtain ⟨fresh, expiresAt, delivered, _, deadline, _⟩ := issued.delivery
      have operation : request.operation = "identity.token_recover" := by
        change request.arguments = _ at asked'
        rw [Request.operation, asked']
        rfl
      refine .recovered operation ⟨given, held, live, gone⟩ ⟨?_, ?_⟩
        (recovery_inTime asked' authentic)
      · exact ⟨_, _, gone, there, shape.1, shape.2.1⟩
      · refine ⟨_, _, consumed, delivered, ?_⟩
        rw [deadline]
        exact deadline_le _ _ _

/-- A succession of a run, seen from its event. -/
theorem passes_succeeded {state next : State × Nat} {event : Event} {old id : String}
    (sound : Sound state) (passes : Passes app state event next)
    (is : succession event = some (old, id)) :
    ∃ request result, event.outcome = .committed request result ∧
      Succeeded app event.before request event.deed.now next.1 old id := by
  obtain ⟨request, result, outcome, asked, gave, named⟩ := succession_some is
  refine ⟨request, result, outcome, ?_⟩
  obtain ⟨before, deed, done⟩ := event
  dsimp only at outcome
  have transaction := passes.transaction
  have same : before = state.1 := passes.before
  subst same outcome
  obtain ⟨last, clock⟩ := next
  dsimp only at transaction
  cases transaction with
  | committed authentic unanswered change booked =>
      rw [booked.answer] at gave named
      obtain ⟨_, _, _, rfl⟩ := booked.written
      have succeeded := succession_succeeded sound.formed asked gave named authentic unanswered change
      cases succeeded with
      | rotated asked gave => exact .rotated asked ⟨gave.live⟩
      | recovered operation gave narrowed inTime =>
          exact .recovered operation ⟨gave.live⟩ ⟨narrowed.rows, narrowed.deadlines⟩ inTime

def Revoked (id : String) (state : State × Nat) : Prop :=
  ∃ row, tokenAt state.1 id = some row ∧ row.revokedAt ≠ none

theorem Succeeded.gave {request : Request} {now : Nat} {old id : String}
    (succeeded : Succeeded app state request now next old id) : Gave state next now old := by
  cases succeeded with
  | rotated _ gave => exact gave
  | recovered _ gave _ _ => exact gave

theorem succeeds_revokes {state next : State × Nat} {event : Event} {old : String}
    (sound : Sound state) (passes : Passes app state event next)
    (is : succeeds old event = true) : Revoked old next ∧ ¬ Revoked old state := by
  obtain ⟨id, succession⟩ := succeeds_some is
  obtain ⟨_, _, _, succeeded⟩ := passes_succeeded sound passes succession
  obtain ⟨row, held, live, gone⟩ := succeeded.gave.live
  rw [passes.before] at held
  refine ⟨⟨_, gone, Option.some_ne_none _⟩, ?_⟩
  rintro ⟨other, found, revoked⟩
  rw [held] at found
  cases found
  exact revoked live

theorem revoked_stays (id : String) (state : State × Nat) (event : Event) (next : State × Nat)
    (sound : Sound state) (passes : Passes app state event next) (revoked : Revoked id state) :
    Revoked id next := by
  obtain ⟨row, here, gone⟩ := revoked
  have aged := (transaction_standing sound.formed passes.fresh here passes.transaction).token
  rw [here] at aged
  obtain ⟨ends, later, kept⟩ := aged.some
  exact ⟨_, later, kept gone⟩

theorem narrowed_stays (old id : String) (state : State × Nat) (event : Event) (next : State × Nat)
    (sound : Sound state) (passes : Passes app state event next)
    (narrowed : Narrowed state.1 old id) : Narrowed next.1 old id := by
  obtain ⟨before, after, held, there, ceiling, expiresAt⟩ := narrowed.rows
  obtain ⟨first, second, kept, delivered, deadline⟩ := narrowed.deadlines
  have left := transaction_standing sound.formed passes.fresh held passes.transaction
  have right := transaction_standing sound.formed passes.fresh there passes.transaction
  have agedLeft := left.token
  have agedRight := right.token
  rw [held] at agedLeft
  rw [there] at agedRight
  obtain ⟨_, heldLater, _⟩ := agedLeft.some
  obtain ⟨_, thereLater, _⟩ := agedRight.some
  obtain ⟨firstLater, keptLater, firstKept⟩ := left.delivery first kept
  obtain ⟨secondLater, deliveredLater, secondKept⟩ := right.delivery second delivered
  refine ⟨⟨_, _, heldLater, thereLater, ceiling, expiresAt⟩,
    ⟨_, _, keptLater, deliveredLater, ?_⟩⟩
  rw [firstKept.deadline, secondKept.deadline]
  exact deadline

/-! Runs. -/

/-- One token was given up for the other in the run. -/
def Follows (past : List Event) (old id : String) : Prop :=
  ∃ event ∈ past, succession event = some (old, id)

def Unrevoked (state : State) (id : String) : Prop :=
  ∃ row, state.credentials.find? id = some row ∧ row.revokedAt = none

/-- The whole of it: delivery, recovery and succession of the tokens of a run. -/
structure OneTime (app : Installation) (state : State) (past : List Event) : Prop where
  delivered : ∀ id, past.countP (carries id) ≤ 1
  sealed : ∀ key result, state.results.find? key = some result → result.data.token = none
  recovered : ∀ old, past.countP (recovers old) ≤ 1
  inTime : ∀ event ∈ past, ∀ old, recovers old event = true → ∃ request result,
    event.outcome = .committed request result ∧
      InTime app event.before event.deed.now request old
  narrowed : ∀ event ∈ past, ∀ old id, isRecovery event = true →
    succession event = some (old, id) → Narrowed state old id
  succeeded : ∀ old, past.countP (succeeds old) ≤ 1
  revoked : ∀ old id, Follows past old id →
    ∃ row, state.credentials.find? old = some row ∧ row.revokedAt ≠ none
  alone : ∀ root left right, Relation.ReflTransGen (Follows past) root left →
    Relation.ReflTransGen (Follows past) root right → Unrevoked state left →
      Unrevoked state right → left = right

theorem succession_succeeds {event : Event} {old id : String}
    (is : succession event = some (old, id)) : succeeds old event = true := by
  simp [succeeds, is]

/-- Of two tokens of a chain that are not revoked, neither follows on the other. -/
theorem chain_alone {past : List Event} (once : ∀ old, past.countP (succeeds old) ≤ 1)
    (revoked : ∀ old id, Follows past old id → ¬ Unrevoked state old) {root left right : String}
    (toLeft : Relation.ReflTransGen (Follows past) root left)
    (toRight : Relation.ReflTransGen (Follows past) root right) (liveLeft : Unrevoked state left)
    (liveRight : Unrevoked state right) : left = right := by
  have single : Relator.RightUnique (Follows past) := by
    rintro old first second ⟨event, inside, is⟩ ⟨other, inOther, isOther⟩
    have same := History.eq_of_once (once old) inside inOther (succession_succeeds is)
      (succession_succeeds isOther)
    rw [same, isOther] at is
    cases is
    rfl
  have stop : ∀ {source target : String}, Unrevoked state source →
      Relation.ReflTransGen (Follows past) source target → source = target := by
    intro source target live path
    rcases Relation.ReflTransGen.cases_head path with same | ⟨next, follows, _⟩
    · exact same
    · exact absurd live (revoked _ _ follows)
  rcases Relation.ReflTransGen.total_of_right_unique single toLeft toRight with path | path
  · exact stop liveLeft path
  · exact (stop liveRight path).symm

/-- A recovery is no rotation. -/
theorem Succeeded.recovery {request : Request} {result : Result} {now : Nat} {event : Event}
    {old id : String} (outcome : event.outcome = .committed request result)
    (recovery : isRecovery event = true)
    (succeeded : Succeeded app state request now next old id) :
    Narrowed next old id ∧ InTime app state now request old := by
  cases succeeded with
  | rotated asked _ =>
      simp [isRecovery, outcome, Request.operation, asked, Arguments.operation] at recovery
  | recovered _ _ narrowed inTime => exact ⟨narrowed, inTime⟩

variable {clock : Nat} {past : List Event}

theorem run_revoked (initial : Initial first) (run : Run app first state clock past) :
    ∀ old id, Follows past old id →
      ∃ row, state.credentials.find? old = some row ∧ row.revokedAt ≠ none := by
  rintro old id ⟨event, inside, is⟩
  have gone := run.trace.lasting (initial_sound initial) sound_kept
    (fun _ _ _ sound passes is => (succeeds_revokes sound passes is).1) (revoked_stays old)
    event inside (succession_succeeds is)
  obtain ⟨row, here, ended⟩ := gone
  exact ⟨row, ((tokenAt_some _).mp here).1, ended⟩

theorem run_succeeded (initial : Initial first) (run : Run app first state clock past)
    (old : String) : past.countP (succeeds old) ≤ 1 := by
  refine run.trace.once (initial_sound initial) sound_kept
    (fun _ _ _ sound passes is => (succeeds_revokes sound passes is).1) (revoked_stays old) ?_
  intro state event next sound passes gone
  by_contra is
  exact (succeeds_revokes sound passes (by simpa using is)).2 gone

theorem run_delivered (initial : Initial first) (run : Run app first state clock past)
    (id : String) : past.countP (carries id) ≤ 1 := by
  refine run.trace.once (initial_sound initial) sound_kept
    (fun _ _ _ sound passes is => (carries_claims sound passes is).1) (claimed_stays id) ?_
  intro state event next sound passes gone
  by_contra is
  exact (carries_claims sound passes (by simpa using is)).2 gone

theorem run_inTime (initial : Initial first) (run : Run app first state clock past) :
    ∀ event ∈ past, ∀ old, recovers old event = true → ∃ request result,
      event.outcome = .committed request result ∧
        InTime app event.before event.deed.now request old := by
  intro event inside old is
  obtain ⟨isSuccession, recovery⟩ := Bool.and_eq_true_iff.mp is
  obtain ⟨id, succession⟩ := succeeds_some isSuccession
  obtain ⟨before, after, sound, passes⟩ :=
    run.trace.through (initial_sound initial) sound_kept event inside
  obtain ⟨request, result, outcome, succeeded⟩ := passes_succeeded sound passes succession
  exact ⟨request, result, outcome, (succeeded.recovery outcome recovery).2⟩

theorem run_narrowed (initial : Initial first) (run : Run app first state clock past) :
    ∀ event ∈ past, ∀ old id, isRecovery event = true → succession event = some (old, id) →
      Narrowed state old id := by
  intro event inside old id recovery is
  have makes : ∀ (state : State × Nat) (event : Event) (next : State × Nat), Sound state →
      Passes app state event next → recoversTo old id event = true → Narrowed next.1 old id := by
    intro state event next sound passes made
    obtain ⟨isRecovery, isSuccession⟩ := Bool.and_eq_true_iff.mp made
    obtain ⟨_, _, outcome, succeeded⟩ := passes_succeeded sound passes (beq_iff_eq.mp isSuccession)
    exact (succeeded.recovery outcome isRecovery).1
  exact run.trace.lasting (initial_sound initial) sound_kept makes (narrowed_stays old id) event
    inside (by simp [recoversTo, recovery, is])

/-- Over every run, resends and lost responses among its events: a secret goes out once, a
recovery secret is good once and in time, and of the tokens of a chain one is live at most. -/
theorem delivery_one_time (initial : Initial first) (run : Run app first state clock past) :
    OneTime app state past where
  delivered := run_delivered initial run
  sealed := (run.trace.invariant (initial_sound initial) sound_kept).sealed
  recovered := by
    intro old
    refine Nat.le_trans (List.countP_mono_left fun event _ is => ?_)
      (run_succeeded initial run old)
    exact (Bool.and_eq_true_iff.mp is).1
  inTime := run_inTime initial run
  narrowed := run_narrowed initial run
  succeeded := run_succeeded initial run
  revoked := run_revoked initial run
  alone := by
    intro root left right toLeft toRight liveLeft liveRight
    refine chain_alone (run_succeeded initial run) ?_ toLeft toRight liveLeft liveRight
    rintro old id follows ⟨row, found, live⟩
    obtain ⟨other, foundOther, gone⟩ := run_revoked initial run old id follows
    rw [found] at foundOther
    cases foundOther
    exact gone live

def sampleGrant : CapabilityGrant :=
  ⟨"identity.basic", 1, ⟨"r_root", true⟩, ["identity.token_rotate@2"], []⟩

def sampleCreate : Request :=
  sampleRequest (.signature (sampleSignature "ann" "packet") []) "create" 3 3
    (.tokenCreate "nonce" (some [sampleGrant]) 100 "secret" none)

/-- Ann has two keys, and makes a token with the first. -/
def sampleCreated : List Deed :=
  [.packet sampleCreate Aside.idle 3,
    samplePacket "second" 1 2 (.keyAdd "two" (sampleSignature "two" "proof") []) Aside.idle,
    sampleRegister]

/-- The packet is sent again, its token is handed out, and then given up for another. -/
def sampleRecovered : List Deed :=
  [.packet (sampleRequest .none "recover" 1 6
      (.tokenRecover "t_1" "create" "secret" "fresh" "other")) Aside.idle 6,
    .respond sampleCreate "u_ann" 5, .packet sampleCreate Aside.idle 4] ++ sampleCreated

theorem delivery_one_time_sample :
    OneTime sampleInstallation (sampleTrace sampleRecovered).1 (sampleTrace sampleRecovered).2.2 ∧
      (sampleTrace sampleRecovered).2.2.countP (carries "t_1") = 1 ∧
      (sampleTrace sampleRecovered).2.2.countP (recovers "t_1") = 1 :=
  ⟨delivery_one_time sampleSystem_initial (sampleTrace_run sampleRecovered (by decide +kernel)), rfl, rfl⟩

end MsgServer.Succession
