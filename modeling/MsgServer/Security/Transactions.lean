import MsgServer.Library.History
import MsgServer.Security.Issuance
import MsgServer.Security.OAuthChanges
import MsgServer.Security.Machine

/-!
Every deed of a run is one `Transaction`: which of the entries it came through, and the
change that the operation, the release or the act of OAuth made. The rules of runs are
proved here, and so is that every reachable state is well formed.
-/

namespace MsgServer.Machine

open Library Session Accounts Bindings Requests TokenDelivery Identity Authentication Credentials
  Issuance

variable {app : Installation} {first state next : State}

/-- What the executor writes of a committed packet beside its operation: the use of a
delegated identity, and the result. -/
structure Booked (request : Request) (principal : Principal) (data : Data) (acted next : State)
    (result : Result) : Prop where
  answer : result =
    { subject := principal.subject.getD "", requestId := request.requestId
      digest := request.payloadDigest, actor := principal.actor
      operation := request.operation, data := data }
  written : ∃ identities results, acted.results.insert result = some results ∧
    next = { acted with delegatedIdentities := identities, results := results }

theorem handle_booked {request : Request} {now : Nat} {aside : Aside} {principal : Principal}
    {result : Result} (done : handle app state request now aside principal = .ok (next, result)) :
    ∃ data acted, Change app ⟨⟨principal, .network, now⟩, request, aside⟩ state acted data ∧
      Booked request principal data acted next result := by
  simp only [handle, saveResult, Program.except_bind_ok, insertRow_ok, Program.except_pure,
    Except.ok.injEq, Prod.mk.injEq] at done
  obtain ⟨⟨acted, data⟩, performed, counted, count, results, inserted, rfl, rfl⟩ := done
  have change := perform_change performed
  unfold countUse at count
  split at count
  · cases count
    exact ⟨data, acted, change, rfl, _, _, inserted, rfl⟩
  · simp only [Program.except_bind_ok, Program.except_pure, Except.ok.injEq] at count
    obtain ⟨_, _, rfl⟩ := count
    exact ⟨data, acted, change, rfl, _, _, inserted, rfl⟩

/-- The response hook: a request without a secret passes through, any other claims its
delivery and hands out the token. -/
inductive Released (app : Installation) (state : State) (request : Request) (result : Result)
    (now : Nat) : State → Data → Prop
  | plain (asked : request.arguments.delivering = none) :
      Released app state request result now state result.data
  | token {secrets : Delivering} {row : StoredCredential} {delivery : Delivery}
      (asked : request.arguments.delivering = some secrets)
      (named : result.data.credentialId = some row.id)
      (found : state.credentials.find? row.id = some row) (live : row.revokedAt = none)
      (kept : state.deliveries.find? row.id = some delivery)
      (mine : delivery.subject = result.subject ∧ delivery.requestId = request.requestId ∧
        delivery.requestDigest = request.payloadDigest)
      (unconsumed : delivery.consumedAt = none) (unclaimed : delivery.claimedAt = none) :
      Released app state request result now
        { state with deliveries := state.deliveries.modify row.id (claim now) }
        { result.data with
          token := some (app.issuedToken result.subject request.requestId secrets.nonce) }

theorem release_released {request : Request} {result : Result} {now : Nat} {data : Data}
    (done : release app state request result now = .ok (next, data)) :
    Released app state request result now next data := by
  unfold release at done
  split at done
  · rename_i asked
    cases done
    exact .plain asked
  · rename_i secrets asked
    simp only [storedCredential, Program.except_bind_ok, requireRow_ok, require_ok,
      Program.except_pure, Except.ok.injEq, Prod.mk.injEq] at done
    obtain ⟨_, _, _, _, id, named, row, found, _, _, _, ⟨live, _⟩, _, _, delivery, kept, _,
      ⟨subject, requestId, digest, unconsumed, unclaimed⟩, rfl, rfl⟩ := done
    have same : row.key = id := Table.find?_key found
    subst same
    exact .token asked named found live kept ⟨subject, requestId, digest⟩ unconsumed unclaimed

inductive Transaction (app : Installation) (state : State) : Deed → State → Outcome → Prop
  | committed {request : Request} {aside : Aside} {now : Nat} {principal : Principal} {data : Data}
      {acted next : State} {result : Result}
      (authentic : authenticate app state request now = .ok principal)
      (unanswered : requestResult state (principal.subject.getD "") request.requestId
        request.payloadDigest = .ok none)
      (change : Change app ⟨⟨principal, .network, now⟩, request, aside⟩ state acted data)
      (booked : Booked request principal data acted next result) :
      Transaction app state (.packet request aside now) next (.committed request result)
  | replayed {request : Request} {aside : Aside} {now : Nat} {principal : Principal}
      {result : Result} (authentic : authenticate app state request now = .ok principal)
      (answered : requestResult state (principal.subject.getD "") request.requestId
        request.payloadDigest = .ok (some result)) :
      Transaction app state (.packet request aside now) state (.replayed result)
  | handled {step : Step} {next : State} {data : Data}
      (plain : step.request.arguments.delivering = none)
      (change : Change app step state next data) :
      Transaction app state (.inner step) next (.handled data)
  | responded {request : Request} {subject : String} {now : Nat} {result : Result} {data : Data}
      {next : State} (stored : state.results.find? (subject, request.requestId) = some result)
      (same : result.digest = request.payloadDigest)
      (released : Released app state request result now next data) :
      Transaction app state (.respond request subject now) next (.responded data)
  | oauth {act : OAuth.Act} {now : Nat} {next : State} {answer : OAuth.Answer}
      (change : OAuth.Change app now state act next answer) :
      Transaction app state (.oauth act now) next (.answered answer)
  | elsewhere {aside : Aside} {now : Nat} {store : Store}
      (acted : aside.act state.store = .ok store) :
      Transaction app state (.elsewhere aside now) { state with store := store } .nothing

theorem requestResult_some {subject requestId digest : String} {result : Result}
    (done : requestResult state subject requestId digest = .ok (some result)) :
    state.results.find? (subject, requestId) = some result ∧ result.digest = digest := by
  unfold requestResult at done
  split at done
  · cases done
  · rename_i found
    simp only [Program.except_bind_ok, require_ok, Program.except_pure, Except.ok.injEq,
      Option.some.injEq] at done
    obtain ⟨_, same, rfl⟩ := done
    exact ⟨found, same⟩

/-- A packet is answered from what is stored, or its operation runs. -/
inductive Executed (app : Installation) (state : State) (request : Request) (now : Nat)
    (aside : Aside) : State → Answer → Prop
  | replayed {principal : Principal} {result : Result}
      (authentic : authenticate app state request now = .ok principal)
      (answered : requestResult state (principal.subject.getD "") request.requestId
        request.payloadDigest = .ok (some result)) :
      Executed app state request now aside state ⟨result, true⟩
  | committed {principal : Principal} {data : Data} {acted next : State} {result : Result}
      (authentic : authenticate app state request now = .ok principal)
      (unanswered : requestResult state (principal.subject.getD "") request.requestId
        request.payloadDigest = .ok none)
      (change : Change app ⟨⟨principal, .network, now⟩, request, aside⟩ state acted data)
      (booked : Booked request principal data acted next result) :
      Executed app state request now aside next ⟨result, false⟩

theorem execute_executed {request : Request} {now : Nat} {aside : Aside} {answer : Answer}
    (done : execute app state request now aside = .ok (next, answer)) :
    Executed app state request now aside next answer := by
  simp only [execute, Program.except_bind_ok] at done
  obtain ⟨_, _, principal, authentic, previous, looked, later⟩ := done
  cases previous with
  | some result =>
      cases later
      exact .replayed authentic looked
  | none =>
      simp only [Program.except_bind_ok, Program.except_pure, Except.ok.injEq,
        Prod.mk.injEq] at later
      obtain ⟨⟨after, result⟩, handled, rfl, rfl⟩ := later
      obtain ⟨data, acted, change, booked⟩ := handle_booked handled
      exact .committed authentic looked change booked

theorem packet_transaction {request : Request} {aside : Aside} {now : Nat} {outcome : Outcome}
    (done : packet app state request aside now = .ok (next, outcome)) :
    Transaction app state (.packet request aside now) next outcome := by
  simp only [packet, Program.except_bind_ok, require_ok, Program.except_pure,
    Except.ok.injEq, Prod.mk.injEq] at done
  obtain ⟨_, _, ⟨after, answer⟩, executed, rfl, rfl⟩ := done
  cases execute_executed executed with
  | replayed authentic answered => exact .replayed authentic answered
  | committed authentic unanswered change booked =>
      exact .committed authentic unanswered change booked

theorem perform_transaction {deed : Deed} {outcome : Outcome}
    (done : perform app state deed = .ok (next, outcome)) :
    Transaction app state deed next outcome := by
  cases deed with
  | packet request aside now => exact packet_transaction done
  | inner step =>
      simp only [perform, inner, Program.except_bind_ok, require_ok, Program.except_pure,
        Except.ok.injEq, Prod.mk.injEq] at done
      obtain ⟨_, plain, ⟨after, data⟩, performed, rfl, rfl⟩ := done
      exact .handled plain (perform_change performed)
  | respond request subject now =>
      simp only [perform, hook, respond, Program.except_bind_ok, requireRow_ok,
        Program.except_pure, Except.ok.injEq, Prod.mk.injEq] at done
      obtain ⟨previous, looked, result, rfl, ⟨after, data⟩, released, rfl, rfl⟩ := done
      obtain ⟨stored, same⟩ := requestResult_some looked
      exact .responded stored same (release_released released)
  | oauth act now =>
      simp only [perform, Program.except_bind_ok, Program.except_pure, Except.ok.injEq,
        Prod.mk.injEq] at done
      obtain ⟨⟨after, answer⟩, acted, rfl, rfl⟩ := done
      exact .oauth (OAuth.perform_change acted)
  | elsewhere aside now =>
      simp only [perform, Program.except_bind_ok, Program.except_pure, Except.ok.injEq,
        Prod.mk.injEq] at done
      obtain ⟨store, acted, rfl, rfl⟩ := done
      exact .elsewhere acted

/-- One event of a run, from a state and a clock to the next. -/
structure Passes (app : Installation) (state : State × Nat) (event : Event) (next : State × Nat) :
    Prop where
  before : event.before = state.1
  later : state.2 ≤ event.deed.now
  clock : next.2 = event.deed.now
  fresh : freshDraws state.1 event.deed
  transaction : Transaction app state.1 event.deed next.1 event.outcome

theorem Run.trace {clock : Nat} {past : List Event} (run : Run app first state clock past) :
    History.Trace (Passes app) (first, 0) (state, clock) past := by
  induction run with
  | start => exact .start
  | deed _ later fresh done ih => exact .step ih ⟨rfl, later, rfl, fresh, perform_transaction done⟩

end MsgServer.Machine
