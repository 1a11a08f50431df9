import MsgServer.Security.Authentication
import MsgServer.Security.OAuth

/-!
Runs of the account operations. A deed is one committed transaction: a packet, a handler
that a batch runs with the principal of its own packet, a response hook, an act of OAuth,
or an operation elsewhere, which leaves the account tables and the subjects alone. A deed
that fails is rolled back and is not part of a run.
-/

namespace MsgServer.Machine

open Library Session Accounts Requests Identity Authentication

inductive Deed where
  | packet (request : Request) (aside : Aside) (now : Nat)
  | inner (step : Step)
  | respond (request : Request) (subject : String) (now : Nat)
  | oauth (act : OAuth.Act) (now : Nat)
  | elsewhere (aside : Aside) (now : Nat)

def Deed.now : Deed → Nat
  | .packet _ _ now => now
  | .inner step => step.now
  | .respond _ _ now => now
  | .oauth _ now => now
  | .elsewhere _ now => now

inductive Outcome where
  | committed (request : Request) (result : Result)
  | replayed (result : Result)
  | handled (data : Data)
  | responded (data : Data)
  | answered (answer : OAuth.Answer)
  | nothing
  deriving DecidableEq

variable (app : Installation)

/-- A read leaves no result and changes nothing: it is authenticated, but it is no deed. -/
def packet (state : State) (request : Request) (aside : Aside) (now : Nat) :
    Except Failure (State × Outcome) := do
  require (request.arguments.reads = false) "internal_error"
  let done ← execute app state request now aside
  return (done.1, if done.2.replayed then .replayed done.2.result
    else .committed request done.2.result)

/-- A batch takes no operation that delivers a secret. -/
def inner (state : State) (step : Step) : Except Failure (State × Outcome) := do
  require (step.request.arguments.delivering = none) "batch_operation_not_supported"
  let done ← Identity.perform app state step
  return (done.1, .handled done.2)

def hook (state : State) (request : Request) (subject : String) (now : Nat) :
    Except Failure (State × Outcome) := do
  let previous ← requestResult state subject request.requestId request.payloadDigest
  let result ← requireRow previous "not_found"
  let done ← respond app state request now result
  return (done.1, .responded done.2)

def perform (state : State) : Deed → Except Failure (State × Outcome)
  | .packet request aside now => packet app state request aside now
  | .inner step => inner app state step
  | .respond request subject now => hook app state request subject now
  | .oauth act now => do
      let done ← OAuth.perform app state now act
      return (done.1, .answered done.2)
  | .elsewhere aside _ => do
      let store ← aside.act state.store
      return ({ state with store := store }, .nothing)

structure Event where
  before : State
  deed : Deed
  outcome : Outcome

/-- The id of the token that a deed may draw. -/
def drawnToken : Deed → Option String
  | .oauth (.exchange _ _ draws) _ => some ("t_oauth_" ++ draws.credential)
  | .oauth (.login _ draws) _ => some ("t_browser_" ++ draws.credential)
  | _ => none

/-- The ids of tokens that an act of OAuth draws are new. -/
def freshDraws (state : State) (deed : Deed) : Prop :=
  ∀ id, drawnToken deed = some id → state.credentials.find? id = none

instance (state : State) (deed : Deed) : Decidable (freshDraws state deed) :=
  match drawn : drawnToken deed with
  | none => .isTrue fun id named => by
      rw [drawn] at named
      cases named
  | some id => decidable_of_iff (state.credentials.find? id = none) (by
      simp [freshDraws, drawn])

/-- A run from a first state, its events newest first, on a clock that does not go back. -/
inductive Run (first : State) : State → Nat → List Event → Prop
  | start : Run first first 0 []
  | deed {state next : State} {clock : Nat} {past : List Event} {deed : Deed} {outcome : Outcome}
      (before : Run first state clock past) (later : clock ≤ deed.now)
      (fresh : freshDraws state deed) (done : perform app state deed = .ok (next, outcome)) :
      Run first next deed.now (⟨state, deed, outcome⟩ :: past)

/-- The run of a list of deeds, the last one first, where every one of them is accepted. -/
def trace (first : State) : List Deed → Option (State × Nat × List Event)
  | [] => some (first, 0, [])
  | deed :: before =>
      match trace first before with
      | none => none
      | some (state, clock, past) =>
          if clock ≤ deed.now ∧ freshDraws state deed then
            match perform app state deed with
            | .error _ => none
            | .ok (next, outcome) => some (next, deed.now, ⟨state, deed, outcome⟩ :: past)
          else none

variable {app} in
theorem trace_run {first state : State} {deeds : List Deed} {clock : Nat} {past : List Event}
    (traced : trace app first deeds = some (state, clock, past)) : Run app first state clock past := by
  induction deeds generalizing state clock past with
  | nil =>
      cases traced
      exact .start
  | cons deed before ih =>
      unfold trace at traced
      split at traced
      · cases traced
      · rename_i last earlier events found
        split at traced
        · rename_i good
          split at traced
          · cases traced
          · rename_i next outcome done
            cases traced
            exact .deed (ih found) good.1 good.2 done
        · cases traced

/-- An installation before its first account: keys of the system's own subjects only. -/
structure Initial (state : State) : Prop where
  keys : ∀ row ∈ state.credentials.rows, row.kind ≠ .token ∧ Bindings.idPrefix "k_" row.id = true
  owners : ∀ row ∈ state.credentials.rows,
    ∃ owner, state.store.subjects.find? row.subjectId = some owner
  subjects : ∀ row ∈ state.store.subjects.rows, row.kind = .system
  identityKeys : state.identityKeys = Table.empty
  encryptionSubkeys : state.encryptionSubkeys = Table.empty
  deliveries : state.deliveries = Table.empty
  results : state.results = Table.empty
  requests : state.requests = Table.empty
  vaults : state.vaults = Table.empty
  oauth : state.oauth = OAuthStates.empty

def sampleOperations : List String :=
  accountOperations.flatMap fun name => [name ++ "@1", name ++ "@2", name ++ "@3"]

def sampleCeiling : List CapabilityGrant :=
  [⟨"identity.basic", 1, ⟨"r_root", true⟩, sampleOperations, []⟩]

/-- An installation small enough to run: a hash is its own text, and one request is told from
all others. -/
def sampleInstallation : Installation where
  toApp := { sampleApp with
    baseFamilies := ["identity.basic"]
    capability := fun _ _ => some ⟨["root", "user"], sampleOperations, false, none⟩ }
  operations := []
  second := 1
  byteLength := fun _ => 32
  sha256 := id
  issuedToken := fun subject request _ => subject ++ request
  browserSecret := id
  requestTag := fun request _ => if request = "create" then "1" else "2"
  requestTagHex := by
    intro request _
    split
    · decide
    · decide
  publicTag := id
  nonceTag := id
  encryptionTag := id
  recipientKey := .ok
  recoveryHash := id
  canonical := fun _ => "proof"
  primaryCeiling := sampleCeiling
  temporaryCeiling := sampleCeiling
  temporaryTtl := 100
  recoveryWindow := 50
  oauth := none

def sampleResource (id type : String) (parent : Option String) : Resource :=
  ⟨id, type, 1, id, parent, id, "g_public", 0o755, 0, none, .active⟩

def sampleSystem : State where
  store := { Store.empty with resources := ⟨[sampleResource "r_root" "root" none], by decide⟩ }
  credentials := Table.empty
  identityKeys := Table.empty
  encryptionSubkeys := Table.empty
  deliveries := Table.empty
  results := Table.empty
  requests := Table.empty
  vaults := Table.empty
  delegatedIdentities := []
  oauth := OAuthStates.empty

theorem sampleSystem_initial : Initial sampleSystem where
  keys := by simp [sampleSystem, Table.empty]
  owners := by simp [sampleSystem, Table.empty]
  subjects := by simp [sampleSystem, Store.empty, Table.empty]
  identityKeys := rfl
  encryptionSubkeys := rfl
  deliveries := rfl
  results := rfl
  requests := rfl
  vaults := rfl
  oauth := rfl

/-- The home of a new user. -/
def sampleHome (user : String) : Aside where
  act := fun store => do
    let resources ← insertRow store.resources (sampleResource user "user" (some "r_root"))
    return { store with resources := resources }
  keeps := by
    intro store next done
    simp only [Program.except_bind_ok, Program.except_pure, Except.ok.injEq] at done
    obtain ⟨_, _, rfl⟩ := done
    rfl

def sampleSignature (key text : String) : Signature := ⟨"k_" ++ key, "ed25519", text⟩

def sampleRequest (proof : Proof) (requestId : String) (version now : Nat) (arguments : Arguments) :
    Request where
  requestId := requestId
  subject := some "u_ann"
  contractVersion := version
  arguments := arguments
  expiresAt := some (now + 60)
  payloadDigest := requestId
  signingBytes := "packet"
  proof := proof

/-- A packet of Ann, signed with her first key. -/
def samplePacket (requestId : String) (version now : Nat) (arguments : Arguments) (aside : Aside) :
    Deed :=
  .packet (sampleRequest (.signature (sampleSignature "ann" "packet") []) requestId version now
    arguments) aside now

def sampleRegister : Deed :=
  samplePacket "join" 2 1 (.register "ann" "age") (sampleHome "u_ann")

def sampleTrace (deeds : List Deed) : State × Nat × List Event :=
  (trace sampleInstallation sampleSystem deeds).getD (sampleSystem, 0, [])

theorem sampleTrace_run (deeds : List Deed)
    (accepted : (trace sampleInstallation sampleSystem deeds).isSome = true) :
    Run sampleInstallation sampleSystem (sampleTrace deeds).1 (sampleTrace deeds).2.1
      (sampleTrace deeds).2.2 := by
  obtain ⟨traced, found⟩ := Option.isSome_iff_exists.mp accepted
  unfold sampleTrace
  rw [found]
  exact trace_run found

end MsgServer.Machine
