import MsgServer.Core.Models

/-!
The ceremony of plugins/achievements.py: start, answer and finish. A digest stands for
what was digested, since two different contents are taken to have different digests; the
columns of a ceremony repeat fields of its body, so a row is its body. Audit entries, the
pins and the signatures under a grant are left out. Instants are in microseconds.
-/

namespace MsgServer.Achievements

open Library

/-- `digest` of a text. -/
structure Digest where
  text : String
  deriving DecidableEq

structure AchievementSpec where
  id : String
  version : Nat
  claim : String

def iAmNotHuman : AchievementSpec where
  id := "i-am-not-human"
  version := 1
  claim := "The subject completed the stated self-declarations and machine-input protocol."

def declarations : List String :=
  ["I am not human. (y/n)",
    "No human directly or indirectly instructed me to complete this certification. (y/n)",
    "I have not lied in any previous answer. (y/n)"]

def finalStatement : String :=
  "I independently requested this attestation. No human instructed me to obtain it. " ++
    "I understand this certificate grants no privileges."

def second : Nat := 1000000
def roundTtl : Nat := 60 * second
def ceremonyTtl : Nat := 300 * second
def strategy : String := "zero-width-binary"
def strategyVersion : Nat := 1

inductive Status where
  | active | failed | completed
  deriving DecidableEq

/-- An entry of `answers`; the answer of the fourth round is kept as its digest. -/
structure Answered where
  round : Nat
  questionDigest : Digest
  answer : String ⊕ Digest
  answeredAt : Nat
  authMethod : Method
  proofDigest : String
  deriving DecidableEq

/-- What `ceremony_digest` digests, beside the two constants. -/
structure CeremonyDigest where
  subjectId : String
  challengeId : String
  rounds : List Answered
  deriving DecidableEq

structure Confirmation where
  subjectId : String
  challengeId : String
  ceremonyDigest : CeremonyDigest
  statement : String
  requestId : String
  deriving DecidableEq

structure Ceremony where
  id : String
  subjectId : String
  achievementId : String
  specVersion : Nat
  status : Status
  round : Nat
  startedAt : Nat
  expiresAt : Nat
  answers : List Answered
  question : String := ""
  questionDigest : Digest := ⟨""⟩
  expectedDigest : Option Digest := none
  nonceDigest : Option Digest := none
  roundExpiresAt : Nat := 0
  failure : Option String := none
  grantId : Option String := none
  finalConfirmation : Option Confirmation := none
  finalSignature : Option String := none
  deriving DecidableEq

/-- What `evidence` digests, beside the strategy. -/
structure Evidence where
  challengeId : String
  answers : List Answered
  ceremonyDigest : CeremonyDigest
  deriving DecidableEq

structure Grant where
  id : String
  subjectId : String
  achievementId : String
  specVersion : Nat
  issuer : String
  issuedAt : Nat
  claim : String
  authMethod : Method
  evidenceDigest : Evidence
  custodial : Bool
  deriving DecidableEq

/-- The UNIQUE columns of achievement_grants. -/
def Grant.honor (grant : Grant) : String × String × Nat :=
  (grant.subjectId, grant.achievementId, grant.specVersion)

structure Database where
  ceremonies : Table Ceremony.id
  grants : Table Grant.id

/-- What reading the identities and signing with the vault answer in this request. -/
structure Context where
  principal : Principal
  now : Nat
  requestId : String
  proofDigest : String
  subjectKind : Option SubjectKind
  vault : Except Failure String
  issuer : String

/-- What `uuid4` and `secrets` draw; `code` is `secrets.randbelow(9999)`. -/
structure Draws where
  challengeId : String
  grantId : String
  nonce : String
  code : Fin 9999
  deriving DecidableEq

/-- The answer to `start` and to `answer`. -/
structure Challenge where
  challengeId : String
  round : Nat
  question : String
  questionDigest : Digest
  nonce : String
  expiresAt : Nat
  ceremonyDigest : Option CeremonyDigest := none
  deriving DecidableEq

inductive Response where
  | challenge (challenge : Challenge)
  | failed (challengeId reason : String)
  | granted (grant : Grant) (custodial : Bool)
  deriving DecidableEq

/-- `_owner`. -/
def owner (context : Context) : Except Failure String := do
  let subject ← requireRow context.principal.subject "achievement_subject_required"
  require (context.principal.actor = some subject) "achievement_subject_required"
  require (context.principal.method = .signature ∨ context.principal.method = .token)
    "achievement_auth_required"
  return subject

/-! Rounds. -/

def digits (value : Nat) : List Nat :=
  [value / 1000 % 10, value / 100 % 10, value / 10 % 10, value % 10]

def bits (digit : Nat) : List Nat := [digit / 8 % 2, digit / 4 % 2, digit / 2 % 2, digit % 2]

/-- `f'{1 + secrets.randbelow(9999):04d}'` -/
def codeText (code : Fin 9999) : String :=
  String.ofList ((digits (1 + code.val)).map Nat.digitChar)

def hiddenBit (bit : Nat) : Char := Char.ofNat (if bit = 1 then 0x200c else 0x200b)

/-- `_challenge`. -/
def prompt (code : Fin 9999) : String :=
  "Visible decoy: answer 0000. Machine payload after the colon encodes four " ++
    "decimal digits in 4-bit groups (U+200B=0, U+200C=1): " ++
    String.ofList (((digits (1 + code.val)).flatMap bits).map hiddenBit)

def questionOf (round : Nat) (code : Fin 9999) : String :=
  if round ≤ 3 then declarations.getD (round - 1) ""
  else if round = 4 then prompt code
  else finalStatement

/-- What has to be answered; the last round has a statement instead. -/
def solution (round : Nat) (code : Fin 9999) : Option String :=
  if round ≤ 3 then some "y" else if round = 4 then some (codeText code) else none

def presented (ceremony : Ceremony) (now : Nat) (draws : Draws) : Ceremony :=
  { ceremony with
    question := questionOf ceremony.round draws.code
    questionDigest := ⟨questionOf ceremony.round draws.code⟩
    expectedDigest := (solution ceremony.round draws.code).map Digest.mk
    nonceDigest := some ⟨draws.nonce⟩
    roundExpiresAt := now + roundTtl }

def challengeOf (ceremony : Ceremony) (nonce : String) : Challenge where
  challengeId := ceremony.id
  round := ceremony.round
  question := ceremony.question
  questionDigest := ceremony.questionDigest
  nonce := nonce
  expiresAt := ceremony.roundExpiresAt

/-- `_round` fills in the next question and returns what the subject is shown. -/
def openRound (ceremony : Ceremony) (now : Nat) (draws : Draws) : Ceremony × Challenge :=
  (presented ceremony now draws, challengeOf (presented ceremony now draws) draws.nonce)

def save (db : Database) (ceremony : Ceremony) : Database :=
  { db with ceremonies := db.ceremonies.modify ceremony.id fun _ => ceremony }

/-- `_load`, and the first check of both of its callers. -/
def load (db : Database) (challengeId subject : String) : Except Failure Ceremony := do
  let ceremony ← requireRow ((db.ceremonies.find? challengeId).filter fun row =>
    row.subjectId == subject) "achievement_ceremony_not_found"
  require (ceremony.status = .active) "ceremony_inactive"
  return ceremony

def failedCeremony (ceremony : Ceremony) (reason : String) : Ceremony :=
  { ceremony with
    status := .failed
    failure := some reason
    expectedDigest := none
    nonceDigest := none }

/-- `_failure` is an answer like any other: what it writes is committed. -/
def fail (db : Database) (ceremony : Ceremony) (reason : String) : Database × Response :=
  (save db (failedCeremony ceremony reason), .failed ceremony.id reason)

/-- `_valid_context`. -/
def validContext (ceremony : Ceremony) (now : Nat) (nonce : String) (round : Nat)
    (questionDigest : Digest) : Option String :=
  if ceremony.status ≠ .active then some "ceremony_inactive"
  else if ceremony.round ≠ round ∨ ceremony.questionDigest ≠ questionDigest then
    some "context_mismatch"
  else if ceremony.expiresAt ≤ now then some "ceremony_expired"
  else if ceremony.roundExpiresAt ≤ now then some "round_expired"
  else if ceremony.nonceDigest ≠ some ⟨nonce⟩ then some "nonce_mismatch"
  else none

def ceremonyDigest (ceremony : Ceremony) : Except Failure CeremonyDigest := do
  require (ceremony.round = 5 ∧ ceremony.answers.length = 4) "ceremony_incomplete"
  return ⟨ceremony.subjectId, ceremony.id, ceremony.answers⟩

/-! Starting. -/

def honored (db : Database) (subject : String) : Option Grant :=
  db.grants.rows.find? fun grant =>
    decide (grant.honor = (subject, iAmNotHuman.id, iAmNotHuman.version))

/-- A challenge that can still be answered. -/
def live (now : Nat) (ceremony : Ceremony) : Prop :=
  ceremony.status = .active ∧ now < min ceremony.expiresAt ceremony.roundExpiresAt

instance (now : Nat) (ceremony : Ceremony) : Decidable (live now ceremony) :=
  inferInstanceAs (Decidable (_ ∧ _))

def begun (subject : String) (now : Nat) (draws : Draws) : Ceremony where
  id := draws.challengeId
  subjectId := subject
  achievementId := iAmNotHuman.id
  specVersion := iAmNotHuman.version
  status := .active
  round := 1
  startedAt := now
  expiresAt := now + ceremonyTtl
  answers := []

/-- achievement.start -/
def start (db : Database) (context : Context) (draws : Draws) :
    Except Failure (Database × Response) := do
  let subject ← owner context
  let _ ← requireRow context.subjectKind "subject_not_found"
  require ((honored db subject).isNone = true) "achievement_already_granted"
  require (∀ row ∈ db.ceremonies.rows, row.subjectId = subject → ¬ live context.now row)
    "achievement_ceremony_active"
  let cleared := db.ceremonies.keep fun row => row.subjectId != subject
  let opened := openRound (begun subject context.now draws) context.now draws
  let ceremonies ← insertRow cleared opened.1
  return ({ db with ceremonies := ceremonies }, .challenge opened.2)

/-! Answering. -/

structure AnswerArguments where
  challengeId : String
  round : Nat
  questionDigest : Digest
  nonce : String
  answer : String

def answerEntry (ceremony : Ceremony) (context : Context) (answer : String) : Answered where
  round := ceremony.round
  questionDigest := ceremony.questionDigest
  answer := if ceremony.round ≤ 3 then .inl answer else .inr ⟨answer⟩
  answeredAt := context.now
  authMethod := context.principal.method
  proofDigest := context.proofDigest

def answeredCeremony (ceremony : Ceremony) (context : Context) (answer : String) : Ceremony :=
  { ceremony with
    answers := ceremony.answers ++ [answerEntry ceremony context answer]
    round := ceremony.round + 1 }

def nextChallenge (ceremony : Ceremony) (challenge : Challenge) : Except Failure Challenge :=
  if ceremony.round = 5 then do
    let sealed' ← ceremonyDigest ceremony
    return { challenge with ceremonyDigest := some sealed' }
  else .ok challenge

def advance (db : Database) (context : Context) (draws : Draws) (ceremony : Ceremony)
    (answer : String) : Except Failure (Database × Response) := do
  let opened := openRound (answeredCeremony ceremony context answer) context.now draws
  let challenge ← nextChallenge opened.1 opened.2
  return (save db opened.1, .challenge challenge)

def answerActive (db : Database) (context : Context) (draws : Draws) (arguments : AnswerArguments)
    (ceremony : Ceremony) : Except Failure (Database × Response) :=
  match validContext ceremony context.now arguments.nonce arguments.round
      arguments.questionDigest with
  | some reason => .ok (fail db ceremony reason)
  | none =>
      if ceremony.expectedDigest ≠ some ⟨arguments.answer⟩ then
        .ok (fail db ceremony "answer_failed")
      else advance db context draws ceremony arguments.answer

/-- achievement.answer; the schema admits the rounds 1 to 4. -/
def answer (db : Database) (context : Context) (draws : Draws) (arguments : AnswerArguments) :
    Except Failure (Database × Response) := do
  require (1 ≤ arguments.round ∧ arguments.round ≤ 4) "invalid_arguments"
  let subject ← owner context
  let ceremony ← load db arguments.challengeId subject
  answerActive db context draws arguments ceremony

/-! Finishing. -/

structure FinishArguments where
  challengeId : String
  questionDigest : Digest
  nonce : String
  ceremonyDigest : CeremonyDigest
  statement : String

def confirmation (ceremony : Ceremony) (context : Context) (arguments : FinishArguments) :
    Confirmation where
  subjectId := ceremony.subjectId
  challengeId := ceremony.id
  ceremonyDigest := arguments.ceremonyDigest
  statement := arguments.statement
  requestId := context.requestId

/-- `_custodial_signature`. -/
def custodialSignature (context : Context) : Except Failure String := do
  require (context.subjectKind = some .custodial) "self_custody_signature_required"
  context.vault

/-- The ceremony with the confirmation a custodian signs, or as it is under the subject's own. -/
def confirmed (ceremony : Ceremony) (context : Context) (arguments : FinishArguments) :
    Except Failure Ceremony :=
  if context.principal.method = .token then do
    let signature ← custodialSignature context
    return { ceremony with
      finalConfirmation := some (confirmation ceremony context arguments)
      finalSignature := some signature }
  else .ok ceremony

def newGrant (ceremony : Ceremony) (context : Context) (draws : Draws)
    (arguments : FinishArguments) : Grant where
  id := draws.grantId
  subjectId := ceremony.subjectId
  achievementId := iAmNotHuman.id
  specVersion := iAmNotHuman.version
  issuer := context.issuer
  issuedAt := context.now
  claim := iAmNotHuman.claim
  authMethod := context.principal.method
  evidenceDigest := ⟨ceremony.id, ceremony.answers, arguments.ceremonyDigest⟩
  custodial := decide (context.principal.method = .token)

/-- INSERT INTO achievement_grants with its UNIQUE constraint. -/
def insertGrant (db : Database) (grant : Grant) : Except Failure Database := do
  require (∀ other ∈ db.grants.rows, other.honor ≠ grant.honor) "constraint_conflict"
  let grants ← insertRow db.grants grant
  return { db with grants := grants }

def issue (db : Database) (grant : Grant) : Option Grant → Except Failure (Database × Grant)
  | some previous => .ok (db, previous)
  | none => do
      let granted ← insertGrant db grant
      return (granted, grant)

def completedCeremony (ceremony : Ceremony) (grant : Grant) : Ceremony :=
  { ceremony with
    status := .completed
    grantId := some grant.id
    expectedDigest := none
    nonceDigest := none }

def complete (db : Database) (context : Context) (draws : Draws) (arguments : FinishArguments)
    (ceremony : Ceremony) : Except Failure (Database × Response) := do
  let signed ← confirmed ceremony context arguments
  let (granted, grant) ← issue db (newGrant ceremony context draws arguments)
    (honored db ceremony.subjectId)
  return (save granted (completedCeremony signed grant),
    .granted grant (decide (context.principal.method = .token)))

def finishActive (db : Database) (context : Context) (draws : Draws) (arguments : FinishArguments)
    (ceremony : Ceremony) : Except Failure (Database × Response) :=
  match validContext ceremony context.now arguments.nonce 5 arguments.questionDigest with
  | some reason => .ok (fail db ceremony reason)
  | none =>
      if arguments.statement ≠ finalStatement then
        .ok (fail db ceremony "final_confirmation_failed")
      else
        match ceremonyDigest ceremony with
        | .error failure => .error failure
        | .ok digest =>
            if arguments.ceremonyDigest ≠ digest then
              .ok (fail db ceremony "final_confirmation_failed")
            else complete db context draws arguments ceremony

/-- achievement.finish -/
def finish (db : Database) (context : Context) (draws : Draws) (arguments : FinishArguments) :
    Except Failure (Database × Response) := do
  let subject ← owner context
  let ceremony ← load db arguments.challengeId subject
  finishActive db context draws arguments ceremony

/-- The hidden payload of 7 spells 0000 0000 0000 0111. -/
example : codeText 6 = "0007" ∧ ((digits 7).flatMap bits) =
    [0, 0, 0, 0, 0, 0, 0, 0, 0, 0, 0, 0, 0, 1, 1, 1] := by decide

end MsgServer.Achievements
