import MsgServer.Library.Run
import MsgServer.Plugins.Achievements

/-!
Runs of the ceremony. The trace of a run lists the questions the server has put, with
what only it knew of them, and the replies it has accepted. `Ladder` is a ceremony as the
trace shows it: question, reply, question and so on, each reply to the question before it.
-/

namespace MsgServer.Achievements

open Library

inductive Act where
  | start
  | answer (arguments : AnswerArguments)
  | finish (arguments : FinishArguments)

structure Request where
  context : Context
  draws : Draws
  act : Act

def perform (request : Request) (db : Database) : Except Failure (Database × Response) :=
  match request.act with
  | .start => start db request.context request.draws
  | .answer arguments => answer db request.context request.draws arguments
  | .finish arguments => finish db request.context request.draws arguments

/-- A question with its right reply and the instant it was put. -/
structure Issue where
  challengeId : String
  subject : String
  round : Nat
  questionDigest : Digest
  nonce : String
  solution : String
  time : Nat
  deriving DecidableEq

/-- An accepted answer, or in round 5 the statement of an accepted confirmation. -/
structure Reply where
  challengeId : String
  subject : String
  round : Nat
  nonce : String
  text : String
  time : Nat
  deriving DecidableEq

inductive Fact where
  | issued (issue : Issue)
  | replied (reply : Reply)
  deriving DecidableEq

def issueOf (request : Request) (subject : String) (challenge : Challenge) : Issue where
  challengeId := challenge.challengeId
  subject := subject
  round := challenge.round
  questionDigest := challenge.questionDigest
  nonce := challenge.nonce
  solution := (solution challenge.round request.draws.code).getD finalStatement
  time := request.context.now

def answerReply (request : Request) (subject : String) (arguments : AnswerArguments) : Reply :=
  ⟨arguments.challengeId, subject, arguments.round, arguments.nonce, arguments.answer,
    request.context.now⟩

def finishReply (request : Request) (subject : String) (arguments : FinishArguments) : Reply :=
  ⟨arguments.challengeId, subject, 5, arguments.nonce, arguments.statement, request.context.now⟩

/-- What an answered request adds to the trace; a failed ceremony adds nothing. -/
def factsOf (request : Request) (subject : String) (response : Response) : List Fact :=
  match request.act, response with
  | .start, .challenge challenge => [.issued (issueOf request subject challenge)]
  | .answer arguments, .challenge challenge =>
      [.replied (answerReply request subject arguments),
        .issued (issueOf request subject challenge)]
  | .finish arguments, .granted _ _ => [.replied (finishReply request subject arguments)]
  | _, _ => []

structure State where
  db : Database
  trace : List Fact

def State.empty : State := ⟨⟨Table.empty, Table.empty⟩, []⟩

def Fact.issue? : Fact → Option Issue
  | .issued issue => some issue
  | .replied _ => none

def Fact.reply? : Fact → Option Reply
  | .issued _ => none
  | .replied reply => some reply

def issues (trace : List Fact) : List Issue := trace.filterMap Fact.issue?

def replies (trace : List Fact) : List Reply := trace.filterMap Fact.reply?

/-- The nonces of the accepted replies. -/
def accepted (trace : List Fact) : List String := (replies trace).map Reply.nonce

/-- `uuid4` and `secrets` draw nothing twice. -/
def Fresh (state : State) (draws : Draws) : Prop :=
  ∀ issue ∈ issues state.trace, issue.challengeId ≠ draws.challengeId ∧ issue.nonce ≠ draws.nonce

instance (state : State) (draws : Draws) : Decidable (Fresh state draws) :=
  inferInstanceAs (Decidable (∀ _ ∈ _, _))

/-- One request; a refused one leaves everything as it was. -/
def step (request : Request) (state : State) : State :=
  if Fresh state request.draws then
    match perform request state.db with
    | .error _ => state
    | .ok (db, response) =>
        ⟨db, state.trace ++
          factsOf request (request.context.principal.subject.getD "") response⟩
  else state

/-! What a request can do. -/

theorem validContext_none {ceremony : Ceremony} {now round : Nat} {nonce : String}
    {questionDigest : Digest}
    (valid : validContext ceremony now nonce round questionDigest = none) :
    ceremony.round = round ∧ ceremony.questionDigest = questionDigest ∧
      now < ceremony.expiresAt ∧ now < ceremony.roundExpiresAt ∧
      ceremony.nonceDigest = some ⟨nonce⟩ := by
  unfold validContext at valid
  split at valid
  · cases valid
  split at valid
  · cases valid
  split at valid
  · cases valid
  split at valid
  · cases valid
  split at valid
  · cases valid
  · rename_i same early timely known
    simp only [not_or, Decidable.not_not] at same known
    exact ⟨same.1, same.2, Nat.lt_of_not_le early, Nat.lt_of_not_le timely, known⟩

theorem owner_ok {context : Context} {subject : String} (owned : owner context = .ok subject) :
    context.principal.subject = some subject := by
  simp only [owner, Program.except_bind_ok, requireRow_ok, require_ok, Program.except_pure,
    Except.ok.injEq] at owned
  obtain ⟨_, named, _, -, _, -, rfl⟩ := owned
  exact named

/-- The active ceremony of the subject that a request names. -/
structure Loaded (db : Database) (subject challengeId : String) (ceremony : Ceremony) : Prop where
  found : db.ceremonies.find? challengeId = some ceremony
  own : ceremony.subjectId = subject
  active : ceremony.status = .active

theorem load_ok {db : Database} {challengeId subject : String} {ceremony : Ceremony}
    (loaded : load db challengeId subject = .ok ceremony) :
    Loaded db subject challengeId ceremony := by
  simp only [load, Program.except_bind_ok, requireRow_ok, require_ok, Program.except_pure,
    Except.ok.injEq, Option.filter_eq_some_iff, beq_iff_eq] at loaded
  obtain ⟨_, ⟨found, own⟩, _, active, rfl⟩ := loaded
  exact ⟨found, own, active⟩

/-- A reply that the ceremony takes: to its own question, in time and with the right nonce. -/
structure Taken (ceremony : Ceremony) (now round : Nat) (nonce : String) (questionDigest : Digest) :
    Prop where
  inOrder : ceremony.round = round
  asked : ceremony.questionDigest = questionDigest
  open' : now < ceremony.expiresAt
  timely : now < ceremony.roundExpiresAt
  known : ceremony.nonceDigest = some ⟨nonce⟩

inductive Move (db : Database) (request : Request) (subject : String) :
    Database → Response → Prop where
  | started (act : request.act = .start)
      (unhonored : honored db subject = none)
      (stale : ∀ row ∈ db.ceremonies.rows, row.subjectId = subject → ¬ live request.context.now row)
      (ceremonies : Table Ceremony.id)
      (inserted : (db.ceremonies.keep fun row => row.subjectId != subject).insert
        (presented (begun subject request.context.now request.draws) request.context.now
          request.draws) = some ceremonies) :
      Move db request subject { db with ceremonies := ceremonies }
        (.challenge (challengeOf (presented (begun subject request.context.now request.draws)
          request.context.now request.draws) request.draws.nonce))
  | failed (challengeId : String) (ceremony : Ceremony)
      (loaded : Loaded db subject challengeId ceremony) (reason : String) :
      Move db request subject (save db (failedCeremony ceremony reason))
        (.failed ceremony.id reason)
  | answered (arguments : AnswerArguments) (act : request.act = .answer arguments)
      (bounds : 1 ≤ arguments.round ∧ arguments.round ≤ 4) (ceremony : Ceremony)
      (loaded : Loaded db subject arguments.challengeId ceremony)
      (taken : Taken ceremony request.context.now arguments.round arguments.nonce
        arguments.questionDigest)
      (correct : ceremony.expectedDigest = some ⟨arguments.answer⟩) (challenge : Challenge)
      (shown : ∃ sealed', challenge = { challengeOf (presented
        (answeredCeremony ceremony request.context arguments.answer) request.context.now
          request.draws) request.draws.nonce with ceremonyDigest := sealed' }) :
      Move db request subject
        (save db (presented (answeredCeremony ceremony request.context arguments.answer)
          request.context.now request.draws)) (.challenge challenge)
  | granted (arguments : FinishArguments) (act : request.act = .finish arguments)
      (ceremony : Ceremony) (loaded : Loaded db subject arguments.challengeId ceremony)
      (taken : Taken ceremony request.context.now 5 arguments.nonce arguments.questionDigest)
      (statement : arguments.statement = finalStatement)
      (signed : Ceremony) (kept : signed.id = ceremony.id ∧ signed.subjectId = ceremony.subjectId)
      (db' : Database) (grant : Grant)
      (issued : issue db (newGrant ceremony request.context request.draws arguments)
        (honored db ceremony.subjectId) = .ok (db', grant)) :
      Move db request subject (save db' (completedCeremony signed grant))
        (.granted grant (decide (request.context.principal.method = .token)))

theorem start_move {db next : Database} {request : Request} {response : Response}
    (act : request.act = .start)
    (done : start db request.context request.draws = .ok (next, response)) :
    ∃ subject, request.context.principal.subject = some subject ∧
      Move db request subject next response := by
  simp only [start, Program.except_bind_ok, requireRow_ok, require_ok, insertRow_ok,
    Program.except_pure, Except.ok.injEq, Prod.mk.injEq] at done
  obtain ⟨subject, owned, _, _, _, unhonored, _, stale, ceremonies, inserted, rfl, rfl⟩ := done
  exact ⟨subject, owner_ok owned,
    .started act (by simpa using unhonored) stale ceremonies inserted⟩

theorem nextChallenge_ok {ceremony : Ceremony} {challenge next : Challenge}
    (done : nextChallenge ceremony challenge = .ok next) :
    ∃ sealed', next = { challenge with ceremonyDigest := sealed' } := by
  unfold nextChallenge at done
  split at done
  · simp only [Program.except_bind_ok, Program.except_pure, Except.ok.injEq] at done
    obtain ⟨sealed', _, rfl⟩ := done
    exact ⟨some sealed', rfl⟩
  · cases done
    exact ⟨challenge.ceremonyDigest, rfl⟩

theorem answer_move {db next : Database} {request : Request} {response : Response}
    {arguments : AnswerArguments} (act : request.act = .answer arguments)
    (done : answer db request.context request.draws arguments = .ok (next, response)) :
    ∃ subject, request.context.principal.subject = some subject ∧
      Move db request subject next response := by
  simp only [answer, Program.except_bind_ok, require_ok] at done
  obtain ⟨_, bounds, subject, owned, ceremony, found, done⟩ := done
  refine ⟨subject, owner_ok owned, ?_⟩
  have loaded := load_ok found
  unfold answerActive at done
  cases valid : validContext ceremony request.context.now arguments.nonce arguments.round
      arguments.questionDigest with
  | some reason =>
      simp only [valid, fail, Except.ok.injEq, Prod.mk.injEq] at done
      obtain ⟨rfl, rfl⟩ := done
      exact .failed _ ceremony loaded reason
  | none =>
      simp only [valid] at done
      by_cases wrong : ceremony.expectedDigest ≠ some ⟨arguments.answer⟩
      · rw [if_pos wrong] at done
        simp only [fail, Except.ok.injEq, Prod.mk.injEq] at done
        obtain ⟨rfl, rfl⟩ := done
        exact .failed _ ceremony loaded "answer_failed"
      · rw [if_neg wrong] at done
        simp only [advance, Program.except_bind_ok, Program.except_pure, Except.ok.injEq,
          Prod.mk.injEq] at done
        obtain ⟨challenge, shown, rfl, rfl⟩ := done
        obtain ⟨round, question, ceremonyTime, timely, nonce⟩ := validContext_none valid
        exact .answered arguments act bounds ceremony loaded
          ⟨round, question, ceremonyTime, timely, nonce⟩ (by simpa using wrong) challenge
          (nextChallenge_ok shown)

theorem confirmed_ok {ceremony signed : Ceremony} {context : Context}
    {arguments : FinishArguments} (done : confirmed ceremony context arguments = .ok signed) :
    signed.id = ceremony.id ∧ signed.subjectId = ceremony.subjectId := by
  unfold confirmed at done
  split at done
  · simp only [Program.except_bind_ok, Program.except_pure, Except.ok.injEq] at done
    obtain ⟨_, _, rfl⟩ := done
    exact ⟨rfl, rfl⟩
  · cases done
    exact ⟨rfl, rfl⟩

theorem finish_move {db next : Database} {request : Request} {response : Response}
    {arguments : FinishArguments} (act : request.act = .finish arguments)
    (done : finish db request.context request.draws arguments = .ok (next, response)) :
    ∃ subject, request.context.principal.subject = some subject ∧
      Move db request subject next response := by
  simp only [finish, Program.except_bind_ok] at done
  obtain ⟨subject, owned, ceremony, found, done⟩ := done
  refine ⟨subject, owner_ok owned, ?_⟩
  have loaded := load_ok found
  unfold finishActive at done
  cases valid : validContext ceremony request.context.now arguments.nonce 5
      arguments.questionDigest with
  | some reason =>
      simp only [valid, fail, Except.ok.injEq, Prod.mk.injEq] at done
      obtain ⟨rfl, rfl⟩ := done
      exact .failed _ ceremony loaded reason
  | none =>
      simp only [valid] at done
      by_cases other : arguments.statement ≠ finalStatement
      · rw [if_pos other] at done
        simp only [fail, Except.ok.injEq, Prod.mk.injEq] at done
        obtain ⟨rfl, rfl⟩ := done
        exact .failed _ ceremony loaded "final_confirmation_failed"
      · rw [if_neg other] at done
        cases digested : ceremonyDigest ceremony with
        | error failure =>
            rw [digested] at done
            cases done
        | ok digest =>
            rw [digested] at done
            dsimp only at done
            by_cases foreign : arguments.ceremonyDigest ≠ digest
            · rw [if_pos foreign] at done
              simp only [fail, Except.ok.injEq, Prod.mk.injEq] at done
              obtain ⟨rfl, rfl⟩ := done
              exact .failed _ ceremony loaded "final_confirmation_failed"
            · rw [if_neg foreign] at done
              simp only [complete, Program.except_bind_ok, Program.except_pure, Except.ok.injEq,
                Prod.exists, Prod.mk.injEq] at done
              obtain ⟨signed, signing, db', grant, issued, rfl, rfl⟩ := done
              obtain ⟨round, question, ceremonyTime, timely, nonce⟩ := validContext_none valid
              exact .granted arguments act ceremony loaded
                ⟨round, question, ceremonyTime, timely, nonce⟩ (by simpa using other) signed
                (confirmed_ok signing) db' grant issued

theorem perform_move {db next : Database} {request : Request} {response : Response}
    (done : perform request db = .ok (next, response)) :
    ∃ subject, request.context.principal.subject = some subject ∧
      Move db request subject next response := by
  unfold perform at done
  cases act : request.act with
  | start => exact start_move act (by simpa [act] using done)
  | answer arguments => exact answer_move act (by simpa [act] using done)
  | finish arguments => exact finish_move act (by simpa [act] using done)

end MsgServer.Achievements
