import MsgServer.Core.Models
import MsgServer.Library.Run
import MsgServer.Library.Table

/-!
The queue of effect jobs: `_claim`, `_finish` and `_retry` of workers/effects.py and
`current_attempt` of workers/leases.py. A worker keeps the copy of the job it claimed
and acts on it outside the transaction; every write of a result goes through
`current_attempt` in a transaction of its own. Each transaction is one function of the
state, an aborted one is an error, and the clock is read once in it. The effects
themselves, and the end of a `git.receive` session, which no worker claims, are left out.
-/

namespace MsgServer.Leases

open Library

inductive JobState where
  | pending
  | running
  | done
  | failed
  | uncertain
  deriving DecidableEq, Repr

/-- The kinds of the worker's dispatch; a tool job carries the tool it runs. -/
inductive JobKind where
  | tool (ref : ResourceRef)
  | websub
  | mail
  | marketMail
  | marketEmailVerify
  | webhook
  | gitPush
  | gitReceive
  | maintenance
  | gcResource
  | other (name : String)
  deriving DecidableEq

structure EffectJob where
  id : String
  kind : JobKind
  dedupeKey : String
  state : JobState
  attempts : Nat
  nextAttemptAt : Nat
  leaseUntil : Option Nat
  result : Option ResourceRef := none
  deriving DecidableEq

abbrev Status := List (String × String)

/-- The jobs, their `job_status:` settings, the copies the workers hold and the clock.
`issued` is every job id ever drawn: a new job takes a fresh one. -/
structure State where
  queue : Table EffectJob.id
  statuses : String → Option Status
  held : List (String × EffectJob)
  issued : List String
  clock : Nat

/-- What one transaction finds outside the queue. -/
structure World where
  stopping : Bool := false
  stoppingLater : Bool := false
  generation : Except Failure Unit := .ok ()
  quarantined : Bool := false
  toolConcurrency : ResourceRef → Except Failure Nat
  leaseSeconds : Nat := 120

def State.job (state : State) (id : String) : Option EffectJob := state.queue.find? id

def State.save (state : State) (job : EffectJob) : State :=
  { state with queue := state.queue.modify job.id fun _ => job }

def State.setStatus (state : State) (id : String) (status : Status) : State :=
  { state with statuses := Function.update state.statuses id (some status) }

def codeStatus (code : String) : Status := [("code", code)]

def EffectJob.expired (job : EffectJob) (now : Nat) : Bool :=
  match job.leaseUntil with
  | none => true
  | some lease => decide (lease ≤ now)

def maxAttempts : Nat := 8

/-- `min(3600, 30 * 2 ** (attempts - 1))` seconds. -/
def backoff (attempts : Nat) : Nat := min 3600 (30 * 2 ^ (attempts - 1))

/-- What becomes of an orphan: external work cannot be assumed not to have executed. -/
def EffectJob.swept (job : EffectJob) (now : Nat) : EffectJob :=
  if job.kind = .websub then
    if maxAttempts ≤ job.attempts then { job with state := .failed, leaseUntil := none }
    else
      { job with
        state := .pending
        leaseUntil := none
        nextAttemptAt := now + backoff job.attempts }
  else { job with state := .uncertain, leaseUntil := none }

def sweptCode (job : EffectJob) : String :=
  if job.kind = .websub ∧ maxAttempts ≤ job.attempts then "websub_attempts_exhausted"
  else "expired_execution_lease"

def EffectJob.claimed (job : EffectJob) (now leaseSeconds : Nat) : EffectJob :=
  { job with
    state := .running
    attempts := job.attempts + 1
    leaseUntil := some (now + leaseSeconds) }

/-- `ORDER BY next_at, id`. -/
def inOrder (jobs : List EffectJob) : List EffectJob :=
  jobs.mergeSort fun left right =>
    decide (left.nextAttemptAt < right.nextAttemptAt ∨
      (left.nextAttemptAt = right.nextAttemptAt ∧ left.id ≤ right.id))

def State.running (state : State) : List EffectJob :=
  inOrder (state.queue.rows.filter fun job => decide (job.state = .running))

def State.due (state : State) : List EffectJob :=
  inOrder (state.queue.rows.filter fun job =>
    decide (job.state = .pending ∧ job.nextAttemptAt ≤ state.clock))

def EffectJob.runs (job : EffectJob) (tool : String) : Bool :=
  match job.kind with
  | .tool ref => decide (ref.id = tool)
  | _ => false

/-- `running[tool] = running.get(tool, 0) + 1` for a tool job. -/
def tally (job : EffectJob) (running : String → Nat) : String → Nat := fun tool =>
  if job.runs tool then running tool + 1 else running tool

/-- The first loop: it returns at an orphan, and counts the tool jobs otherwise. -/
def scanRunning (now : Nat) (running : String → Nat) :
    List EffectJob → Except EffectJob (String → Nat)
  | [] => .ok running
  | job :: rest => if job.expired now then .error job else scanRunning now (tally job running) rest

inductive Claim where
  | nothing
  | handled (job : EffectJob)
  | execute (job : EffectJob)
  deriving DecidableEq

def take (world : World) (state : State) (job : EffectJob) : State × Claim :=
  if world.stoppingLater then (state, .nothing)
  else
    let job := job.claimed state.clock world.leaseSeconds
    (state.save job, .execute job)

/-- The second loop. The limit of one tool revision is read in one transaction and does
not change in it, so the dictionary of the limits already read is not modelled. -/
def scanDue (world : World) (state : State) (running : String → Nat) :
    List EffectJob → Except Failure (State × Claim)
  | [] => .ok (state, .nothing)
  | job :: rest =>
      match job.kind with
      | .tool ref =>
          match world.toolConcurrency ref with
          | .error failure =>
              if failure.retryable then .error failure
              else
                .ok ((state.save { job with state := .failed, leaseUntil := none }).setStatus job.id
                  (codeStatus failure.code), .handled job)
          | .ok limit =>
              if limit ≤ running ref.id then scanDue world state running rest
              else .ok (take world state job)
      | _ => .ok (take world state job)

def claimOpen (world : World) (state : State) : Except Failure (State × Claim) :=
  match scanRunning state.clock (fun _ => 0) state.running with
  | .error job =>
      .ok ((state.save (job.swept state.clock)).setStatus job.id (codeStatus (sweptCode job)),
        .handled job)
  | .ok running => scanDue world state running state.due

def claim (world : World) (state : State) : Except Failure (State × Claim) :=
  if world.stopping then .ok (state, .nothing)
  else do
    world.generation
    if world.quarantined then .ok (state, .nothing) else claimOpen world state

/-- The fence: the live attempt, or the uncertainty of one that outlived its lease. -/
def currentAttempt (state : State) (job : EffectJob) :
    Except Failure (State × Option EffectJob) :=
  match state.job job.id with
  | none => .error { code := "job_not_found" }
  | some current =>
      if current.state ≠ .running ∨ current.attempts ≠ job.attempts then .ok (state, none)
      else if current.expired state.clock then
        .ok ((state.save { current with state := .uncertain, leaseUntil := none }).setStatus job.id
          (codeStatus "expired_execution_lease"), none)
      else .ok (state, some current)

/-- The end state of one attempt. -/
inductive Outcome where
  | done
  | failed
  | uncertain
  deriving DecidableEq

def Outcome.state : Outcome → JobState
  | .done => .done
  | .failed => .failed
  | .uncertain => .uncertain

def EffectJob.retried (job : EffectJob) (now : Nat) : EffectJob :=
  if maxAttempts ≤ job.attempts then { job with state := .failed, leaseUntil := none }
  else
    { job with
      state := .pending
      leaseUntil := none
      nextAttemptAt := now + backoff job.attempts }

def finish (world : World) (job : EffectJob) (outcome : Outcome) (status : Status)
    (state : State) : Except Failure State := do
  world.generation
  let (state, current) ← currentAttempt state job
  match current with
  | none => return state
  | some current =>
      return (state.save { current with state := outcome.state, leaseUntil := none }).setStatus
        job.id status

def retry (world : World) (job : EffectJob) (retryCode exhaustedCode : String) (state : State) :
    Except Failure State := do
  world.generation
  let (state, current) ← currentAttempt state job
  match current with
  | none => return state
  | some current =>
      return (state.save (current.retried state.clock)).setStatus job.id
        (codeStatus (if maxAttempts ≤ current.attempts then exhaustedCode else retryCode))

/-- The committing transactions of a tool's result and of pushed refs. `commit` is what
they write between the fence and the job: its failure aborts the transaction. -/
def publish (world : World) (job : EffectJob) (commit : Except Failure Unit)
    (result : Option ResourceRef) (status : Status) (state : State) : Except Failure State := do
  world.generation
  let (state, current) ← currentAttempt state job
  match current with
  | none => return state
  | some current => do
      commit
      return (state.save
        { current with state := .done, result := result, leaseUntil := none }).setStatus
          job.id status

structure NewJob where
  id : String
  kind : JobKind
  dedupeKey : String
  nextAttemptAt : Nat

/-- A job as the operations write it. A `git.receive` job is born running, in the session of
its client. -/
def NewJob.job (new : NewJob) (now : Nat) : EffectJob :=
  if new.kind = .gitReceive then
    { id := new.id, kind := new.kind, dedupeKey := new.dedupeKey, state := .running
      attempts := 1, nextAttemptAt := new.nextAttemptAt, leaseUntil := some (now + 600) }
  else
    { id := new.id, kind := new.kind, dedupeKey := new.dedupeKey, state := .pending
      attempts := 0, nextAttemptAt := new.nextAttemptAt, leaseUntil := none }

/-- The two unique columns of the jobs table refuse a second job. -/
def enqueue (new : NewJob) (state : State) : State :=
  if new.id ∈ state.issued ∨ state.queue.rows.any (fun job => job.dedupeKey == new.dedupeKey) then
    state
  else
    match state.queue.insert (new.job state.clock) with
    | none => state
    | some queue => { state with queue := queue, issued := new.id :: state.issued }

/-- `require_webhook_capacity` deletes old webhook jobs that are done or failed. -/
def prune (ids : List String) (state : State) : State :=
  { state with
    queue := state.queue.keep fun job =>
      !(decide (job.id ∈ ids) && decide (job.kind = .webhook) &&
        decide (job.state = .done ∨ job.state = .failed)) }

inductive Act where
  | claim (worker : String) (world : World)
  | finish (worker : String) (world : World) (job : EffectJob) (outcome : Outcome)
      (status : Status)
  | retry (worker : String) (world : World) (job : EffectJob) (retryCode exhaustedCode : String)
  | publish (worker : String) (world : World) (job : EffectJob) (commit : Except Failure Unit)
      (result : Option ResourceRef) (status : Status)
  | crash (worker : String)
  | enqueue (new : NewJob)
  | prune (ids : List String)
  | wait (seconds : Nat)

/-- A claimed job is in the worker's hands until the worker crashes. -/
def holding (worker : String) (state : State) : Claim → State
  | .execute job => { state with held := (worker, job) :: state.held }
  | _ => state

/-- A failed transaction leaves the state as it was. -/
def settled (state : State) : Except Failure State → State
  | .ok next => next
  | .error _ => state

/-- The worker acts on a copy it holds. -/
def acting (worker : String) (job : EffectJob) (state : State)
    (body : State → Except Failure State) : State :=
  if (worker, job) ∈ state.held then settled state (body state) else state

def step (act : Act) (state : State) : State :=
  match act with
  | .claim worker world =>
      match claim world state with
      | .ok (next, claimed) => holding worker next claimed
      | .error _ => state
  | .finish worker world job outcome status =>
      acting worker job state (finish world job outcome status)
  | .retry worker world job retryCode exhaustedCode =>
      acting worker job state (retry world job retryCode exhaustedCode)
  | .publish worker world job commit result status =>
      acting worker job state (publish world job commit result status)
  | .crash worker => { state with held := state.held.filter fun entry => entry.1 != worker }
  | .enqueue new => enqueue new state
  | .prune ids => prune ids state
  | .wait seconds => { state with clock := state.clock + seconds }

def start (now : Nat) : State :=
  { queue := Table.empty, statuses := fun _ => none, held := [], issued := [], clock := now }

end MsgServer.Leases
