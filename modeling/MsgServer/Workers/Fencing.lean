import MsgServer.Workers.JobSteps

/-!
Runs of the job queue under any number of workers. Only the holder of the current attempt
changes a running row before its lease is over. The invariant relates the attempt of a
held copy to the attempt of its row; from it follow the fence, the end of a settled job
and the bounds on the attempts and on the running jobs of one tool.
-/

namespace MsgServer.Leases

open Library Library.Run

/-- The invariant of the queue: attempts stay in their bound with one to spare while a job
waits, no worker is ahead of the row it copied, and one attempt is in one worker's hands. -/
structure Ordered (state : State) : Prop where
  attempts : ∀ id job, state.job id = some job → job.attempts ≤ maxAttempts
  waiting : ∀ id job, state.job id = some job → job.state = .pending → job.attempts < maxAttempts
  listed : ∀ id job, state.job id = some job → id ∈ state.issued
  known : ∀ entry ∈ state.held, entry.2.id ∈ state.issued
  behind : ∀ entry ∈ state.held, ∀ job, state.job entry.2.id = some job →
    entry.2.attempts ≤ job.attempts
  sole : ∀ left ∈ state.held, ∀ right ∈ state.held, left.2.id = right.2.id →
    left.2.attempts = right.2.attempts → left = right

theorem ordered_start (now : Nat) : Ordered (start now) :=
  ⟨by simp [start, State.job, Table.find?, Table.empty],
   by simp [start, State.job, Table.find?, Table.empty],
   by simp [start, State.job, Table.find?, Table.empty],
   by simp [start], by simp [start], by simp [start]⟩

section Order

variable {state : State} {act : Act} {before after : EffectJob}

/-- No step takes an attempt back, and a row in the queue has one to spare. -/
theorem rowStep_attempts (moves : RowStep state act before after)
    (bounded : before.attempts ≤ maxAttempts)
    (spare : before.state = .pending → before.attempts < maxAttempts) :
    before.attempts ≤ after.attempts ∧ after.attempts ≤ maxAttempts ∧
      (after.state = .pending → after.attempts < maxAttempts) := by
  cases moves with
  | kept => exact ⟨le_rfl, bounded, spare⟩
  | swept running ended =>
      rw [swept_attempts]
      exact ⟨le_rfl, bounded, (swept_state before state.clock).2⟩
  | lost running ended => exact ⟨le_rfl, bounded, by simp⟩
  | claimed does pending =>
      refine ⟨Nat.le_succ _, spare pending, ?_⟩
      intro waiting
      cases waiting
  | refused does pending => exact ⟨le_rfl, bounded, by simp⟩
  | written does holds =>
      cases does with
      | finish worker world copy outcome status =>
          refine ⟨le_rfl, bounded, ?_⟩
          cases outcome <;> simp [Outcome.state]
      | retry worker world copy retryCode exhaustedCode =>
          rw [retried_attempts]
          exact ⟨le_rfl, bounded, (retried_state before state.clock).2⟩
      | publish worker world copy commit result status => exact ⟨le_rfl, bounded, by simp⟩

theorem newJob_attempts (new : NewJob) (now : Nat) :
    (new.job now).attempts ≤ maxAttempts ∧
      ((new.job now).state = .pending → (new.job now).attempts < maxAttempts) := by
  unfold NewJob.job
  split <;> simp [maxAttempts]

theorem ordered_row (ordered : Ordered state) {id : String}
    (there : (step act state).job id = some after) :
    after.attempts ≤ maxAttempts ∧ (after.state = .pending → after.attempts < maxAttempts) := by
  cases step_row there with
  | row found moves =>
      exact (rowStep_attempts moves (ordered.attempts _ _ found) (ordered.waiting _ _ found)).2
  | fresh does absent unissued same shape =>
      rw [shape]
      exact newJob_attempts _ _

theorem behind_step (ordered : Ordered state) {entry : String × EffectJob}
    (held : entry ∈ state.held) (there : (step act state).job entry.2.id = some after) :
    entry.2.attempts ≤ after.attempts := by
  cases step_row there with
  | row found moves =>
      have grows := rowStep_attempts moves (ordered.attempts _ _ found) (ordered.waiting _ _ found)
      exact le_trans (ordered.behind entry held _ found) grows.1
  | fresh does absent unissued same shape => exact (unissued (ordered.known entry held)).elim

/-- A fresh copy is ahead of every copy of the same job in older hands. -/
theorem claimed_ahead (ordered : Ordered state) {entry older : String × EffectJob}
    {leaseSeconds : Nat} (found : state.job entry.2.id = some before)
    (shape : entry.2 = before.claimed state.clock leaseSeconds) (held : older ∈ state.held)
    (same : older.2.id = entry.2.id) : older.2.attempts < entry.2.attempts := by
  have bound := ordered.behind older held before (by rw [same]; exact found)
  have next : entry.2.attempts = before.attempts + 1 := congrArg EffectJob.attempts shape
  omega

theorem ordered_step (act : Act) (state : State) (ordered : Ordered state) :
    Ordered (step act state) := by
  have beside : Beside state act (step act state) := step_beside act
  constructor
  · intro id job there
    exact (ordered_row ordered there).1
  · intro id job there
    exact (ordered_row ordered there).2
  · intro id job there
    cases older : state.job id with
    | none => exact fresh_issued there older
    | some before => exact beside.issued id (ordered.listed id before older)
  · intro entry inside
    rcases beside.held entry inside with older | ⟨_, before, _, found, _⟩
    · exact beside.issued _ (ordered.known entry older)
    · exact beside.issued _ (ordered.listed _ before found)
  · intro entry inside job there
    rcases beside.held entry inside with older | ⟨_, _, _, _, _, _, saved⟩
    · exact behind_step ordered older there
    · rw [saved] at there
      cases there
      exact le_rfl
  · intro left inLeft right inRight same attempt
    rcases beside.held left inLeft with oldLeft | ⟨_, leftRow, leftAct, atLeft, _, leftShape, _⟩
    · rcases beside.held right inRight with oldRight | ⟨_, _, _, atRight, _, rightShape, _⟩
      · exact ordered.sole left oldLeft right oldRight same attempt
      · have ahead := claimed_ahead ordered atRight rightShape oldLeft same
        omega
    · rcases beside.held right inRight with oldRight | ⟨_, rightRow, rightAct, atRight, _, rightShape, _⟩
      · have ahead := claimed_ahead ordered atLeft leftShape oldRight same.symm
        omega
      · rw [same, atRight] at atLeft
        cases atLeft
        obtain ⟨worker, world⟩ := Act.claim.inj (leftAct.symm.trans rightAct)
        rw [← world] at rightShape
        exact Prod.ext worker (leftShape.trans rightShape.symm)

theorem ordered_run (now : Nat) (acts : List Act) : Ordered (run step acts (start now)) :=
  run_invariant step ordered_step acts (start now) (ordered_start now)

end Order

/-- A settled job: what happened to it is on record. -/
def EffectJob.settled (job : EffectJob) : Prop :=
  job.state = .done ∨ job.state = .failed ∨ job.state = .uncertain

def EffectJob.lost (job : EffectJob) : EffectJob :=
  { job with state := .uncertain, leaseUntil := none }

/-- A step with a bound on the limits of the tools that its transaction reads. -/
def Act.within (bound : String → Nat) : Act → Prop
  | .claim _ world => ∀ ref limit, world.toolConcurrency ref = .ok limit → limit ≤ bound ref.id
  | _ => True

section Lasting

variable {state : State} {act : Act} {id : String} {job after : EffectJob}

theorem settled_row (ended : job.settled) (moves : RowStep state act job after) : after = job := by
  have notRunning : job.state ≠ .running := by
    rcases ended with same | same | same <;> rw [same] <;> decide
  have notPending : job.state ≠ .pending := by
    rcases ended with same | same | same <;> rw [same] <;> decide
  cases moves with
  | kept => rfl
  | swept running ended => exact (notRunning running).elim
  | lost running ended => exact (notRunning running).elim
  | claimed does pending => exact (notPending pending).elim
  | refused does pending => exact (notPending pending).elim
  | written does holds => exact (notRunning holds.running).elim

/-- A row of an issued id is settled for good. -/
theorem settled_run (acts : List Act) (known : id ∈ state.issued) (ended : job.settled)
    (here : ∀ row, state.job id = some row → row = job) :
    ∀ row, (run step acts state).job id = some row → row = job := by
  have kept : ∀ act (current : State),
      (id ∈ current.issued ∧ ∀ row, current.job id = some row → row = job) →
        id ∈ (step act current).issued ∧ ∀ row, (step act current).job id = some row → row = job := by
    intro act current holds
    refine ⟨(step_beside act).issued id holds.1, ?_⟩
    intro row there
    cases step_row there with
    | row found moves =>
        have same := holds.2 _ found
        subst same
        exact settled_row ended moves
    | fresh does absent unissued same shape => exact (unissued holds.1).elim
  exact (run_invariant step kept acts state ⟨known, here⟩).2

theorem swept_lost (kind : job.kind ≠ .websub) (now : Nat) : job.swept now = job.lost :=
  if_neg kind

/-- What is left of a running job whose lease is over. -/
structure Orphaned (first : State) (job : EffectJob) (state : State) : Prop where
  known : job.id ∈ state.issued
  ended : job.expired state.clock = true
  row : ∀ row, state.job job.id = some row → row = job ∨ row = job.lost
  hands : ∀ entry ∈ state.held, entry.2.id = job.id → entry ∈ first.held

theorem orphaned_step {first : State} (running : job.state = .running)
    (kind : job.kind ≠ .websub) (act : Act) (state : State) (holds : Orphaned first job state) :
    Orphaned first job (step act state) := by
  have beside : Beside state act (step act state) := step_beside act
  refine ⟨beside.issued _ holds.known, expired_later holds.ended beside.clock, ?_, ?_⟩
  · intro row there
    cases step_row there with
    | fresh does absent unissued same shape => exact (unissued holds.known).elim
    | row found moves =>
        rcases holds.row _ found with rfl | rfl
        · cases moves with
          | kept => exact Or.inl rfl
          | swept _ _ => exact Or.inr (swept_lost kind _)
          | lost _ _ => exact Or.inr rfl
          | claimed does pending =>
              rw [running] at pending
              cases pending
          | refused does pending =>
              rw [running] at pending
              cases pending
          | written does fenced =>
              have live := fenced.live
              rw [holds.ended] at live
              cases live
        · exact Or.inr (settled_row (Or.inr (Or.inr rfl)) moves)
  · intro entry inside same
    rcases beside.held entry inside with older | ⟨_, before, _, found, pending, _⟩
    · exact holds.hands entry older same
    · -- A claim takes a pending row, and this one never is.
      rw [same] at found
      rcases holds.row _ found with rfl | rfl
      · rw [running] at pending
        cases pending
      · cases pending

theorem orphaned_run (running : job.state = .running) (kind : job.kind ≠ .websub)
    (known : job.id ∈ state.issued) (here : state.job job.id = some job)
    (ended : job.expired state.clock = true) (acts : List Act) :
    Orphaned state job (run step acts state) := by
  refine run_invariant step (orphaned_step running kind) acts state ⟨known, ended, ?_, ?_⟩
  · intro row there
    rw [here] at there
    exact Or.inl (Option.some.inj there).symm
  · intro entry inside _
    exact inside

end Lasting

section Limits

variable {state next : State} {job : EffectJob} {tool : String}

theorem runningOf_save_succ (state : State) (job : EffectJob) (tool : String) :
    (state.save job).runningOf tool ≤ state.runningOf tool + 1 := by
  apply Table.count_le_add [job.id]
  intro row member runs
  rcases job_save (job_of_mem member) with ⟨_, older⟩ | ⟨same, _⟩
  · exact Or.inr ⟨row, mem_of_job older, rfl, runs⟩
  · exact Or.inl (by simp [same])

/-- Saving a job that does not run the tool adds no running job of it. -/
theorem runningOf_save (idle : job.state ≠ .running ∨ job.runs tool = false) :
    (state.save job).runningOf tool ≤ state.runningOf tool := by
  apply Table.count_le
  intro row member runs
  rcases job_save (job_of_mem member) with ⟨_, older⟩ | ⟨_, rfl⟩
  · exact ⟨row, mem_of_job older, rfl, runs⟩
  · simp only [Bool.and_eq_true, decide_eq_true_eq] at runs
    rcases idle with still | other
    · exact (still runs.1).elim
    · rw [other] at runs
      cases runs.2

theorem fenced_running {copy : EffectJob} {verdict : EffectJob → EffectJob}
    (ends : ∀ current, (verdict current).state ≠ .running)
    (done : Fenced state copy verdict next) : next.runningOf tool ≤ state.runningOf tool := by
  cases done with
  | stale => exact le_rfl
  | lost found running ended code => exact runningOf_save (Or.inl (by simp))
  | written found running attempt live status => exact runningOf_save (Or.inl (ends _))

theorem acting_running {worker : String} {copy : EffectJob} {verdict : EffectJob → EffectJob}
    {body : State → Except Failure State} (ends : ∀ current, (verdict current).state ≠ .running)
    (cases_of : ∀ next, body state = .ok next → Fenced state copy verdict next) :
    (acting worker copy state body).runningOf tool ≤ state.runningOf tool := by
  unfold acting
  split
  · cases ran : body state with
    | error failure => exact le_rfl
    | ok next => exact fenced_running ends (cases_of next ran)
  · exact le_rfl

theorem holding_running (worker : String) (claimed : Claim) :
    (holding worker state claimed).runningOf tool = state.runningOf tool := by
  cases claimed <;> rfl

/-- A claim hands out a tool's job when that leaves its running jobs within the limit. -/
theorem claims_running {world : World} {claimed : Claim}
    (done : Claims world state next claimed) :
    next.runningOf tool ≤ state.runningOf tool ∨
      ∃ ref limit, ref.id = tool ∧ world.toolConcurrency ref = .ok limit ∧
        next.runningOf tool ≤ limit := by
  cases done with
  | idle => exact Or.inl le_rfl
  | orphan member running ended code =>
      exact Or.inl (runningOf_save (Or.inl (swept_state _ _).1))
  | refused member pending code => exact Or.inl (runningOf_save (Or.inl (by simp)))
  | @taken job member pending live free =>
      by_cases runs : job.runs tool = true
      · right
        unfold EffectJob.runs at runs
        split at runs
        · rename_i ref kind
          obtain ⟨limit, read, room⟩ := free ref kind
          rw [decide_eq_true_eq] at runs
          subst runs
          refine ⟨ref, limit, rfl, read, ?_⟩
          have added := runningOf_save_succ state (job.claimed state.clock world.leaseSeconds) ref.id
          omega
        · cases runs
      · left
        apply runningOf_save
        right
        simpa [EffectJob.runs, EffectJob.claimed] using runs

theorem enqueue_running (new : NewJob) :
    (enqueue new state).runningOf tool ≤ state.runningOf tool := by
  unfold enqueue
  split
  · exact le_rfl
  · cases inserted : state.queue.insert (new.job state.clock) with
    | none => exact le_rfl
    | some queue =>
        apply Table.count_le
        intro row member runs
        rcases (Table.mem_insert inserted row).mp member with older | rfl
        · exact ⟨row, older, rfl, runs⟩
        · -- Only a git session is born running, and it runs no tool.
          exfalso
          unfold NewJob.job at runs
          split at runs
          · rename_i kind
            simp [EffectJob.runs, kind] at runs
          · simp at runs

theorem step_running (act : Act) (state : State) (tool : String) :
    (step act state).runningOf tool ≤ state.runningOf tool ∨
      ∃ worker world ref limit, act = .claim worker world ∧ ref.id = tool ∧
        world.toolConcurrency ref = .ok limit ∧ (step act state).runningOf tool ≤ limit := by
  cases act with
  | claim worker world =>
      simp only [step]
      cases ran : claim world state with
      | error failure => exact Or.inl le_rfl
      | ok outcome =>
          simp only [holding_running]
          rcases claims_running (claim_cases ran) with fewer | ⟨ref, limit, same, read, bound⟩
          · exact Or.inl fewer
          · exact Or.inr ⟨worker, world, ref, limit, rfl, same, read, bound⟩
  | finish worker world job outcome status =>
      refine Or.inl (acting_running ?_ fun next done => finish_cases done)
      intro current
      cases outcome <;> simp [Outcome.state]
  | retry worker world job retryCode exhaustedCode =>
      refine Or.inl (acting_running ?_ fun next done => retry_cases done)
      intro current
      exact (retried_state current state.clock).1
  | publish worker world job commit result status =>
      refine Or.inl (acting_running ?_ fun next done => publish_cases done)
      intro current
      simp
  | crash worker => exact Or.inl le_rfl
  | enqueue new => exact Or.inl (enqueue_running new)
  | prune ids =>
      left
      apply Table.count_le
      intro row member runs
      exact ⟨row, (List.mem_filter.mp member).1, rfl, runs⟩
  | wait seconds => exact Or.inl le_rfl

theorem bounded_run {bound : String → Nat} (acts : List Act) (state : State)
    (within : ∀ act ∈ acts, act.within bound) (start : state.runningOf tool ≤ bound tool) :
    (run step acts state).runningOf tool ≤ bound tool := by
  induction acts generalizing state with
  | nil => exact start
  | cons act rest ih =>
      apply ih (step act state) fun later inside => within later (List.mem_cons_of_mem _ inside)
      rcases step_running act state tool with fewer | ⟨worker, world, ref, limit, does, same, read, most⟩
      · exact le_trans fewer start
      · have bounded := within act List.mem_cons_self
        subst does
        have low := bounded ref limit read
        rw [same] at low
        exact le_trans most low

end Limits

section Sweeping

variable {now : Nat} {running : String → Nat} {jobs : List EffectJob} {job : EffectJob}

theorem scanRunning_stops (member : job ∈ jobs) (ended : job.expired now = true) :
    ∃ first, scanRunning now running jobs = .error first := by
  cases scanned : scanRunning now running jobs with
  | error first => exact ⟨first, rfl⟩
  | ok counts =>
      have live := (scanRunning_ok scanned).1 job member
      rw [ended] at live
      cases live

/-- While some lease is over, a claim that gets to the queue deals with one such job and
hands out nothing. -/
theorem claim_sweeps {world : World} {state : State} (going : world.stopping = false)
    (current : world.generation = .ok ()) (normal : world.quarantined = false)
    (member : job ∈ state.queue.rows) (runs : job.state = .running)
    (ended : job.expired state.clock = true) :
    ∃ first ∈ state.queue.rows, first.state = .running ∧ first.expired state.clock = true ∧
      claim world state = .ok ((state.save (first.swept state.clock)).setStatus first.id
        (codeStatus (sweptCode first)), .handled first) := by
  have stops : ∃ first, scanRunning state.clock (fun _ => 0) state.running = .error first :=
    scanRunning_stops (mem_running.mpr ⟨member, runs⟩) ended
  obtain ⟨first, scanned⟩ := stops
  obtain ⟨inside, past⟩ := scanRunning_error scanned
  obtain ⟨present, firstRuns⟩ := mem_running.mp inside
  refine ⟨first, present, firstRuns, past, ?_⟩
  simp [claim, going, current, normal, claimOpen, scanned, Program.except_ok_bind]

end Sweeping

/-- A step gives a job another row. -/
def Moved (state next : State) (id : String) : Prop :=
  ∃ before after, state.job id = some before ∧ next.job id = some after ∧ after ≠ before

section Statuses

variable {state next : State} {id : String}

theorem saved_status {before job : EffectJob} {code : Status}
    (found : state.job before.id = some before) (same : job.id = before.id)
    (moved : job.state ≠ before.state)
    (changed : ((state.save job).setStatus before.id code).statuses id ≠ state.statuses id) :
    Moved state ((state.save job).setStatus before.id code) id := by
  by_cases here : id = before.id
  · subst here
    refine ⟨before, job, found, ?_, ?_⟩
    · rw [job_setStatus, ← same]
      rw [← same] at found
      exact job_saved found
    · intro equal
      exact moved (congrArg EffectJob.state equal)
  · exact (changed (Function.update_of_ne here _ _)).elim

theorem claims_status {world : World} {claimed : Claim} (done : Claims world state next claimed)
    (changed : next.statuses id ≠ state.statuses id) : Moved state next id := by
  cases done with
  | idle => exact (changed rfl).elim
  | orphan member running ended code =>
      refine saved_status (job_of_mem member) (swept_id _ _) ?_ changed
      rw [running]
      exact (swept_state _ _).1
  | refused member pending code =>
      refine saved_status (job_of_mem member) ?_ ?_ changed
      · rfl
      · rw [pending]
        simp
  | taken member pending live free => exact (changed rfl).elim

theorem fenced_status {copy : EffectJob} {verdict : EffectJob → EffectJob}
    (keeps : ∀ job, (verdict job).id = job.id) (ends : ∀ job, (verdict job).state ≠ .running)
    (done : Fenced state copy verdict next) (changed : next.statuses id ≠ state.statuses id) :
    Moved state next id := by
  cases done with
  | stale => exact (changed rfl).elim
  | lost found running ended code =>
      have same := job_id found
      rw [← same] at found changed ⊢
      refine saved_status found ?_ ?_ changed
      · rfl
      · rw [running]
        simp
  | written found running attempt live status =>
      have same := job_id found
      rw [← same] at found changed ⊢
      refine saved_status found (keeps _) ?_ changed
      rw [running]
      exact ends _

theorem acting_status {worker : String} {copy : EffectJob} {verdict : EffectJob → EffectJob}
    {body : State → Except Failure State} (keeps : ∀ job, (verdict job).id = job.id)
    (ends : ∀ job, (verdict job).state ≠ .running)
    (cases_of : ∀ next, body state = .ok next → Fenced state copy verdict next)
    (changed : (acting worker copy state body).statuses id ≠ state.statuses id) :
    Moved state (acting worker copy state body) id := by
  unfold acting at changed ⊢
  split
  · rename_i held
    rw [if_pos held] at changed
    cases ran : body state with
    | error failure =>
        rw [ran] at changed
        exact (changed rfl).elim
    | ok after =>
        rw [ran] at changed
        exact fenced_status keeps ends (cases_of after ran) changed
  · rename_i absent
    rw [if_neg absent] at changed
    exact (changed rfl).elim

/-- The status of a job is written with its row, so a stale worker leaves both alone. -/
theorem step_status (act : Act) (changed : (step act state).statuses id ≠ state.statuses id) :
    Moved state (step act state) id := by
  cases act with
  | claim worker world =>
      simp only [step] at changed ⊢
      cases ran : claim world state with
      | error failure =>
          rw [ran] at changed
          exact (changed rfl).elim
      | ok outcome =>
          obtain ⟨after, claimed⟩ := outcome
          rw [ran] at changed
          have rest : after.statuses id ≠ state.statuses id := by
            cases claimed <;> exact changed
          obtain ⟨before, row, found, there, different⟩ := claims_status (claim_cases ran) rest
          refine ⟨before, row, found, ?_, different⟩
          rw [← there]
          exact holding_job worker claimed id
  | finish worker world job outcome status =>
      refine acting_status ?_ ?_ (fun after done => finish_cases done) changed
      · intro job
        rfl
      · intro job
        cases outcome <;> simp [Outcome.state]
  | retry worker world job retryCode exhaustedCode =>
      refine acting_status ?_ ?_ (fun after done => retry_cases done) changed
      · intro job
        exact retried_id job _
      · intro job
        exact (retried_state job _).1
  | publish worker world job commit result status =>
      refine acting_status ?_ ?_ (fun after done => publish_cases done) changed
      · intro job
        rfl
      · intro job
        simp
  | crash worker => exact (changed rfl).elim
  | enqueue new =>
      refine (changed ?_).elim
      simp only [step, enqueue]
      split
      · rfl
      · cases state.queue.insert (new.job state.clock) <;> rfl
  | prune ids => exact (changed rfl).elim
  | wait seconds => exact (changed rfl).elim

end Statuses

/-- What holds of the job queue after the steps of a run. -/
structure JobMachine (acts : List Act) (state : State) : Prop where
  /-- A running job changes by the end of its lease, or by its verdict in the one pair of
  hands that holds the attempt while the lease lasts. -/
  published : ∀ act id before after, state.job id = some before →
    (step act state).job id = some after → before.state = .running → after ≠ before →
      (before.expired state.clock = true ∧
        (after = before.swept state.clock ∨ after = before.lost)) ∨
      ∃ worker copy, Holds state worker copy before ∧
        Written state.clock before act worker copy after ∧
          ∀ other ∈ state.held, other.2.id = id → other.2.attempts = before.attempts →
            other = (worker, copy)
  /-- A status is published with a row. -/
  reported : ∀ act id, (step act state).statuses id ≠ state.statuses id →
    Moved state (step act state) id
  final : ∀ id job, state.job id = some job → job.settled →
    ∀ later row, (run step later state).job id = some row → row = job
  /-- An orphan that is no websub ping can become uncertain only, and nobody gets it again. -/
  orphaned : ∀ id job, state.job id = some job → job.state = .running → job.kind ≠ .websub →
    job.expired state.clock = true → ∀ later,
      (∀ row, (run step later state).job id = some row → row = job ∨ row = job.lost) ∧
        ∀ entry ∈ (run step later state).held, entry.2.id = id → entry ∈ state.held
  /-- As long as there is an orphan, a claim that reaches the queue sweeps one. -/
  swept : ∀ worker world id job, state.job id = some job → job.state = .running →
    job.expired state.clock = true → world.stopping = false → world.generation = .ok () →
    world.quarantined = false →
      ∃ first, state.job first.id = some first ∧ first.state = .running ∧
        first.expired state.clock = true ∧
          (step (.claim worker world) state).job first.id = some (first.swept state.clock) ∧
            (step (.claim worker world) state).held = state.held
  attempts : ∀ id job, state.job id = some job → job.attempts ≤ 8
  limited : ∀ worker world next job ref, claim world state = .ok (next, .execute job) →
    job.kind = .tool ref → ∃ limit, world.toolConcurrency ref = .ok limit ∧
      (step (.claim worker world) state).runningOf ref.id ≤ limit
  bounded : ∀ bound : String → Nat, (∀ act ∈ acts, act.within bound) →
    ∀ tool, state.runningOf tool ≤ bound tool

section Machine

variable {state : State}

theorem published_step (ordered : Ordered state) {act : Act} {id : String}
    {before after : EffectJob} (found : state.job id = some before)
    (there : (step act state).job id = some after) (running : before.state = .running)
    (changed : after ≠ before) :
    (before.expired state.clock = true ∧
        (after = before.swept state.clock ∨ after = before.lost)) ∨
      ∃ worker copy, Holds state worker copy before ∧
        Written state.clock before act worker copy after ∧
          ∀ other ∈ state.held, other.2.id = id → other.2.attempts = before.attempts →
            other = (worker, copy) := by
  cases step_row there with
  | fresh does absent unissued same shape =>
      rw [absent] at found
      cases found
  | row older moves =>
      rw [older] at found
      cases found
      cases moves with
      | kept => exact (changed rfl).elim
      | swept _ ended => exact Or.inl ⟨ended, Or.inl rfl⟩
      | lost _ ended => exact Or.inl ⟨ended, Or.inr rfl⟩
      | claimed does pending =>
          rw [running] at pending
          cases pending
      | refused does pending =>
          rw [running] at pending
          cases pending
      | @written worker copy _ does holds =>
          refine Or.inr ⟨worker, copy, holds, does, ?_⟩
          intro other held same attempt
          apply ordered.sole other held (worker, copy) holds.held
          · rw [same, holds.same, job_id older]
          · rw [attempt, holds.attempt]

theorem swept_step {worker : String} {world : World} {id : String} {job : EffectJob}
    (found : state.job id = some job) (running : job.state = .running)
    (ended : job.expired state.clock = true) (going : world.stopping = false)
    (current : world.generation = .ok ()) (normal : world.quarantined = false) :
    ∃ first, state.job first.id = some first ∧ first.state = .running ∧
      first.expired state.clock = true ∧
        (step (.claim worker world) state).job first.id = some (first.swept state.clock) ∧
          (step (.claim worker world) state).held = state.held := by
  obtain ⟨first, member, firstRuns, firstEnded, claimed⟩ :=
    claim_sweeps going current normal (mem_of_job found) running ended
  refine ⟨first, job_of_mem member, firstRuns, firstEnded, ?_, ?_⟩
  · simp only [step, claimed, holding_job, job_setStatus]
    have found : state.job (first.swept state.clock).id = some first := by
      rw [swept_id]
      exact job_of_mem member
    rw [← swept_id first state.clock]
    exact job_saved found
  · simp only [step, claimed]
    rfl

theorem limited_step {worker : String} {world : World} {next : State} {job : EffectJob}
    {ref : ResourceRef} (claimed : claim world state = .ok (next, .execute job))
    (kind : job.kind = .tool ref) : ∃ limit, world.toolConcurrency ref = .ok limit ∧
      (step (.claim worker world) state).runningOf ref.id ≤ limit := by
  have shape : (step (.claim worker world) state).runningOf ref.id = next.runningOf ref.id := by
    simp only [step, claimed, holding_running]
  rw [shape]
  cases claim_cases claimed with
  | @taken before member pending live free =>
      obtain ⟨limit, read, room⟩ := free ref kind
      have added := runningOf_save_succ state (before.claimed state.clock world.leaseSeconds) ref.id
      exact ⟨limit, read, by omega⟩

end Machine

end MsgServer.Leases
