import Mathlib.Data.List.Sort
import MsgServer.Library.Totals
import MsgServer.Workers.Leases

/-!
What one step does to the queue of effect jobs. Each transaction has a lemma that lists
its outcomes (`Claims`, `Fenced`), and each row of the next state comes from a row that
moved in one of a few ways (`RowStep`) or from a new job. Copies come into a worker's
hands by a claim only (`Beside`).
-/

namespace MsgServer.Leases

open Library Library.Run

@[simp] theorem job_setStatus (state : State) (id : String) (status : Status) (wanted : String) :
    (state.setStatus id status).job wanted = state.job wanted := rfl

theorem job_id {state : State} {id : String} {job : EffectJob} (found : state.job id = some job) :
    job.id = id := Table.find?_key found

theorem job_of_mem {state : State} {job : EffectJob} (member : job ∈ state.queue.rows) :
    state.job job.id = some job := (Table.mem_iff_find? _ _).mp member

theorem mem_of_job {state : State} {id : String} {job : EffectJob}
    (found : state.job id = some job) : job ∈ state.queue.rows := Table.find?_mem found

/-- A save rewrites the row of its id, if there is one, and no other. -/
theorem job_save {state : State} {job : EffectJob} {id : String} {after : EffectJob}
    (found : (state.save job).job id = some after) :
    (id ≠ job.id ∧ state.job id = some after) ∨ (id = job.id ∧ after = job) := by
  by_cases same : id = job.id
  · right
    refine ⟨same, ?_⟩
    rw [State.job, State.save, Table.find?_modify, if_pos same] at found
    obtain ⟨old, before, shape⟩ := Option.map_eq_some_iff.mp found
    rw [← shape, Table.rekeyed_of_key]
    rw [Table.find?_key before, same]
  · left
    refine ⟨same, ?_⟩
    rw [State.job, State.save, Table.find?_modify_ne _ _ same] at found
    exact found

theorem job_saved {state : State} {job old : EffectJob} (found : state.job job.id = some old) :
    (state.save job).job job.id = some job := by
  rw [State.job, State.save, Table.find?_modify, if_pos rfl]
  have stored : state.queue.find? job.id = some old := found
  rw [stored, Option.map_some, Table.rekeyed_of_key]
  exact (job_id found).symm

@[simp] theorem swept_id (job : EffectJob) (now : Nat) : (job.swept now).id = job.id := by
  unfold EffectJob.swept
  split
  · split <;> rfl
  · rfl

@[simp] theorem swept_attempts (job : EffectJob) (now : Nat) :
    (job.swept now).attempts = job.attempts := by
  unfold EffectJob.swept
  split
  · split <;> rfl
  · rfl

@[simp] theorem retried_id (job : EffectJob) (now : Nat) : (job.retried now).id = job.id := by
  unfold EffectJob.retried
  split <;> rfl

@[simp] theorem retried_attempts (job : EffectJob) (now : Nat) :
    (job.retried now).attempts = job.attempts := by
  unfold EffectJob.retried
  split <;> rfl

/-- A job is swept to an end, or back into the queue with attempts to spare. -/
theorem swept_state (job : EffectJob) (now : Nat) :
    (job.swept now).state ≠ .running ∧
      ((job.swept now).state = .pending → job.attempts < maxAttempts) := by
  unfold EffectJob.swept
  split
  · split
    · simp
    · rename_i left
      simpa using left
  · simp

theorem retried_state (job : EffectJob) (now : Nat) :
    (job.retried now).state ≠ .running ∧
      ((job.retried now).state = .pending → job.attempts < maxAttempts) := by
  unfold EffectJob.retried
  split
  · simp
  · rename_i left
    simpa using left

theorem expired_later {job : EffectJob} {now later : Nat} (ended : job.expired now = true)
    (order : now ≤ later) : job.expired later = true := by
  unfold EffectJob.expired at *
  cases lease : job.leaseUntil with
  | none => rfl
  | some bound =>
      rw [lease] at ended
      simp only [decide_eq_true_eq] at *
      exact le_trans ended order

theorem mem_inOrder {jobs : List EffectJob} {job : EffectJob} :
    job ∈ inOrder jobs ↔ job ∈ jobs := (List.mergeSort_perm jobs _).mem_iff

theorem mem_running {state : State} {job : EffectJob} :
    job ∈ state.running ↔ job ∈ state.queue.rows ∧ job.state = .running := by
  simp [State.running, mem_inOrder]

theorem mem_due {state : State} {job : EffectJob} :
    job ∈ state.due ↔
      job ∈ state.queue.rows ∧ job.state = .pending ∧ job.nextAttemptAt ≤ state.clock := by
  simp [State.due, mem_inOrder]

section Scans

variable {now : Nat} {running counts : String → Nat} {jobs : List EffectJob}

theorem scanRunning_ok (scanned : scanRunning now running jobs = .ok counts) :
    (∀ job ∈ jobs, job.expired now = false) ∧
      ∀ tool, counts tool = running tool + (jobs.filter fun job => job.runs tool).length := by
  induction jobs generalizing running with
  | nil =>
      cases scanned
      exact ⟨by simp, by simp⟩
  | cons job rest ih =>
      unfold scanRunning at scanned
      split at scanned
      · cases scanned
      · rename_i live
        obtain ⟨rest_live, counted⟩ := ih scanned
        refine ⟨by simpa using ⟨by simpa using live, rest_live⟩, ?_⟩
        intro tool
        rw [counted tool, List.filter_cons]
        unfold tally
        split
        · simp
          omega
        · rfl

theorem scanRunning_error {job : EffectJob} (scanned : scanRunning now running jobs = .error job) :
    job ∈ jobs ∧ job.expired now = true := by
  induction jobs generalizing running with
  | nil => cases scanned
  | cons head rest ih =>
      unfold scanRunning at scanned
      split at scanned
      · rename_i ended
        cases scanned
        exact ⟨by simp, ended⟩
      · obtain ⟨later, ended⟩ := ih scanned
        exact ⟨List.mem_cons_of_mem _ later, ended⟩

end Scans

/-- The running jobs of one tool. -/
def State.runningOf (state : State) (tool : String) : Nat :=
  state.queue.count fun job => decide (job.state = .running) && job.runs tool

theorem running_count (state : State) (tool : String) :
    (state.running.filter fun job => job.runs tool).length = state.runningOf tool := by
  have reordered := (List.mergeSort_perm
    (state.queue.rows.filter fun job => decide (job.state = .running))
    fun left right => decide (left.nextAttemptAt < right.nextAttemptAt ∨
      (left.nextAttemptAt = right.nextAttemptAt ∧ left.id ≤ right.id))).filter fun job =>
        job.runs tool
  rw [State.running, inOrder, reordered.length_eq, List.filter_filter, State.runningOf, Table.count]
  simp only [Bool.and_comm]

/-- Everything one claim can do, with what it has found out. -/
inductive Claims (world : World) (state : State) : State → Claim → Prop
  | idle : Claims world state state .nothing
  | orphan {job : EffectJob} (member : job ∈ state.queue.rows) (running : job.state = .running)
      (ended : job.expired state.clock = true) (code : Status) :
      Claims world state ((state.save (job.swept state.clock)).setStatus job.id code) (.handled job)
  | refused {job : EffectJob} (member : job ∈ state.queue.rows) (pending : job.state = .pending)
      (code : Status) :
      Claims world state
        ((state.save { job with state := .failed, leaseUntil := none }).setStatus job.id code)
        (.handled job)
  | taken {job : EffectJob} (member : job ∈ state.queue.rows) (pending : job.state = .pending)
      (live : ∀ other ∈ state.queue.rows, other.state = .running →
        other.expired state.clock = false)
      (free : ∀ ref, job.kind = .tool ref →
        ∃ limit, world.toolConcurrency ref = .ok limit ∧ state.runningOf ref.id < limit) :
      Claims world state (state.save (job.claimed state.clock world.leaseSeconds))
        (.execute (job.claimed state.clock world.leaseSeconds))

section Claiming

variable {world : World} {state next : State} {claimed : Claim}

theorem take_cases {job : EffectJob} (member : job ∈ state.queue.rows)
    (pending : job.state = .pending)
    (live : ∀ other ∈ state.queue.rows, other.state = .running →
      other.expired state.clock = false)
    (free : ∀ ref, job.kind = .tool ref →
      ∃ limit, world.toolConcurrency ref = .ok limit ∧ state.runningOf ref.id < limit)
    (done : take world state job = (next, claimed)) : Claims world state next claimed := by
  unfold take at done
  split at done
  · cases done
    exact .idle
  · cases done
    exact .taken member pending live free

theorem scanDue_cases {running : String → Nat} {jobs : List EffectJob}
    (present : ∀ job ∈ jobs, job ∈ state.queue.rows ∧ job.state = .pending)
    (live : ∀ other ∈ state.queue.rows, other.state = .running →
      other.expired state.clock = false)
    (counted : ∀ tool, running tool = state.runningOf tool)
    (done : scanDue world state running jobs = .ok (next, claimed)) :
    Claims world state next claimed := by
  induction jobs with
  | nil =>
      cases done
      exact .idle
  | cons job rest ih =>
      obtain ⟨member, pending⟩ := present job List.mem_cons_self
      have later := ih fun other inside => present other (List.mem_cons_of_mem _ inside)
      unfold scanDue at done
      split at done
      · rename_i ref kind
        split at done
        · split at done
          · cases done
          · cases done
            exact .refused member pending _
        · rename_i limit read
          split at done
          · exact later done
          · rename_i room
            refine take_cases member pending live ?_ (Except.ok.inj done)
            intro other same
            rw [kind] at same
            cases same
            refine ⟨limit, read, ?_⟩
            rw [← counted]
            exact Nat.lt_of_not_le room
      · rename_i noTool
        refine take_cases member pending live ?_ (Except.ok.inj done)
        intro ref same
        exact (noTool ref same).elim

theorem claimOpen_cases (done : claimOpen world state = .ok (next, claimed)) :
    Claims world state next claimed := by
  unfold claimOpen at done
  cases scanned : scanRunning state.clock (fun _ => 0) state.running with
  | error job =>
      rw [scanned] at done
      cases done
      obtain ⟨inside, ended⟩ := scanRunning_error scanned
      obtain ⟨member, running⟩ := mem_running.mp inside
      exact .orphan member running ended _
  | ok counts =>
      rw [scanned] at done
      obtain ⟨live, counted⟩ := scanRunning_ok scanned
      refine scanDue_cases ?_ ?_ ?_ done
      · intro job inside
        obtain ⟨member, pending, _⟩ := mem_due.mp inside
        exact ⟨member, pending⟩
      · intro other member running
        exact live other (mem_running.mpr ⟨member, running⟩)
      · intro tool
        rw [counted tool, running_count, Nat.zero_add]

theorem claim_cases (done : claim world state = .ok (next, claimed)) :
    Claims world state next claimed := by
  unfold claim at done
  split at done
  · cases done
    exact .idle
  · obtain ⟨_, _, rest⟩ := (Program.except_bind_ok _ _ _).mp done
    split at rest
    · cases rest
      exact .idle
    · exact claimOpen_cases rest

end Claiming

/-- What a worker's transaction does with the copy it holds: nothing, the verdict that the
lease is over, or its own verdict on the live attempt. -/
inductive Fenced (state : State) (copy : EffectJob) (verdict : EffectJob → EffectJob) : State → Prop
  | stale : Fenced state copy verdict state
  | lost {current : EffectJob} (found : state.job copy.id = some current)
      (running : current.state = .running) (ended : current.expired state.clock = true)
      (code : Status) :
      Fenced state copy verdict
        ((state.save { current with state := .uncertain, leaseUntil := none }).setStatus copy.id
          code)
  | written {current : EffectJob} (found : state.job copy.id = some current)
      (running : current.state = .running) (attempt : current.attempts = copy.attempts)
      (live : current.expired state.clock = false) (status : Status) :
      Fenced state copy verdict ((state.save (verdict current)).setStatus copy.id status)

section Publishing

variable {world : World} {state next : State} {copy : EffectJob}

theorem currentAttempt_cases {found : Option EffectJob}
    (done : currentAttempt state copy = .ok (next, found)) :
    (found = none ∧ ∀ verdict, Fenced state copy verdict next) ∨
      ∃ current, found = some current ∧ next = state ∧ state.job copy.id = some current ∧
        current.state = .running ∧ current.attempts = copy.attempts ∧
          current.expired state.clock = false := by
  unfold currentAttempt at done
  cases stored : state.job copy.id with
  | none => simp [stored] at done
  | some current =>
      simp only [stored] at done
      split at done
      · cases done
        exact Or.inl ⟨rfl, fun _ => .stale⟩
      · rename_i matching
        rw [not_or, not_not, not_not] at matching
        split at done
        · rename_i ended
          cases done
          exact Or.inl ⟨rfl, fun _ => .lost stored matching.1 ended _⟩
        · rename_i live
          cases done
          exact Or.inr ⟨current, rfl, rfl, rfl, matching.1, matching.2, by simpa using live⟩

theorem finish_cases {outcome : Outcome} {status : Status}
    (done : finish world copy outcome status state = .ok next) :
    Fenced state copy (fun job => { job with state := outcome.state, leaseUntil := none }) next := by
  simp only [finish, Program.except_bind_ok] at done
  obtain ⟨_, _, ⟨middle, found⟩, read, rest⟩ := done
  rcases currentAttempt_cases read with ⟨rfl, fenced⟩ |
    ⟨current, rfl, rfl, stored, running, attempt, live⟩
  · cases rest
    exact fenced _
  · cases rest
    exact .written stored running attempt live status

theorem retry_cases {retryCode exhaustedCode : String}
    (done : retry world copy retryCode exhaustedCode state = .ok next) :
    Fenced state copy (fun job => job.retried state.clock) next := by
  simp only [retry, Program.except_bind_ok] at done
  obtain ⟨_, _, ⟨middle, found⟩, read, rest⟩ := done
  rcases currentAttempt_cases read with ⟨rfl, fenced⟩ |
    ⟨current, rfl, rfl, stored, running, attempt, live⟩
  · cases rest
    exact fenced _
  · cases rest
    exact .written stored running attempt live _

theorem publish_cases {commit : Except Failure Unit} {result : Option ResourceRef}
    {status : Status} (done : publish world copy commit result status state = .ok next) :
    Fenced state copy
      (fun job => { job with state := .done, result := result, leaseUntil := none }) next := by
  simp only [publish, Program.except_bind_ok] at done
  obtain ⟨_, _, ⟨middle, found⟩, read, rest⟩ := done
  rcases currentAttempt_cases read with ⟨rfl, fenced⟩ |
    ⟨current, rfl, rfl, stored, running, attempt, live⟩
  · cases rest
    exact fenced _
  · obtain ⟨_, _, written⟩ := (Program.except_bind_ok _ _ _).mp rest
    cases written
    exact .written stored running attempt live status

end Publishing

/-- The verdict of a worker's act on the live attempt of the copy it holds. -/
inductive Written (now : Nat) (before : EffectJob) : Act → String → EffectJob → EffectJob → Prop
  | finish (worker : String) (world : World) (copy : EffectJob) (outcome : Outcome)
      (status : Status) :
      Written now before (.finish worker world copy outcome status) worker copy
        { before with state := outcome.state, leaseUntil := none }
  | retry (worker : String) (world : World) (copy : EffectJob) (retryCode exhaustedCode : String) :
      Written now before (.retry worker world copy retryCode exhaustedCode) worker copy
        (before.retried now)
  | publish (worker : String) (world : World) (copy : EffectJob) (commit : Except Failure Unit)
      (result : Option ResourceRef) (status : Status) :
      Written now before (.publish worker world copy commit result status) worker copy
        { before with state := .done, result := result, leaseUntil := none }

/-- A worker holds the current attempt of a job, and its lease is not over. -/
structure Holds (state : State) (worker : String) (copy job : EffectJob) : Prop where
  held : (worker, copy) ∈ state.held
  same : copy.id = job.id
  attempt : copy.attempts = job.attempts
  running : job.state = .running
  live : job.expired state.clock = false

/-- Everything a step can do to one row. -/
inductive RowStep (state : State) (act : Act) (before : EffectJob) : EffectJob → Prop
  | kept : RowStep state act before before
  | swept (running : before.state = .running) (ended : before.expired state.clock = true) :
      RowStep state act before (before.swept state.clock)
  | lost (running : before.state = .running) (ended : before.expired state.clock = true) :
      RowStep state act before { before with state := .uncertain, leaseUntil := none }
  | claimed {worker : String} {world : World} (does : act = .claim worker world)
      (pending : before.state = .pending) :
      RowStep state act before (before.claimed state.clock world.leaseSeconds)
  | refused {worker : String} {world : World} (does : act = .claim worker world)
      (pending : before.state = .pending) :
      RowStep state act before { before with state := .failed, leaseUntil := none }
  | written {worker : String} {copy after : EffectJob}
      (does : Written state.clock before act worker copy after)
      (holds : Holds state worker copy before) : RowStep state act before after

/-- Where a row of the next state comes from. -/
inductive Origin (state : State) (act : Act) (id : String) (after : EffectJob) : Prop
  | row {before : EffectJob} (found : state.job id = some before)
      (moves : RowStep state act before after)
  | fresh {new : NewJob} (does : act = .enqueue new) (absent : state.job id = none)
      (unissued : id ∉ state.issued) (same : new.id = id) (shape : after = new.job state.clock)

section Steps

variable {state : State} {act : Act} {id : String} {after : EffectJob}

/-- A saved row moves as the row it replaces; the others stay. -/
theorem save_row {before job : EffectJob} {code : Status} {wanted : String}
    (found : state.job before.id = some before) (same : job.id = before.id)
    (moves : RowStep state act before job)
    (there : ((state.save job).setStatus wanted code).job id = some after) :
    Origin state act id after := by
  rw [job_setStatus] at there
  rcases job_save there with ⟨_, older⟩ | ⟨rfl, rfl⟩
  · exact .row older .kept
  · rw [← same] at found
    exact .row found moves

theorem claims_row {worker : String} {world : World} {next : State} {claimed : Claim}
    (done : Claims world state next claimed) (there : next.job id = some after) :
    Origin state (.claim worker world) id after := by
  cases done with
  | idle => exact .row there .kept
  | orphan member running ended code =>
      exact save_row (job_of_mem member) (swept_id _ _) (.swept running ended) there
  | refused member pending code =>
      refine save_row (job_of_mem member) ?_ (.refused rfl pending) there
      rfl
  | @taken job member pending live free =>
      have found := job_of_mem member
      rcases job_save there with ⟨_, older⟩ | ⟨rfl, rfl⟩
      · exact .row older .kept
      · exact .row found (.claimed rfl pending)

theorem fenced_row {worker : String} {copy : EffectJob} {verdict : EffectJob → EffectJob}
    {next : State} (keeps : ∀ job, (verdict job).id = job.id)
    (does : ∀ before, Written state.clock before act worker copy (verdict before))
    (held : (worker, copy) ∈ state.held) (done : Fenced state copy verdict next)
    (there : next.job id = some after) : Origin state act id after := by
  cases done with
  | stale => exact .row there .kept
  | lost found running ended code =>
      have same := job_id found
      rw [← same] at found
      refine save_row found ?_ (.lost running ended) there
      rfl
  | written found running attempt live status =>
      have same := job_id found
      rw [← same] at found
      exact save_row found (keeps _)
        (.written (does _) ⟨held, same.symm, attempt.symm, running, live⟩) there

theorem acting_row {worker : String} {copy : EffectJob} {verdict : EffectJob → EffectJob}
    {body : State → Except Failure State} (keeps : ∀ job, (verdict job).id = job.id)
    (does : ∀ before, Written state.clock before act worker copy (verdict before))
    (cases_of : ∀ next, body state = .ok next → Fenced state copy verdict next)
    (there : (acting worker copy state body).job id = some after) : Origin state act id after := by
  unfold acting at there
  split at there
  · rename_i held
    cases ran : body state with
    | error failure =>
        rw [ran] at there
        exact .row there .kept
    | ok next =>
        rw [ran] at there
        exact fenced_row keeps does held (cases_of next ran) there
  · exact .row there .kept

theorem holding_job (worker : String) (claimed : Claim) (wanted : String) :
    (holding worker state claimed).job wanted = state.job wanted := by
  cases claimed <;> rfl

theorem newJob_id (new : NewJob) (now : Nat) : (new.job now).id = new.id := by
  unfold NewJob.job
  split <;> rfl

theorem enqueue_row {new : NewJob} (there : (enqueue new state).job id = some after) :
    Origin state (.enqueue new) id after := by
  unfold enqueue at there
  split at there
  · exact .row there .kept
  · rename_i allowed
    rw [not_or] at allowed
    cases inserted : state.queue.insert (new.job state.clock) with
    | none =>
        rw [inserted] at there
        exact .row there .kept
    | some queue =>
        rw [inserted] at there
        have there : queue.find? id = some after := there
        rw [Table.find?_insert inserted] at there
        have absent := Table.insert_fresh inserted
        rw [newJob_id] at there absent
        split at there
        · rename_i same
          cases there
          subst same
          exact .fresh rfl absent allowed.1 rfl rfl
        · exact .row there .kept

theorem prune_row {ids : List String} (there : (prune ids state).job id = some after) :
    state.job id = some after := by
  unfold prune at there
  have there : (state.queue.keep _).find? id = some after := there
  rw [Table.find?_keep] at there
  exact (Option.filter_eq_some_iff.mp there).1

/-- The step lemma: every row of the next state and where it comes from. -/
theorem step_row (there : (step act state).job id = some after) : Origin state act id after := by
  cases act with
  | claim worker world =>
      simp only [step] at there
      cases ran : claim world state with
      | error failure =>
          rw [ran] at there
          exact .row there .kept
      | ok outcome =>
          rw [ran] at there
          have there : (holding worker outcome.1 outcome.2).job id = some after := there
          rw [holding_job] at there
          exact claims_row (claim_cases ran) there
  | finish worker world job outcome status =>
      refine acting_row ?_ (fun _ => .finish worker world job outcome status) ?_ there
      · intro other
        rfl
      · intro next done
        exact finish_cases done
  | retry worker world job retryCode exhaustedCode =>
      refine acting_row ?_ (fun _ => .retry worker world job retryCode exhaustedCode) ?_ there
      · intro other
        exact retried_id other state.clock
      · intro next done
        exact retry_cases done
  | publish worker world job commit result status =>
      refine acting_row ?_ (fun _ => .publish worker world job commit result status) ?_ there
      · intro other
        rfl
      · intro next done
        exact publish_cases done
  | crash worker => exact .row there .kept
  | enqueue new => exact enqueue_row there
  | prune ids => exact .row (prune_row there) .kept
  | wait seconds => exact .row there .kept

theorem fenced_rest {copy : EffectJob} {verdict : EffectJob → EffectJob} {next : State}
    (done : Fenced state copy verdict next) :
    next.held = state.held ∧ next.issued = state.issued ∧ next.clock = state.clock := by
  cases done <;> exact ⟨rfl, rfl, rfl⟩

theorem acting_rest {worker : String} {copy : EffectJob} {verdict : EffectJob → EffectJob}
    {body : State → Except Failure State}
    (cases_of : ∀ next, body state = .ok next → Fenced state copy verdict next) :
    (acting worker copy state body).held = state.held ∧
      (acting worker copy state body).issued = state.issued ∧
        (acting worker copy state body).clock = state.clock := by
  unfold acting
  split
  · cases ran : body state with
    | error failure => exact ⟨rfl, rfl, rfl⟩
    | ok next => exact fenced_rest (cases_of next ran)
  · exact ⟨rfl, rfl, rfl⟩

/-- What a step does beside the rows. A copy comes into a worker's hands by a claim only,
which saves the row it hands out. -/
structure Beside (state : State) (act : Act) (next : State) : Prop where
  clock : state.clock ≤ next.clock
  issued : ∀ id ∈ state.issued, id ∈ next.issued
  held : ∀ entry ∈ next.held, entry ∈ state.held ∨
    ∃ world before, act = .claim entry.1 world ∧ state.job entry.2.id = some before ∧
      before.state = .pending ∧ entry.2 = before.claimed state.clock world.leaseSeconds ∧
        next.job entry.2.id = some entry.2

theorem beside_of_rest {next : State} (same : next.held = state.held ∧
    next.issued = state.issued ∧ next.clock = state.clock) : Beside state act next := by
  obtain ⟨held, issued, clock⟩ := same
  refine ⟨Nat.le_of_eq clock.symm, ?_, ?_⟩
  · intro id known
    rw [issued]
    exact known
  · intro entry inside
    rw [held] at inside
    exact Or.inl inside

theorem claims_beside {worker : String} {world : World} {next : State} {claimed : Claim}
    (done : Claims world state next claimed) :
    Beside state (.claim worker world) (holding worker next claimed) := by
  cases done with
  | idle => exact beside_of_rest ⟨rfl, rfl, rfl⟩
  | orphan member running ended code => exact beside_of_rest ⟨rfl, rfl, rfl⟩
  | refused member pending code => exact beside_of_rest ⟨rfl, rfl, rfl⟩
  | @taken job member pending live free =>
      refine ⟨le_rfl, fun _ => id, ?_⟩
      intro entry inside
      rcases List.mem_cons.mp inside with rfl | older
      · have found := job_of_mem member
        exact Or.inr ⟨world, job, rfl, found, pending, rfl, job_saved found⟩
      · exact Or.inl older

theorem enqueue_beside (new : NewJob) : Beside state (.enqueue new) (enqueue new state) := by
  unfold enqueue
  split
  · exact beside_of_rest ⟨rfl, rfl, rfl⟩
  · cases inserted : state.queue.insert (new.job state.clock) with
    | none => exact beside_of_rest ⟨rfl, rfl, rfl⟩
    | some queue =>
        refine ⟨le_rfl, ?_, fun _ => Or.inl⟩
        intro id known
        exact List.mem_cons_of_mem _ known

theorem step_beside (act : Act) : Beside state act (step act state) := by
  cases act with
  | claim worker world =>
      simp only [step]
      cases ran : claim world state with
      | error failure => exact beside_of_rest ⟨rfl, rfl, rfl⟩
      | ok outcome => exact claims_beside (claim_cases ran)
  | finish worker world job outcome status =>
      exact beside_of_rest (acting_rest fun next done => finish_cases done)
  | retry worker world job retryCode exhaustedCode =>
      exact beside_of_rest (acting_rest fun next done => retry_cases done)
  | publish worker world job commit result status =>
      exact beside_of_rest (acting_rest fun next done => publish_cases done)
  | crash worker =>
      refine ⟨le_rfl, fun _ => id, ?_⟩
      intro entry inside
      exact Or.inl (List.mem_filter.mp inside).1
  | enqueue new => exact enqueue_beside new
  | prune ids => exact beside_of_rest ⟨rfl, rfl, rfl⟩
  | wait seconds => exact ⟨Nat.le_add_right _ _, fun _ => id, fun _ => Or.inl⟩

/-- A row that appears has its id issued with it. -/
theorem fresh_issued (there : (step act state).job id = some after)
    (absent : state.job id = none) : id ∈ (step act state).issued := by
  cases step_row there with
  | row found moves =>
      rw [absent] at found
      cases found
  | @fresh new does _ unissued same shape =>
      subst does same
      simp only [step, enqueue] at there ⊢
      split
      · rename_i refused
        rw [if_pos refused, absent] at there
        cases there
      · rename_i allowed
        rw [if_neg allowed] at there
        cases inserted : state.queue.insert (new.job state.clock) with
        | none =>
            rw [inserted] at there
            exact (Option.some_ne_none _ (there.symm.trans absent)).elim
        | some queue => exact List.mem_cons_self

end Steps

end MsgServer.Leases
