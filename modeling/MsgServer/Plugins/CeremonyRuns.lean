import Mathlib.Data.List.Nodup
import MsgServer.Plugins.Ceremonies

/-!
What every run of ceremonies keeps: an active ceremony is a ladder in the trace that ends
in its open question, no nonce was accepted twice, and every grant stands on a ladder of
four right answers and a confirmation.
-/

namespace MsgServer.Achievements

open Library

/-- The reply answers the question rightly, within its round and within the ceremony. -/
structure Answers (started : Nat) (issue : Issue) (reply : Reply) : Prop where
  challenge : reply.challengeId = issue.challengeId
  subject : reply.subject = issue.subject
  round : reply.round = issue.round
  nonce : reply.nonce = issue.nonce
  text : reply.text = issue.solution
  timely : reply.time < issue.time + roundTtl
  within : reply.time < started + ceremonyTtl

/-- The facts of one ceremony of the subject, up to the question that is open in the round. -/
inductive Ladder (challengeId subject : String) (started : Nat) :
    Nat → List Fact → Issue → Prop where
  | first (issue : Issue) (own : issue.challengeId = challengeId ∧ issue.subject = subject)
      (first : issue.round = 1 ∧ issue.time = started) :
      Ladder challengeId subject started 1 [.issued issue] issue
  | next {round : Nat} {facts : List Fact} {issue : Issue}
      (ladder : Ladder challengeId subject started round facts issue) (reply : Reply)
      (answers : Answers started issue reply) (issue' : Issue)
      (own : issue'.challengeId = challengeId ∧ issue'.subject = subject)
      (later : issue'.round = round + 1) :
      Ladder challengeId subject started (round + 1)
        (facts ++ [.replied reply, .issued issue']) issue'

/-- Four right answers in order and the confirmation, in the order of the trace. -/
def Attested (trace : List Fact) (challengeId subject : String) : Prop :=
  ∃ started facts issue reply, Ladder challengeId subject started 5 facts issue ∧
    Answers started issue reply ∧ (facts ++ [Fact.replied reply]).Sublist trace

theorem Ladder.issue_own {challengeId subject : String} {started round : Nat} {facts : List Fact}
    {issue : Issue} (ladder : Ladder challengeId subject started round facts issue) :
    issue.challengeId = challengeId ∧ issue.subject = subject ∧ issue.round = round := by
  cases ladder with
  | first _ own first => exact ⟨own.1, own.2, first.1⟩
  | next _ _ _ _ own later => exact ⟨own.1, own.2, later⟩

theorem Ladder.issue_mem {challengeId subject : String} {started round : Nat} {facts : List Fact}
    {issue : Issue} (ladder : Ladder challengeId subject started round facts issue) :
    .issued issue ∈ facts := by
  cases ladder with
  | first => simp
  | next => simp

/-- What the trace says about an active ceremony. -/
structure Current (trace : List Fact) (row : Ceremony) (facts : List Fact) (issue : Issue) :
    Prop where
  ladder : Ladder row.id row.subjectId row.startedAt row.round facts issue
  listed : facts.Sublist trace
  question : row.questionDigest = issue.questionDigest
  nonce : row.nonceDigest = some ⟨issue.nonce⟩
  deadline : row.roundExpiresAt = issue.time + roundTtl
  ending : row.expiresAt = row.startedAt + ceremonyTtl
  expected : row.round ≤ 4 → row.expectedDigest = some ⟨issue.solution⟩
  last : row.round = 5 → issue.solution = finalStatement
  unused : issue.nonce ∉ accepted trace

structure Sound (state : State) : Prop where
  current : ∀ id row, state.db.ceremonies.find? id = some row → row.status = .active →
    ∃ facts issue, Current state.trace row facts issue
  known : ∀ id row, state.db.ceremonies.find? id = some row →
    ∃ issue ∈ issues state.trace, issue.challengeId = id
  single : ∀ id row other second, state.db.ceremonies.find? id = some row →
    state.db.ceremonies.find? other = some second → row.subjectId = second.subjectId → id = other
  nonces : ((issues state.trace).map Issue.nonce).Nodup
  once : (accepted state.trace).Nodup
  spent : ∀ nonce ∈ accepted state.trace, ∃ issue ∈ issues state.trace, issue.nonce = nonce
  grants : ∀ grant ∈ state.db.grants.rows,
    Attested state.trace grant.evidenceDigest.challengeId grant.subjectId
  honors : (state.db.grants.rows.map Grant.honor).Nodup

/-! The trace and the tables, one change at a time. -/

@[simp] theorem issues_append (trace more : List Fact) :
    issues (trace ++ more) = issues trace ++ issues more := List.filterMap_append

@[simp] theorem replies_append (trace more : List Fact) :
    replies (trace ++ more) = replies trace ++ replies more := List.filterMap_append

@[simp] theorem accepted_append (trace more : List Fact) :
    accepted (trace ++ more) = accepted trace ++ accepted more := by
  simp [accepted]

@[simp] theorem issues_issued (issue : Issue) : issues [.issued issue] = [issue] := rfl

@[simp] theorem issues_replied (reply : Reply) : issues [.replied reply] = [] := rfl

@[simp] theorem issues_turn (reply : Reply) (issue : Issue) :
    issues [.replied reply, .issued issue] = [issue] := rfl

@[simp] theorem accepted_issued (issue : Issue) : accepted [.issued issue] = [] := rfl

@[simp] theorem accepted_replied (reply : Reply) : accepted [.replied reply] = [reply.nonce] := rfl

@[simp] theorem accepted_turn (reply : Reply) (issue : Issue) :
    accepted [.replied reply, .issued issue] = [reply.nonce] := rfl

theorem mem_issues {trace : List Fact} {issue : Issue} :
    issue ∈ issues trace ↔ .issued issue ∈ trace := by
  simp only [issues, List.mem_filterMap]
  constructor
  · rintro ⟨fact, inside, shape⟩
    cases fact with
    | issued other =>
        cases shape
        exact inside
    | replied reply => cases shape
  · intro inside
    exact ⟨.issued issue, inside, rfl⟩

theorem Attested.extend {trace : List Fact} {challengeId subject : String}
    (attested : Attested trace challengeId subject) (more : List Fact) :
    Attested (trace ++ more) challengeId subject := by
  obtain ⟨started, facts, issue, reply, ladder, answers, listed⟩ := attested
  exact ⟨started, facts, issue, reply, ladder, answers,
    listed.trans (List.sublist_append_left trace more)⟩

theorem Current.issue_mem {trace : List Fact} {row : Ceremony} {facts : List Fact} {issue : Issue}
    (current : Current trace row facts issue) : issue ∈ issues trace :=
  mem_issues.mpr (current.listed.subset current.ladder.issue_mem)

theorem Current.extend {trace : List Fact} {row : Ceremony} {facts : List Fact} {issue : Issue}
    (current : Current trace row facts issue) {more : List Fact}
    (unused : issue.nonce ∉ accepted more) : Current (trace ++ more) row facts issue :=
  { current with
    listed := current.listed.trans (List.sublist_append_left trace more)
    unused := by
      rw [accepted_append, List.mem_append]
      exact fun either => either.elim current.unused unused }

/-- Of two questions with one nonce there is only one. -/
theorem Sound.issue_eq {state : State} (sound : Sound state) {left right : Issue}
    (inLeft : left ∈ issues state.trace) (inRight : right ∈ issues state.trace)
    (same : left.nonce = right.nonce) : left = right :=
  List.inj_on_of_nodup_map sound.nonces inLeft inRight same

theorem save_found {db : Database} {old : Ceremony} {id : String}
    (found : db.ceremonies.find? id = some old) (row : Ceremony) (same : row.id = old.id)
    (other : String) :
    (save db row).ceremonies.find? other =
      if other = id then some row else db.ceremonies.find? other := by
  have key := Table.find?_key found
  have named : row.id = id := same.trans key
  simp only [save, named, Table.find?_modify]
  by_cases here : other = id
  · subst here
    simp only [↓reduceIte, found, Option.map_some, Option.some.injEq]
    exact Table.rekeyed_of_key same
  · simp [here]

theorem begun_found {db : Database} {subject : String} {row : Ceremony}
    {ceremonies : Table Ceremony.id}
    (inserted : (db.ceremonies.keep fun row => row.subjectId != subject).insert row =
      some ceremonies) {id : String} {other : Ceremony}
    (found : ceremonies.find? id = some other) :
    id = row.id ∧ other = row ∨
      id ≠ row.id ∧ db.ceremonies.find? id = some other ∧ other.subjectId ≠ subject := by
  rw [Table.find?_insert inserted] at found
  by_cases mine : row.id = id
  · rw [if_pos mine] at found
    cases found
    exact Or.inl ⟨mine.symm, rfl⟩
  · rw [if_neg mine, Table.find?_keep, Option.filter_eq_some_iff] at found
    exact Or.inr ⟨Ne.symm mine, found.1, by simpa using found.2⟩

/-! A new ceremony. -/

theorem solution_expected {round : Nat} (code : Fin 9999) (early : round ≤ 4) :
    (solution round code).map Digest.mk = some ⟨(solution round code).getD finalStatement⟩ := by
  unfold solution
  by_cases declared : round ≤ 3
  · simp [declared]
  · have fourth : round = 4 := by omega
    simp [fourth]

theorem solution_final {round : Nat} (code : Fin 9999) (last : round = 5) :
    (solution round code).getD finalStatement = finalStatement := by
  subst last
  rfl

/-- The question that `openRound` puts to a ceremony. -/
def opened (row : Ceremony) (now : Nat) (draws : Draws) : Issue :=
  ⟨row.id, row.subjectId, row.round, ⟨questionOf row.round draws.code⟩, draws.nonce,
    (solution row.round draws.code).getD finalStatement, now⟩

theorem presented_current {trace facts : List Fact} {row : Ceremony} {now : Nat} {draws : Draws}
    (ladder : Ladder row.id row.subjectId row.startedAt row.round facts (opened row now draws))
    (listed : facts.Sublist trace) (ending : row.expiresAt = row.startedAt + ceremonyTtl)
    (unused : draws.nonce ∉ accepted trace) :
    Current trace (presented row now draws) facts (opened row now draws) where
  ladder := ladder
  listed := listed
  question := rfl
  nonce := rfl
  deadline := rfl
  ending := ending
  expected early := solution_expected draws.code early
  last final := solution_final draws.code final
  unused := unused

theorem Fresh.nonces {state : State} {draws : Draws} (fresh : Fresh state draws)
    (sound : Sound state) {issue : Issue} (drawn : issue.nonce = draws.nonce) :
    ((issues state.trace ++ [issue]).map Issue.nonce).Nodup := by
  rw [List.map_append, List.map_singleton]
  refine List.nodup_append.mpr ⟨sound.nonces, List.nodup_singleton _, ?_⟩
  intro nonce before other last same
  obtain ⟨old, inside, rfl⟩ := List.mem_map.mp before
  rw [List.mem_singleton] at last
  exact (fresh old inside).2 (same.trans (last.trans drawn))

theorem Fresh.unspent {state : State} {draws : Draws} (fresh : Fresh state draws)
    (sound : Sound state) : draws.nonce ∉ accepted state.trace := by
  intro before
  obtain ⟨issue, inside, same⟩ := sound.spent draws.nonce before
  exact (fresh issue inside).2 same

theorem sound_started {state : State} (sound : Sound state) {request : Request} {subject : String}
    (fresh : Fresh state request.draws) {ceremonies : Table Ceremony.id}
    (inserted : (state.db.ceremonies.keep fun row => row.subjectId != subject).insert
      (presented (begun subject request.context.now request.draws) request.context.now
        request.draws) = some ceremonies) :
    Sound ⟨{ state.db with ceremonies := ceremonies }, state.trace ++
      [.issued (opened (begun subject request.context.now request.draws) request.context.now
        request.draws)]⟩ := by
  constructor
  · intro id row found active
    rcases begun_found inserted found with ⟨rfl, rfl⟩ | ⟨_, before, _⟩
    · refine ⟨_, _, presented_current (.first _ ⟨rfl, rfl⟩ ⟨rfl, rfl⟩)
        (List.sublist_append_right _ _) rfl ?_⟩
      simpa using fresh.unspent sound
    · obtain ⟨facts, issue, current⟩ := sound.current id row before active
      exact ⟨facts, issue, current.extend (by simp)⟩
  · intro id row found
    rcases begun_found inserted found with ⟨rfl, rfl⟩ | ⟨_, before, _⟩
    · exact ⟨_, by simp; right; rfl, rfl⟩
    · obtain ⟨issue, inside, same⟩ := sound.known id row before
      exact ⟨issue, by simp [inside], same⟩
  · intro id row other second found also same
    rcases begun_found inserted found with ⟨rfl, rfl⟩ | ⟨_, before, apart⟩
    · rcases begun_found inserted also with ⟨rfl, rfl⟩ | ⟨_, _, apart⟩
      · rfl
      · exact absurd same.symm apart
    · rcases begun_found inserted also with ⟨rfl, rfl⟩ | ⟨_, there, _⟩
      · exact absurd same apart
      · exact sound.single id row other second before there same
  · rw [issues_append, issues_issued]
    exact fresh.nonces sound rfl
  · simpa using sound.once
  · intro nonce before
    simp only [accepted_append, accepted_issued, List.append_nil] at before
    obtain ⟨issue, inside, same⟩ := sound.spent nonce before
    exact ⟨issue, by simp [inside], same⟩
  · intro grant inside
    exact (sound.grants grant inside).extend _
  · exact sound.honors

/-! A ceremony that fails. -/

/-- A row that changes in place and is no longer active. -/
theorem sound_closed {state : State} (sound : Sound state) {id : String} {old : Ceremony}
    (found : state.db.ceremonies.find? id = some old) (row : Ceremony) (same : row.id = old.id)
    (owner : row.subjectId = old.subjectId) (closed : row.status ≠ .active) :
    Sound { state with db := save state.db row } := by
  have at' := save_found found row same
  have before : ∀ other second, (save state.db row).ceremonies.find? other = some second →
      ∃ first, state.db.ceremonies.find? other = some first ∧
        second.subjectId = first.subjectId := by
    intro other second there
    rw [at'] at there
    by_cases here : other = id
    · rw [if_pos here] at there
      cases there
      exact ⟨old, here ▸ found, owner⟩
    · rw [if_neg here] at there
      exact ⟨second, there, rfl⟩
  refine { sound with current := ?_, known := ?_, single := ?_ }
  · intro other second there active
    simp only [at'] at there
    by_cases here : other = id
    · rw [if_pos here] at there
      cases there
      exact absurd active closed
    · rw [if_neg here] at there
      exact sound.current other second there active
  · intro other second there
    obtain ⟨first, stored, -⟩ := before other second there
    exact sound.known other first stored
  · intro left first right second inLeft inRight equal
    obtain ⟨before', atLeft, ownLeft⟩ := before left first inLeft
    obtain ⟨after', atRight, ownRight⟩ := before right second inRight
    exact sound.single left before' right after' atLeft atRight
      (ownLeft.symm.trans (equal.trans ownRight))

/-! An accepted reply. -/

theorem Taken.answers {trace facts : List Fact} {row : Ceremony} {issue : Issue}
    (current : Current trace row facts issue) {now round : Nat} {nonce text : String}
    {questionDigest : Digest} (taken : Taken row now round nonce questionDigest)
    (right : text = issue.solution) :
    Answers row.startedAt issue ⟨row.id, row.subjectId, round, nonce, text, now⟩ := by
  obtain ⟨challenge, subject, number⟩ := current.ladder.issue_own
  have known := taken.known
  have timely := taken.timely
  have within := taken.open'
  rw [current.nonce, Option.some.injEq, Digest.mk.injEq] at known
  rw [current.deadline] at timely
  rw [current.ending] at within
  exact ⟨challenge.symm, subject.symm, (taken.inOrder.symm.trans number.symm), known.symm, right,
    timely, within⟩

/-- The other ceremonies do not notice that a nonce of this one was used. -/
theorem Sound.others {state : State} (sound : Sound state) {id other : String}
    {row second : Ceremony} {facts : List Fact} {issue : Issue}
    (found : state.db.ceremonies.find? id = some row)
    (current : Current state.trace row facts issue)
    (also : state.db.ceremonies.find? other = some second) (active : second.status = .active)
    (apart : other ≠ id) {more : List Fact} (used : accepted more = [issue.nonce]) :
    ∃ facts issue, Current (state.trace ++ more) second facts issue := by
  obtain ⟨facts', issue', current'⟩ := sound.current other second also active
  refine ⟨facts', issue', current'.extend ?_⟩
  rw [used, List.mem_singleton]
  intro same
  have equal := sound.issue_eq current'.issue_mem current.issue_mem same
  have ids := current'.ladder.issue_own.1
  rw [equal, current.ladder.issue_own.1, Table.find?_key found, Table.find?_key also] at ids
  exact apart ids.symm

theorem Sound.once_more {state : State} (sound : Sound state) {row : Ceremony} {facts : List Fact}
    {issue : Issue} (current : Current state.trace row facts issue) {more : List Fact}
    (used : accepted more = [issue.nonce]) : (accepted (state.trace ++ more)).Nodup := by
  rw [accepted_append, used]
  refine List.nodup_append.mpr ⟨sound.once, List.nodup_singleton _, ?_⟩
  intro nonce before other last same
  rw [List.mem_singleton] at last
  exact current.unused (last ▸ same ▸ before)

theorem Sound.spent_more {state : State} (sound : Sound state) {row : Ceremony} {facts : List Fact}
    {issue : Issue} (current : Current state.trace row facts issue) {more : List Fact}
    (used : accepted more = [issue.nonce]) :
    ∀ nonce ∈ accepted (state.trace ++ more),
      ∃ issue ∈ issues (state.trace ++ more), issue.nonce = nonce := by
  intro nonce inside
  rw [accepted_append, used] at inside
  rw [issues_append]
  rcases List.mem_append.mp inside with before | last
  · obtain ⟨old, there, same⟩ := sound.spent nonce before
    exact ⟨old, List.mem_append_left _ there, same⟩
  · rw [List.mem_singleton] at last
    exact ⟨issue, List.mem_append_left _ current.issue_mem, last.symm⟩

theorem sound_answered {state : State} (sound : Sound state) {request : Request} {subject : String}
    (fresh : Fresh state request.draws) {arguments : AnswerArguments} {row : Ceremony}
    (bounds : 1 ≤ arguments.round ∧ arguments.round ≤ 4)
    (loaded : Loaded state.db subject arguments.challengeId row)
    (taken : Taken row request.context.now arguments.round arguments.nonce
      arguments.questionDigest)
    (correct : row.expectedDigest = some ⟨arguments.answer⟩) :
    Sound ⟨save state.db (presented (answeredCeremony row request.context arguments.answer)
        request.context.now request.draws), state.trace ++
      [.replied (answerReply request subject arguments), .issued (opened (answeredCeremony row
        request.context arguments.answer) request.context.now request.draws)]⟩ := by
  have found := loaded.found
  have key := Table.find?_key found
  obtain ⟨facts, issue, current⟩ := sound.current _ row found loaded.active
  have early : row.round ≤ 4 := taken.inOrder ▸ bounds.2
  have right : arguments.answer = issue.solution := by
    have expected := current.expected early
    rw [correct, Option.some.injEq, Digest.mk.injEq] at expected
    exact expected
  have answers := taken.answers current right
  have shape : answerReply request subject arguments = ⟨row.id, row.subjectId, arguments.round,
      arguments.nonce, arguments.answer, request.context.now⟩ := by
    rw [key, loaded.own]
    rfl
  rw [shape]
  have used : accepted [Fact.replied ⟨row.id, row.subjectId, arguments.round, arguments.nonce,
      arguments.answer, request.context.now⟩, .issued (opened (answeredCeremony row request.context
        arguments.answer) request.context.now request.draws)] = [issue.nonce] := by
    rw [accepted_turn, answers.nonce]
  have moved := save_found found (presented (answeredCeremony row request.context
    arguments.answer) request.context.now request.draws) rfl
  have before : ∀ other second, (save state.db (presented (answeredCeremony row request.context
      arguments.answer) request.context.now request.draws)).ceremonies.find? other = some second →
      ∃ first, state.db.ceremonies.find? other = some first ∧
        second.subjectId = first.subjectId := by
    intro other second there
    rw [moved] at there
    by_cases here : other = arguments.challengeId
    · rw [if_pos here] at there
      cases there
      exact ⟨row, here ▸ found, rfl⟩
    · rw [if_neg here] at there
      exact ⟨second, there, rfl⟩
  constructor
  · intro other second there active
    simp only [moved] at there
    by_cases here : other = arguments.challengeId
    · rw [if_pos here] at there
      cases there
      refine ⟨_, _, presented_current (.next current.ladder _ answers _ ⟨rfl, rfl⟩ rfl)
        (current.listed.append (List.Sublist.refl _)) current.ending ?_⟩
      rw [accepted_append, used, List.mem_append, List.mem_singleton]
      rintro (old | same)
      · exact fresh.unspent sound old
      · exact (fresh issue current.issue_mem).2 same.symm
    · rw [if_neg here] at there
      exact sound.others found current there active here used
  · intro other second there
    obtain ⟨first, stored, -⟩ := before other second there
    obtain ⟨old, inside, same⟩ := sound.known other first stored
    exact ⟨old, by rw [issues_append]; exact List.mem_append_left _ inside, same⟩
  · intro left first other second inLeft inRight equal
    obtain ⟨before', atLeft, ownLeft⟩ := before left first inLeft
    obtain ⟨after', atRight, ownRight⟩ := before other second inRight
    exact sound.single left before' other after' atLeft atRight
      (ownLeft.symm.trans (equal.trans ownRight))
  · rw [issues_append, issues_turn]
    exact fresh.nonces sound rfl
  · exact sound.once_more current used
  · exact sound.spent_more current used
  · intro grant inside
    exact (sound.grants grant inside).extend _
  · exact sound.honors

/-! A confirmation. -/

theorem issue_ok {db next : Database} {grant granted : Grant} {previous : Option Grant}
    (issued : issue db grant previous = .ok (next, granted)) :
    next = db ∧ previous = some granted ∨
      ∃ grants, granted = grant ∧ next = { db with grants := grants } ∧
        db.grants.insert grant = some grants ∧ ∀ other ∈ db.grants.rows, other.honor ≠ grant.honor := by
  cases previous with
  | some old =>
      cases issued
      exact Or.inl ⟨rfl, rfl⟩
  | none =>
      simp only [issue, insertGrant, Program.except_bind_ok, require_ok, insertRow_ok,
        Program.except_pure, Except.ok.injEq, Prod.mk.injEq] at issued
      obtain ⟨_, ⟨_, unique, grants, inserted, rfl⟩, rfl, rfl⟩ := issued
      exact Or.inr ⟨grants, rfl, rfl, inserted, unique⟩

theorem sound_confirmed {state : State} (sound : Sound state) {id : String} {row signed : Ceremony}
    {facts : List Fact} {issue : Issue} {reply : Reply} {grant : Grant}
    (found : state.db.ceremonies.find? id = some row)
    (current : Current state.trace row facts issue)
    (kept : signed.id = row.id ∧ signed.subjectId = row.subjectId)
    (nonce : reply.nonce = issue.nonce) :
    Sound ⟨save state.db (completedCeremony signed grant), state.trace ++ [.replied reply]⟩ := by
  have used : accepted [Fact.replied reply] = [issue.nonce] := by rw [accepted_replied, nonce]
  have closed := sound_closed sound found (completedCeremony signed grant) kept.1 kept.2
    (fun absurdly => nomatch absurdly)
  have moved := save_found found (completedCeremony signed grant) kept.1
  constructor
  · intro other second there active
    simp only [moved] at there
    by_cases here : other = id
    · rw [if_pos here] at there
      cases there
      cases active
    · rw [if_neg here] at there
      exact sound.others found current there active here used
  · intro other second there
    obtain ⟨old, inside, same⟩ := closed.known other second there
    exact ⟨old, by rw [issues_append]; exact List.mem_append_left _ inside, same⟩
  · exact closed.single
  · rw [issues_append, issues_replied, List.append_nil]
    exact sound.nonces
  · exact sound.once_more current used
  · exact sound.spent_more current used
  · intro other inside
    exact (sound.grants other inside).extend _
  · exact sound.honors

theorem sound_granted {state : State} (sound : Sound state) {request : Request} {subject : String}
    {arguments : FinishArguments} {row signed : Ceremony} {db : Database} {grant : Grant}
    (loaded : Loaded state.db subject arguments.challengeId row)
    (taken : Taken row request.context.now 5 arguments.nonce arguments.questionDigest)
    (statement : arguments.statement = finalStatement)
    (kept : signed.id = row.id ∧ signed.subjectId = row.subjectId)
    (issued : issue state.db (newGrant row request.context request.draws arguments)
      (honored state.db row.subjectId) = .ok (db, grant)) :
    Sound ⟨save db (completedCeremony signed grant),
      state.trace ++ [.replied (finishReply request subject arguments)]⟩ := by
  have found := loaded.found
  have key := Table.find?_key found
  obtain ⟨facts, issue, current⟩ := sound.current _ row found loaded.active
  have answers := taken.answers current (statement.trans (current.last taken.inOrder).symm)
  have shape : finishReply request subject arguments = ⟨row.id, row.subjectId, 5,
      arguments.nonce, arguments.statement, request.context.now⟩ := by
    rw [key, loaded.own]
    rfl
  rw [shape]
  have closed : Sound ⟨save state.db (completedCeremony signed grant), state.trace ++
      [.replied ⟨row.id, row.subjectId, 5, arguments.nonce, arguments.statement,
        request.context.now⟩]⟩ := sound_confirmed sound found current kept answers.nonce
  rcases issue_ok issued with ⟨rfl, -⟩ | ⟨grants, rfl, rfl, inserted, unique⟩
  · exact closed
  · -- The new grant stands on the ladder that this confirmation ends.
    refine { closed with grants := ?_, honors := ?_ }
    · intro other inside
      rcases (Table.mem_insert inserted other).mp inside with before | rfl
      · exact closed.grants other before
      · have ladder := current.ladder
        rw [taken.inOrder] at ladder
        exact ⟨row.startedAt, facts, issue, _, ladder, answers,
          current.listed.append (List.Sublist.refl _)⟩
    · simp only [save, Table.insert_rows inserted, List.map_append, List.map_singleton]
      refine List.nodup_append.mpr ⟨sound.honors, List.nodup_singleton _, ?_⟩
      intro honor before other last same
      obtain ⟨old, inside, rfl⟩ := List.mem_map.mp before
      rw [List.mem_singleton] at last
      exact unique old inside (same.trans last)

/-! Runs. -/

theorem factsOf_failed (request : Request) (subject id reason : String) :
    factsOf request subject (.failed id reason) = [] := by
  cases act : request.act <;> simp [factsOf, act]

theorem move_sound {state : State} (sound : Sound state) {request : Request} {subject : String}
    (fresh : Fresh state request.draws) {next : Database} {response : Response}
    (move : Move state.db request subject next response) :
    Sound ⟨next, state.trace ++ factsOf request subject response⟩ := by
  cases move with
  | started act unhonored stale ceremonies inserted =>
      simp only [factsOf, act]
      exact sound_started sound fresh inserted
  | failed challengeId ceremony loaded reason =>
      rw [factsOf_failed, List.append_nil]
      exact sound_closed sound loaded.found (failedCeremony ceremony reason) rfl rfl (fun absurdly => nomatch absurdly)
  | answered arguments act bounds ceremony loaded taken correct challenge shown =>
      obtain ⟨digest, rfl⟩ := shown
      simp only [factsOf, act]
      have own := loaded.own
      subst own
      exact sound_answered sound fresh bounds loaded taken correct
  | granted arguments act ceremony loaded taken statement signed kept db' grant issued =>
      simp only [factsOf, act]
      exact sound_granted sound loaded taken statement kept issued

theorem step_cases (request : Request) (state : State) :
    step request state = state ∨
      Fresh state request.draws ∧ ∃ subject next response,
        request.context.principal.subject = some subject ∧
          Move state.db request subject next response ∧
          step request state = ⟨next, state.trace ++ factsOf request subject response⟩ := by
  unfold step
  by_cases fresh : Fresh state request.draws
  · rw [if_pos fresh]
    cases done : perform request state.db with
    | error failure => exact Or.inl rfl
    | ok result =>
        obtain ⟨next, response⟩ := result
        obtain ⟨subject, named, move⟩ := perform_move done
        exact Or.inr ⟨fresh, subject, next, response, named, move, by rw [named]; rfl⟩
  · rw [if_neg fresh]
    exact Or.inl rfl

theorem step_sound (request : Request) (state : State) (sound : Sound state) :
    Sound (step request state) := by
  rcases step_cases request state with idle | ⟨fresh, subject, next, response, -, move, moved⟩
  · rw [idle]
    exact sound
  · rw [moved]
    exact move_sound sound fresh move

theorem empty_sound : Sound State.empty := by
  refine ⟨?_, ?_, ?_, List.nodup_nil, List.nodup_nil, ?_, ?_, List.nodup_nil⟩
  · intro id row found
    cases found
  · intro id row found
    cases found
  · intro id row other second found
    cases found
  · intro nonce inside
    cases inside
  · intro grant inside
    cases inside

theorem run_sound (requests : List Request) : Sound (Run.run step requests State.empty) :=
  Run.run_invariant step step_sound requests State.empty empty_sound

/-! Ceremonies that are over, and ceremonies that are live. -/

/-- The accepted replies of one ceremony. -/
def repliesTo (id : String) (trace : List Fact) : List Reply :=
  (replies trace).filter fun reply => reply.challengeId == id

/-- The server put questions under this id, and puts none any more. -/
structure Closed (id : String) (state : State) : Prop where
  known : ∃ issue ∈ issues state.trace, issue.challengeId = id
  over' : ∀ row, state.db.ceremonies.find? id = some row → row.status ≠ .active

theorem Loaded.apart {state : State} {id challengeId subject : String} {row : Ceremony}
    (closed : Closed id state) (loaded : Loaded state.db subject challengeId row) :
    challengeId ≠ id := by
  rintro rfl
  exact closed.over' row loaded.found loaded.active

theorem Closed.saved {state : State} {id challengeId subject : String} {old : Ceremony}
    (closed : Closed id state) (loaded : Loaded state.db subject challengeId old) (row : Ceremony)
    (same : row.id = old.id) {trace : List Fact}
    (known : ∃ issue ∈ issues trace, issue.challengeId = id) :
    Closed id ⟨save state.db row, trace⟩ := by
  refine ⟨known, ?_⟩
  intro other found
  simp only [save_found loaded.found row same] at found
  rw [if_neg (Ne.symm (loaded.apart closed))] at found
  exact closed.over' other found

theorem Closed.more {state : State} {id : String} (closed : Closed id state) (more : List Fact) :
    ∃ issue ∈ issues (state.trace ++ more), issue.challengeId = id := by
  obtain ⟨issue, inside, same⟩ := closed.known
  exact ⟨issue, by rw [issues_append]; exact List.mem_append_left _ inside, same⟩

theorem step_closed {request : Request} {state : State} {id : String} (closed : Closed id state) :
    Closed id (step request state) ∧
      repliesTo id (step request state).trace = repliesTo id state.trace := by
  rcases step_cases request state with idle | ⟨fresh, subject, next, response, -, move, moved⟩
  · rw [idle]
    exact ⟨closed, rfl⟩
  rw [moved]
  cases move with
  | started act unhonored stale ceremonies inserted =>
      refine ⟨⟨closed.more _, ?_⟩, by simp [repliesTo, factsOf, act, replies, Fact.reply?]⟩
      intro row found
      rcases begun_found inserted found with ⟨same, -⟩ | ⟨-, before, -⟩
      · obtain ⟨issue, inside, named⟩ := closed.known
        exact absurd (named.trans same) (fresh issue inside).1
      · exact closed.over' row before
  | failed challengeId ceremony loaded reason =>
      refine ⟨closed.saved loaded (failedCeremony ceremony reason) rfl (closed.more _), ?_⟩
      rw [factsOf_failed, List.append_nil]
  | answered arguments act bounds ceremony loaded taken correct challenge shown =>
      refine ⟨closed.saved loaded (presented (answeredCeremony ceremony request.context
        arguments.answer) request.context.now request.draws) rfl (closed.more _), ?_⟩
      have apart := loaded.apart closed
      simp [repliesTo, factsOf, act, replies, Fact.reply?, answerReply, apart]
  | granted arguments act ceremony loaded taken statement signed kept db grant issued =>
      have apart := loaded.apart closed
      have replied : repliesTo id (state.trace ++ factsOf request subject
          (.granted grant (decide (request.context.principal.method = .token)))) =
            repliesTo id state.trace := by
        simp [repliesTo, factsOf, act, replies, Fact.reply?, finishReply, apart]
      refine ⟨?_, replied⟩
      rcases issue_ok issued with ⟨rfl, -⟩ | ⟨grants, -, rfl, -, -⟩
      · exact closed.saved loaded (completedCeremony signed grant) kept.1 (closed.more _)
      · have saved := closed.saved loaded (completedCeremony signed grant) kept.1
          (closed.more (factsOf request subject
            (.granted grant (decide (request.context.principal.method = .token)))))
        exact ⟨saved.known, saved.over'⟩

theorem run_closed {state : State} {id : String} (closed : Closed id state)
    (requests : List Request) :
    Closed id (Run.run step requests state) ∧
      repliesTo id (Run.run step requests state).trace = repliesTo id state.trace := by
  induction requests generalizing state with
  | nil => exact ⟨closed, rfl⟩
  | cons request rest ih =>
      have once : Closed id (step request state) ∧
          repliesTo id (step request state).trace = repliesTo id state.trace := step_closed closed
      have later := ih once.1
      exact ⟨later.1, later.2.trans once.2⟩

theorem save_row {db : Database} {old : Ceremony} {id challengeId : String}
    (found : db.ceremonies.find? challengeId = some old) (row : Ceremony) (same : row.id = old.id)
    (owner : row.subjectId = old.subjectId) {before : Ceremony}
    (there : db.ceremonies.find? id = some before) :
    ∃ after, (save db row).ceremonies.find? id = some after ∧
      after.subjectId = before.subjectId := by
  rw [save_found found row same]
  by_cases here : id = challengeId
  · subst here
    rw [there] at found
    cases found
    exact ⟨row, if_pos rfl, owner⟩
  · exact ⟨before, by rw [if_neg here, there], rfl⟩

theorem step_live {request : Request} {state : State} (sound : Sound state) {id : String}
    {row : Ceremony} (found : state.db.ceremonies.find? id = some row)
    (alive : live request.context.now row) :
    ∃ kept, (step request state).db.ceremonies.find? id = some kept ∧
      kept.subjectId = row.subjectId := by
  rcases step_cases request state with idle | ⟨fresh, subject, next, response, -, move, moved⟩
  · rw [idle]
    exact ⟨row, found, rfl⟩
  rw [moved]
  cases move with
  | started act unhonored stale ceremonies inserted =>
      have foreign : row.subjectId ≠ subject := fun own =>
        stale row (Table.find?_mem found) own alive
      obtain ⟨issue, inside, named⟩ := sound.known id row found
      have apart : request.draws.challengeId ≠ id := fun same =>
        (fresh issue inside).1 (named.trans same.symm)
      refine ⟨row, ?_, rfl⟩
      rw [Table.find?_insert inserted, Table.find?_keep, found]
      simp [presented, begun, apart, foreign]
  | failed challengeId ceremony loaded reason =>
      exact save_row loaded.found (failedCeremony ceremony reason) rfl rfl found
  | answered arguments act bounds ceremony loaded taken correct challenge shown =>
      exact save_row loaded.found (presented (answeredCeremony ceremony request.context
        arguments.answer) request.context.now request.draws) rfl rfl found
  | granted arguments act ceremony loaded taken statement signed kept db grant issued =>
      rcases issue_ok issued with ⟨rfl, -⟩ | ⟨grants, -, rfl, -, -⟩
      · exact save_row loaded.found (completedCeremony signed grant) kept.1 kept.2 found
      · exact save_row loaded.found (completedCeremony signed grant) kept.1 kept.2 found

/-- In every run: a grant stands on four right answers and a confirmation of its subject, no
nonce was accepted twice, a ceremony that is over takes no further reply, a live one stays and
stays alone, and no honor is granted twice. -/
theorem attestation_ceremony (requests : List Request) :
    let state := Run.run step requests State.empty
    (∀ grant ∈ state.db.grants.rows,
        ∃ challengeId, Attested state.trace challengeId grant.subjectId) ∧
      (accepted state.trace).Nodup ∧
      (∀ id row, state.db.ceremonies.find? id = some row → row.status ≠ .active →
        ∀ later, repliesTo id (Run.run step later state).trace = repliesTo id state.trace) ∧
      (∀ request id row, state.db.ceremonies.find? id = some row →
        live request.context.now row →
          (∃ kept, (step request state).db.ceremonies.find? id = some kept ∧
            kept.subjectId = row.subjectId) ∧
          ∀ other second, (step request state).db.ceremonies.find? other = some second →
            second.subjectId = row.subjectId → other = id) ∧
      (state.db.grants.rows.map Grant.honor).Nodup := by
  intro state
  have sound : Sound state := run_sound requests
  refine ⟨fun grant inside => ⟨_, sound.grants grant inside⟩, sound.once, ?_, ?_, sound.honors⟩
  · intro id row found closed later
    have known := sound.known id row found
    refine (run_closed ⟨known, ?_⟩ later).2
    intro again same
    rw [found] at same
    cases same
    exact closed
  · intro request id row found alive
    obtain ⟨kept, there, same⟩ := step_live sound found alive
    refine ⟨⟨kept, there, same⟩, ?_⟩
    intro other second also own
    exact (step_sound request state sound).single other second id kept also there
      (own.trans same.symm)

end MsgServer.Achievements
