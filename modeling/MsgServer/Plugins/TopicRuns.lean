import MsgServer.Library.Run
import MsgServer.Plugins.Topics

/-!
What runs of topic governance keep. `Change` is what one request does to the members; the
three invariants are read off it.
-/

namespace MsgServer.Topics

open Library

variable {state next : State} {context : Context}

def Administered (state : State) (topic : String) : Prop :=
  ∃ row ∈ state.members.rows, row.topic = topic ∧ isAdmin row = true

def Tidy (row : Member) : Prop := row.status ≠ .active → row.role = .member

structure Sound (state : State) : Prop where
  tidy : ∀ row ∈ state.members.rows, Tidy row
  bans : ∀ row ∈ state.bans.rows, state.topics.contains row.topic = true

/-- A row may become active only where no ban runs. -/
def Allowed (state : State) (now : Nat) (row : Member) : Prop :=
  activeTopicBan state row.topic row.subject now = .ok false

inductive Change (state : State) (now : Nat) : State → Prop where
  | kept {next : State} (members : next.members = state.members) : Change state now next
  | founded {next : State} {members : Table Member.key} (row : Topic) (subject : String)
      (fresh : state.topics.find? row.id = none)
      (inserted : state.members.insert (founder row subject now) = some members)
      (shape : next.members = members) : Change state now next
  | added {next : State} {members : Table Member.key} (row : Member) (role : row.role = .member)
      (allowed : row.status = .active → Allowed state now row)
      (inserted : state.members.insert row = some members)
      (shape : next.members = members) : Change state now next
  | changed {next : State} (old : Member) (change : Member → Member)
      (found : state.members.find? old.key = some old)
      (key : ∀ row, (change row).key = row.key)
      (tidy : Tidy old → Tidy (change old))
      (others : isAdmin old = true → isAdmin (change old) = true ∨ 1 < adminCount state old.topic)
      (allowed : (change old).status = .active → old.status = .active ∨ Allowed state now old)
      (shape : next.members = state.members.modify old.key change) : Change state now next

/-! What the checks say. -/

theorem administeredTopic_ok {operation topic subject : String}
    (passed : administeredTopic state context operation topic = .ok subject) :
    ∃ row, state.topics.find? topic = some row := by
  simp only [administeredTopic, governedTopic, Program.except_bind_ok, requireRow_ok] at passed
  obtain ⟨_, ⟨_, -, row, found, -⟩, -⟩ := passed
  exact ⟨row, found⟩

theorem requireUnbanned_ok {topic subject : String} {now : Nat}
    (passed : requireUnbanned state topic subject now = .ok ()) :
    activeTopicBan state topic subject now = .ok false := by
  simp only [requireUnbanned, Program.except_bind_ok, require_ok] at passed
  obtain ⟨banned, asked, rfl⟩ := passed
  exact asked

theorem requireOtherAdmin_ok {topic : String} (passed : requireOtherAdmin state topic = .ok ()) :
    1 < adminCount state topic := by
  simpa [requireOtherAdmin] using passed

theorem guardLast_ok {topic : String} {row : Member} (passed : guardLast state topic row = .ok ())
    (admin : isAdmin row = true) : 1 < adminCount state topic := by
  unfold guardLast at passed
  rw [if_pos admin] at passed
  exact requireOtherAdmin_ok passed

/-- The row that `topic_member` read is the one of the key. -/
theorem member_found {topic subject : String} {row : Member}
    (found : topicMember state topic subject = some row) :
    state.members.find? row.key = some row ∧ row.topic = topic ∧ row.subject = subject := by
  have key : row.key = (topic, subject) := Table.find?_key found
  refine ⟨by rw [key]; exact found, congrArg Prod.fst key, congrArg Prod.snd key⟩

theorem member_filter {topic subject : String} {test : Member → Bool} {row : Member}
    (found : (topicMember state topic subject).filter test = some row) :
    topicMember state topic subject = some row ∧ test row = true :=
  Option.filter_eq_some_iff.mp found

theorem isAdmin_iff (row : Member) :
    isAdmin row = true ↔ row.role = .admin ∧ row.status = .active := by
  simp [isAdmin]

theorem updateMember_changed {topic subject : String} {old : Member} {now : Nat}
    (found : topicMember state topic subject = some old) (change : Member → Member)
    (key : ∀ row, (change row).key = row.key) (tidy : Tidy old → Tidy (change old))
    (others : isAdmin old = true → isAdmin (change old) = true ∨ 1 < adminCount state topic)
    (allowed : (change old).status = .active → old.status = .active ∨
      activeTopicBan state topic subject now = .ok false) :
    Change state now (updateMember state topic subject change) := by
  obtain ⟨stored, rfl, rfl⟩ := member_found found
  exact .changed old change stored key tidy others allowed rfl

/-! One change for each request. -/

theorem topicCreate_change {row : Topic} (done : topicCreate state context row = .ok next) :
    Change state context.now next := by
  simp only [topicCreate, createTopic, insertMember, Program.except_bind_ok, requireRow_ok,
    insertRow_ok, Program.except_pure, Except.ok.injEq] at done
  obtain ⟨_, -, subject, -, _, ⟨topics, made, rfl⟩, settings, -, members, inserted, rfl⟩ := done
  exact .founded row subject (Table.insert_fresh made) inserted rfl

theorem topicJoin_change {topic : String} (done : topicJoin state context topic = .ok next) :
    Change state context.now next := by
  simp only [topicJoin, Program.except_bind_ok, require_ok] at done
  obtain ⟨subject, -, _, unbanned, _, waiting, _, -, done⟩ := done
  have allowed := requireUnbanned_ok unbanned
  cases previous : topicMember state topic subject with
  | none =>
      rw [previous] at done
      simp only [enroll, insertMember, Program.except_bind_ok, insertRow_ok, Program.except_pure,
        Except.ok.injEq] at done
      obtain ⟨members, inserted, rfl⟩ := done
      exact .added ⟨topic, subject, _, _, _, _⟩ rfl (fun _ => allowed) inserted rfl
  | some old =>
      rw [previous] at done waiting
      cases done
      refine updateMember_changed previous _ (fun _ => rfl) (fun _ _ => rfl) ?_ fun _ => Or.inr allowed
      intro admin
      exact absurd ((isAdmin_iff old).mp admin).2 (waiting old rfl).1

theorem topicLeave_change {topic : String} (done : topicLeave state context topic = .ok next) :
    Change state context.now next := by
  simp only [topicLeave, Program.except_bind_ok, requireRow_ok, Program.except_pure,
    Except.ok.injEq] at done
  obtain ⟨subject, -, old, found, _, guarded, rfl⟩ := done
  exact updateMember_changed (member_filter found).1 _ (fun _ => rfl) (fun _ _ => rfl)
    (fun admin => Or.inr (guardLast_ok guarded admin)) fun absurdly => by cases absurdly

theorem topicInvite_change {topic target : String}
    (done : topicInvite state context topic target = .ok next) : Change state context.now next := by
  simp only [topicInvite, Program.except_bind_ok, require_ok] at done
  obtain ⟨subject, -, _, -, _, -, _, absent, done⟩ := done
  cases prior : topicMember state topic target with
  | none =>
      rw [prior] at done
      simp only [inviteRow, insertMember, Program.except_bind_ok, insertRow_ok,
        Program.except_pure, Except.ok.injEq] at done
      obtain ⟨members, inserted, rfl⟩ := done
      exact .added _ rfl (fun absurdly => by cases absurdly) inserted rfl
  | some old =>
      rw [prior] at done absent
      cases done
      refine updateMember_changed prior _ (fun _ => rfl) (fun _ _ => rfl) ?_
        (fun absurdly => by cases absurdly)
      intro admin
      exact absurd ((isAdmin_iff old).mp admin).2 (absent old rfl).1

theorem topicApprove_change {topic target : String}
    (done : topicApprove state context topic target = .ok next) :
    Change state context.now next := by
  simp only [topicApprove, Program.except_bind_ok, requireRow_ok, Program.except_pure,
    Except.ok.injEq] at done
  obtain ⟨_, -, old, found, _, unbanned, rfl⟩ := done
  obtain ⟨there, pending⟩ := member_filter found
  refine updateMember_changed there _ (fun _ => rfl) (fun _ outside => absurd rfl outside) ?_
    fun _ => Or.inr (requireUnbanned_ok unbanned)
  intro admin
  have active := ((isAdmin_iff old).mp admin).2
  rw [active] at pending
  cases pending

theorem guardAction_ok {topic : String} {old : Member} {action : MemberAction}
    (guarded : guardAction state topic old action = .ok ())
    (lowers : action = .remove ∨ action = .demote) (admin : isAdmin old = true) :
    1 < adminCount state topic := by
  unfold guardAction at guarded
  rw [if_pos ⟨lowers, ((isAdmin_iff old).mp admin).1⟩] at guarded
  exact requireOtherAdmin_ok guarded

theorem updateMembership_change {topic target : String} {action : MemberAction}
    (done : updateMembership state context topic target action = .ok next) :
    Change state context.now next := by
  simp only [updateMembership, Program.except_bind_ok, requireRow_ok] at done
  obtain ⟨_, -, old, found, _, guarded, done⟩ := done
  obtain ⟨there, isActive⟩ := member_filter found
  have active : old.status = .active := by simpa using isActive
  cases action with
  | remove =>
      cases done
      exact updateMember_changed there _ (fun _ => rfl) (fun _ _ => rfl)
        (fun admin => Or.inr (guardAction_ok guarded (Or.inl rfl) admin)) fun _ => Or.inl active
  | promote =>
      simp only [applyAction, changeRole, Program.except_bind_ok, require_ok, Program.except_pure,
        Except.ok.injEq] at done
      obtain ⟨_, -, rfl⟩ := done
      exact updateMember_changed there _ (fun _ => rfl) (fun _ outside => absurd active outside)
        (fun _ => Or.inl ((isAdmin_iff _).mpr ⟨rfl, active⟩)) fun _ => Or.inl active
  | demote =>
      simp only [applyAction, changeRole, Program.except_bind_ok, require_ok, Program.except_pure,
        Except.ok.injEq] at done
      obtain ⟨_, -, rfl⟩ := done
      exact updateMember_changed there _ (fun _ => rfl) (fun _ outside => absurd active outside)
        (fun admin => Or.inr (guardAction_ok guarded (Or.inr rfl) admin)) fun _ => Or.inl active

theorem topicBan_change {topic target : String} {expires : Expiry} {reason : Option String}
    (done : topicBan state context topic target expires reason = .ok next) :
    Change state context.now next := by
  simp only [topicBan, Program.except_bind_ok, Program.except_pure, Except.ok.injEq] at done
  obtain ⟨subject, -, _, -, _, guarded, _, -, rfl⟩ := done
  cases previous : topicMember state topic target with
  | none => exact .kept (Table.modify_absent expelled previous)
  | some old =>
      rw [previous] at guarded
      obtain ⟨stored, rfl, rfl⟩ := member_found previous
      exact .changed old expelled stored (fun _ => rfl) (fun _ _ => rfl)
        (fun admin => Or.inr (guardLast_ok guarded admin)) (fun absurdly => by cases absurdly) rfl

theorem perform_change {act : Act} (done : perform context state act = .ok next) :
    Change state context.now next := by
  cases act with
  | create row => exact topicCreate_change done
  | folder row =>
      simp only [perform, createFolder, createTopic, Program.except_bind_ok, insertRow_ok,
        Program.except_pure, Except.ok.injEq] at done
      obtain ⟨_, -, topics, -, rfl⟩ := done
      exact .kept rfl
  | join topic => exact topicJoin_change done
  | leave topic => exact topicLeave_change done
  | invite topic target => exact topicInvite_change done
  | approve topic target => exact topicApprove_change done
  | update topic target action => exact updateMembership_change done
  | ban topic target expires reason => exact topicBan_change done
  | unban topic target =>
      simp only [perform, topicUnban, Program.except_bind_ok, Program.except_pure,
        Except.ok.injEq] at done
      obtain ⟨_, -, _, -, rfl⟩ := done
      exact .kept rfl
  | policySet topic policy =>
      simp only [perform, topicPolicySet, Program.except_bind_ok, Program.except_pure,
        Except.ok.injEq] at done
      obtain ⟨_, -, rfl⟩ := done
      exact .kept rfl

/-! Admins. -/

/-- Of two admin rows of a topic one has another key. -/
theorem other_admin {topic : String} {old : Member} (several : 1 < adminCount state topic) :
    ∃ row ∈ state.members.rows, row.topic = topic ∧ isAdmin row = true ∧ row.key ≠ old.key := by
  have length : 1 < (state.members.rows.filter fun row =>
      row.topic == topic && isAdmin row).length := by
    rw [← List.countP_eq_length_filter]
    exact several
  have distinct := state.members.unique.sublist ((List.filter_sublist (p := fun row =>
    row.topic == topic && isAdmin row)).map Member.key)
  cases shape : state.members.rows.filter fun row => row.topic == topic && isAdmin row with
  | nil => simp [shape] at length
  | cons first rest =>
      cases rest with
      | nil => simp [shape] at length
      | cons second rest =>
          have inside : ∀ row ∈ [first, second], row ∈ state.members.rows ∧ row.topic = topic ∧
              isAdmin row = true := by
            intro row member
            have listed : row ∈ state.members.rows.filter fun row =>
                row.topic == topic && isAdmin row := by
              rw [shape]
              rcases List.mem_cons.mp member with rfl | last
              · simp
              · simp [List.mem_singleton.mp last]
            simpa using listed
          rw [shape] at distinct
          simp only [List.map_cons, List.nodup_cons, List.mem_cons, not_or] at distinct
          by_cases same : first.key = old.key
          · obtain ⟨stored, own, admin⟩ := inside second (by simp)
            exact ⟨second, stored, own, admin, fun again => distinct.1.1 (same.trans again.symm)⟩
          · obtain ⟨stored, own, admin⟩ := inside first (by simp)
            exact ⟨first, stored, own, admin, same⟩

theorem Change.administered {now : Nat} (change : Change state now next) {topic : String}
    (administered : Administered state topic) : Administered next topic := by
  obtain ⟨row, inside, own, admin⟩ := administered
  cases change with
  | kept members => exact ⟨row, members ▸ inside, own, admin⟩
  | founded created subject fresh inserted shape =>
      exact ⟨row, shape ▸ (Table.mem_insert inserted row).mpr (Or.inl inside), own, admin⟩
  | added new role allowed inserted shape =>
      exact ⟨row, shape ▸ (Table.mem_insert inserted row).mpr (Or.inl inside), own, admin⟩
  | changed old change found key tidy others allowed shape =>
      rw [Administered, shape]
      by_cases same : row.key = old.key
      · have equal := Table.eq_of_key_eq inside (Table.find?_mem found) same
        subst equal
        rcases others admin with still | several
        · have moved : (state.members.modify row.key change).find? row.key =
              some (change row) := by
            rw [Table.find?_modify_self _ _ _ key, found]
            rfl
          refine ⟨change row, Table.find?_mem moved, ?_, still⟩
          · exact (congrArg Prod.fst (key row)).trans own
        · obtain ⟨other, there, same', admin', apart⟩ := other_admin (own ▸ several)
          exact ⟨other, Table.mem_modify_of_ne change there apart, same', admin'⟩
      · exact ⟨row, Table.mem_modify_of_ne change inside same, own, admin⟩

/-! Bans name topics that exist. -/

/-- The topic that a request makes. -/
def Act.made : Act → Option Topic
  | .create row => some row
  | .folder row => some row
  | _ => none

/-- Only the topic `made` is added, and a ban is of a topic that is there. -/
structure Framed (made : Option Topic) (state next : State) : Prop where
  rows : ∀ row ∈ next.topics.rows, row ∈ state.topics.rows ∨ made = some row
  topics : ∀ id, state.topics.contains id = true → next.topics.contains id = true
  bans : ∀ row ∈ next.bans.rows, next.topics.contains row.topic = true ∨
    ∃ old ∈ state.bans.rows, old.topic = row.topic

theorem Framed.members {made : Option Topic} (same : next.topics = state.topics)
    (bans : next.bans = state.bans) : Framed made state next :=
  ⟨fun _ inside => Or.inl (same ▸ inside), fun _ there => same ▸ there,
    fun row inside => Or.inr ⟨row, bans ▸ inside, rfl⟩⟩

theorem createTopic_framed {row : Topic} (done : createTopic state row = .ok next) :
    Framed (some row) state next := by
  simp only [createTopic, Program.except_bind_ok, insertRow_ok, Program.except_pure,
    Except.ok.injEq] at done
  obtain ⟨topics, made, rfl⟩ := done
  refine ⟨?_, ?_, fun row inside => Or.inr ⟨row, inside, rfl⟩⟩
  · intro other inside
    rcases (Table.mem_insert made other).mp inside with before | rfl
    · exact Or.inl before
    · exact Or.inr rfl
  intro id there
  simp only [Table.contains, Table.find?_insert made] at there ⊢
  by_cases mine : row.id = id
  · simp [mine]
  · simpa [mine] using there

theorem insertMember_framed {made : Option Topic} {row : Member}
    (done : insertMember state row = .ok next) : Framed made state next := by
  simp only [insertMember, Program.except_bind_ok, Program.except_pure, Except.ok.injEq] at done
  obtain ⟨_, -, rfl⟩ := done
  exact .members rfl rfl

theorem Framed.trans {made : Option Topic} {last : State} (first : Framed made state next)
    (second : Framed made next last) : Framed made state last where
  rows row inside := (second.rows row inside).elim (first.rows row) Or.inr
  topics id there := second.topics id (first.topics id there)
  bans row inside := by
    rcases second.bans row inside with known | ⟨old, before, same⟩
    · exact Or.inl known
    · rcases first.bans old before with known | ⟨older, there, equal⟩
      · exact Or.inl (second.topics _ (same ▸ known))
      · exact Or.inr ⟨older, there, equal.trans same⟩

theorem topicCreate_framed {row : Topic} (done : topicCreate state context row = .ok next) :
    Framed (some row) state next := by
  simp only [topicCreate, Program.except_bind_ok] at done
  obtain ⟨_, -, subject, -, created, made, settings, -, inserted⟩ := done
  have middle : Framed (some row) created { created with settings := settings } := .members rfl rfl
  exact (createTopic_framed made).trans (middle.trans (insertMember_framed inserted))

theorem enroll_framed {topic subject : String} {status : Status} {now : Nat}
    {previous : Option Member} (done : enroll state topic subject status now previous = .ok next) :
    Framed none state next := by
  cases previous with
  | none => exact insertMember_framed done
  | some row =>
      cases done
      exact .members rfl rfl

theorem inviteRow_framed {topic target inviter : String} {prior : Option Member}
    (done : inviteRow state topic target inviter prior = .ok next) : Framed none state next := by
  cases prior with
  | none => exact insertMember_framed done
  | some row =>
      cases done
      exact .members rfl rfl

theorem applyAction_framed {topic target : String} {previous : Member} {action : MemberAction}
    (done : applyAction state topic target previous action = .ok next) : Framed none state next := by
  cases action with
  | remove =>
      cases done
      exact .members rfl rfl
  | promote =>
      simp only [applyAction, changeRole, Program.except_bind_ok, Program.except_pure,
        Except.ok.injEq] at done
      obtain ⟨_, -, rfl⟩ := done
      exact .members rfl rfl
  | demote =>
      simp only [applyAction, changeRole, Program.except_bind_ok, Program.except_pure,
        Except.ok.injEq] at done
      obtain ⟨_, -, rfl⟩ := done
      exact .members rfl rfl

theorem topicBan_framed {topic target : String} {expires : Expiry} {reason : Option String}
    (done : topicBan state context topic target expires reason = .ok next) :
    Framed none state next := by
  simp only [topicBan, Program.except_bind_ok, Program.except_pure, Except.ok.injEq] at done
  obtain ⟨subject, passed, _, -, _, -, _, -, rfl⟩ := done
  obtain ⟨row, there⟩ := administeredTopic_ok passed
  refine ⟨fun _ => Or.inl, fun _ known => known, ?_⟩
  intro ban inside
  have found := (Table.mem_iff_find? _ ban).mp inside
  simp only [updateMember, Table.find?_put] at found
  by_cases mine : Ban.key ⟨topic, target, some subject, context.now, expires, reason, .active⟩ =
      ban.key
  · have own : topic = ban.topic := congrArg Prod.fst mine
    exact Or.inl (by simp [updateMember, Table.contains, ← own, there])
  · rw [if_neg mine] at found
    exact Or.inr ⟨ban, Table.find?_mem found, rfl⟩

theorem topicUnban_framed {topic target : String}
    (done : topicUnban state context topic target = .ok next) : Framed none state next := by
  simp only [topicUnban, Program.except_bind_ok, Program.except_pure, Except.ok.injEq] at done
  obtain ⟨_, -, _, -, rfl⟩ := done
  have keeps : ∀ row : Ban, Ban.key { row with status := .lifted } = Ban.key row := fun _ => rfl
  refine ⟨fun _ => Or.inl, fun _ known => known, ?_⟩
  intro ban inside
  rcases Table.mem_modify keeps inside with ⟨before, -⟩ | ⟨old, found, rfl⟩
  · exact Or.inr ⟨ban, before, rfl⟩
  · exact Or.inr ⟨old, Table.find?_mem found, rfl⟩

theorem perform_framed {act : Act} (done : perform context state act = .ok next) :
    Framed act.made state next := by
  cases act with
  | create row => exact topicCreate_framed done
  | folder row =>
      simp only [perform, createFolder, Program.except_bind_ok] at done
      obtain ⟨_, -, made⟩ := done
      exact createTopic_framed made
  | join topic =>
      simp only [perform, topicJoin, Program.except_bind_ok] at done
      obtain ⟨_, -, _, -, _, -, _, -, enrolled⟩ := done
      exact enroll_framed enrolled
  | leave topic =>
      simp only [perform, topicLeave, Program.except_bind_ok, Program.except_pure,
        Except.ok.injEq] at done
      obtain ⟨_, -, _, -, _, -, rfl⟩ := done
      exact .members rfl rfl
  | invite topic target =>
      simp only [perform, topicInvite, Program.except_bind_ok] at done
      obtain ⟨_, -, _, -, _, -, _, -, invited⟩ := done
      exact inviteRow_framed invited
  | approve topic target =>
      simp only [perform, topicApprove, Program.except_bind_ok, Program.except_pure,
        Except.ok.injEq] at done
      obtain ⟨_, -, _, -, _, -, rfl⟩ := done
      exact .members rfl rfl
  | update topic target action =>
      simp only [perform, updateMembership, Program.except_bind_ok] at done
      obtain ⟨_, -, _, -, _, -, applied⟩ := done
      exact applyAction_framed applied
  | ban topic target expires reason => exact topicBan_framed done
  | unban topic target => exact topicUnban_framed done
  | policySet topic policy =>
      simp only [perform, topicPolicySet, Program.except_bind_ok, Program.except_pure,
        Except.ok.injEq] at done
      obtain ⟨_, -, rfl⟩ := done
      exact .members rfl rfl

/-! Runs. -/

theorem Change.tidy {now : Nat} (change : Change state now next)
    (tidy : ∀ row ∈ state.members.rows, Tidy row) : ∀ row ∈ next.members.rows, Tidy row := by
  intro row inside
  cases change with
  | kept members => exact tidy row (members ▸ inside)
  | founded created subject fresh inserted shape =>
      rcases (Table.mem_insert inserted row).mp (shape ▸ inside) with before | rfl
      · exact tidy row before
      · exact fun outside => absurd rfl outside
  | added new role allowed inserted shape =>
      rcases (Table.mem_insert inserted row).mp (shape ▸ inside) with before | rfl
      · exact tidy row before
      · exact fun _ => role
  | changed old change found key kept others allowed shape =>
      rcases Table.mem_modify key (shape ▸ inside) with ⟨before, -⟩ | ⟨stored, there, rfl⟩
      · exact tidy row before
      · rw [found] at there
        cases there
        exact kept (tidy old (Table.find?_mem found))

theorem step_cases (request : Context × Act) (state : State) :
    step request state = state ∨ perform request.1 state request.2 = .ok (step request state) := by
  unfold step
  cases done : perform request.1 state request.2 with
  | error failure => exact Or.inl rfl
  | ok next => exact Or.inr rfl

theorem step_sound (request : Context × Act) (state : State) (sound : Sound state) :
    Sound (step request state) := by
  rcases step_cases request state with idle | done
  · rw [idle]
    exact sound
  · have framed := perform_framed done
    refine ⟨(perform_change done).tidy sound.tidy, ?_⟩
    intro row inside
    rcases framed.bans row inside with known | ⟨old, before, same⟩
    · exact known
    · exact framed.topics _ (same ▸ sound.bans old before)

theorem step_administered (request : Context × Act) (state : State) {topic : String}
    (administered : Administered state topic) : Administered (step request state) topic := by
  rcases step_cases request state with idle | done
  · rw [idle]
    exact administered
  · exact (perform_change done).administered administered

theorem run_administered (requests : List (Context × Act)) {topic : String}
    (administered : Administered state topic) :
    Administered (Run.run step requests state) topic := by
  have kept : ∀ request current, Administered current topic →
      Administered (step request current) topic :=
    fun request current held => step_administered request current held
  exact @Run.run_invariant _ _ step (fun current => Administered current topic) kept requests state
    administered

theorem installTopic_sound (state : State) (id : String) (sound : Sound state) :
    Sound (installTopic state id) := by
  unfold installTopic
  cases made : createTopic state ⟨id, id == "t_wiki"⟩ with
  | error failure => exact sound
  | ok created =>
      have framed := createTopic_framed made
      simp only [createTopic, Program.except_bind_ok, Program.except_pure, Except.ok.injEq] at made
      obtain ⟨topics, -, rfl⟩ := made
      refine ⟨?_, fun row inside => framed.topics _ (sound.bans row inside)⟩
      intro row inside
      have found := (Table.mem_iff_find? _ row).mp inside
      rw [Table.find?_put] at found
      split at found
      · cases found
        exact fun outside => absurd rfl outside
      · exact sound.tidy row (Table.find?_mem found)

theorem installed_sound (ids : List String) : Sound (installed ids) := by
  have folded : ∀ (ids : List String) (state : State), Sound state →
      Sound (ids.foldl installTopic state) := by
    intro ids
    induction ids with
    | nil => exact fun _ sound => sound
    | cons id rest ih => exact fun state sound => ih _ (installTopic_sound state id sound)
  refine folded ids State.empty ⟨?_, ?_⟩
  · intro row inside
    cases inside
  · intro row inside
    cases inside

/-- An active member of the topic. -/
def Joined (state : State) (topic subject : String) : Prop :=
  ∃ row, topicMember state topic subject = some row ∧ row.status = .active

theorem banned_known (sound : Sound state) {topic subject : String} {now : Nat}
    (banned : activeTopicBan state topic subject now = .ok true) :
    state.topics.contains topic = true := by
  unfold activeTopicBan at banned
  cases found : (state.bans.find? (topic, subject)).filter fun row => row.status == .active with
  | none =>
      rw [found] at banned
      cases banned
  | some row =>
      have stored := (Option.filter_eq_some_iff.mp found).1
      have own : row.topic = topic := congrArg Prod.fst (Table.find?_key stored)
      exact own ▸ sound.bans row (Table.find?_mem stored)

theorem Change.joined {now : Nat} (change : Change state now next) (sound : Sound state)
    {topic subject : String} (banned : activeTopicBan state topic subject now = .ok true)
    (joined : Joined next topic subject) : Joined state topic subject := by
  obtain ⟨row, found, active⟩ := joined
  have refused : ∀ other : Member, Allowed state now other → other.key = (topic, subject) →
      False := by
    intro other allowed key
    have own : other.topic = topic := congrArg Prod.fst key
    have his : other.subject = subject := congrArg Prod.snd key
    rw [Allowed, own, his, banned] at allowed
    cases allowed
  cases change with
  | kept members => exact ⟨row, by rw [topicMember, ← members]; exact found, active⟩
  | founded created founder' fresh inserted shape =>
      rw [topicMember, shape, Table.find?_insert inserted] at found
      by_cases mine : (founder created founder' now).key = (topic, subject)
      · have known := banned_known sound banned
        have own : created.id = topic := congrArg Prod.fst mine
        simp [Table.contains, ← own, fresh] at known
      · rw [if_neg mine] at found
        exact ⟨row, found, active⟩
  | added new role allowed inserted shape =>
      rw [topicMember, shape, Table.find?_insert inserted] at found
      by_cases mine : new.key = (topic, subject)
      · rw [if_pos mine] at found
        cases found
        exact absurd (allowed active) (fun unbanned => refused _ unbanned mine)
      · rw [if_neg mine] at found
        exact ⟨row, found, active⟩
  | changed old change stored key tidy others allowed shape =>
      rw [topicMember, shape] at found
      by_cases mine : (topic, subject) = old.key
      · rw [mine, Table.find?_modify_self _ _ _ key, stored] at found
        cases found
        rcases allowed active with before | unbanned
        · exact ⟨old, by rw [topicMember, mine]; exact stored, before⟩
        · exact absurd unbanned (fun unbanned => refused _ unbanned mine.symm)
      · rw [Table.find?_modify_ne _ _ mine] at found
        exact ⟨row, found, active⟩

theorem topicCreate_administered {row : Topic} (shared : row.wiki = false)
    (done : topicCreate state context row = .ok next) : Administered next row.id := by
  simp only [topicCreate, insertMember, Program.except_bind_ok, requireRow_ok, insertRow_ok,
    Program.except_pure, Except.ok.injEq] at done
  obtain ⟨_, -, subject, -, _, -, settings, -, members, inserted, rfl⟩ := done
  refine ⟨founder row subject context.now, (Table.mem_insert inserted _).mpr (Or.inr rfl), rfl, ?_⟩
  simp [isAdmin, founder, shared]

/-! Which topics have an admin. -/

/-- The requests that made the topic without a membership. -/
def Bare (requests : List (Context × Act)) (row : Topic) : Prop :=
  ∃ context, (context, Act.folder row) ∈ requests

def Tended (requests : List (Context × Act)) (state : State) : Prop :=
  ∀ row ∈ state.topics.rows, row.wiki = false → Administered state row.id ∨ Bare requests row

theorem step_tended (before : List (Context × Act)) (request : Context × Act) (state : State)
    (tended : Tended before state) : Tended (before ++ [request]) (step request state) := by
  intro row inside shared
  have old : row ∈ state.topics.rows →
      Administered (step request state) row.id ∨ Bare (before ++ [request]) row := by
    intro there
    rcases tended row there shared with administered | ⟨context, bare⟩
    · exact Or.inl (step_administered request state administered)
    · exact Or.inr ⟨context, List.mem_append_left _ bare⟩
  rcases step_cases request state with idle | done
  · exact old (idle ▸ inside)
  · rcases (perform_framed done).rows row inside with there | made
    · exact old there
    · cases asked : request.2 with
      | create created =>
          rw [asked] at made done
          cases made
          exact Or.inl (topicCreate_administered shared done)
      | folder created =>
          rw [asked] at made
          cases made
          exact Or.inr ⟨request.1, by simp [← asked]⟩
      | _ =>
          rw [asked] at made
          cases made

theorem run_tended (requests before : List (Context × Act)) (state : State)
    (tended : Tended before state) : Tended (before ++ requests) (Run.run step requests state) := by
  induction requests generalizing before state with
  | nil => simpa using tended
  | cons request rest ih =>
      have next := ih (before ++ [request]) (step request state) (step_tended _ _ _ tended)
      rwa [List.append_assoc] at next

theorem installTopic_tended (state : State) (id : String) (tended : Tended [] state) :
    Tended [] (installTopic state id) := by
  unfold installTopic
  cases made : createTopic state ⟨id, id == "t_wiki"⟩ with
  | error failure => exact tended
  | ok created =>
      simp only [createTopic, Program.except_bind_ok, insertRow_ok, Program.except_pure,
        Except.ok.injEq] at made
      obtain ⟨topics, made, rfl⟩ := made
      intro row inside shared
      rcases (Table.mem_insert made row).mp inside with there | rfl
      · -- the membership written is of the new topic, so the admins of the others stay
        have apart : row.id ≠ id := by
          intro same
          have fresh := Table.insert_fresh made
          have found := (Table.mem_iff_find? _ row).mp there
          rw [same] at found
          rw [found] at fresh
          cases fresh
        rcases tended row there shared with ⟨admin, held, own, rules⟩ | ⟨_, bare⟩
        · refine Or.inl ⟨admin, ?_, own, rules⟩
          have found := (Table.mem_iff_find? _ admin).mp held
          have other : (founder ⟨id, id == "t_wiki"⟩ rootSubject 0).key ≠ admin.key := by
            intro same
            exact apart (own.symm.trans (congrArg Prod.fst same).symm)
          have kept : (state.members.put (founder ⟨id, id == "t_wiki"⟩ rootSubject 0)).find?
              admin.key = some admin := by
            rw [Table.find?_put, if_neg other, found]
          exact Table.find?_mem kept
        · cases bare
      · have held : (state.members.put (founder ⟨id, id == "t_wiki"⟩ rootSubject 0)).find?
            (id, rootSubject) = some (founder ⟨id, id == "t_wiki"⟩ rootSubject 0) := by
          rw [Table.find?_put]
          exact if_pos rfl
        refine Or.inl ⟨_, Table.find?_mem held, rfl, ?_⟩
        simpa [isAdmin, founder] using shared

theorem installed_tended (ids : List String) : Tended [] (installed ids) := by
  have folded : ∀ (ids : List String) (state : State), Tended [] state →
      Tended [] (ids.foldl installTopic state) := by
    intro ids
    induction ids with
    | nil => exact fun _ tended => tended
    | cons id rest ih => exact fun state tended => ih _ (installTopic_tended state id tended)
  refine folded ids State.empty ?_
  intro row inside
  cases inside

/-- Whatever the requests: a topic outside the wiki has an admin unless a request made it without
a membership, and a topic with an admin keeps one; a row that is not active has the role of a
member; and nobody under a running ban becomes an active member. -/
theorem topic_governance (ids : List String) (requests : List (Context × Act)) :
    let state := Run.run step requests (installed ids)
    (∀ row ∈ state.topics.rows, row.wiki = false →
        Administered state row.id ∨ Bare requests row) ∧
      (∀ topic, Administered state topic →
        ∀ later, Administered (Run.run step later state) topic) ∧
      (∀ row ∈ state.members.rows, row.status ≠ .active → row.role = .member) ∧
      ∀ context act topic subject,
        activeTopicBan state topic subject context.now = .ok true →
          Joined (step (context, act) state) topic subject → Joined state topic subject := by
  intro state
  have sound : Sound state :=
    Run.run_invariant step step_sound requests (installed ids) (installed_sound ids)
  have tended : Tended requests state := by
    have kept := run_tended requests [] (installed ids) (installed_tended ids)
    rwa [List.nil_append] at kept
  refine ⟨tended, fun topic administered later => run_administered later administered,
    sound.tidy, ?_⟩
  intro context act topic subject banned joined
  rcases step_cases (context, act) state with idle | done
  · rwa [idle] at joined
  · exact (perform_change done).joined sound banned joined

def sampleContext (subject : String) : Context :=
  ⟨⟨some subject, some subject, none, .signature, [], []⟩, 5, .ok (), .ok (), fun _ => .ok ()⟩

/-- The folder `claims` that the first claim of alice makes is a topic that bob can read, and so
join: it then has a member and no admin. -/
theorem folder_without_admin :
    let state := Run.run step
      [(sampleContext "alice", .folder ⟨"t_claims", false⟩),
        (sampleContext "bob", .join "t_claims")] (installed [])
    (⟨"t_claims", false⟩ : Topic) ∈ state.topics.rows ∧ Joined state "t_claims" "bob" ∧
      ¬ Administered state "t_claims" := by
  intro state
  have rows : state.members.rows = [⟨"t_claims", "bob", .member, .active, some 5, none⟩] := by
    decide +kernel
  have joined : topicMember state "t_claims" "bob" =
      some ⟨"t_claims", "bob", .member, .active, some 5, none⟩ := by
    decide +kernel
  refine ⟨by decide +kernel, ⟨_, joined, rfl⟩, ?_⟩
  rintro ⟨row, inside, -, admin⟩
  rw [rows] at inside
  cases List.mem_singleton.mp inside
  cases admin

end MsgServer.Topics
