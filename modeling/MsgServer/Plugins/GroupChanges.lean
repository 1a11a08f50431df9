import MsgServer.Plugins.Groups

/-!
Every accepted group operation is one `Change`: it reads, founds a group, sets a
policy, writes or deletes one membership, or hands the group over. What holds of
the operations is read off a `Change`, never off the operations themselves.
-/

namespace MsgServer.Groups

open Library Session ResourceTree Authorization

variable {app : App}

/-! The two writers. -/

/-- What a body is once it has been written again. -/
def written (record : Organization) : Organization :=
  { record with storedPolicy := some record.membershipPolicy }

@[simp] theorem written_id (record : Organization) :
    (written record).resourceId = record.resourceId := rfl

@[simp] theorem written_policy (record : Organization) :
    (written record).membershipPolicy = record.membershipPolicy := rfl

@[simp] theorem bumped_policy (record : Organization) :
    (bumped record).membershipPolicy = record.membershipPolicy := rfl

def repoliced (record : Organization) (policy : MembershipPolicy) : Organization :=
  { bumped record with storedPolicy := some policy }

def seatRow (org subject : String) (version : Nat) (seat : Seat) : Membership :=
  ⟨org, subject, seat.role, version, seat.status, seat.joinedAt, seat.invitedBy⟩

theorem setMember_ok {state next : State} {org subject : String} {seat : Seat}
    (done : setMember state org subject seat = .ok next) :
    ∃ record version, state.organizations.find? org = some record ∧
      next = { state with
        organizations := state.organizations.put (written (bumped record))
        memberships := state.memberships.put (seatRow org subject version seat) } := by
  simp only [setMember, organization, updateMembership, updateOrganization, bumped,
    Program.except_bind_ok, requireRow_ok, require_ok, Program.except_pure,
    Except.ok.injEq] at done
  obtain ⟨record, found, seated, ⟨_, _, rfl⟩, _, _, rfl⟩ := done
  exact ⟨record, _, found, rfl⟩

theorem removeGroupMember_ok {state next : State} {org subject : String}
    (done : removeGroupMember state org subject = .ok next) :
    ∃ record, state.organizations.find? org = some record ∧
      next = { state with
        organizations := state.organizations.put (written (bumped record))
        memberships := state.memberships.delete (org, subject) } := by
  simp only [removeGroupMember, organization, updateOrganization, bumped,
    Program.except_bind_ok, requireRow_ok, require_ok, Program.except_pure,
    Except.ok.injEq] at done
  obtain ⟨record, found, _, _, _, _, rfl⟩ := done
  exact ⟨record, found, rfl⟩

/-! Who may manage a group. -/

def OwnerOf (state : State) (request : Request) (org : String) : Prop :=
  ∃ row, state.store.resources.find? org = some row ∧ request.subject = some row.owner

/-- The owner of the group, or a holder of the group override. -/
def Leads (app : App) (state : State) (request : Request) (org : String) : Prop :=
  OwnerOf state request org ∨ holdsOverride app state request org = .ok true

theorem callerRole_owner {row : Resource} {subject : Option String} {member : Option Membership}
    (owns : callerRole row subject member = some .owner) : subject = some row.owner := by
  unfold callerRole at owns
  split at owns
  · rename_i same
    exact same.symm
  · split at owns
    · split at owns
      · split at owns <;> cases owns
      · cases owns
    · cases owns

structure Contextual (state : State) (request : Request) (context : GroupContext) : Prop where
  found : state.store.resources.find? context.org = some context.resource
  recorded : state.organizations.find? context.org = some context.organization
  member : context.member = groupMember state context.org request.subject
  role : context.role = callerRole context.resource request.subject context.member

theorem groupContext_ok {state : State} {request : Request} {group : String}
    {context : GroupContext} (done : groupContext app state request group = .ok context) :
    Contextual state request context := by
  simp only [groupContext, organization, Program.except_bind_ok, requireRow_ok, require_ok,
    Program.except_pure, Except.ok.injEq] at done
  obtain ⟨org, resolved, row, atOrg, _, _, record, recorded, _, _, rfl⟩ := done
  obtain ⟨stored, member, rfl⟩ := resolve_stored resolved
  have same := resource_self member atOrg
  subst same
  exact ⟨(Table.mem_iff_find? _ row).mp member, recorded, rfl, rfl⟩

theorem groupManager_ok {state : State} {request : Request} {context : GroupContext}
    {owner leads : Bool} (isContext : Contextual state request context)
    (done : groupManager app state request context owner = .ok leads) :
    (leads = true → Leads app state request context.org) ∧
      (owner = true → OwnerOf state request context.org) := by
  simp only [groupManager, Program.except_bind_ok, require_ok, Program.except_pure,
    Except.ok.injEq] at done
  obtain ⟨_, _, ordinary, _, override, held, _, allowed, rfl⟩ := done
  have owns : context.role = some .owner → OwnerOf state request context.org := by
    intro isOwner
    rw [isContext.role] at isOwner
    exact ⟨_, isContext.found, callerRole_owner isOwner⟩
  constructor
  · intro leads
    rcases Bool.or_eq_true_iff.mp leads with isOwner | overrides
    · exact Or.inl (owns (by simpa using isOwner))
    · exact Or.inr (overrides ▸ held)
  · intro only
    subst only
    rcases allowed with ⟨_, isOwner⟩ | ⟨_, absurdly⟩
    · exact owns (by simpa [mayManage] using isOwner)
    · cases absurdly

/-! Accepted operations as events. -/

structure Event where
  request : Request
  output : Output

/-- The target that a handler names in its output. -/
def Data.subjectId : Data → Option String
  | .changed subject _ _ => some subject
  | .seated subject _ => some subject
  | .role subject _ => some subject
  | .resource _ owner => owner
  | .policy _ _ => none
  | .members _ _ => none
  | .status _ => none

def Founds (org : String) (event : Event) : Prop :=
  (∃ name drawn, event.request.arguments = .create name drawn) ∧ event.output.group = org

def Invites (org subject : String) (event : Event) : Prop :=
  ((∃ group target, event.request.arguments = .invite group target) ∨
      ∃ group target, event.request.arguments = .change .memberAdd group target) ∧
    event.output.group = org ∧ event.output.data.subjectId = some subject

def Joins (org subject : String) (event : Event) : Prop :=
  (∃ group, event.request.arguments = .join group) ∧ event.output.group = org ∧
    event.request.subject = some subject

def Approves (org subject : String) (event : Event) : Prop :=
  (∃ group target, event.request.arguments = .approve group target) ∧
    event.output.group = org ∧ event.output.data.subjectId = some subject

def Leaves (org subject : String) (event : Event) : Prop :=
  (∃ group, event.request.arguments = .leave group) ∧ event.output.group = org ∧
    event.request.subject = some subject

def Removes (org subject : String) (event : Event) : Prop :=
  Leaves org subject event ∨
    (((∃ group target, event.request.arguments = .remove group target) ∨
        ∃ group target, event.request.arguments = .change .memberRemove group target) ∧
      event.output.group = org ∧ event.output.data.subjectId = some subject)

def statusOf (state : State) (org subject : String) : Option Status :=
  (state.memberships.find? (org, subject)).map Membership.status

/-- A membership that leads its group as the code tests it. -/
def LeadingRow (state : State) (org subject : String) : Prop :=
  ∃ row, state.memberships.find? (org, subject) = some row ∧ leading row = true

/-- Policies under which nobody becomes a member without an act of its own. -/
def Consenting (record : Organization) : Prop :=
  record.storedPolicy = some .invite ∨ record.storedPolicy = some .approval

/-- One membership is written: everything the invariants need to know about it. -/
structure Seating (app : App) (state : State) (event : Event) (org target : String)
    (resource : Resource) (record : Organization) (seat : Seat) : Prop where
  found : state.store.resources.find? org = some resource
  recorded : state.organizations.find? org = some record
  plain : seat.role ≠ .owner
  waiting : seat.status ≠ .active → seat.role = .member
  apart : target ≠ resource.owner ∨ statusOf state org target ≠ some .active
  led : seat.role = .maintainer ∨ LeadingRow state org target → Leads app state event.request org
  accepted : seat.status = .active → statusOf state org target ≠ some .active →
    record.builtin = none → Consenting record →
      (Joins org target event ∧ statusOf state org target = some .invited) ∨
        (Approves org target event ∧ statusOf state org target = some .pending)
  invited : seat.status = .invited → Invites org target event
  pending : seat.status = .pending → Joins org target event

/-- An event that neither founds a group nor removes anybody. -/
structure Quiet (event : Event) : Prop where
  founds : ∀ org, ¬ Founds org event
  removes : ∀ org subject, ¬ Removes org subject event

inductive Change (app : App) (state : State) (event : Event) : State → Prop
  | read (quiet : Quiet event) : Change app state event state
  | founded {subject : String} {row : Resource} {seat : Seat} {grown : Table Resource.id}
      {record : Organization} {organizations : Table Organization.resourceId} {version : Nat}
      (inserted : state.store.resources.insert row = some grown)
      (fresh : state.organizations.find? row.id = none)
      (owner : row.owner = subject) (role : seat.role = .owner) (status : seat.status = .active)
      (plain : record.builtin = none) (policy : record.storedPolicy ≠ none)
      (shape : ∀ id, organizations.find? id =
        if row.id = id then some record else state.organizations.find? id)
      (founds : ∀ org, Founds org event ↔ org = row.id)
      (removes : ∀ org subject, ¬ Removes org subject event) :
      Change app state event
        { store := { state.store with resources := grown }
          organizations := organizations
          memberships := state.memberships.put (seatRow row.id subject version seat) }
  | policy {org : String} {record : Organization} {policy : MembershipPolicy}
      (recorded : state.organizations.find? org = some record)
      (quiet : Quiet event) :
      Change app state event
        { state with organizations :=
            state.organizations.put (repoliced record policy) }
  | seated {org target : String} {resource : Resource} {record : Organization} {seat : Seat}
      {version : Nat} (seating : Seating app state event org target resource record seat)
      (quiet : Quiet event) :
      Change app state event
        { state with
          organizations := state.organizations.put (written (bumped record))
          memberships := state.memberships.put (seatRow org target version seat) }
  | unseated {org target : String} {resource : Resource} {record : Organization}
      (found : state.store.resources.find? org = some resource)
      (recorded : state.organizations.find? org = some record)
      (apart : target ≠ resource.owner)
      (led : LeadingRow state org target →
        Leads app state event.request org ∨ Leaves org target event)
      (founds : ∀ org, ¬ Founds org event)
      (removes : ∀ group subject, Removes group subject event ↔ group = org ∧ subject = target) :
      Change app state event
        { state with
          organizations := state.organizations.put (written (bumped record))
          memberships := state.memberships.delete (org, target) }
  | transferred {org target : String} {resource : Resource} {record : Organization}
      {old new : Seat} {oldVersion newVersion : Nat}
      (found : state.store.resources.find? org = some resource)
      (recorded : state.organizations.find? org = some record)
      (owns : OwnerOf state event.request org) (apart : target ≠ resource.owner)
      (active : statusOf state org target = some .active)
      (current : statusOf state org resource.owner = some .active)
      (oldSeat : old.role = .maintainer ∧ old.status = .active)
      (newSeat : new.role = .owner ∧ new.status = .active)
      (quiet : Quiet event) :
      Change app state event
        { store := { state.store with
            resources := state.store.resources.modify resource.id fun _ =>
              { resource with owner := target, generation := resource.generation + 1 } }
          organizations := (state.organizations.put (written (bumped record))).put
            (written (bumped (written (bumped record))))
          memberships := (state.memberships.put (seatRow org resource.owner oldVersion old)).put
            (seatRow org target newVersion new) }

/-! Every operation is one of these changes. -/

theorem leadingRow_active {state : State} {org subject : String}
    (isLeading : LeadingRow state org subject) : statusOf state org subject = some .active := by
  obtain ⟨row, found, leads⟩ := isLeading
  have active : row.status = .active := by
    simp only [leading, Bool.and_eq_true, beq_iff_eq] at leads
    exact leads.1
  simp [statusOf, found, active]

theorem groupCreate_change {state next : State} {request : Request} {output : Output}
    {name drawn : String} (args : request.arguments = .create name drawn)
    (done : groupCreate app state request name drawn = .ok (next, output)) :
    Change app state ⟨request, output⟩ next := by
  simp only [groupCreate, updateOrganization, Program.except_bind_ok, require_ok,
    Program.except_pure, Except.ok.injEq, Prod.mk.injEq] at done
  obtain ⟨subject, _, _, _, _, _, _, inserting, _, _, _, ⟨_, unused, rfl⟩, seated, write,
    rfl, rfl⟩ := done
  obtain ⟨_, grown, inserted, rfl⟩ := insertResource_ok inserting
  obtain ⟨record, version, recorded, rfl⟩ := setMember_ok write
  have fresh : state.organizations.find? drawn = none := by
    simp only [identityGeneration, Option.or_eq_none_iff, Option.map_eq_none_iff] at unused
    exact unused.1
  have isNew := Table.find?_put state.organizations (written ⟨drawn, 0, none, some .invite⟩)
  have same : record = written ⟨drawn, 0, none, some .invite⟩ := by
    have atDrawn := isNew drawn
    exact Option.some.inj (recorded.symm.trans (atDrawn.trans (if_pos rfl)))
  refine @Change.founded _ _ _ _ (groupResource app subject name drawn) _ _ (written (bumped record))
    _ _ inserted fresh rfl rfl rfl ?_ ?_ ?_ ?_ ?_
  · rw [same]
    rfl
  · rw [same]
    simp [written]
  · intro id
    have before := isNew id
    rw [Table.find?_put, same]
    by_cases here : drawn = id
    · simp [here, groupResource, bumped]
    · simpa [here, groupResource, bumped, written] using before
  · intro org
    simp [Founds, args, groupResource, eq_comm]
  · intro org target
    simp [Removes, Leaves, args]

/-- A membership written in the group of the request. -/
theorem setMember_in {state next : State} {request : Request} {context : GroupContext}
    (isContext : Contextual state request context) {subject : String} {seat : Seat}
    (done : setMember state context.org subject seat = .ok next) :
    ∃ version, next = { state with
      organizations := state.organizations.put (written (bumped context.organization))
      memberships := state.memberships.put (seatRow context.org subject version seat) } := by
  obtain ⟨record, version, recorded, rfl⟩ := setMember_ok done
  rw [isContext.recorded] at recorded
  cases recorded
  exact ⟨version, rfl⟩

theorem removeGroupMember_in {state next : State} {request : Request} {context : GroupContext}
    (isContext : Contextual state request context) {subject : String}
    (done : removeGroupMember state context.org subject = .ok next) :
    next = { state with
      organizations := state.organizations.put (written (bumped context.organization))
      memberships := state.memberships.delete (context.org, subject) } := by
  obtain ⟨record, recorded, rfl⟩ := removeGroupMember_ok done
  rw [isContext.recorded] at recorded
  cases recorded
  rfl

theorem groupJoin_change {state next : State} {request : Request} {output : Output}
    {group : String} (args : request.arguments = .join group)
    (done : groupJoin app state request group = .ok (next, output)) :
    Change app state ⟨request, output⟩ next := by
  simp only [groupJoin, caller, Program.except_bind_ok, requireRow_ok, require_ok,
    Program.except_pure, Except.ok.injEq, Prod.mk.injEq] at done
  obtain ⟨subject, isCaller, context, atGroup, _, _, _, managed, _, inactive, _, needed, seated,
    write, rfl, rfl⟩ := done
  have isContext := groupContext_ok atGroup
  obtain ⟨version, rfl⟩ := setMember_in isContext write
  have status : statusOf state context.org subject = context.member.map Membership.status := by
    rw [isContext.member, isCaller]
    rfl
  have joins : Joins context.org subject
      ⟨request, ⟨context.org, .status (some (joinStatus context.organization context.member))⟩⟩ :=
    ⟨⟨group, args⟩, rfl, isCaller⟩
  refine Change.seated ⟨isContext.found, isContext.recorded, ?_, ?_, ?_, ?_, ?_, ?_, ?_⟩ ?_
  · simp
  · intro _
    rfl
  · exact Or.inr (by rw [status]; exact inactive)
  · rintro (maintainer | isLeading)
    · cases maintainer
    · rw [leadingRow_active isLeading] at status
      exact absurd status.symm inactive
  · intro joined _ _ consent
    refine Or.inl ⟨joins, ?_⟩
    rw [status]
    rcases consent with invite | approval
    · exact needed (by simp [Organization.membershipPolicy, invite])
    · by_contra uninvited
      simp [joinStatus, Organization.membershipPolicy, approval, uninvited] at joined
  · intro invited
    simp only [joinStatus] at invited
    split at invited <;> cases invited
  · intro _
    exact joins
  · constructor
    · intro org
      simp [Founds, args]
    · intro org target
      simp [Removes, Leaves, args]

theorem groupInvite_change {state next : State} {request : Request} {output : Output}
    {group subject : String} (args : request.arguments = .invite group subject)
    (done : groupInvite app state request group subject = .ok (next, output)) :
    Change app state ⟨request, output⟩ next := by
  simp only [groupInvite, Program.except_bind_ok, require_ok, Program.except_pure,
    Except.ok.injEq, Prod.mk.injEq] at done
  obtain ⟨context, atGroup, _, _, target, _, _, _, _, _, _, inactive, seated, write, rfl,
    rfl⟩ := done
  have isContext := groupContext_ok atGroup
  obtain ⟨version, rfl⟩ := setMember_in isContext write
  refine Change.seated ⟨isContext.found, isContext.recorded, ?_, ?_, Or.inr inactive, ?_, ?_, ?_,
    ?_⟩ ?_
  · simp
  · intro _
    rfl
  · rintro (maintainer | isLeading)
    · cases maintainer
    · exact absurd (leadingRow_active isLeading) inactive
  · intro active
    cases active
  · intro _
    exact ⟨Or.inl ⟨group, subject, args⟩, rfl, rfl⟩
  · intro pending
    cases pending
  · constructor
    · intro org
      simp [Founds, args]
    · intro org target
      simp [Removes, Leaves, args]

theorem groupAnswer_change {state next : State} {request : Request} {output : Output}
    {group subject : String} {seat : Seat} (role : seat.role = .member)
    (answers : (request.arguments = .approve group subject ∧ seat.status = .active) ∨
      (request.arguments = .reject group subject ∧ seat.status = .rejected))
    (done : groupAnswer app state request group subject seat = .ok (next, output)) :
    Change app state ⟨request, output⟩ next := by
  simp only [groupAnswer, Program.except_bind_ok, require_ok, Program.except_pure,
    Except.ok.injEq, Prod.mk.injEq] at done
  obtain ⟨context, atGroup, _, _, target, _, _, pending, seated, write, rfl, rfl⟩ := done
  have isContext := groupContext_ok atGroup
  obtain ⟨version, rfl⟩ := setMember_in isContext write
  have inactive : statusOf state context.org target ≠ some .active := by
    intro active
    exact absurd (active.symm.trans pending) (by simp)
  refine Change.seated ⟨isContext.found, isContext.recorded, ?_, fun _ => role, Or.inr inactive,
    ?_, ?_, ?_, ?_⟩ ?_
  · simp [role]
  · rintro (maintainer | isLeading)
    · simp [role] at maintainer
    · exact absurd (leadingRow_active isLeading) inactive
  · intro active _ _ _
    rcases answers with ⟨approve, _⟩ | ⟨_, rejected⟩
    · exact Or.inr ⟨⟨⟨group, subject, approve⟩, rfl, rfl⟩, pending⟩
    · simp [rejected] at active
  · intro invited
    rcases answers with ⟨_, status⟩ | ⟨_, status⟩ <;> simp [status] at invited
  · intro pending
    rcases answers with ⟨_, status⟩ | ⟨_, status⟩ <;> simp [status] at pending
  · constructor
    · intro org
      rcases answers with ⟨args, _⟩ | ⟨args, _⟩ <;> simp [Founds, args]
    · intro org target
      rcases answers with ⟨args, _⟩ | ⟨args, _⟩ <;> simp [Removes, Leaves, args]

theorem activeMember_ok {state : State} {org target : String} {member : Membership}
    (done : activeMember state org target = .ok member) :
    statusOf state org target = some .active := by
  simp only [activeMember, requireRow_ok, Option.filter_eq_some_iff, beq_iff_eq] at done
  have found : state.memberships.find? (org, target) = some member := done.1
  rw [statusOf, found, Option.map_some, done.2]

theorem groupRoleSet_change {state next : State} {request : Request} {output : Output}
    {group subject : String} {role : SettableRole}
    (args : request.arguments = .roleSet group subject role)
    (done : groupRoleSet app state request group subject role = .ok (next, output)) :
    Change app state ⟨request, output⟩ next := by
  simp only [groupRoleSet, Program.except_bind_ok, require_ok, Program.except_pure,
    Except.ok.injEq, Prod.mk.injEq] at done
  obtain ⟨context, atGroup, _, manages, target, _, _, apart, member, isMember, seated, write,
    rfl, rfl⟩ := done
  have isContext := groupContext_ok atGroup
  have owns := (groupManager_ok isContext manages).2 rfl
  have active := activeMember_ok isMember
  obtain ⟨version, rfl⟩ := setMember_in isContext write
  refine Change.seated ⟨isContext.found, isContext.recorded, ?_, ?_, Or.inl apart, ?_, ?_, ?_,
    ?_⟩ ?_
  · cases role <;> simp [SettableRole.role]
  · intro waits
    exact absurd rfl waits
  · intro _
    exact Or.inl owns
  · intro _ inactive
    exact absurd active inactive
  · intro invited
    cases invited
  · intro pending
    cases pending
  · constructor
    · intro org
      simp [Founds, args]
    · intro org target
      simp [Removes, Leaves, args]

theorem groupLeave_change {state next : State} {request : Request} {output : Output}
    {group : String} (args : request.arguments = .leave group)
    (done : groupLeave app state request group = .ok (next, output)) :
    Change app state ⟨request, output⟩ next := by
  simp only [groupLeave, caller, Program.except_bind_ok, requireRow_ok, require_ok,
    Program.except_pure, Except.ok.injEq, Prod.mk.injEq] at done
  obtain ⟨subject, isCaller, context, atGroup, _, _, _, apart, _, _, seated, write, rfl, rfl⟩ :=
    done
  have isContext := groupContext_ok atGroup
  rw [removeGroupMember_in isContext write]
  refine Change.unseated isContext.found isContext.recorded apart ?_ ?_ ?_
  · intro _
    exact Or.inr ⟨⟨group, args⟩, rfl, isCaller⟩
  · intro org
    simp [Founds, args]
  · intro org target
    simp [Removes, Leaves, args, isCaller, eq_comm]

theorem groupRemove_change {state next : State} {request : Request} {output : Output}
    {group subject : String} (args : request.arguments = .remove group subject)
    (done : groupRemove app state request group subject = .ok (next, output)) :
    Change app state ⟨request, output⟩ next := by
  simp only [groupRemove, guardLeading, Program.except_bind_ok, requireRow_ok, require_ok,
    Program.except_pure, Except.ok.injEq, Prod.mk.injEq] at done
  obtain ⟨context, atGroup, leads, manages, target, _, _, apart, member, isMember, _, guarded,
    seated, write, rfl, rfl⟩ := done
  have isContext := groupContext_ok atGroup
  rw [removeGroupMember_in isContext write]
  refine @Change.unseated _ _ _ _ target _ _ isContext.found isContext.recorded apart ?_ ?_ ?_
  · rintro ⟨row, atTarget, isLeading⟩
    have same : member = row := Option.some.inj (isMember.symm.trans atTarget)
    refine Or.inl ((groupManager_ok isContext manages).1 (guarded ⟨member, rfl, ?_⟩))
    rw [same]
    exact isLeading
  · intro org
    simp [Founds, args]
  · intro org other
    simp [Removes, Leaves, args, Data.subjectId, eq_comm]

theorem setPolicy_ok {state next : State} {record : Organization} {policy : MembershipPolicy}
    (done : setPolicy state record policy = .ok next) :
    next = state ∨ next = { state with
      organizations :=
        state.organizations.put (repoliced record policy) } := by
  unfold setPolicy at done
  split at done
  · exact Or.inl (Except.ok.inj done).symm
  · simp only [updateOrganization, Program.except_bind_ok, require_ok, Program.except_pure,
      Except.ok.injEq] at done
    obtain ⟨_, _, rfl⟩ := done
    exact Or.inr rfl

theorem groupPolicySet_change {state next : State} {request : Request} {output : Output}
    {group : String} {policy : MembershipPolicy}
    (args : request.arguments = .policySet group policy)
    (done : groupPolicySet app state request group policy = .ok (next, output)) :
    Change app state ⟨request, output⟩ next := by
  simp only [groupPolicySet, Program.except_bind_ok, Program.except_pure,
    Except.ok.injEq, Prod.mk.injEq] at done
  obtain ⟨context, atGroup, _, _, changed, write, rfl, rfl⟩ := done
  have quiet : Quiet ⟨request, ⟨context.org, .policy policy none⟩⟩ := by
    constructor
    · intro org
      simp [Founds, args]
    · intro org target
      simp [Removes, Leaves, args]
  rcases setPolicy_ok write with rfl | rfl
  · exact Change.read quiet
  · exact Change.policy (groupContext_ok atGroup).recorded quiet

theorem changedSeat_invited {request : Request} {action : ChangeAction} {record : Organization}
    {previous : Option Membership}
    (invited : (changedSeat request action record previous).status ≠ .active) :
    action = .memberAdd ∧ (changedSeat request action record previous).status = .invited := by
  simp only [changedSeat] at invited ⊢
  split
  · rename_i both
    exact ⟨both.1, rfl⟩
  · rename_i neither
    exact absurd (if_neg neither) invited

theorem needsAcceptance_consenting {record : Organization} {previous : Option Membership}
    (plain : record.builtin = none) (consent : Consenting record)
    (inactive : previous.map Membership.status ≠ some .active) :
    needsAcceptance record previous = true := by
  have policy : record.membershipPolicy = .invite ∨ record.membershipPolicy = .approval := by
    rcases consent with stored | stored <;> simp [Organization.membershipPolicy, stored]
  have present : record.storedPolicy ≠ none := by
    rcases consent with stored | stored <;> simp [stored]
  simp [needsAcceptance, plain, present, policy, inactive]

theorem groupChange_change {state next : State} {request : Request} {output : Output}
    {action : ChangeAction} {group subject : String}
    (args : request.arguments = .change action group subject)
    (done : groupChange app state request action group subject = .ok (next, output)) :
    Change app state ⟨request, output⟩ next := by
  simp only [groupChange, guardLeading, Program.except_bind_ok, require_ok] at done
  obtain ⟨context, atGroup, leads, manages, target, _, _, _, _, apart, _, guarded, later⟩ := done
  have isContext := groupContext_ok atGroup
  have manager := (groupManager_ok isContext manages).1
  have led : LeadingRow state context.org target → Leads app state request context.org := by
    rintro ⟨row, atTarget, isLeading⟩
    exact manager (guarded ⟨row, atTarget, isLeading⟩)
  split at later
  · rename_i isRemoval
    subst isRemoval
    simp only [Program.except_bind_ok, Program.except_pure, Except.ok.injEq,
      Prod.mk.injEq] at later
    obtain ⟨seated, write, rfl, rfl⟩ := later
    rw [removeGroupMember_in isContext write]
    refine @Change.unseated _ _ _ _ target _ _ isContext.found isContext.recorded apart
      (fun isLeading => Or.inl (led isLeading)) ?_ ?_
    · intro org
      simp [Founds, args]
    · intro org other
      simp [Removes, Leaves, args, Data.subjectId, eq_comm]
  · rename_i notRemoval
    simp only [groupSeatChange, Program.except_bind_ok, require_ok, Program.except_pure,
      Except.ok.injEq, Prod.mk.injEq] at later
    obtain ⟨_, raised, _, lowered, _, settled, seated, write, rfl, rfl⟩ := later
    obtain ⟨version, rfl⟩ := setMember_in isContext write
    refine Change.seated ⟨isContext.found, isContext.recorded, ?_, ?_, Or.inl apart, ?_, ?_, ?_,
      ?_⟩ ?_
    · simp only [changedSeat]
      split <;> simp
    · intro waits
      have added := (changedSeat_invited waits).1
      simp [changedSeat, added]
    · rintro (maintainer | isLeading)
      · have isAdd : action = .adminAdd := by
          by_contra other
          simp [changedSeat, other] at maintainer
        exact manager (raised isAdd)
      · exact led isLeading
    · -- An active seat needs no acceptance, or the membership was active before.
      intro active inactive plain consent
      have needed : needsAcceptance context.organization
          (groupMember state context.org (some target)) = true :=
        needsAcceptance_consenting plain consent inactive
      cases action with
      | memberAdd =>
          have invites : (changedSeat request .memberAdd context.organization
              (groupMember state context.org (some target))).status = .invited := by
            simp [changedSeat, needed]
          rw [invites] at active
          cases active
      | memberRemove => exact absurd rfl notRemoval
      | adminAdd => exact absurd (needed.symm.trans (settled rfl)) (by simp)
      | adminRemove =>
          obtain ⟨row, found, isActive, _⟩ := lowered rfl
          have before : statusOf state context.org target = row.status :=
            congrArg (Option.map Membership.status) found
          rw [before, isActive] at inactive
          exact absurd rfl inactive
    · intro invited
      have waits : (changedSeat request action context.organization
          (groupMember state context.org (some target))).status ≠ .active := by
        rw [invited]
        simp
      have added := (changedSeat_invited waits).1
      subst added
      exact ⟨Or.inr ⟨group, subject, args⟩, rfl, rfl⟩
    · intro pending
      have waits : (changedSeat request action context.organization
          (groupMember state context.org (some target))).status ≠ .active := by
        rw [pending]
        simp
      rw [(changedSeat_invited waits).2] at pending
      cases pending
    · constructor
      · intro org
        simp [Founds, args]
      · intro org other
        cases action with
        | memberRemove => exact absurd rfl notRemoval
        | memberAdd => simp [Removes, Leaves, args]
        | adminAdd => simp [Removes, Leaves, args]
        | adminRemove => simp [Removes, Leaves, args]

theorem groupOwnerTransfer_change {state next : State} {request : Request} {output : Output}
    {group subject : String} (args : request.arguments = .ownerTransfer group subject)
    (done : groupOwnerTransfer app state request group subject = .ok (next, output)) :
    Change app state ⟨request, output⟩ next := by
  simp only [groupOwnerTransfer, Program.except_bind_ok, requireRow_ok, require_ok,
    Program.except_pure, Except.ok.injEq, Prod.mk.injEq] at done
  obtain ⟨context, atGroup, _, manages, target, _, _, apart, member, isMember, current, isCurrent,
    demoted, demotes, raised, raises, store, replaced, rfl, rfl⟩ := done
  have isContext := groupContext_ok atGroup
  have owns := (groupManager_ok isContext manages).2 rfl
  obtain ⟨oldVersion, rfl⟩ := setMember_in isContext demotes
  obtain ⟨record, newVersion, recorded, rfl⟩ := setMember_ok raises
  have same : written (bumped context.organization) = record := by
    have key : context.organization.resourceId = context.org :=
      Table.find?_key isContext.recorded
    have after := Table.find?_put state.organizations (written (bumped context.organization))
      context.org
    exact Option.some.inj ((after.trans (if_pos key)).symm.trans recorded)
  subst same
  obtain ⟨_, _, rfl⟩ := replaceResource_ok replaced
  have ownStatus : statusOf state context.org context.resource.owner = some .active := by
    obtain ⟨row, found, isOwner⟩ := owns
    rw [isContext.found] at found
    cases found
    have own : context.member =
        state.memberships.find? (context.org, context.resource.owner) := by
      rw [isContext.member, isOwner]
      rfl
    rw [own, Option.filter_eq_some_iff, beq_iff_eq] at isCurrent
    rw [statusOf, isCurrent.1, Option.map_some, isCurrent.2]
  have quiet : Quiet ⟨request, ⟨context.org, .resource (context.resource.generation + 1)
      (some target)⟩⟩ := by
    constructor
    · intro org
      simp [Founds, args]
    · intro org other
      simp [Removes, Leaves, args]
  exact @Change.transferred app state _ context.org target context.resource context.organization
    ⟨.maintainer, .active, current.joinedAt, current.invitedBy⟩
    ⟨.owner, .active, member.joinedAt, member.invitedBy⟩ oldVersion newVersion isContext.found
    isContext.recorded owns apart (activeMember_ok isMember) ownStatus ⟨rfl, rfl⟩ ⟨rfl, rfl⟩ quiet

/-- Everything an accepted group operation can do. -/
theorem perform_change {state next : State} {request : Request} {output : Output}
    (done : perform app state request = .ok (next, output)) :
    Change app state ⟨request, output⟩ next := by
  unfold perform at done
  cases args : request.arguments with
  | create name drawn =>
      simp only [args] at done
      exact groupCreate_change args done
  | change action group subject =>
      simp only [args] at done
      exact groupChange_change args done
  | policyGet group =>
      simp only [args, groupPolicyGet, Program.except_bind_ok, Program.except_pure,
        Except.ok.injEq, Prod.mk.injEq] at done
      obtain ⟨_, _, _, _, rfl, rfl⟩ := done
      exact Change.read ⟨by simp [Founds, args], by simp [Removes, Leaves, args]⟩
  | members group =>
      simp only [args, groupMembers, Program.except_bind_ok, Program.except_pure,
        Except.ok.injEq, Prod.mk.injEq] at done
      obtain ⟨_, _, _, _, _, _, rfl, rfl⟩ := done
      exact Change.read ⟨by simp [Founds, args], by simp [Removes, Leaves, args]⟩
  | policySet group policy =>
      simp only [args] at done
      exact groupPolicySet_change args done
  | join group =>
      simp only [args] at done
      exact groupJoin_change args done
  | invite group subject =>
      simp only [args] at done
      exact groupInvite_change args done
  | approve group subject =>
      simp only [args] at done
      exact groupAnswer_change rfl (Or.inl ⟨args, rfl⟩) done
  | reject group subject =>
      simp only [args] at done
      exact groupAnswer_change rfl (Or.inr ⟨args, rfl⟩) done
  | leave group =>
      simp only [args] at done
      exact groupLeave_change args done
  | remove group subject =>
      simp only [args] at done
      exact groupRemove_change args done
  | roleSet group subject role =>
      simp only [args] at done
      exact groupRoleSet_change args done
  | ownerTransfer group subject =>
      simp only [args] at done
      exact groupOwnerTransfer_change args done

end MsgServer.Groups
