import MsgServer.Library.History
import MsgServer.Plugins.GroupChanges

/-!
What the group operations keep over whole runs. The invariant says who owns a
group, which rows may wait, and which earlier act a waiting row goes back to; the
facts about single steps follow from it and from the `Change` a step is.
-/

namespace MsgServer.Groups

open Library Session ResourceTree Authorization History

variable {app : App}

/-- What no change of an organization's body takes back. -/
structure Grown (old new : Organization) : Prop where
  builtin : new.builtin = old.builtin
  stored : old.storedPolicy ≠ none → new.storedPolicy ≠ none
  version : old.membershipVersion ≤ new.membershipVersion

theorem Grown.refl (record : Organization) : Grown record record :=
  ⟨rfl, fun stored => stored, Nat.le_refl _⟩

theorem Grown.trans {first second third : Organization} (one : Grown first second)
    (two : Grown second third) : Grown first third :=
  ⟨two.builtin.trans one.builtin, fun stored => two.stored (one.stored stored),
    Nat.le_trans one.version two.version⟩

theorem grown_bump (record : Organization) : Grown record (written (bumped record)) :=
  ⟨rfl, fun _ => by simp [written], Nat.le_succ _⟩

theorem find?_seat (table : Table Membership.key) (org target : String) (version : Nat)
    (seat : Seat) (key : String × String) :
    (table.put (seatRow org target version seat)).find? key =
      if (org, target) = key then some (seatRow org target version seat) else table.find? key :=
  Table.find?_put table (seatRow org target version seat) key

theorem find?_record {table : Table Organization.resourceId} {org : String}
    {record : Organization} (recorded : table.find? org = some record) (new : Organization)
    (same : new.resourceId = record.resourceId) (id : String) :
    (table.put new).find? id = if org = id then some new else table.find? id := by
  have key : new.resourceId = org := same.trans (Table.find?_key recorded)
  rw [Table.find?_put, key]

/-- The record of a group whose two memberships are written one after the other. -/
theorem find?_twice {table : Table Organization.resourceId} {org : String}
    {record : Organization} (recorded : table.find? org = some record) (id : String) :
    ((table.put (written (bumped record))).put
        (written (bumped (written (bumped record))))).find? id =
      if org = id then some (written (bumped (written (bumped record)))) else table.find? id := by
  have named : record.resourceId = org := Table.find?_key recorded
  have key : (written (bumped (written (bumped record)))).resourceId = org := named
  have first := find?_record recorded (written (bumped record)) rfl id
  rw [Table.find?_put, first, key]
  split <;> rfl

/-- Every organization of before is still there, and only a founding adds one. -/
theorem Change.organizations {state next : State} {event : Event}
    (change : Change app state event next) (org : String) :
    (∃ old new, state.organizations.find? org = some old ∧
        next.organizations.find? org = some new ∧ Grown old new ∧ ¬ Founds org event) ∨
      (next.organizations.find? org = none ∧ state.organizations.find? org = none ∧
        ¬ Founds org event) ∨
      (∃ new, state.organizations.find? org = none ∧ next.organizations.find? org = some new ∧
        Founds org event ∧ new.builtin = none ∧ new.storedPolicy ≠ none) := by
  -- Where one record is rewritten, every other organization is as it was.
  have rewritten : ∀ {table : Table Organization.resourceId} {id : String}
      {old new : Organization}, state.organizations.find? id = some old → Grown old new →
      (∀ other, table.find? other = if id = other then some new
        else state.organizations.find? other) → ¬ Founds org event →
      (∃ old new, state.organizations.find? org = some old ∧ table.find? org = some new ∧
          Grown old new ∧ ¬ Founds org event) ∨
        (table.find? org = none ∧ state.organizations.find? org = none ∧ ¬ Founds org event) ∨
        (∃ new, state.organizations.find? org = none ∧ table.find? org = some new ∧
          Founds org event ∧ new.builtin = none ∧ new.storedPolicy ≠ none) := by
    intro table id old new found grown shape quiet
    rw [shape org]
    by_cases here : id = org
    · subst here
      rw [if_pos rfl]
      exact Or.inl ⟨old, new, found, rfl, grown, quiet⟩
    · rw [if_neg here]
      cases other : state.organizations.find? org with
      | none => exact Or.inr (Or.inl ⟨rfl, rfl, quiet⟩)
      | some row => exact Or.inl ⟨row, row, rfl, rfl, Grown.refl row, quiet⟩
  cases change with
  | read quiet =>
      cases found : state.organizations.find? org with
      | none => exact Or.inr (Or.inl ⟨rfl, rfl, quiet.founds org⟩)
      | some row => exact Or.inl ⟨row, row, rfl, rfl, Grown.refl row, quiet.founds org⟩
  | @founded subject row seat grown record organizations version inserted fresh owner role status
      plain policy shape founds removes =>
      simp only [shape org]
      by_cases here : row.id = org
      · subst here
        rw [if_pos rfl]
        exact Or.inr (Or.inr ⟨record, fresh, rfl, (founds _).mpr rfl, plain, policy⟩)
      · have quiet : ¬ Founds org event := fun is => here ((founds org).mp is).symm
        rw [if_neg here]
        cases found : state.organizations.find? org with
        | none => exact Or.inr (Or.inl ⟨rfl, rfl, quiet⟩)
        | some row => exact Or.inl ⟨row, row, rfl, rfl, Grown.refl row, quiet⟩
  | @policy group record policy recorded quiet =>
      have grown : Grown record (repoliced record policy) :=
        ⟨rfl, fun _ => by simp [repoliced], Nat.le_succ _⟩
      exact rewritten recorded grown (find?_record recorded _ rfl) (quiet.founds org)
  | seated seating quiet =>
      exact rewritten seating.recorded (grown_bump _) (find?_record seating.recorded _ rfl)
        (quiet.founds org)
  | unseated found recorded apart led founds removes =>
      exact rewritten recorded (grown_bump _) (find?_record recorded _ rfl) (founds org)
  | @transferred group target resource record old new oldVersion newVersion found recorded owns
      apart active current oldSeat newSeat quiet =>
      exact rewritten recorded ((grown_bump _).trans (grown_bump _)) (find?_twice recorded)
        (quiet.founds org)

/-- The one owner row of a group, active and the owner's. -/
structure Owned (state : State) (org : String) (resource : Resource) : Prop where
  found : state.store.resources.find? org = some resource
  holds : ∃ row, state.memberships.find? (org, resource.owner) = some row ∧ row.role = .owner ∧
    row.status = .active
  sole : ∀ subject row, state.memberships.find? (org, subject) = some row → row.role = .owner →
    subject = resource.owner

/-- What every run keeps, for every group that is not built in. -/
structure Sound (state : State) (past : List Event) : Prop where
  grounded : ∀ org subject row, state.memberships.find? (org, subject) = some row →
    ∃ record, state.organizations.find? org = some record
  created : ∀ event ∈ past, ∀ org, Founds org event →
    ∃ record, state.organizations.find? org = some record ∧ record.builtin = none
  stored : ∀ org record, state.organizations.find? org = some record → record.builtin = none →
    record.storedPolicy ≠ none
  owned : ∀ org record, state.organizations.find? org = some record → record.builtin = none →
    ∃ resource, Owned state org resource
  waiting : ∀ org subject row, state.memberships.find? (org, subject) = some row →
    row.status ≠ .active → row.role = .member
  invited : ∀ org subject row, state.memberships.find? (org, subject) = some row →
    row.status = .invited → Since (Invites org subject) (Removes org subject) past
  pending : ∀ org subject row, state.memberships.find? (org, subject) = some row →
    row.status = .pending → Since (Joins org subject) (Removes org subject) past

variable {state next : State} {event : Event} {past : List Event}

theorem Owned.active {org : String} {resource : Resource} (owned : Owned state org resource) :
    statusOf state org resource.owner = some .active := by
  obtain ⟨row, found, _, active⟩ := owned.holds
  simp [statusOf, found, active]

/-- The target of a written membership does not own the group. -/
theorem Seating.other {org target : String} {resource : Resource} {record : Organization}
    {seat : Seat} (seating : Seating app state event org target resource record seat)
    (owned : Owned state org resource) : target ≠ resource.owner := by
  rcases seating.apart with other | inactive
  · exact other
  · intro same
    subst same
    exact inactive owned.active

theorem Change.kept (change : Change app state event next) {org : String}
    (known : ∃ record, state.organizations.find? org = some record) :
    ∃ record, next.organizations.find? org = some record := by
  obtain ⟨record, found⟩ := known
  rcases change.organizations org with ⟨_, new, _, after, _⟩ | ⟨_, absent, _⟩ | ⟨_, absent, _⟩
  · exact ⟨new, after⟩
  · exact absurd (found.symm.trans absent) (by simp)
  · exact absurd (found.symm.trans absent) (by simp)

/-- A membership is as it was and was not removed, or it is written in a known group:
active, or as a `Seating` says. -/
theorem Change.membership (change : Change app state event next) {org subject : String}
    {row : Membership} (atKey : next.memberships.find? (org, subject) = some row) :
    (state.memberships.find? (org, subject) = some row ∧ ¬ Removes org subject event) ∨
      ((∃ record, next.organizations.find? org = some record) ∧
        (row.status = .active ∨ ∃ resource record seat,
          Seating app state event org subject resource record seat ∧ row.role = seat.role ∧
            row.status = seat.status)) := by
  cases change with
  | read quiet => exact Or.inl ⟨atKey, quiet.removes org subject⟩
  | @founded owner made seat grown record organizations version inserted fresh isOwner role status
      plain policy shape founds removes =>
      rw [find?_seat] at atKey
      split at atKey
      · rename_i same
        cases same
        cases atKey
        exact Or.inr ⟨⟨record, (shape _).trans (if_pos rfl)⟩, Or.inl status⟩
      · exact Or.inl ⟨atKey, removes org subject⟩
  | policy recorded quiet => exact Or.inl ⟨atKey, quiet.removes org subject⟩
  | @seated group target resource record seat version seating quiet =>
      have known := (@Change.seated app _ _ _ _ _ _ _ version seating quiet).kept ⟨_, seating.recorded⟩
      rw [find?_seat] at atKey
      split at atKey
      · rename_i same
        cases same
        cases atKey
        exact Or.inr ⟨known, Or.inr ⟨resource, record, seat, seating, rfl, rfl⟩⟩
      · exact Or.inl ⟨atKey, quiet.removes org subject⟩
  | @unseated group target resource record found recorded apart led founds removes =>
      rw [Table.find?_delete] at atKey
      split at atKey
      · cases atKey
      · rename_i other
        refine Or.inl ⟨atKey, fun removed => other ?_⟩
        obtain ⟨rfl, rfl⟩ := (removes org subject).mp removed
        rfl
  | @transferred group target resource record old new oldVersion newVersion found recorded owns
      apart active current oldSeat newSeat quiet =>
      have known := (@Change.transferred app _ _ _ _ _ _ _ _ oldVersion newVersion found
        recorded owns apart active current oldSeat newSeat quiet).kept ⟨_, recorded⟩
      rw [find?_seat, find?_seat] at atKey
      split at atKey
      · rename_i same
        cases same
        cases atKey
        exact Or.inr ⟨known, Or.inl newSeat.2⟩
      · split at atKey
        · rename_i same
          cases same
          cases atKey
          exact Or.inr ⟨known, Or.inl oldSeat.2⟩
        · exact Or.inl ⟨atKey, quiet.removes org subject⟩

theorem Change.grounded (change : Change app state event next) (sound : Sound state past)
    (org subject : String) (row : Membership)
    (atKey : next.memberships.find? (org, subject) = some row) :
    ∃ record, next.organizations.find? org = some record := by
  rcases change.membership atKey with ⟨before, _⟩ | ⟨known, _⟩
  · exact change.kept (sound.grounded org subject row before)
  · exact known

theorem Change.created (change : Change app state event next) (sound : Sound state past)
    (act : Event) (inside : act ∈ event :: past) (org : String) (founds : Founds org act) :
    ∃ record, next.organizations.find? org = some record ∧ record.builtin = none := by
  rcases change.organizations org with ⟨old, new, before, after, grown, quiet⟩ |
    ⟨_, absent, quiet⟩ | ⟨new, _, after, _, plain, _⟩
  · rcases List.mem_cons.mp inside with rfl | earlier
    · exact absurd founds quiet
    · obtain ⟨record, found, plain⟩ := sound.created act earlier org founds
      rw [before] at found
      cases found
      exact ⟨new, after, grown.builtin.trans plain⟩
  · rcases List.mem_cons.mp inside with rfl | earlier
    · exact absurd founds quiet
    · obtain ⟨record, found, _⟩ := sound.created act earlier org founds
      exact absurd (found.symm.trans absent) (by simp)
  · exact ⟨new, after, plain⟩

theorem Change.stored (change : Change app state event next) (sound : Sound state past)
    (org : String) (record : Organization) (found : next.organizations.find? org = some record)
    (plain : record.builtin = none) : record.storedPolicy ≠ none := by
  rcases change.organizations org with ⟨old, new, before, after, grown, _⟩ | ⟨absent, _⟩ |
    ⟨new, _, after, _, _, policy⟩
  · rw [after] at found
    cases found
    exact grown.stored (sound.stored org old before (grown.builtin.symm.trans plain))
  · exact absurd (found.symm.trans absent) (by simp)
  · rw [after] at found
    cases found
    exact policy

theorem Change.waiting (change : Change app state event next) (sound : Sound state past)
    (org subject : String) (row : Membership)
    (atKey : next.memberships.find? (org, subject) = some row) (waits : row.status ≠ .active) :
    row.role = .member := by
  rcases change.membership atKey with ⟨before, _⟩ | ⟨_, active | ⟨_, _, seat, seating, role, status⟩⟩
  · exact sound.waiting org subject row before waits
  · exact absurd active waits
  · rw [role]
    exact seating.waiting (status ▸ waits)

/-- A row of one waiting status goes back to the act that makes such rows. -/
theorem Change.since (change : Change app state event next) {status : Status}
    {made : String → String → Event → Prop} (waits : status ≠ .active)
    (makes : ∀ org subject resource record seat,
      Seating app state event org subject resource record seat → seat.status = status →
        made org subject event)
    (before : ∀ org subject row, state.memberships.find? (org, subject) = some row →
      row.status = status → Since (made org subject) (Removes org subject) past)
    (org subject : String) (row : Membership)
    (atKey : next.memberships.find? (org, subject) = some row) (isStatus : row.status = status) :
    Since (made org subject) (Removes org subject) (event :: past) := by
  rcases change.membership atKey with ⟨old, still⟩ | ⟨_, active | ⟨_, _, seat, seating, _, written⟩⟩
  · exact Since.later still (before org subject row old isStatus)
  · exact absurd (isStatus.symm.trans active) waits
  · exact Since.now (makes org subject _ _ seat seating (written.symm.trans isStatus))

/-- Rows that are new and not an owner's leave the ownership of a group alone. -/
theorem Owned.frame {org : String} {resource : Resource} (owned : Owned state org resource)
    (found : next.store.resources.find? org = some resource)
    (own : next.memberships.find? (org, resource.owner) =
      state.memberships.find? (org, resource.owner))
    (others : ∀ subject row, next.memberships.find? (org, subject) = some row →
      row.role = .owner → state.memberships.find? (org, subject) = some row) :
    Owned next org resource where
  found := found
  holds := by
    obtain ⟨row, atOwner, facts⟩ := owned.holds
    exact ⟨row, own.trans atOwner, facts⟩
  sole := fun subject row atKey isOwner => owned.sole subject row (others subject row atKey isOwner)
    isOwner

theorem Change.owned (change : Change app state event next) (sound : Sound state past)
    (org : String) (record : Organization) (found : next.organizations.find? org = some record)
    (plain : record.builtin = none) : ∃ resource, Owned next org resource := by
  have before : Founds org event ∨ ∃ resource, Owned state org resource := by
    rcases change.organizations org with ⟨old, new, earlier, after, grown, _⟩ | ⟨absent, _⟩ |
      ⟨_, _, _, founds, _⟩
    · rw [after] at found
      cases found
      exact Or.inr (sound.owned org old earlier (grown.builtin.symm.trans plain))
    · exact absurd (found.symm.trans absent) (by simp)
    · exact Or.inl founds
  cases change with
  | read quiet => exact before.resolve_left (quiet.founds org)
  | @founded owner made seat grown record organizations version inserted fresh isOwner role status
      plain policy shape founds removes =>
      by_cases here : org = made.id
      · subst here
        subst isOwner
        have noRows : ∀ subject, state.memberships.find? (made.id, subject) = none := by
          intro subject
          by_contra some
          obtain ⟨row, atKey⟩ := Option.ne_none_iff_exists'.mp some
          obtain ⟨record, known⟩ := sound.grounded _ _ row atKey
          exact absurd (known.symm.trans fresh) (by simp)
        refine ⟨made, ?_, ⟨_, (find?_seat _ _ _ _ _ _).trans (if_pos rfl), role, status⟩, ?_⟩
        · exact (Table.find?_insert inserted made.id).trans (if_pos rfl)
        · intro subject row atKey _
          rw [find?_seat, noRows] at atKey
          split at atKey
          · rename_i same
            exact (congrArg Prod.snd same).symm
          · cases atKey
      · obtain ⟨resource, owned⟩ := before.resolve_left fun is => here ((founds org).mp is)
        have apart : ∀ subject, (made.id, owner) ≠ (org, subject) := fun subject same =>
          here (congrArg Prod.fst same).symm
        refine ⟨resource, owned.frame ?_ ?_ ?_⟩
        · rw [Table.find?_insert inserted, if_neg (Ne.symm here)]
          exact owned.found
        · rw [find?_seat, if_neg (apart _)]
        · intro subject row atKey _
          rw [find?_seat, if_neg (apart _)] at atKey
          exact atKey
  | policy recorded quiet =>
      obtain ⟨resource, owned⟩ := before.resolve_left (quiet.founds org)
      exact ⟨resource, owned.frame owned.found rfl fun _ _ atKey _ => atKey⟩
  | @seated group target resource record seat version seating quiet =>
      obtain ⟨owning, owned⟩ := before.resolve_left (quiet.founds org)
      have apart : (group, target) ≠ (org, owning.owner) := by
        intro same
        cases same
        obtain rfl : resource = owning := Option.some.inj (seating.found.symm.trans owned.found)
        exact seating.other owned rfl
      refine ⟨owning, owned.frame owned.found ?_ ?_⟩
      · rw [find?_seat, if_neg apart]
      · intro subject row atKey isOwner
        rw [find?_seat] at atKey
        split at atKey
        · cases atKey
          exact absurd isOwner seating.plain
        · exact atKey
  | @unseated group target resource record atGroup recorded apart led founds removes =>
      obtain ⟨owning, owned⟩ := before.resolve_left (founds org)
      have apart : (org, owning.owner) ≠ (group, target) := by
        intro same
        cases same
        obtain rfl : resource = owning := Option.some.inj (atGroup.symm.trans owned.found)
        exact apart rfl
      refine ⟨owning, owned.frame owned.found ?_ ?_⟩
      · rw [Table.find?_delete, if_neg apart]
      · intro subject row atKey _
        rw [Table.find?_delete] at atKey
        split at atKey
        · cases atKey
        · exact atKey
  | @transferred group target resource record old new oldVersion newVersion atGroup recorded owns
      apart active current oldSeat newSeat quiet =>
      obtain ⟨owning, owned⟩ := before.resolve_left (quiet.founds org)
      have id : resource.id = group := Table.find?_key atGroup
      by_cases here : org = group
      · subst here
        obtain rfl : resource = owning := Option.some.inj (atGroup.symm.trans owned.found)
        refine ⟨{ resource with owner := target, generation := resource.generation + 1 }, ?_,
          ⟨_, (find?_seat _ _ _ _ _ _).trans (if_pos rfl), newSeat⟩, ?_⟩
        · show (state.store.resources.modify resource.id _).find? org = _
          rw [id, Table.find?_modify, if_pos rfl, atGroup, Option.map_some]
          exact congrArg some (Table.rekeyed_of_key id.symm)
        · intro subject row atKey isOwner
          rw [find?_seat, find?_seat] at atKey
          split at atKey
          · rename_i same
            exact (congrArg Prod.snd same).symm
          · split at atKey
            · cases atKey
              exact absurd (oldSeat.1.symm.trans isOwner) (by simp)
            · rename_i notOld
              exact absurd (congrArg (Prod.mk org) (owned.sole subject row atKey isOwner).symm)
                notOld
      · have apart : ∀ subject other : String, (group, subject) ≠ (org, other) := fun _ _ same =>
          here (congrArg Prod.fst same).symm
        refine ⟨owning, owned.frame ?_ ?_ ?_⟩
        · show (state.store.resources.modify resource.id _).find? org = _
          rw [Table.find?_modify_ne _ _ (id ▸ here)]
          exact owned.found
        · rw [find?_seat, find?_seat, if_neg (apart _ _), if_neg (apart _ _)]
        · intro subject row atKey _
          rw [find?_seat, find?_seat, if_neg (apart _ _), if_neg (apart _ _)] at atKey
          exact atKey

theorem Sound.change (sound : Sound state past) (change : Change app state event next) :
    Sound next (event :: past) where
  grounded := change.grounded sound
  created := change.created sound
  stored := change.stored sound
  owned := change.owned sound
  waiting := change.waiting sound
  invited := change.since (by simp) (fun _ _ _ _ _ seating => seating.invited) sound.invited
  pending := change.since (by simp) (fun _ _ _ _ _ seating => seating.pending) sound.pending

/-! Runs. -/

/-- Everything else the server does, and the passing of time: any change at all but
to memberships, organizations and who owns a group. -/
structure Elsewhere (before after : State) : Prop where
  organizations : after.organizations = before.organizations
  memberships : after.memberships = before.memberships
  owners : ∀ org record, before.organizations.find? org = some record → ∀ resource,
    before.store.resources.find? org = some resource →
      ∃ later, after.store.resources.find? org = some later ∧ later.owner = resource.owner

/-- A run with its accepted operations, newest first. A refused one changes nothing. -/
inductive Run (app : App) : State → List Event → Prop
  | installed {state : State} (empty : state.memberships.rows = [])
      (builtin : ∀ record ∈ state.organizations.rows, record.builtin ≠ none) : Run app state []
  | performed {state next : State} {past : List Event} {request : Request} {output : Output} :
      Run app state past → perform app state request = .ok (next, output) →
      Run app next (⟨request, output⟩ :: past)
  | elsewhere {state next : State} {past : List Event} :
      Run app state past → Elsewhere state next → Run app next past

theorem Sound.elsewhere (sound : Sound state past) (other : Elsewhere state next) :
    Sound next past where
  grounded := by
    rw [other.organizations, other.memberships]
    exact sound.grounded
  created := by
    rw [other.organizations]
    exact sound.created
  stored := by
    rw [other.organizations]
    exact sound.stored
  owned := by
    rw [other.organizations]
    intro org record found plain
    obtain ⟨resource, owned⟩ := sound.owned org record found plain
    obtain ⟨later, atOrg, same⟩ := other.owners org record found resource owned.found
    refine ⟨later, atOrg, ?_, ?_⟩
    · rw [other.memberships, same]
      exact owned.holds
    · rw [other.memberships, same]
      exact owned.sole
  waiting := by
    rw [other.memberships]
    exact sound.waiting
  invited := by
    rw [other.memberships]
    exact sound.invited
  pending := by
    rw [other.memberships]
    exact sound.pending

theorem run_sound (run : Run app state past) : Sound state past := by
  induction run with
  | @installed state empty builtin =>
      have noRows : ∀ key row, state.memberships.find? key ≠ some row := by
        intro key row found
        have inside := Table.find?_mem found
        rw [empty] at inside
        cases inside
      have noGroups : ∀ org record, state.organizations.find? org = some record →
          record.builtin ≠ none := fun _ record found => builtin record (Table.find?_mem found)
      constructor
      · exact fun _ _ row found => absurd found (noRows _ row)
      · exact fun act inside => absurd inside List.not_mem_nil
      · exact fun org record found plain => absurd plain (noGroups org record found)
      · exact fun org record found plain => absurd plain (noGroups org record found)
      · exact fun _ _ row found => absurd found (noRows _ row)
      · exact fun _ _ row found => absurd found (noRows _ row)
      · exact fun _ _ row found => absurd found (noRows _ row)
  | performed before done ih => exact ih.change (perform_change done)
  | elsewhere before other ih => exact ih.elsewhere other

/-! Single steps. -/

def memberOf (state : State) (org subject : String) : Option Membership :=
  state.memberships.find? (org, subject)

def IsMaintainer (row : Option Membership) : Prop := row.map Membership.role = some .maintainer

/-- A known group is not the one that a step founds. -/
theorem ne_founded {org id : String} {record : Organization}
    (found : state.organizations.find? org = some record)
    (fresh : state.organizations.find? id = none) (owner subject : String) :
    (id, owner) ≠ (org, subject) := by
  intro same
  cases same
  exact absurd (found.symm.trans fresh) (by simp)

theorem leadingRow_maintainer (sound : Sound state past) {org subject : String}
    (isMaintainer : IsMaintainer (memberOf state org subject)) : LeadingRow state org subject := by
  obtain ⟨row, found, role⟩ := Option.map_eq_some_iff.mp isMaintainer
  refine ⟨row, found, ?_⟩
  by_cases active : row.status = .active
  · simp [leading, active, managing, role]
  · exact absurd (role.symm.trans (sound.waiting org subject row found active)) (by simp)

/-- A maintainer's row is made, demoted or removed by the owner, by the override, or
by the maintainer leaving. -/
theorem Change.maintainers (change : Change app state event next) (sound : Sound state past)
    {org : String} {record : Organization} (found : state.organizations.find? org = some record)
    {subject : String} (changed : memberOf next org subject ≠ memberOf state org subject)
    (either : IsMaintainer (memberOf state org subject) ∨
      IsMaintainer (memberOf next org subject)) :
    Leads app state event.request org ∨ Leaves org subject event := by
  cases change with
  | read quiet => exact absurd rfl changed
  | @founded owner made seat grown record organizations version inserted fresh isOwner role status
      plain policy shape founds removes =>
      have same := find?_seat state.memberships made.id owner version seat (org, subject)
      rw [if_neg (ne_founded found fresh owner subject)] at same
      exact absurd same changed
  | policy recorded quiet => exact absurd rfl changed
  | @seated group target resource record seat version seating quiet =>
      have after := find?_seat state.memberships group target version seat (org, subject)
      by_cases here : (group, target) = (org, subject)
      · cases here
        rw [if_pos rfl] at after
        apply Or.inl
        apply seating.led
        rcases either with before | now
        · exact Or.inr (leadingRow_maintainer sound before)
        · rw [memberOf, after] at now
          exact Or.inl (Option.some.inj now)
      · rw [if_neg here] at after
        exact absurd after changed
  | @unseated group target resource record atGroup recorded apart led founds removes =>
      have after := Table.find?_delete state.memberships (group, target) (org, subject)
      by_cases here : (org, subject) = (group, target)
      · cases here
        rw [if_pos rfl] at after
        rcases either with before | now
        · exact led (leadingRow_maintainer sound before)
        · rw [memberOf, after] at now
          cases now
      · rw [if_neg here] at after
        exact absurd after changed
  | @transferred group target resource record old new oldVersion newVersion atGroup recorded owns
      apart active current oldSeat newSeat quiet =>
      by_cases here : org = group
      · subst here
        exact Or.inl (Or.inl owns)
      · have away : ∀ other : String, (group, other) ≠ (org, subject) := fun _ same =>
          here (congrArg Prod.fst same).symm
        apply absurd _ changed
        show ((state.memberships.put _).put _).find? (org, subject) = _
        rw [find?_seat, find?_seat, if_neg (away _), if_neg (away _)]
        rfl

/-- Under a consenting policy nobody becomes active without an act of its own. -/
theorem Change.activation (change : Change app state event next) (sound : Sound state past)
    {org : String} {record : Organization} (found : state.organizations.find? org = some record)
    (plain : record.builtin = none) (consent : Consenting record) {subject : String}
    (before : statusOf state org subject ≠ some .active)
    (after : statusOf next org subject = some .active) :
    (Joins org subject event ∧ Since (Invites org subject) (Removes org subject) past) ∨
      (Approves org subject event ∧ Since (Joins org subject) (Removes org subject) past) := by
  cases change with
  | read quiet => exact absurd after before
  | founded inserted fresh isOwner role status plain policy shape founds removes =>
      rw [statusOf, find?_seat, if_neg (ne_founded found fresh _ _)] at after
      exact absurd after before
  | policy recorded quiet => exact absurd after before
  | @seated group target resource other seat version seating quiet =>
      rw [statusOf, find?_seat] at after
      split at after
      · rename_i here
        cases here
        obtain rfl : record = other := Option.some.inj (found.symm.trans seating.recorded)
        rcases seating.accepted (Option.some.inj after) before plain consent with
          ⟨joins, invited⟩ | ⟨approves, pending⟩
        · obtain ⟨row, atKey, status⟩ := Option.map_eq_some_iff.mp invited
          exact Or.inl ⟨joins, sound.invited org subject row atKey status⟩
        · obtain ⟨row, atKey, status⟩ := Option.map_eq_some_iff.mp pending
          exact Or.inr ⟨approves, sound.pending org subject row atKey status⟩
      · exact absurd after before
  | unseated atGroup recorded apart led founds removes =>
      rw [statusOf, Table.find?_delete] at after
      split at after
      · cases after
      · exact absurd after before
  | transferred atGroup recorded owns apart active current oldSeat newSeat quiet =>
      rw [statusOf, find?_seat, find?_seat] at after
      split at after
      · rename_i here
        cases here
        exact absurd active before
      · split at after
        · rename_i here
          cases here
          exact absurd current before
        · exact absurd after before

/-- Rewriting one record with a later version. -/
theorem version_rewritten {group org : String} {record changed old new : Organization}
    {table : Table Organization.resourceId}
    (recorded : state.organizations.find? group = some record)
    (shape : ∀ id, table.find? id =
      if group = id then some changed else state.organizations.find? id)
    (later : record.membershipVersion < changed.membershipVersion)
    (before : state.organizations.find? org = some old) (after : table.find? org = some new) :
    old.membershipVersion < new.membershipVersion ∨ (group ≠ org ∧ new = old) := by
  rw [shape] at after
  by_cases here : group = org
  · subst here
    rw [recorded] at before
    rw [if_pos rfl] at after
    cases before
    cases after
    exact Or.inl later
  · rw [if_neg here, before] at after
    exact Or.inr ⟨here, (Option.some.inj after).symm⟩

/-- The version moves on, or neither the rows nor the policy of the group changed. -/
theorem Change.version (change : Change app state event next) {org : String}
    {old new : Organization} (before : state.organizations.find? org = some old)
    (after : next.organizations.find? org = some new) :
    old.membershipVersion < new.membershipVersion ∨
      ((∀ subject, memberOf next org subject = memberOf state org subject) ∧
        new.membershipPolicy = old.membershipPolicy) := by
  cases change with
  | read quiet =>
      rw [before] at after
      cases after
      exact Or.inr ⟨fun _ => rfl, rfl⟩
  | founded inserted fresh isOwner role status plain policy shape founds removes =>
      rw [shape, if_neg (fun same => ne_founded before fresh "" "" (by rw [same])), before] at after
      cases after
      refine Or.inr ⟨fun subject => ?_, rfl⟩
      rw [memberOf, find?_seat, if_neg (ne_founded before fresh _ _)]
      rfl
  | @policy group record policy recorded quiet =>
      rcases version_rewritten recorded
        (find?_record recorded (repoliced record policy) rfl) (Nat.lt_succ_self _) before after with
        later | ⟨_, same⟩
      · exact Or.inl later
      · exact Or.inr ⟨fun _ => rfl, by rw [same]⟩
  | @seated group target resource record seat version seating quiet =>
      rcases version_rewritten seating.recorded
        (find?_record seating.recorded (written (bumped record)) rfl) (Nat.lt_succ_self _) before
        after with later | ⟨other, same⟩
      · exact Or.inl later
      · refine Or.inr ⟨fun subject => ?_, by rw [same]⟩
        rw [memberOf, find?_seat, if_neg fun same => other (congrArg Prod.fst same)]
        rfl
  | @unseated group target resource record atGroup recorded apart led founds removes =>
      rcases version_rewritten recorded
        (find?_record recorded (written (bumped record)) rfl) (Nat.lt_succ_self _) before after with
        later | ⟨other, same⟩
      · exact Or.inl later
      · refine Or.inr ⟨fun subject => ?_, by rw [same]⟩
        rw [memberOf, Table.find?_delete, if_neg fun same => other (congrArg Prod.fst same).symm]
        rfl
  | @transferred group target resource record lower upper oldVersion newVersion atGroup recorded
      owns apart active current oldSeat newSeat quiet =>
      rcases version_rewritten recorded (find?_twice recorded)
        (Nat.lt_of_lt_of_le (Nat.lt_succ_self _) (Nat.le_succ _)) before after with
        later | ⟨other, same⟩
      · exact Or.inl later
      · refine Or.inr ⟨fun subject => ?_, by rw [same]⟩
        have away : ∀ one : String, (group, one) ≠ (org, subject) := fun _ same =>
          other (congrArg Prod.fst same)
        rw [memberOf, find?_seat, find?_seat, if_neg (away _), if_neg (away _)]
        rfl

/-- A group that some earlier operation founded, in any state that group operations
and the rest of the server lead to, and every next group operation. -/
theorem group_governed (run : Run app state past) {org : String} {founding : Event}
    (inPast : founding ∈ past) (founds : Founds org founding) :
    ∃ record, state.organizations.find? org = some record ∧
      (∃ resource, Owned state org resource) ∧
      (∀ subject row, memberOf state org subject = some row → row.status ≠ .active →
        row.role = .member) ∧
      ∀ request next output, perform app state request = .ok (next, output) →
        (∀ subject, memberOf next org subject ≠ memberOf state org subject →
          IsMaintainer (memberOf state org subject) ∨ IsMaintainer (memberOf next org subject) →
            Leads app state request org ∨ Leaves org subject ⟨request, output⟩) ∧
        (record.membershipPolicy = .invite ∨ record.membershipPolicy = .approval → ∀ subject,
          statusOf state org subject ≠ some .active → statusOf next org subject = some .active →
            (Joins org subject ⟨request, output⟩ ∧
                Since (Invites org subject) (Removes org subject) past) ∨
              (Approves org subject ⟨request, output⟩ ∧
                Since (Joins org subject) (Removes org subject) past)) ∧
        ∃ later, next.organizations.find? org = some later ∧
          record.membershipVersion ≤ later.membershipVersion ∧
          ((∃ subject, memberOf next org subject ≠ memberOf state org subject) ∨
              later.membershipPolicy ≠ record.membershipPolicy →
            record.membershipVersion < later.membershipVersion) := by
  have sound := run_sound run
  obtain ⟨record, found, plain⟩ := sound.created founding inPast org founds
  refine ⟨record, found, sound.owned org record found plain, sound.waiting org, ?_⟩
  intro request next output done
  have change := perform_change done
  refine ⟨fun subject changed either => change.maintainers sound found changed either, ?_, ?_⟩
  · intro policy subject before after
    have consent : Consenting record := by
      obtain ⟨stored, isStored⟩ := Option.ne_none_iff_exists'.mp
        (sound.stored org record found plain)
      simpa [Consenting, Organization.membershipPolicy, isStored] using policy
    exact change.activation sound found plain consent before after
  · rcases change.organizations org with ⟨old, later, before, after, grown, _⟩ | ⟨_, absent, _⟩ |
      ⟨_, absent, _⟩
    · rw [found] at before
      cases before
      refine ⟨later, after, grown.version, ?_⟩
      rintro (⟨subject, changed⟩ | changed)
      · rcases change.version found after with more | ⟨same, _⟩
        · exact more
        · exact absurd (same subject) changed
      · rcases change.version found after with more | ⟨_, same⟩
        · exact more
        · exact absurd same changed
    · exact absurd (found.symm.trans absent) (by simp)
    · exact absurd (found.symm.trans absent) (by simp)

def sampleInstallation : App := { sampleApp with baseFamilies := ["group.basic"] }

def sampleResources : List Resource :=
  [⟨"r_root", "root", 1, "/", none, rootSubject, "g_public", 0o755, 0, none, .active⟩,
    ⟨"u_ann", "user", 1, "ann", some "r_root", "u_ann", "g_public", 0o755, 0, none, .active⟩]

def sampleState : State where
  store := { Store.empty with resources := ⟨sampleResources, by decide⟩ }
  organizations := Table.empty
  memberships := Table.empty

def sampleCreate : Request where
  context :=
    { principal := ⟨some "u_ann", some "u_ann", some "k_ann", .signature, [],
        [⟨"group.basic", 1, ⟨"r_root", true⟩, ["group.create@1"], []⟩]⟩
      entry := .network
      now := 5 }
  arguments := .create "team" "g_team"

def sampleOutput : Output := ⟨"g_team", .resource 0 none⟩

def sampleFounded : State :=
  match perform sampleInstallation sampleState sampleCreate with
  | .ok (next, _) => next
  | .error _ => sampleState

theorem sample_run :
    Run sampleInstallation sampleFounded [⟨sampleCreate, sampleOutput⟩] :=
  Run.performed (Run.installed rfl fun record inside => absurd inside List.not_mem_nil)
    (show perform sampleInstallation sampleState sampleCreate =
      .ok (sampleFounded, sampleOutput) from rfl)

theorem group_governed_sample : ∃ resource, Owned sampleFounded "g_team" resource := by
  obtain ⟨_, _, owned, _⟩ := group_governed sample_run List.mem_cons_self
    ⟨⟨"team", "g_team", rfl⟩, rfl⟩
  exact owned

end MsgServer.Groups
