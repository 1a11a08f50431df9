import MsgServer.Admin.RecoveryCells

/-!
The replay of a whole checkpoint. The tables are the product of their rows, so that a fact
which settles its rows one by one settles the tables.
-/

namespace MsgServer.Recovery

open Library Replay

variable (world : World)

/-- One row of the authority tables, or the two of one credential. -/
inductive Cell where
  | account (id : String)
  | certificate (id : String)
  | shareGrant (id : String)
  | shareGrantV2 (id : String)
  | shareLink (id : String)
  | membership (key : String × String)
  | topicMembership (key : String × String)
  | topicBan (key : String × String)
  | identityKey (id : String)
  | encryptionSubkey (id : String)
  | vault (subject : String)
  | resource (id : String)

def Cell.Row : Cell → Type
  | .account _ => Option CredentialRow × Option DeliveryRow
  | .certificate _ => Option CertificateRow
  | .shareGrant _ => Option ShareRow
  | .shareGrantV2 _ => Option ShareRow
  | .shareLink _ => Option ShareRow
  | .membership _ => Option MembershipRow
  | .topicMembership _ => Option TopicMembership
  | .topicBan _ => Option TopicBan
  | .identityKey _ => Option KeyRow
  | .encryptionSubkey _ => Option KeyRow
  | .vault _ => Option Vault
  | .resource _ => Bool

def view : (cell : Cell) → Tables → cell.Row
  | .account id, tables => (tables.credentials id, tables.deliveries id)
  | .certificate id, tables => tables.certificates id
  | .shareGrant id, tables => tables.shareGrants id
  | .shareGrantV2 id, tables => tables.shareGrantsV2 id
  | .shareLink id, tables => tables.shareLinks id
  | .membership key, tables => tables.memberships key
  | .topicMembership key, tables => tables.topicMemberships key
  | .topicBan key, tables => tables.topicBans key
  | .identityKey id, tables => tables.identityKeys id
  | .encryptionSubkey id, tables => tables.encryptionSubkeys id
  | .vault subject, tables => tables.vaults subject
  | .resource id, tables => tables.resources id

theorem view_ext (left right : Tables) (same : ∀ cell, view cell left = view cell right) :
    left = right := by
  have credentials : left.credentials = right.credentials :=
    funext fun id => congrArg Prod.fst (same (.account id))
  have deliveries : left.deliveries = right.deliveries :=
    funext fun id => congrArg Prod.snd (same (.account id))
  cases left
  cases right
  simp only [Tables.mk.injEq]
  exact ⟨credentials, deliveries, funext fun id => same (.certificate id),
    funext fun id => same (.shareGrant id), funext fun id => same (.shareGrantV2 id),
    funext fun id => same (.shareLink id), funext fun key => same (.membership key),
    funext fun key => same (.topicMembership key), funext fun key => same (.topicBan key),
    funext fun id => same (.identityKey id), funext fun id => same (.encryptionSubkey id),
    funext fun subject => same (.vault subject), funext fun id => same (.resource id)⟩

/-- Which facts concern a row. -/
def concerns : Cell → Fact → Prop
  | .account id, fact =>
      (fact.kind = .credentialRevoke ∨ fact.kind = .identityKeyRetire) ∧ fact.target = id
  | .certificate id, fact => fact.kind = .certificateRevoke ∧ fact.target = id
  | .shareGrant id, fact => fact.kind = .shareGrantRevoke ∧ fact.target = id
  | .shareGrantV2 id, fact => fact.kind = .shareGrantV2Revoke ∧ fact.target = id
  | .shareLink id, fact => fact.kind = .shareLinkRevoke ∧ fact.target = id
  | .membership key, fact => fact.kind = .membershipRemove ∧ (fact.target, fact.subject) = key
  | .topicMembership key, fact =>
      (fact.kind = .topicMembershipRemove ∨ fact.kind = .topicBanApply) ∧
        (fact.target, fact.subject) = key
  | .topicBan key, fact =>
      (fact.kind = .topicBanApply ∨ fact.kind = .topicBanLift) ∧
        (fact.target, fact.subject) = key
  | .identityKey id, fact => fact.kind = .identityKeyRetire ∧ fact.target = id
  | .encryptionSubkey id, fact => fact.kind = .encryptionKeyRetire ∧ fact.target = id
  | .vault subject, fact =>
      (fact.kind = .identityKeyRetire ∨ fact.kind = .vaultDestroy) ∧ fact.subject = subject
  | .resource id, fact => fact.kind = .topicBanApply ∧ fact.target = id

instance (cell : Cell) : DecidablePred (concerns cell) := fun fact => by
  cases cell <;> exact inferInstanceAs (Decidable (_ ∧ _))

/-- `SELECT id FROM resources WHERE id=?`. -/
def requireResource (present : Bool) : Except Failure Bool := do
  require (present = true) missing
  return present

def actRow : (cell : Cell) → Fact → cell.Row → Except Failure cell.Row
  | .account _, fact, rows =>
      rowOf (revokeAccount world fact.subject fact.target fact.at' rows)
  | .certificate _, fact, row => rowOf (revokeCertificate fact.subject fact.target row)
  | .shareGrant _, fact, row => rowOf (revokeShare world fact.subject fact.at' row)
  | .shareGrantV2 _, fact, row => rowOf (revokeShare world fact.subject fact.at' row)
  | .shareLink _, fact, row => rowOf (revokeShare world fact.subject fact.at' row)
  | .membership _, fact, row => rowOf (removeMembership fact.subject fact.target row)
  | .topicMembership _, fact, row => actTopicMembership fact row
  | .topicBan _, fact, row => actTopicBan fact row
  | .identityKey _, fact, row => rowOf (retireKey world fact.subject fact.at' row)
  | .encryptionSubkey _, fact, row => rowOf (retireKey world fact.subject fact.at' row)
  | .vault _, fact, row => actVault fact row
  | .resource _, _, present => requireResource present

theorem requireResource_ok {present next : Bool} :
    requireResource present = .ok next ↔ present = true ∧ next = present := by
  simp only [requireResource, Program.except_bind_ok, require_ok, Program.except_pure,
    Except.ok.injEq]
  constructor
  · rintro ⟨_, isThere, same⟩
    exact ⟨isThere, same.symm⟩
  · rintro ⟨isThere, same⟩
    exact ⟨(), isThere, same.symm⟩

theorem resource_settling {good : Fact → Prop} :
    Settling good (fun _ present => requireResource present) fun _ present => present = true := by
  constructor
  · intro _ present next _ done
    obtain ⟨isThere, rfl⟩ := requireResource_ok.mp done
    exact isThere
  · intro _ _ present next _ _ done
    obtain ⟨isThere, rfl⟩ := requireResource_ok.mp done
    exact isThere
  · intro _ present _ isThere
    exact requireResource_ok.mpr ⟨isThere, rfl⟩

/-- Every row of every table can be replayed. -/
theorem actRow_repeatable (cell : Cell) :
    Repeatable (Timed world) (guarded (concerns cell) (actRow world cell)) := by
  apply Repeatable.guarded
  cases cell with
  | account id => exact account_settling.repeatable
  | certificate id => exact certificate_settling.repeatable
  | shareGrant id => exact share_settling.repeatable
  | shareGrantV2 id => exact share_settling.repeatable
  | shareLink id => exact share_settling.repeatable
  | membership key => exact membership_settling.repeatable
  | topicMembership key => exact topicMembership_settling.repeatable
  | topicBan key => exact topicBan_repeatable
  | identityKey id => exact key_settling.repeatable
  | encryptionSubkey id => exact key_settling.repeatable
  | vault subject => exact vault_settling.repeatable
  | resource id => exact resource_settling.repeatable

section Cells

variable {world} {fact : Fact} {tables next : Tables}

theorem onRow_ok {κ ρ : Type} [DecidableEq κ] {table rows : κ → ρ} {key : κ}
    {change : ρ → Except Failure (ρ × Bool)} {changed : Bool} :
    onRow table key change = .ok (rows, changed) ↔
      ∃ row, change (table key) = .ok (row, changed) ∧ rows = Function.update table key row := by
  simp only [onRow, Program.except_bind_ok, Program.except_pure, Except.ok.injEq, Prod.mk.injEq]
  constructor
  · rintro ⟨⟨row, _⟩, done, shape, rfl⟩
    exact ⟨row, done, shape.symm⟩
  · rintro ⟨row, done, shape⟩
    exact ⟨(row, changed), done, shape.symm, rfl⟩

/-- The row of a table that a statement on one key leaves, seen at any key. -/
theorem updated_row {κ ρ : Type} [DecidableEq κ] {table : κ → ρ} {key wanted : κ} {row : ρ}
    {concerned : Prop} [Decidable concerned] (act : ρ → Except Failure ρ)
    (meant : concerned ↔ key = wanted) (acts : act (table key) = .ok row) :
    (if concerned then act (table wanted) else .ok (table wanted)) =
      .ok (Function.update table key row wanted) := by
  by_cases same : key = wanted
  · subst same
    rw [if_pos (meant.mpr rfl), Function.update_self]
    exact acts
  · rw [if_neg fun here => same (meant.mp here), Function.update_of_ne (Ne.symm same)]

/-- A row that a fact does not concern. -/
theorem other_row {cell : Cell} (unmeant : ¬ concerns cell fact)
    (same : view cell next = view cell tables) :
    guarded (concerns cell) (actRow world cell) fact (view cell tables) =
      .ok (view cell next) := by
  rw [guarded, if_neg unmeant, same]

/-- The two rows of a credential, seen at any id. -/
theorem updated_account {target wanted : String}
    {rows : Option CredentialRow × Option DeliveryRow}
    {concerned : Prop} [Decidable concerned]
    (act : Option CredentialRow × Option DeliveryRow →
      Except Failure (Option CredentialRow × Option DeliveryRow))
    (meant : concerned ↔ target = wanted)
    (acts : act (tables.credentials target, tables.deliveries target) = .ok rows) :
    (if concerned then act (tables.credentials wanted, tables.deliveries wanted)
      else .ok (tables.credentials wanted, tables.deliveries wanted)) =
      .ok (Function.update tables.credentials target rows.1 wanted,
        Function.update tables.deliveries target rows.2 wanted) := by
  by_cases same : target = wanted
  · subst same
    rw [if_pos (meant.mpr rfl), Function.update_self, Function.update_self]
    exact acts
  · rw [if_neg fun here => same (meant.mp here), Function.update_of_ne (Ne.symm same),
      Function.update_of_ne (Ne.symm same)]

theorem revokeCredential_ok {subject target stamp : String} {changed : Bool} :
    revokeCredential world subject target stamp tables = .ok (next, changed) ↔
      ∃ rows, revokeAccount world subject target stamp
          (tables.credentials target, tables.deliveries target) = .ok (rows, changed) ∧
        next = { tables with
          credentials := Function.update tables.credentials target rows.1
          deliveries := Function.update tables.deliveries target rows.2 } := by
  simp only [revokeCredential, Program.except_bind_ok, Program.except_pure, Except.ok.injEq,
    Prod.mk.injEq]
  constructor
  · rintro ⟨⟨rows, _⟩, done, shape, rfl⟩
    exact ⟨rows, done, shape.symm⟩
  · rintro ⟨rows, done, shape⟩
    exact ⟨(rows, changed), done, shape.symm, rfl⟩

/-- What a fact does to the tables it does to each row by itself. -/
theorem apply_sound (done : rowOf (apply world fact tables) = .ok next) (cell : Cell) :
    guarded (concerns cell) (actRow world cell) fact (view cell tables) =
      .ok (view cell next) := by
  cases isKind : fact.kind with
  | credentialRevoke =>
      simp only [rowOf_ok, apply, isKind, revokeCredential_ok] at done
      obtain ⟨changed, rows, acts, rfl⟩ := done
      cases cell with
      | account id =>
          exact updated_account (actRow world (.account id) fact) (by simp [concerns, isKind])
            (rowOf_ok.mpr ⟨changed, acts⟩)
      | _ => exact other_row (by simp [concerns, isKind]) rfl
  | certificateRevoke =>
      simp only [rowOf_ok, apply, isKind, Program.except_bind_ok, Prod.exists, onRow_ok,
        Program.except_pure, Except.ok.injEq, Prod.mk.injEq] at done
      obtain ⟨_, _, changed, ⟨row, acts, rfl⟩, rfl, _⟩ := done
      cases cell with
      | certificate id =>
          exact updated_row (actRow world (.certificate id) fact) (by simp [concerns, isKind])
            (rowOf_ok.mpr ⟨changed, acts⟩)
      | _ => exact other_row (by simp [concerns, isKind]) rfl
  | shareGrantRevoke =>
      simp only [rowOf_ok, apply, isKind, Program.except_bind_ok, Prod.exists, onRow_ok,
        Program.except_pure, Except.ok.injEq, Prod.mk.injEq] at done
      obtain ⟨_, _, changed, ⟨row, acts, rfl⟩, rfl, _⟩ := done
      cases cell with
      | shareGrant id =>
          exact updated_row (actRow world (.shareGrant id) fact) (by simp [concerns, isKind])
            (rowOf_ok.mpr ⟨changed, acts⟩)
      | _ => exact other_row (by simp [concerns, isKind]) rfl
  | shareGrantV2Revoke =>
      simp only [rowOf_ok, apply, isKind, Program.except_bind_ok, Prod.exists, onRow_ok,
        Program.except_pure, Except.ok.injEq, Prod.mk.injEq] at done
      obtain ⟨_, _, changed, ⟨row, acts, rfl⟩, rfl, _⟩ := done
      cases cell with
      | shareGrantV2 id =>
          exact updated_row (actRow world (.shareGrantV2 id) fact) (by simp [concerns, isKind])
            (rowOf_ok.mpr ⟨changed, acts⟩)
      | _ => exact other_row (by simp [concerns, isKind]) rfl
  | shareLinkRevoke =>
      simp only [rowOf_ok, apply, isKind, Program.except_bind_ok, Prod.exists, onRow_ok,
        Program.except_pure, Except.ok.injEq, Prod.mk.injEq] at done
      obtain ⟨_, _, changed, ⟨row, acts, rfl⟩, rfl, _⟩ := done
      cases cell with
      | shareLink id =>
          exact updated_row (actRow world (.shareLink id) fact) (by simp [concerns, isKind])
            (rowOf_ok.mpr ⟨changed, acts⟩)
      | _ => exact other_row (by simp [concerns, isKind]) rfl
  | membershipRemove =>
      simp only [rowOf_ok, apply, isKind, Program.except_bind_ok, Prod.exists, onRow_ok,
        Program.except_pure, Except.ok.injEq, Prod.mk.injEq] at done
      obtain ⟨_, _, changed, ⟨row, acts, rfl⟩, rfl, _⟩ := done
      cases cell with
      | membership key =>
          exact updated_row (actRow world (.membership key) fact) (by simp [concerns, isKind])
            (rowOf_ok.mpr ⟨changed, acts⟩)
      | _ => exact other_row (by simp [concerns, isKind]) rfl
  | topicMembershipRemove =>
      simp only [rowOf_ok, apply, isKind, Program.except_bind_ok, Prod.exists, onRow_ok,
        Program.except_pure, Except.ok.injEq, Prod.mk.injEq] at done
      obtain ⟨_, _, changed, ⟨row, acts, rfl⟩, rfl, _⟩ := done
      have removes : actTopicMembership fact (tables.topicMemberships (fact.target, fact.subject)) =
          .ok row := by
        rw [actTopicMembership, if_neg (by simp [isKind])]
        exact rowOf_ok.mpr ⟨changed, acts⟩
      cases cell with
      | topicMembership key =>
          exact updated_row (actRow world (.topicMembership key) fact) (by simp [concerns, isKind])
            removes
      | _ => exact other_row (by simp [concerns, isKind]) rfl
  | topicBanApply =>
      simp only [rowOf_ok, apply, isKind, Program.except_bind_ok, Prod.exists, onRow_ok,
        Program.except_pure, Except.ok.injEq, Prod.mk.injEq, require_ok] at done
      obtain ⟨_, _, present, _, _, ⟨member, isMember, rfl⟩, _, _, ⟨ban, isBan, rfl⟩, rfl, _⟩ := done
      have bansMember : actTopicMembership fact
          (tables.topicMemberships (fact.target, fact.subject)) = .ok member := by
        rw [actTopicMembership, if_pos isKind, isMember]
      have bans : actTopicBan fact (tables.topicBans (fact.target, fact.subject)) = .ok ban := by
        rw [actTopicBan, if_pos isKind, isBan]
      cases cell with
      | topicMembership key =>
          exact updated_row (actRow world (.topicMembership key) fact) (by simp [concerns, isKind])
            bansMember
      | topicBan key =>
          exact updated_row (actRow world (.topicBan key) fact) (by simp [concerns, isKind])
            bans
      | resource id =>
          by_cases same : fact.target = id
          · subst same
            rw [guarded, if_pos ⟨isKind, rfl⟩]
            exact requireResource_ok.mpr ⟨present, rfl⟩
          · exact other_row (fun meant => same meant.2) rfl
      | _ => exact other_row (by simp [concerns, isKind]) rfl
  | topicBanLift =>
      simp only [rowOf_ok, apply, isKind, Program.except_bind_ok, Prod.exists, onRow_ok,
        Program.except_pure, Except.ok.injEq, Prod.mk.injEq] at done
      obtain ⟨_, _, changed, ⟨row, acts, rfl⟩, rfl, _⟩ := done
      have lifts : actTopicBan fact (tables.topicBans (fact.target, fact.subject)) = .ok row := by
        rw [actTopicBan, if_neg (by simp [isKind])]
        exact rowOf_ok.mpr ⟨changed, acts⟩
      cases cell with
      | topicBan key =>
          exact updated_row (actRow world (.topicBan key) fact) (by simp [concerns, isKind])
            lifts
      | _ => exact other_row (by simp [concerns, isKind]) rfl
  | identityKeyRetire =>
      simp only [rowOf_ok, apply, isKind, Program.except_bind_ok, Prod.exists, onRow_ok,
        revokeCredential_ok, Program.except_pure, Except.ok.injEq, Prod.mk.injEq] at done
      obtain ⟨_, _, keyChanged, ⟨key, retires, rfl⟩, _, changed, ⟨first, second, revokes, rfl⟩,
        _, vaultChanged, ⟨vault, seals, rfl⟩, rfl, _⟩ := done
      have sealed : actVault fact (tables.vaults fact.subject) = .ok vault := by
        rw [actVault, if_pos isKind]
        exact rowOf_ok.mpr ⟨vaultChanged, seals⟩
      cases cell with
      | account id =>
          exact updated_account (actRow world (.account id) fact) (by simp [concerns, isKind])
            (rowOf_ok.mpr ⟨changed, revokes⟩)
      | identityKey id =>
          exact updated_row (actRow world (.identityKey id) fact) (by simp [concerns, isKind])
            (rowOf_ok.mpr ⟨keyChanged, retires⟩)
      | vault subject =>
          exact updated_row (actRow world (.vault subject) fact) (by simp [concerns, isKind])
            sealed
      | _ => exact other_row (by simp [concerns, isKind]) rfl
  | encryptionKeyRetire =>
      simp only [rowOf_ok, apply, isKind, Program.except_bind_ok, Prod.exists, onRow_ok,
        Program.except_pure, Except.ok.injEq, Prod.mk.injEq] at done
      obtain ⟨_, _, changed, ⟨row, acts, rfl⟩, rfl, _⟩ := done
      cases cell with
      | encryptionSubkey id =>
          exact updated_row (actRow world (.encryptionSubkey id) fact) (by simp [concerns, isKind])
            (rowOf_ok.mpr ⟨changed, acts⟩)
      | _ => exact other_row (by simp [concerns, isKind]) rfl
  | vaultDestroy =>
      simp only [rowOf_ok, apply, isKind, Program.except_bind_ok, Prod.exists, onRow_ok,
        Program.except_pure, Except.ok.injEq, Prod.mk.injEq] at done
      obtain ⟨_, _, changed, ⟨row, acts, rfl⟩, rfl, _⟩ := done
      have destroys : actVault fact (tables.vaults fact.subject) = .ok row := by
        rw [actVault, if_neg (by simp [isKind])]
        exact rowOf_ok.mpr ⟨changed, acts⟩
      cases cell with
      | vault subject =>
          exact updated_row (actRow world (.vault subject) fact) (by simp [concerns, isKind])
            destroys
      | _ => exact other_row (by simp [concerns, isKind]) rfl

/-- A fact is refused only where some row refuses it. -/
theorem apply_complete (each : ∀ cell, ∃ shown,
      guarded (concerns cell) (actRow world cell) fact (view cell tables) = .ok shown) :
    ∃ next, rowOf (apply world fact tables) = .ok next := by
  have here (cell : Cell) (meant : concerns cell fact) :
      ∃ row, actRow world cell fact (view cell tables) = .ok row := by
    obtain ⟨row, acts⟩ := each cell
    rw [guarded, if_pos meant] at acts
    exact ⟨row, acts⟩
  suffices applies : ∃ next changed, apply world fact tables = .ok (next, changed) by
    obtain ⟨next, changed, done⟩ := applies
    exact ⟨next, rowOf_ok.mpr ⟨changed, done⟩⟩
  cases isKind : fact.kind with
  | credentialRevoke =>
      obtain ⟨rows, acts⟩ := here (.account fact.target) ⟨Or.inl isKind, rfl⟩
      obtain ⟨changed, done⟩ := rowOf_ok.mp acts
      simp only [apply, isKind, revokeCredential_ok]
      exact ⟨_, changed, rows, done, rfl⟩
  | certificateRevoke =>
      obtain ⟨row, acts⟩ := here (.certificate fact.target) ⟨isKind, rfl⟩
      obtain ⟨changed, done⟩ := rowOf_ok.mp acts
      simp only [apply, isKind, Program.except_bind_ok, Prod.exists, onRow_ok,
        Program.except_pure, Except.ok.injEq, Prod.mk.injEq]
      exact ⟨_, changed, _, _, ⟨row, done, rfl⟩, rfl, rfl⟩
  | shareGrantRevoke =>
      obtain ⟨row, acts⟩ := here (.shareGrant fact.target) ⟨isKind, rfl⟩
      obtain ⟨changed, done⟩ := rowOf_ok.mp acts
      simp only [apply, isKind, Program.except_bind_ok, Prod.exists, onRow_ok,
        Program.except_pure, Except.ok.injEq, Prod.mk.injEq]
      exact ⟨_, changed, _, _, ⟨row, done, rfl⟩, rfl, rfl⟩
  | shareGrantV2Revoke =>
      obtain ⟨row, acts⟩ := here (.shareGrantV2 fact.target) ⟨isKind, rfl⟩
      obtain ⟨changed, done⟩ := rowOf_ok.mp acts
      simp only [apply, isKind, Program.except_bind_ok, Prod.exists, onRow_ok,
        Program.except_pure, Except.ok.injEq, Prod.mk.injEq]
      exact ⟨_, changed, _, _, ⟨row, done, rfl⟩, rfl, rfl⟩
  | shareLinkRevoke =>
      obtain ⟨row, acts⟩ := here (.shareLink fact.target) ⟨isKind, rfl⟩
      obtain ⟨changed, done⟩ := rowOf_ok.mp acts
      simp only [apply, isKind, Program.except_bind_ok, Prod.exists, onRow_ok,
        Program.except_pure, Except.ok.injEq, Prod.mk.injEq]
      exact ⟨_, changed, _, _, ⟨row, done, rfl⟩, rfl, rfl⟩
  | membershipRemove =>
      obtain ⟨row, acts⟩ := here (.membership (fact.target, fact.subject)) ⟨isKind, rfl⟩
      obtain ⟨changed, done⟩ := rowOf_ok.mp acts
      simp only [apply, isKind, Program.except_bind_ok, Prod.exists, onRow_ok,
        Program.except_pure, Except.ok.injEq, Prod.mk.injEq]
      exact ⟨_, changed, _, _, ⟨row, done, rfl⟩, rfl, rfl⟩
  | topicMembershipRemove =>
      obtain ⟨row, acts⟩ := here (.topicMembership (fact.target, fact.subject))
        ⟨Or.inl isKind, rfl⟩
      have removes : rowOf (removeTopicMembership
          (tables.topicMemberships (fact.target, fact.subject))) = .ok row := by
        have same : actTopicMembership fact
          (tables.topicMemberships (fact.target, fact.subject)) = .ok row := acts
        rwa [actTopicMembership, if_neg (by simp [isKind])] at same
      obtain ⟨changed, done⟩ := rowOf_ok.mp removes
      simp only [apply, isKind, Program.except_bind_ok, Prod.exists, onRow_ok,
        Program.except_pure, Except.ok.injEq, Prod.mk.injEq]
      exact ⟨_, changed, _, _, ⟨row, done, rfl⟩, rfl, rfl⟩
  | topicBanApply =>
      obtain ⟨_, acts⟩ := here (.resource fact.target) ⟨isKind, rfl⟩
      have present : tables.resources fact.target = true := (requireResource_ok.mp acts).1
      simp only [apply, isKind, Program.except_bind_ok, Prod.exists, onRow_ok,
        Program.except_pure, Except.ok.injEq, Prod.mk.injEq, require_ok]
      exact ⟨_, _, (), present, _, _, ⟨_, rfl, rfl⟩, _, _, ⟨_, rfl, rfl⟩, rfl, rfl⟩
  | topicBanLift =>
      obtain ⟨row, acts⟩ := here (.topicBan (fact.target, fact.subject)) ⟨Or.inr isKind, rfl⟩
      have lifts : rowOf (liftBan (tables.topicBans (fact.target, fact.subject))) = .ok row := by
        have same : actTopicBan fact (tables.topicBans (fact.target, fact.subject)) = .ok row :=
          acts
        rwa [actTopicBan, if_neg (by simp [isKind])] at same
      obtain ⟨changed, done⟩ := rowOf_ok.mp lifts
      simp only [apply, isKind, Program.except_bind_ok, Prod.exists, onRow_ok,
        Program.except_pure, Except.ok.injEq, Prod.mk.injEq]
      exact ⟨_, changed, _, _, ⟨row, done, rfl⟩, rfl, rfl⟩
  | identityKeyRetire =>
      obtain ⟨key, retires⟩ := here (.identityKey fact.target) ⟨isKind, rfl⟩
      obtain ⟨rows, revokes⟩ := here (.account fact.target) ⟨Or.inr isKind, rfl⟩
      obtain ⟨vault, acts⟩ := here (.vault fact.subject) ⟨Or.inl isKind, rfl⟩
      have seals : rowOf (retireVault fact.target (tables.vaults fact.subject)) = .ok vault := by
        have same : actVault fact (tables.vaults fact.subject) = .ok vault := acts
        rwa [actVault, if_pos isKind] at same
      obtain ⟨keyChanged, retired⟩ := rowOf_ok.mp retires
      obtain ⟨changed, revoked⟩ := rowOf_ok.mp revokes
      obtain ⟨vaultChanged, sealed⟩ := rowOf_ok.mp seals
      simp only [apply, isKind, Program.except_bind_ok, Prod.exists, onRow_ok,
        revokeCredential_ok, Program.except_pure, Except.ok.injEq, Prod.mk.injEq]
      exact ⟨_, _, _, _, ⟨key, retired, rfl⟩, _, _, ⟨_, _, revoked, rfl⟩, _, _,
        ⟨vault, sealed, rfl⟩, rfl, rfl⟩
  | encryptionKeyRetire =>
      obtain ⟨row, acts⟩ := here (.encryptionSubkey fact.target) ⟨isKind, rfl⟩
      obtain ⟨changed, done⟩ := rowOf_ok.mp acts
      simp only [apply, isKind, Program.except_bind_ok, Prod.exists, onRow_ok,
        Program.except_pure, Except.ok.injEq, Prod.mk.injEq]
      exact ⟨_, changed, _, _, ⟨row, done, rfl⟩, rfl, rfl⟩
  | vaultDestroy =>
      obtain ⟨row, acts⟩ := here (.vault fact.subject) ⟨Or.inr isKind, rfl⟩
      have destroys : rowOf (destroyVault fact.target fact.at' (tables.vaults fact.subject)) =
          .ok row := by
        have same : actVault fact (tables.vaults fact.subject) = .ok row := acts
        rwa [actVault, if_neg (by simp [isKind])] at same
      obtain ⟨changed, done⟩ := rowOf_ok.mp destroys
      simp only [apply, isKind, Program.except_bind_ok, Prod.exists, onRow_ok,
        Program.except_pure, Except.ok.injEq, Prod.mk.injEq]
      exact ⟨_, changed, _, _, ⟨row, done, rfl⟩, rfl, rfl⟩

theorem tables_views : Views (Timed world) (fun fact tables => rowOf (apply world fact tables))
    view fun cell => guarded (concerns cell) (actRow world cell) where
  sound := fun _ _ _ done cell => apply_sound done cell
  complete := fun _ _ _ each => apply_complete each
  ext := view_ext

/-- Facts that were applied in order can be applied again without effect. -/
theorem apply_repeatable :
    Repeatable (Timed world) fun fact tables => rowOf (apply world fact tables) :=
  tables_views.repeatable fun cell => actRow_repeatable world cell

end Cells

end MsgServer.Recovery
