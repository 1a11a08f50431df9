import MsgServer.Library.Marked
import MsgServer.Security.Revocation
import Mathlib.Data.Prod.Lex
import Mathlib.Data.String.Basic

/-!
The primary keys of registered identities, over whole runs. Whether a key is primary stands
in the key tables and whether it is revoked in the credentials; `Keeps` says what one write
leaves of both for the subjects it spares.
-/

namespace MsgServer.PrimaryKeys

open Library Session Policy Accounts Bindings Requests TokenDelivery Identity Authentication
  Credentials Issuance Machine Formation Certificates

variable {app : Installation} {first state next : State} {step : Step} {data : Data}
  {spared : String → Prop}

def keyMarking : Marking IdentityKey String where
  owner := IdentityKey.subject
  marked := IdentityKey.primary
  inUse := fun row => row.retiredAt == none

def subkeyMarking : Marking EncryptionSubkey String where
  owner := EncryptionSubkey.subject
  marked := EncryptionSubkey.primary
  inUse := fun row => row.retiredAt == none

abbrev KeyOf (state : State) : String → IdentityKey → Prop := keyMarking.Chosen state.identityKeys.rows

abbrev SubkeyOf (state : State) : String → EncryptionSubkey → Prop :=
  subkeyMarking.Chosen state.encryptionSubkeys.rows

def registered (state : State) (id : String) : Bool :=
  (state.store.subjects.find? id).any fun owner => owner.kind == .registered

/-- An unrevoked signing credential of the subject. -/
def signing (subject : String) (row : StoredCredential) : Bool :=
  row.subjectId == subject && row.kind == .signingKey && row.revokedAt == none

def signs (state : State) (subject keyId : String) : Bool :=
  (state.credentials.find? keyId).any (signing subject)

/-- A signing credential that can do something. -/
def entitled (subject : String) (row : StoredCredential) : Bool :=
  signing subject row && row.ceiling != []

def HasKey (state : State) (subject : String) : Prop :=
  ∃ row, KeyOf state subject row ∧ signs state subject row.keyId = true

def HasSubkey (state : State) (subject : String) : Prop := ∃ row, SubkeyOf state subject row

/-- The key tables are in order, and a registered identity has both keys. -/
structure Sound (state : State) : Prop where
  keys : keyMarking.Orderly state.identityKeys.rows
  subkeys : subkeyMarking.Orderly state.encryptionSubkeys.rows
  keyed : ∀ id, registered state id = true → HasKey state id
  reachable : ∀ id, registered state id = true → HasSubkey state id

abbrev Everyone : String → Prop := fun _ => True

structure Keeps (spared : String → Prop) (state next : State) : Prop where
  keys : keyMarking.Orderly state.identityKeys.rows → keyMarking.Orderly next.identityKeys.rows
  subkeys : subkeyMarking.Orderly state.encryptionSubkeys.rows →
    subkeyMarking.Orderly next.encryptionSubkeys.rows
  keyed : ∀ subject, spared subject → HasKey state subject → HasKey next subject
  reachable : ∀ subject, spared subject → HasSubkey state subject → HasSubkey next subject
  known : ∀ id, spared id → registered next id = true → registered state id = true

theorem Keeps.trans {middle : State} (left : Keeps spared state middle)
    (right : Keeps spared middle next) : Keeps spared state next where
  keys orderly := right.keys (left.keys orderly)
  subkeys orderly := right.subkeys (left.subkeys orderly)
  keyed subject spare has := right.keyed subject spare (left.keyed subject spare has)
  reachable subject spare has := right.reachable subject spare (left.reachable subject spare has)
  known id spare is := left.known id spare (right.known id spare is)

/-- Nothing happens to the keys, and what signed still signs. -/
theorem Keeps.frame (keys : next.identityKeys = state.identityKeys)
    (subkeys : next.encryptionSubkeys = state.encryptionSubkeys)
    (signing : ∀ subject keyId, spared subject → signs state subject keyId = true →
      signs next subject keyId = true)
    (known : ∀ id, spared id → registered next id = true → registered state id = true) :
    Keeps spared state next where
  keys orderly := by rw [keys]; exact orderly
  subkeys orderly := by rw [subkeys]; exact orderly
  keyed subject spare has := by
    obtain ⟨row, chosen, isSigning⟩ := has
    refine ⟨row, ?_, signing subject row.keyId spare isSigning⟩
    rw [KeyOf, keys]
    exact chosen
  reachable subject _ has := by
    obtain ⟨row, chosen⟩ := has
    refine ⟨row, ?_⟩
    rw [SubkeyOf, subkeys]
    exact chosen
  known := known

theorem Keeps.beside (keys : next.identityKeys = state.identityKeys)
    (subkeys : next.encryptionSubkeys = state.encryptionSubkeys)
    (credentials : next.credentials = state.credentials)
    (subjects : next.store.subjects = state.store.subjects) : Keeps spared state next := by
  apply Keeps.frame keys subkeys
  · intro subject keyId _ isSigning
    simpa only [signs, credentials] using isSigning
  · intro id _ is
    simpa only [registered, subjects] using is

theorem Keeps.refl (state : State) : Keeps spared state state := Keeps.beside rfl rfl rfl rfl

/-- The spared subjects of a step keep what they have, and one other has its keys again. -/
theorem Keeps.sound {subject : String} (kept : Keeps (· ≠ subject) state next)
    (mine : registered next subject = true → HasKey next subject ∧ HasSubkey next subject)
    (sound : Sound state) : Sound next where
  keys := kept.keys sound.keys
  subkeys := kept.subkeys sound.subkeys
  keyed id is := by
    by_cases same : id = subject
    · subst same
      exact (mine is).1
    · exact kept.keyed id same (sound.keyed id (kept.known id same is))
  reachable id is := by
    by_cases same : id = subject
    · subst same
      exact (mine is).2
    · exact kept.reachable id same (sound.reachable id (kept.known id same is))

theorem Keeps.whole (kept : Keeps Everyone state next) (sound : Sound state) :
    Sound next where
  keys := kept.keys sound.keys
  subkeys := kept.subkeys sound.subkeys
  keyed id is := kept.keyed id trivial (sound.keyed id (kept.known id trivial is))
  reachable id is := kept.reachable id trivial (sound.reachable id (kept.known id trivial is))

theorem Keeps.spare (kept : Keeps Everyone state next) : Keeps spared state next where
  keys := kept.keys
  subkeys := kept.subkeys
  keyed subject _ := kept.keyed subject trivial
  reachable subject _ := kept.reachable subject trivial
  known id _ := kept.known id trivial

/-! The writes. -/

theorem signs_some {subject keyId : String} (isSigning : signs state subject keyId = true) :
    ∃ row, state.credentials.find? keyId = some row ∧ row.subjectId = subject ∧
      row.kind = .signingKey ∧ row.revokedAt = none := by
  unfold signs at isSigning
  cases found : state.credentials.find? keyId with
  | none =>
      rw [found] at isSigning
      cases isSigning
  | some row =>
      simp only [found, Option.any_some, signing, Bool.and_eq_true, beq_iff_eq] at isSigning
      exact ⟨row, rfl, isSigning.1.1, isSigning.1.2, isSigning.2⟩

theorem signs_of_find? {subject keyId : String} {row : StoredCredential}
    (found : state.credentials.find? keyId = some row) (mine : row.subjectId = subject)
    (kind : row.kind = .signingKey) (live : row.revokedAt = none) :
    signs state subject keyId = true := by
  simp [signs, signing, found, mine, kind, live]

theorem signs_saved {row : StoredCredential} {version : Nat} {subject keyId : String}
    (done : saveCredential state row version = .ok next)
    (careful : row.subjectId = subject → row.kind = .signingKey → row.revokedAt = none)
    (isSigning : signs state subject keyId = true) : signs next subject keyId = true := by
  have saved := saveCredential_saved done
  obtain ⟨old, found, mine, kind, live⟩ := signs_some isSigning
  by_cases here : row.id = keyId
  · subst here
    have same := saved.same old found
    have mineToo := same.subject.symm.trans mine
    have kindToo := same.kind.symm.trans kind
    refine signs_of_find? ?_ mineToo kindToo (careful mineToo kindToo)
    rw [saved.find?, if_pos rfl]
  · refine signs_of_find? ?_ mine kind live
    rw [saved.find?, if_neg here]
    exact found

theorem Keeps.save {row : StoredCredential} {version : Nat}
    (done : saveCredential state row version = .ok next)
    (careful : spared row.subjectId → row.kind = .signingKey → row.revokedAt = none) :
    Keeps spared state next := by
  have after := (saveCredential_saved done).after
  apply Keeps.frame (by rw [after]) (by rw [after])
  · intro subject keyId spare isSigning
    apply signs_saved done _ isSigning
    intro mine
    exact careful (mine ▸ spare)
  · intro id _ is
    rw [after] at is
    exact is

/-- A row that is not revoked may always be saved. -/
theorem Keeps.live {row : StoredCredential} {version : Nat}
    (done : saveCredential state row version = .ok next) (live : row.revokedAt = none) :
    Keeps Everyone state next := Keeps.save done fun _ _ => live

/-- So may a token, revoked or not. -/
theorem Keeps.token {row : StoredCredential} {version : Nat}
    (done : saveCredential state row version = .ok next) (isToken : row.kind ≠ .signingKey) :
    Keeps Everyone state next := Keeps.save done fun _ isKey => absurd isKey isToken

theorem Keeps.each {rows : List StoredCredential} {now version : Nat}
    (done : revokeEach state rows now version = .ok next)
    (careful : ∀ row ∈ rows, spared row.subjectId → row.kind ≠ .signingKey) :
    Keeps spared state next := by
  induction rows generalizing state with
  | nil =>
      cases done
      exact Keeps.refl _
  | cons row rest ih =>
      simp only [revokeEach, List.foldlM_cons, Program.except_bind_ok] at done
      obtain ⟨middle, first, later⟩ := done
      have once : Keeps spared state middle := by
        apply Keeps.save first
        intro spare isKey
        exact absurd isKey (careful row List.mem_cons_self spare)
      exact once.trans (ih later fun other inside => careful other (List.mem_cons_of_mem _ inside))

theorem updateSubject_ok {record : Subject} {expected : Option Nat}
    (done : updateSubject state record expected = .ok next) :
    next = { state with store := { state.store with
      subjects := state.store.subjects.put record } } := by
  simp only [updateSubject, Program.except_bind_ok, Program.except_pure, Except.ok.injEq] at done
  obtain ⟨_, _, rfl⟩ := done
  rfl

theorem Keeps.subject {record : Subject} {expected : Option Nat}
    (done : updateSubject state record expected = .ok next)
    (careful : spared record.resourceId → record.kind = .registered →
      registered state record.resourceId = true) : Keeps spared state next := by
  have after := updateSubject_ok done
  apply Keeps.frame (by rw [after]) (by rw [after])
  · intro subject keyId _ isSigning
    simpa only [signs, after] using isSigning
  · intro id spare is
    rw [after] at is
    change ((state.store.subjects.put record).find? id).any _ = true at is
    rw [Table.find?_put] at is
    by_cases same : record.resourceId = id
    · subst same
      simp only [if_pos, Option.any_some, beq_iff_eq] at is
      exact careful spare is
    · rw [if_neg same] at is
      exact is

/-- A new version of a subject that is stored. -/
theorem Keeps.bump {owner : Subject}
    (stored : state.store.subjects.find? owner.resourceId = some owner)
    (done : bumpSubject state owner = .ok next) : Keeps Everyone state next := by
  apply Keeps.subject done
  intro _ isRegistered
  change owner.kind = .registered at isRegistered
  simp [registered, stored, isRegistered]

theorem Keeps.finished {aside : Aside} (finished : Finished aside state next) :
    Keeps Everyone state next := by
  obtain ⟨store, acted, rfl⟩ := finished
  exact Keeps.beside rfl rfl rfl (aside.keeps _ _ acted)

theorem Keeps.record {request : Request} {row : StoredCredential} {now : Nat}
    {inherited : Option Nat}
    (done : recordTokenDelivery app state request row now inherited = .ok next) :
    Keeps Everyone state next := by
  simp only [recordTokenDelivery, Program.except_bind_ok, Program.except_pure,
    Except.ok.injEq] at done
  obtain ⟨_, _, _, _, _, _, _, _, _, _, _, _, _, _, _, _, _, _, rfl⟩ := done
  exact Keeps.beside rfl rfl rfl rfl

theorem Keeps.insertKey {row : IdentityKey} (done : insertIdentityKey state row = .ok next)
    (unretired : row.retiredAt = none) : Keeps Everyone state next := by
  simp only [insertIdentityKey, Program.except_bind_ok, require_ok, insertRow_ok,
    Program.except_pure, Except.ok.injEq] at done
  obtain ⟨_, alone, grown, inserted, rfl⟩ := done
  constructor
  · intro orderly
    apply orderly.adding (fun other => (Table.mem_insert inserted other).mp)
    · intro isPrimary other inside same
      exact alone isPrimary other inside same
    · intro _
      simp [keyMarking, unretired]
  · exact id
  · rintro subject _ ⟨other, ⟨inside, mine, isPrimary⟩, isSigning⟩
    exact ⟨other, ⟨(Table.mem_insert inserted other).mpr (.inl inside), mine, isPrimary⟩, isSigning⟩
  · exact fun _ _ has => has
  · exact fun _ _ is => is

theorem Keeps.insertSubkey {row : EncryptionSubkey}
    (done : insertEncryptionSubkey state row = .ok next) (unretired : row.retiredAt = none) :
    Keeps Everyone state next := by
  simp only [insertEncryptionSubkey, Program.except_bind_ok, require_ok, insertRow_ok,
    Program.except_pure, Except.ok.injEq] at done
  obtain ⟨_, _, _, alone, grown, inserted, rfl⟩ := done
  constructor
  · exact id
  · intro orderly
    apply orderly.adding (fun other => (Table.mem_insert inserted other).mp)
    · intro isPrimary other inside same
      exact alone isPrimary other inside same
    · intro _
      simp [subkeyMarking, unretired]
  · exact fun _ _ has => has
  · rintro subject _ ⟨other, inside, mine, isPrimary⟩
    exact ⟨other, (Table.mem_insert inserted other).mpr (.inl inside), mine, isPrimary⟩
  · exact fun _ _ is => is

theorem insertKey_hasKey {row : IdentityKey} (done : insertIdentityKey state row = .ok next)
    (isPrimary : row.primary = true) (isSigning : signs state row.subject row.keyId = true) :
    HasKey next row.subject := by
  simp only [insertIdentityKey, Program.except_bind_ok, insertRow_ok, Program.except_pure,
    Except.ok.injEq] at done
  obtain ⟨_, _, grown, inserted, rfl⟩ := done
  exact ⟨row, ⟨(Table.mem_insert inserted row).mpr (.inr rfl), rfl, isPrimary⟩, isSigning⟩

theorem insertSubkey_hasSubkey {row : EncryptionSubkey}
    (done : insertEncryptionSubkey state row = .ok next) (isPrimary : row.primary = true) :
    HasSubkey next row.subject := by
  simp only [insertEncryptionSubkey, Program.except_bind_ok, insertRow_ok, Program.except_pure,
    Except.ok.injEq] at done
  obtain ⟨_, _, _, _, grown, inserted, rfl⟩ := done
  exact ⟨row, (Table.mem_insert inserted row).mpr (.inr rfl), rfl, isPrimary⟩

theorem primaryKey_of {subject : String} {row : IdentityKey}
    (found : primaryKey state subject = some row) : KeyOf state subject row := by
  have test := List.find?_some found
  simp only [Bool.and_eq_true, beq_iff_eq] at test
  exact ⟨List.mem_of_find?_eq_some found, test⟩

theorem primarySubkey_of {subject : String} {row : EncryptionSubkey}
    (found : primarySubkey state subject = some row) : SubkeyOf state subject row := by
  have test := List.find?_some found
  simp only [Bool.and_eq_true, beq_iff_eq] at test
  exact ⟨List.mem_of_find?_eq_some found, test⟩

theorem Keeps.primary {subject keyId publicKey : String} {now : Nat}
    (done : primaryOr state subject keyId publicKey now = .ok next)
    (isSigning : signs state subject keyId = true) :
    Keeps Everyone state next ∧ HasKey next subject := by
  unfold primaryOr at done
  split at done
  · exact ⟨Keeps.insertKey done rfl, insertKey_hasKey done rfl isSigning⟩
  · rename_i row found
    simp only [Program.except_bind_ok, require_ok, Program.except_pure, Except.ok.injEq] at done
    obtain ⟨_, ⟨same, _⟩, rfl⟩ := done
    exact ⟨Keeps.refl _, row, primaryKey_of found, same ▸ isSigning⟩

theorem Keeps.primarySubkey {subject keyId recipient : String} {now : Nat}
    (done : primarySubkeyOr state subject keyId recipient now = .ok next) :
    Keeps Everyone state next ∧ HasSubkey next subject := by
  unfold primarySubkeyOr at done
  split at done
  · exact ⟨Keeps.insertSubkey done rfl, insertSubkey_hasSubkey done rfl⟩
  · rename_i row found
    simp only [Program.except_bind_ok, Program.except_pure, Except.ok.injEq] at done
    obtain ⟨_, _, rfl⟩ := done
    exact ⟨Keeps.refl _, row, primarySubkey_of found⟩

/-- Every primary key of the subject is retired; those of the others are not touched. -/
theorem Keeps.retireKeys (state : State) (subject : String) (now : Nat) :
    Keeps (· ≠ subject) state (retireKeys state subject now) := by
  have rows := fun row => @Table.mem_rewrite _ _ _ _ state.identityKeys (retireKey subject now)
    (fun other => by unfold retireKey; split <;> rfl) row
  constructor
  · intro orderly
    apply orderly.unmarking
    intro row inside
    obtain ⟨old, member, rfl⟩ := (rows row).mp inside
    by_cases mine : old.subject = subject ∧ old.primary = true
    · exact .inr (by simp [keyMarking, retireKey, mine])
    · exact .inl (by rw [retireKey, if_neg mine]; exact member)
  · exact id
  · rintro other spare ⟨row, ⟨inside, owner, isPrimary⟩, isSigning⟩
    refine ⟨row, ⟨(rows row).mpr ⟨row, inside, ?_⟩, owner, isPrimary⟩, isSigning⟩
    rw [retireKey, if_neg]
    rintro ⟨mine, _⟩
    exact spare (owner.symm.trans mine)
  · exact fun _ _ has => has
  · exact fun _ _ is => is

theorem Keeps.retireSubkeys (state : State) (subject : String) (now : Nat) :
    Keeps (· ≠ subject) state (retireSubkeys state subject now) := by
  have rows := fun row => @Table.mem_rewrite _ _ _ _ state.encryptionSubkeys
    (retireSubkey subject now) (fun other => by unfold retireSubkey; split <;> rfl) row
  constructor
  · exact id
  · intro orderly
    apply orderly.unmarking
    intro row inside
    obtain ⟨old, member, rfl⟩ := (rows row).mp inside
    by_cases mine : old.subject = subject ∧ old.primary = true
    · exact .inr (by simp [subkeyMarking, retireSubkey, mine])
    · exact .inl (by rw [retireSubkey, if_neg mine]; exact member)
  · exact fun _ _ has => has
  · rintro other spare ⟨row, inside, owner, isPrimary⟩
    refine ⟨row, (rows row).mpr ⟨row, inside, ?_⟩, owner, isPrimary⟩
    rw [retireSubkey, if_neg]
    rintro ⟨mine, _⟩
    exact spare (owner.symm.trans mine)
  · exact fun _ _ is => is

/-- The subject that a step does not spare has its encryption key again. -/
theorem Keeps.heal {subject : String} (kept : Keeps (· ≠ subject) state next)
    (keyed : HasKey state subject → HasKey next subject) (has : HasSubkey next subject)
    (known : registered next subject = true → registered state subject = true) :
    Keeps Everyone state next where
  keys := kept.keys
  subkeys := kept.subkeys
  keyed other _ := by
    by_cases same : other = subject
    · subst same
      exact keyed
    · exact kept.keyed other same
  reachable other _ hasOther := by
    by_cases same : other = subject
    · subst same
      exact has
    · exact kept.reachable other same hasOther
  known other _ := by
    by_cases same : other = subject
    · subst same
      exact known
    · exact kept.known other same

/-- A new primary encryption key in the place of the old one. -/
theorem Keeps.rotate {subject keyId recipient : String} {now : Nat}
    (done : insertEncryptionSubkey (Accounts.retireSubkeys state subject now)
      ⟨keyId, subject, recipient, now, none, true⟩ = .ok next) :
    Keeps Everyone state next ∧ HasSubkey next subject := by
  have has : HasSubkey next subject := insertSubkey_hasSubkey done rfl
  have inserted : Keeps Everyone _ next := Keeps.insertSubkey done rfl
  have kept := (Keeps.retireSubkeys state subject now).trans inserted.spare
  refine ⟨kept.heal ?_ has ?_, has⟩
  · exact inserted.keyed subject trivial
  · exact inserted.known subject trivial

theorem Keeps.activate {subject : String} {keys : KeySwitch} {now : Nat}
    (done : activateEncryptionTarget state subject keys now = .ok next) :
    Keeps Everyone state next ∧ HasSubkey next subject := by
  unfold activateEncryptionTarget at done
  split at done
  · cases done
  · rename_i current found
    split at done
    · cases done
      exact ⟨Keeps.refl _, current, primarySubkey_of found⟩
    · simp only [Program.except_bind_ok] at done
      obtain ⟨_, _, inserted⟩ := done
      exact Keeps.rotate inserted

/-! The key that takes the place of a revoked one. -/

theorem older_iff (left right : IdentityKey) : older left right = true ↔
    toLex (left.createdAt, left.keyId) ≤ toLex (right.createdAt, right.keyId) := by
  simp [older, Prod.Lex.le_iff]

theorem older_total (left right : IdentityKey) : older left right = true ∨ older right left = true := by
  rw [older_iff, older_iff]
  exact le_total _ _

theorem older_trans {first second third : IdentityKey} (left : older first second = true)
    (right : older second third = true) : older first third = true := by
  rw [older_iff] at left right ⊢
  exact le_trans left right

theorem older_antisymm {left right : IdentityKey} (one : older left right = true)
    (other : older right left = true) : left.keyId = right.keyId := by
  rw [older_iff] at one other
  have same := toLex_inj.mp (le_antisymm one other)
  exact congrArg Prod.snd same

theorem oldest_spec {rows : List IdentityKey} {row : IdentityKey} (found : oldest rows = some row) :
    row ∈ rows ∧ ∀ other ∈ rows, older row other = true := by
  induction rows generalizing row with
  | nil => cases found
  | cons head rest ih =>
      unfold oldest at found
      have self : older head head = true := (older_total head head).elim id id
      cases tail : oldest rest with
      | none =>
          rw [tail] at found
          cases found
          cases rest with
          | nil => simp [self]
          | cons second rest =>
              unfold oldest at tail
              split at tail
              · cases tail
              · split at tail
                · cases tail
                · cases tail
      | some other =>
          obtain ⟨inside, first⟩ := ih tail
          simp only [tail] at found
          by_cases before : older head other = true
          · rw [if_pos before, Option.some.injEq] at found
            subst found
            refine ⟨List.mem_cons_self, ?_⟩
            intro row member
            rcases List.mem_cons.mp member with rfl | inRest
            · exact self
            · exact older_trans before (first row inRest)
          · rw [if_neg before, Option.some.injEq] at found
            subst found
            refine ⟨List.mem_cons_of_mem _ inside, ?_⟩
            intro row member
            rcases List.mem_cons.mp member with rfl | inRest
            · exact (older_total other row).resolve_right before
            · exact first row inRest

theorem oldest_some {rows : List IdentityKey} (inhabited : rows ≠ []) :
    ∃ row, oldest rows = some row := by
  cases rows with
  | nil => exact absurd rfl inhabited
  | cons head rest =>
      unfold oldest
      split
      · exact ⟨_, rfl⟩
      · split
        · exact ⟨_, rfl⟩
        · exact ⟨_, rfl⟩

/-- The unretired keys of the subject beside one. -/
def remaining (state : State) (subject keyId : String) : List IdentityKey :=
  (liveKeys state subject).filter fun row => row.keyId != keyId

/-- The oldest of the remaining keys, still signing. -/
def heir (state : State) (subject keyId : String) (row : IdentityKey) : Bool :=
  signs state subject row.keyId && (remaining state subject keyId).all (older row)

def without (state : State) (keyId : String) (now : Nat) : State :=
  { state with identityKeys := state.identityKeys.modify keyId (retired now) }

inductive Dropped (state : State) (subject keyId : String) (now : Nat) : State → Prop
  | foreign (absent : ∀ row, state.identityKeys.find? keyId = some row → row.subject ≠ subject) :
      Dropped state subject keyId now state
  | plain {current : IdentityKey} (found : state.identityKeys.find? keyId = some current)
      (mine : current.subject = subject) (secondary : current.primary = false) :
      Dropped state subject keyId now (without state keyId now)
  | vacant {current : IdentityKey} (found : state.identityKeys.find? keyId = some current)
      (mine : current.subject = subject) (isPrimary : current.primary = true)
      (none : oldest (liveKeys (without state keyId now) subject) = none) :
      Dropped state subject keyId now (without state keyId now)
  | replaced {current replacement : IdentityKey}
      (found : state.identityKeys.find? keyId = some current) (mine : current.subject = subject)
      (isPrimary : current.primary = true)
      (next : oldest (liveKeys (without state keyId now) subject) = some replacement) :
      Dropped state subject keyId now { without state keyId now with
        identityKeys := (without state keyId now).identityKeys.modify replacement.keyId promoted }

theorem dropKey_dropped (state : State) (subject keyId : String) (now : Nat) :
    Dropped state subject keyId now (dropKey state subject keyId now) := by
  unfold dropKey
  split
  · rename_i absent
    apply Dropped.foreign
    intro row found
    rw [absent] at found
    cases found
  · rename_i current found
    split
    · rename_i mine
      dsimp only
      split
      · rename_i isPrimary
        split
        · rename_i none
          exact .vacant found mine isPrimary none
        · rename_i replacement next
          exact .replaced found mine isPrimary next
      · rename_i secondary
        exact .plain found mine (by simpa using secondary)
    · rename_i other
      apply Dropped.foreign
      intro row again
      cases found.symm.trans again
      exact other

theorem mem_without {keyId : String} {now : Nat} {row : IdentityKey}
    (inside : row ∈ (without state keyId now).identityKeys.rows) :
    (row ∈ state.identityKeys.rows ∧ row.keyId ≠ keyId) ∨
      (row.keyId = keyId ∧ row.primary = false ∧ row.retiredAt ≠ none) := by
  have cases := @Table.mem_modify _ _ _ _ state.identityKeys keyId (retired now) row
    (fun _ => rfl) inside
  rcases cases with old | ⟨old, found, rfl⟩
  · exact .inl old
  · have key : old.keyId = keyId := Table.find?_key found
    exact .inr ⟨key, rfl, Option.some_ne_none now⟩

theorem Keeps.without {keyId : String} (now : Nat)
    (owned : ∀ row, state.identityKeys.find? keyId = some row → spared row.subject →
      row.primary = false) : Keeps spared state (without state keyId now) := by
  constructor
  · intro orderly
    apply orderly.unmarking
    intro row inside
    rcases mem_without inside with ⟨old, _⟩ | ⟨_, unmarked, _⟩
    · exact .inl old
    · exact .inr unmarked
  · exact id
  · rintro other spare ⟨row, ⟨inside, mine, isPrimary⟩, isSigning⟩
    refine ⟨row, ⟨Table.mem_modify_of_ne _ inside ?_, mine, isPrimary⟩, isSigning⟩
    intro same
    have found : state.identityKeys.find? keyId = some row :=
      same ▸ (Table.mem_iff_find? _ row).mp inside
    change row.subject = other at mine
    subst mine
    have isSecondary := owned row found spare
    cases isPrimary.symm.trans isSecondary
  · exact fun _ _ has => has
  · exact fun _ _ is => is

/-- The keys that are left when the primary key is gone have no primary key among them. -/
theorem without_unmarked {subject keyId : String} {now : Nat} {current : IdentityKey}
    (orderly : keyMarking.Orderly state.identityKeys.rows)
    (found : state.identityKeys.find? keyId = some current) (mine : current.subject = subject)
    (isPrimary : current.primary = true) {row : IdentityKey}
    (inside : row ∈ (without state keyId now).identityKeys.rows) (owner : row.subject = subject) :
    row.primary = false := by
  rcases mem_without inside with ⟨old, other⟩ | ⟨_, unmarked, _⟩
  · by_contra isMarked
    have same := orderly.single row old current (Table.find?_mem found) (owner.trans mine.symm)
      (Bool.eq_true_of_not_eq_false isMarked) isPrimary
    exact other (same ▸ Table.find?_key found)
  · exact unmarked

theorem liveKeys_mem {subject : String} {row : IdentityKey} :
    row ∈ liveKeys state subject ↔
      row ∈ state.identityKeys.rows ∧ row.subject = subject ∧ row.retiredAt = none := by
  simp [liveKeys]

theorem remaining_mem {subject keyId : String} {row : IdentityKey} :
    row ∈ remaining state subject keyId ↔ row ∈ state.identityKeys.rows ∧ row.subject = subject ∧
      row.retiredAt = none ∧ row.keyId ≠ keyId := by
  simp [remaining, liveKeys_mem, and_assoc]

theorem live_without {subject keyId : String} {now : Nat} {row : IdentityKey} :
    row ∈ liveKeys (without state keyId now) subject ↔ row ∈ remaining state subject keyId := by
  rw [liveKeys_mem, remaining_mem]
  constructor
  · rintro ⟨inside, mine, unretired⟩
    rcases mem_without inside with ⟨old, other⟩ | ⟨_, _, isRetired⟩
    · exact ⟨old, mine, unretired, other⟩
    · exact absurd unretired isRetired
  · rintro ⟨inside, mine, unretired, other⟩
    exact ⟨Table.mem_modify_of_ne _ inside other, mine, unretired⟩

theorem dropKey_store (state : State) (subject keyId : String) (now : Nat) :
    (dropKey state subject keyId now).store = state.store := by
  have dropped := dropKey_dropped state subject keyId now
  generalize dropKey state subject keyId now = next at dropped ⊢
  cases dropped with
  | foreign _ => rfl
  | plain _ _ _ => rfl
  | vacant _ _ _ _ => rfl
  | replaced _ _ _ _ => rfl

theorem dropKey_subkeys (state : State) (subject keyId : String) (now : Nat) :
    (dropKey state subject keyId now).encryptionSubkeys = state.encryptionSubkeys := by
  have dropped := dropKey_dropped state subject keyId now
  generalize dropKey state subject keyId now = next at dropped ⊢
  cases dropped with
  | foreign _ => rfl
  | plain _ _ _ => rfl
  | vacant _ _ _ _ => rfl
  | replaced _ _ _ _ => rfl

theorem Keeps.dropKey (state : State) (subject keyId : String) (now : Nat)
    (orderly : keyMarking.Orderly state.identityKeys.rows) :
    Keeps (· ≠ subject) state (dropKey state subject keyId now) := by
  have foreign : ∀ current, state.identityKeys.find? keyId = some current →
      current.subject = subject → Keeps (· ≠ subject) state (PrimaryKeys.without state keyId now) := by
    intro current found mine
    apply Keeps.without
    intro row again spare
    cases found.symm.trans again
    exact absurd mine spare
  have dropped := dropKey_dropped state subject keyId now
  generalize Identity.dropKey state subject keyId now = next at dropped ⊢
  cases dropped with
  | foreign _ => exact Keeps.refl _
  | plain found mine _ => exact foreign _ found mine
  | vacant found mine _ _ => exact foreign _ found mine
  | @replaced current replacement found mine isPrimary next =>
      have gone := foreign _ found mine
      have chosen := liveKeys_mem.mp (oldest_spec next).1
      refine gone.trans ⟨?_, id, ?_, fun _ _ has => has, fun _ _ is => is⟩
      · intro after
        refine @Marking.Orderly.adding _ _ _ _ _ (promoted replacement) after ?_ ?_ ?_
        · intro row inside
          have cases := @Table.mem_modify _ _ _ _ (PrimaryKeys.without state keyId now).identityKeys
            replacement.keyId promoted row (fun _ => rfl) inside
          rcases cases with ⟨old, _⟩ | ⟨old, again, rfl⟩
          · exact .inl old
          · have same := (Table.mem_iff_find? _ replacement).mp chosen.1
            cases again.symm.trans same
            exact .inr rfl
        · intro _ row inside owner
          exact without_unmarked orderly found mine isPrimary inside (owner.trans chosen.2.1)
        · intro _
          simp [keyMarking, promoted, chosen.2.2]
      · rintro other spare ⟨row, ⟨inside, owner, isMarked⟩, isSigning⟩
        refine ⟨row, ⟨Table.mem_modify_of_ne _ inside ?_, owner, isMarked⟩, isSigning⟩
        intro same
        have equal := Table.eq_of_key_eq inside chosen.1 same
        rw [equal] at owner
        exact spare (owner.symm.trans chosen.2.1)

/-- The subject of a revoked key has a primary key still, or its heir as a new one. -/
theorem dropKey_hasKey {subject keyId : String} {now : Nat} {row : IdentityKey}
    (orderly : keyMarking.Orderly state.identityKeys.rows) (chosen : KeyOf state subject row)
    (good : (row.keyId ≠ keyId ∧ signs state subject row.keyId = true) ∨
      (row.keyId = keyId ∧ ∃ other ∈ remaining state subject keyId,
        heir state subject keyId other = true)) :
    HasKey (dropKey state subject keyId now) subject := by
  have dropped := dropKey_dropped state subject keyId now
  generalize Identity.dropKey state subject keyId now = next at dropped ⊢
  have atKey := (Table.mem_iff_find? _ row).mp chosen.1
  have same : ∀ current, state.identityKeys.find? keyId = some current →
      current.subject = subject → current.primary = true → row.keyId = keyId := by
    intro current found mine isPrimary
    have isCurrent : KeyOf state subject current := ⟨Table.find?_mem found, mine, isPrimary⟩
    rw [Marking.Chosen.unique orderly chosen isCurrent]
    exact Table.find?_key found
  rcases good with ⟨other, isSigning⟩ | ⟨here, successor, inside, isHeir⟩
  · cases dropped with
    | foreign _ => exact ⟨row, chosen, isSigning⟩
    | plain _ _ _ =>
        exact ⟨row, ⟨Table.mem_modify_of_ne _ chosen.1 other, chosen.2⟩, isSigning⟩
    | vacant found mine isPrimary _ => exact absurd (same _ found mine isPrimary) other
    | replaced found mine isPrimary _ => exact absurd (same _ found mine isPrimary) other
  · change state.identityKeys.find? row.keyId = some row at atKey
    rw [here] at atKey
    cases dropped with
    | foreign absent => exact absurd chosen.2.1 (absent row atKey)
    | plain found _ secondary =>
        cases atKey.symm.trans found
        cases secondary.symm.trans chosen.2.2
    | vacant _ _ _ none =>
        have listed := (@live_without state subject keyId now successor).mpr inside
        obtain ⟨first, found⟩ := oldest_some (List.ne_nil_of_mem listed)
        cases none.symm.trans found
    | @replaced _ replacement _ _ _ next =>
        obtain ⟨isLive, first⟩ := oldest_spec next
        have listed := live_without.mp isLive
        simp only [heir, Bool.and_eq_true, List.all_eq_true] at isHeir
        -- Both are the oldest, so they have one key and are one row.
        have equal := older_antisymm (isHeir.2 replacement listed)
          (first successor (live_without.mpr inside))
        have twin := Table.eq_of_key_eq (remaining_mem.mp inside).1 (remaining_mem.mp listed).1 equal
        subst twin
        have stays := (Table.mem_iff_find? _ successor).mp (liveKeys_mem.mp isLive).1
        have moved : ((without state keyId now).identityKeys.modify successor.keyId
            promoted).find? successor.keyId = some (promoted successor) := by
          rw [Table.find?_modify_self _ _ promoted fun _ => rfl, stays]
          rfl
        exact ⟨promoted successor,
          ⟨Table.find?_mem moved, (remaining_mem.mp inside).2.1, rfl⟩, isHeir.1⟩

/-! The condition on a request. -/

/-- Some of the other unrevoked signing keys of the subject can do something, if there
are any. -/
def spares (state : State) (subject : String) (row : StoredCredential) : Bool :=
  let others := (credentialsOf state subject).filter fun other =>
    signing subject other && other.id != row.id
  !entitled subject row || others.isEmpty || others.any (entitled subject)

/-- The key is not the primary one, or the subject has an heir to it. -/
def handsOn (state : State) (subject keyId : String) : Bool :=
  (state.identityKeys.rows.all fun row =>
    !(row.subject == subject && row.primary) || row.keyId != keyId) ||
      (remaining state subject keyId).any (heir state subject keyId)

def careful (app : Installation) (state : State) (arguments : Arguments) : Bool :=
  match arguments with
  | .keyRevoke keyId =>
      (state.credentials.find? keyId).all fun row => !registered state row.subjectId ||
        (spares state row.subjectId row && handsOn state row.subjectId keyId)
  | .recover target publicKey _ =>
      match resolve app.toApp state.view target with
      | .error _ => true
      | .ok id => !registered state id || state.identityKeys.rows.all fun row =>
          !(row.subject == id && row.primary) || row.keyId == app.keyId publicKey
  | _ => true

theorem Keeps.replacePrevious {owner : Subject} {now : Nat} {previous : Option String}
    (done : replacePrevious state owner now previous = .ok next) : Keeps Everyone state next := by
  cases previous with
  | none =>
      cases done
      exact Keeps.refl _
  | some id =>
      simp only [Identity.replacePrevious, Program.except_bind_ok, require_ok] at done
      obtain ⟨old, _, _, ⟨isToken, _⟩, _, _, save⟩ := done
      apply Keeps.token save
      simp [revoked, isToken]

theorem Keeps.putApi {row : StoredCredential} {own : OwnSource}
    (done : putApi state row own = .ok next) : Keeps Everyone state next := by
  obtain ⟨_, _, rfl⟩ := putApi_ok done
  exact Keeps.beside rfl rfl rfl rfl

theorem Keeps.bound {owner : Subject} {row : StoredCredential} {previous : Option String}
    (binding : Bound step owner row previous state next) : Keeps Everyone state next := by
  cases binding with
  | unbound _ => exact Keeps.refl _
  | api _ _ put replaced => exact (Keeps.putApi put).trans (Keeps.replacePrevious replaced)

theorem Keeps.copy {oldId : String} {row : StoredCredential}
    (done : copyApi state oldId row = .ok next) : Keeps Everyone state next := by
  unfold copyApi at done
  split at done
  · cases done
    exact Keeps.refl _
  · exact Keeps.putApi done

theorem Keeps.verifier {owner publicKey : String}
    (done : verifierKey app state step owner publicKey = .ok next) : Keeps Everyone state next := by
  unfold verifierKey at done
  split at done
  · simp only [Program.except_bind_ok, Program.except_pure, Except.ok.injEq] at done
    obtain ⟨_, _, rfl⟩ := done
    exact Keeps.refl _
  · simp only [Program.except_bind_ok] at done
    obtain ⟨_, _, save⟩ := done
    exact Keeps.live save rfl

/-- A key that gets its rights is revoked afterwards if it was before. -/
theorem Keeps.fill {cert : Certificate} (done : fillCeiling state cert = .ok next) :
    Keeps Everyone state next := by
  simp only [fillCeiling, storedCredential, Program.except_bind_ok, requireRow_ok] at done
  obtain ⟨row, found, _, _, later⟩ := done
  split at later
  · have after := (saveCredential_saved later).after
    have saved := saveCredential_saved later
    apply Keeps.frame (by rw [after]) (by rw [after])
    · intro subject keyId _ isSigning
      obtain ⟨old, here, mine, kind, live⟩ := signs_some isSigning
      have same : row.key = cert.keyId := Table.find?_key found
      by_cases filled : row.id = keyId
      · rw [← filled, show row.id = cert.keyId from same, found] at here
        cases here
        exact signs_of_find? ((saved.find? keyId).trans (if_pos filled)) mine kind live
      · refine signs_of_find? ?_ mine kind live
        rw [saved.find?]
        exact (if_neg filled).trans here
    · intro id _ is
      rw [after] at is
      exact is
  · cases later
    exact Keeps.refl _

theorem Keeps.firstKeys {subject keyId publicKey encryptionId recipient : String} {now : Nat}
    (keys : Keyed state subject keyId publicKey encryptionId recipient now next)
    (isSigning : signs state subject keyId = true) :
    Keeps Everyone state next ∧ HasKey next subject ∧ HasSubkey next subject := by
  obtain ⟨keyed, first, second⟩ := keys.split
  have one : Keeps Everyone state keyed := Keeps.insertKey first rfl
  have two : Keeps Everyone keyed next := Keeps.insertSubkey second rfl
  exact ⟨one.trans two, two.keyed subject trivial (insertKey_hasKey first rfl isSigning),
    insertSubkey_hasSubkey second rfl⟩

theorem signs_new {row : StoredCredential} {version : Nat}
    (done : saveCredential state row version = .ok next) (kind : row.kind = .signingKey)
    (live : row.revokedAt = none) : signs next row.subjectId row.id = true := by
  refine signs_of_find? ?_ rfl kind live
  rw [(saveCredential_saved done).find?, if_pos rfl]

/-- A new subject that is not registered. -/
theorem Keeps.make {user : String} {kind : SubjectKind} (make : makeUser state user kind = .ok next)
    (plain : kind ≠ .registered) : Keeps Everyone state next := by
  apply Keeps.subject make
  intro _ isRegistered
  exact absurd isRegistered plain

theorem Keeps.others {record : Subject} {expected : Option Nat}
    (done : updateSubject state record expected = .ok next) :
    Keeps (· ≠ record.resourceId) state next := by
  apply Keeps.subject done
  intro spare
  exact absurd rfl spare

/-! The operations that do not keep the keys of everybody. -/

theorem switch_kept {owner : Subject} {keys : KeySwitch} {retain : Bool}
    (done : switchIdentity app state step owner keys retain = .ok next) :
    Keeps (· ≠ owner.resourceId) state next ∧ HasKey next owner.resourceId ∧
      HasSubkey next owner.resourceId := by
  simp only [switchIdentity, Program.except_bind_ok, Program.except_pure, Except.ok.injEq] at done
  obtain ⟨_, _, _, _, _, _, ended, revoke, saved, save, keyed, insert, targeted, activate, raised,
    raise, rfl⟩ := done
  have revoked : Keeps (· ≠ owner.resourceId) state ended := by
    apply Keeps.each revoke
    intro row member spare
    have mine := (List.mem_filter.mp (List.mem_filter.mp member).1).2
    exact absurd (by simpa using mine) spare
  have isSigning := signs_new save rfl rfl
  have inserted : Keeps Everyone _ keyed := Keeps.insertKey insert rfl
  have here := insertKey_hasKey insert rfl isSigning
  obtain ⟨target, has⟩ := Keeps.activate activate
  have raisedHere : HasKey raised owner.resourceId ∧ HasSubkey raised owner.resourceId := by
    have targetedHere := target.keyed _ trivial here
    rw [updateSubject_ok raise]
    exact ⟨targetedHere, has⟩
  have vaulted : Keeps (· ≠ owner.resourceId) raised { raised with
      vaults := raised.vaults.modify owner.resourceId (retireVault retain) } :=
    Keeps.beside rfl rfl rfl rfl
  have lead := (revoked.trans (Keeps.live save rfl).spare).trans (Keeps.retireKeys saved _ step.now)
  have rest := inserted.trans target
  exact ⟨lead.trans (rest.spare.trans ((Keeps.others raise).trans vaulted)), raisedHere⟩

/-- A recovery leaves its target the primary key that it installs. -/
theorem recover_sound {target publicKey id : String} {possession : Signature} {owner : Subject}
    {ended saved raised : State} (sound : Sound state)
    (cautious : careful app state (.recover target publicKey possession) = true)
    (resolved : resolve app.toApp state.view target = .ok id)
    (stored : state.store.subjects.find? id = some owner)
    (revoke : revokeEach state (credentialsOf state id) step.now owner.authVersion = .ok ended)
    (save : saveCredential ended (signingKey app publicKey id app.primaryCeiling step.now)
      owner.authVersion = .ok saved)
    (bump : bumpSubject saved owner = .ok raised) (finished : Finished step.aside raised next) :
    Sound next := by
  have same : owner.resourceId = id := Table.find?_key stored
  have ends := revokeEach_revoked (fun row member => credentialsOf_held row member) revoke
  have saves := (saveCredential_saved save).after
  have revoked : Keeps (· ≠ id) state ended := by
    apply Keeps.each revoke
    intro row member spare
    have mine := (List.mem_filter.mp member).2
    exact absurd (by simpa using mine) spare
  have still : saved.store.subjects.find? owner.resourceId = some owner := by
    rw [saves, ends.frame, same]
    exact stored
  have tail : Keeps Everyone saved next :=
    (Keeps.bump still bump).trans (Keeps.finished finished)
  have kept : Keeps (· ≠ id) state next := (revoked.trans (Keeps.live save rfl).spare).trans tail.spare
  apply kept.sound _ sound
  intro isNext
  have isNow : registered state id = true := by
    have before := tail.known id trivial isNext
    rw [saves, ends.frame] at before
    exact before
  obtain ⟨row, chosen, _⟩ := sound.keyed id isNow
  have named : row.keyId = app.keyId publicKey := by
    simp only [careful, resolved, isNow, Bool.not_true, Bool.false_or, List.all_eq_true,
      Bool.or_eq_true, Bool.not_eq_true', Bool.and_eq_false_iff, beq_iff_eq] at cautious
    rcases cautious row chosen.1 with (other | unmarked) | named
    · have owner : row.subject = id := chosen.2.1
      exact absurd owner (by simpa using other)
    · cases unmarked.symm.trans chosen.2.2
    · exact named
  have savedHere : HasKey saved id := by
    refine ⟨row, ?_, ?_⟩
    · rw [KeyOf, saves, ends.frame]
      exact chosen
    · rw [named]
      exact signs_new save rfl rfl
  obtain ⟨subkey, isSubkey⟩ := sound.reachable id isNow
  have subkeyHere : HasSubkey saved id := by
    refine ⟨subkey, ?_⟩
    rw [SubkeyOf, saves, ends.frame]
    exact isSubkey
  exact ⟨tail.keyed id trivial savedHere, tail.reachable id trivial subkeyHere⟩

theorem keyRevoke_careful {keyId : String} {subject : String} {row : StoredCredential}
    (cautious : careful app state (.keyRevoke keyId) = true)
    (held : state.credentials.find? keyId = some row) (mine : row.subjectId = subject)
    (isRegistered : registered state subject = true) :
    spares state subject row = true ∧ handsOn state subject keyId = true := by
  simpa [careful, held, mine, isRegistered] using cautious

theorem handsOn_heir {subject keyId : String} {row : IdentityKey}
    (hands : handsOn state subject keyId = true) (chosen : KeyOf state subject row)
    (here : row.keyId = keyId) :
    ∃ other ∈ remaining state subject keyId, heir state subject keyId other = true := by
  rw [handsOn, Bool.or_eq_true, List.any_eq_true] at hands
  rcases hands with none | found
  · have apart := List.all_eq_true.mp none row chosen.1
    have owner : row.subject = subject := chosen.2.1
    have isPrimary : row.primary = true := chosen.2.2
    simp [owner, isPrimary, here] at apart
  · exact found

theorem keyRevoke_sound {keyId : String} {owner : Subject} {row : StoredCredential}
    {saved raised : State} (sound : Sound state)
    (cautious : careful app state (.keyRevoke keyId) = true) (owns : Owns step state owner)
    (held : state.credentials.find? keyId = some row) (mine : row.subjectId = owner.resourceId)
    (save : saveCredential state (revoked step.now row) owner.authVersion = .ok saved)
    (bump : bumpSubject (dropKey saved owner.resourceId row.id step.now) owner = .ok raised)
    (finished : Finished step.aside raised next) : Sound next := by
  have same : row.key = keyId := Table.find?_key held
  subst same
  have saves := (saveCredential_saved save).after
  have revokes : Keeps (· ≠ owner.resourceId) state saved := by
    apply Keeps.save save
    intro spare
    exact absurd mine spare
  have inOrder : keyMarking.Orderly saved.identityKeys.rows := revokes.keys sound.keys
  have dropped := Keeps.dropKey saved owner.resourceId row.id step.now inOrder
  have still : (dropKey saved owner.resourceId row.id step.now).store.subjects.find?
      owner.resourceId = some owner := by
    rw [dropKey_store, saves]
    exact owns.stored
  have tail : Keeps Everyone (dropKey saved owner.resourceId row.id step.now) next :=
    (Keeps.bump still bump).trans (Keeps.finished finished)
  apply (revokes.trans (dropped.trans tail.spare)).sound _ sound
  intro isNext
  have isNow : registered state owner.resourceId = true := by
    have before := tail.known _ trivial isNext
    rw [registered, dropKey_store, saves] at before
    exact before
  obtain ⟨primary, chosen, isSigning⟩ := sound.keyed _ isNow
  obtain ⟨subkey, isSubkey⟩ := sound.reachable _ isNow
  have droppedSubkey : HasSubkey (dropKey saved owner.resourceId row.id step.now)
      owner.resourceId := by
    refine ⟨subkey, ?_⟩
    rw [SubkeyOf, dropKey_subkeys, saves]
    exact isSubkey
  have elsewhere : ∀ other, other ≠ row.id →
      signs saved owner.resourceId other = signs state owner.resourceId other := by
    intro other apart
    simp only [signs, (saveCredential_saved save).find?]
    rw [if_neg]
    exact Ne.symm apart
  have sameKeys : saved.identityKeys = state.identityKeys := by rw [saves]
  have savedChosen : KeyOf saved owner.resourceId primary := by
    rw [KeyOf, sameKeys]
    exact chosen
  refine ⟨tail.keyed _ trivial (dropKey_hasKey inOrder savedChosen ?_),
    tail.reachable _ trivial droppedSubkey⟩
  by_cases here : primary.keyId = row.id
  · right
    refine ⟨here, ?_⟩
    have hands : handsOn state owner.resourceId row.id = true :=
      (keyRevoke_careful cautious held mine isNow).2
    obtain ⟨successor, inside, isHeir⟩ := handsOn_heir hands chosen here
    refine ⟨successor, by simpa only [remaining, liveKeys, sameKeys] using inside, ?_⟩
    rw [heir, elsewhere _ (remaining_mem.mp inside).2.2.2]
    simpa only [heir, remaining, liveKeys, sameKeys] using isHeir
  · left
    rw [elsewhere _ here]
    exact ⟨here, isSigning⟩

/-- A token beside it leaves a key as it is. -/
theorem signs_issued {subject keyId : String} {row : StoredCredential} {version : Nat}
    {saved delivered : State} {inherited : Option Nat}
    (isSigning : signs state subject keyId = true)
    (save : saveCredential state row version = .ok saved)
    (record : recordTokenDelivery app saved step.request row step.now inherited = .ok delivered)
    (isToken : row.kind = .token) : signs delivered subject keyId = true := by
  obtain ⟨_, recorded⟩ := recordTokenDelivery_recorded record
  rw [signs, recorded.credentials]
  apply signs_saved save _ isSigning
  intro _ isKey
  cases isToken.symm.trans isKey

theorem insertIdentityKey_store {row : IdentityKey}
    (done : insertIdentityKey state row = .ok next) : next.store = state.store := by
  simp only [insertIdentityKey, Program.except_bind_ok, Program.except_pure, Except.ok.injEq] at done
  obtain ⟨_, _, _, _, rfl⟩ := done
  rfl

theorem change_sound (sound : Sound state)
    (cautious : careful app state step.request.arguments = true)
    (change : Change app step state next data) : Sound next := by
  cases change with
  | @register user publicKey _ _ made saved keyed _ asked _ make save keys finished =>
      obtain ⟨kept, key, subkey⟩ :=
        Keeps.firstKeys keys (signs_new save rfl rfl)
      have tail : Keeps Everyone keyed next := Keeps.finished finished
      have lead : Keeps (· ≠ user) state saved := (Keeps.others make).trans (Keeps.live save rfl).spare
      apply (lead.trans (kept.trans tail).spare).sound _ sound
      intro _
      exact ⟨tail.keyed _ trivial key, tail.reachable _ trivial subkey⟩
  | temporary _ _ make sign keys first save record finished =>
      have made := (Keeps.make make (by simp)).trans (Keeps.live sign rfl)
      have keyed := made.trans (Keeps.firstKeys keys (signs_new sign rfl rfl)).1
      obtain ⟨_, _, isToken, _⟩ := firstToken_ok first
      have issued := keyed.trans (Keeps.token save (by simp [isToken]))
      exact (issued.trans ((Keeps.record record).trans (Keeps.finished finished))).whole sound
  | @custodial _ _ _ _ _ _ _ _ _ _ _ keyed _ vaults _ _ make sign first save record keys _
      finished =>
      have made := (Keeps.make make (by simp)).trans (Keeps.live sign rfl)
      obtain ⟨_, _, isToken, _⟩ := firstToken_ok first
      have issued := (made.trans (Keeps.token save (by simp [isToken]))).trans (Keeps.record record)
      have isSigning := signs_issued (signs_new sign rfl rfl) save record isToken
      have vaulted : Keeps Everyone keyed { keyed with vaults := vaults } :=
        Keeps.beside rfl rfl rfl rfl
      have lead := issued.trans (Keeps.firstKeys keys isSigning).1
      exact (lead.trans (vaulted.trans (Keeps.finished finished))).whole sound
  | rotate _ _ _ _ isToken shape save record revoke finished =>
      have issued := (Keeps.token save (by simp [shape, tokenRow])).trans (Keeps.record record)
      have ended := issued.trans (Keeps.token revoke (by simp [revoked, isToken]))
      exact (ended.trans (Keeps.finished finished)).whole sound
  | @upgrade _ _ _ _ _ owner raised saved keyed sealed ended _ _ _ _ raise save primary subkey revoke
      finished =>
      obtain ⟨keyKept, key⟩ := Keeps.primary primary (signs_new save rfl rfl)
      obtain ⟨subkeyKept, hasSubkey⟩ := Keeps.primarySubkey subkey
      have revokes : Keeps Everyone sealed ended := by
        apply Keeps.each revoke
        intro row member _ isKey
        have picked := (List.mem_filter.mp member).2
        simp [isKey] at picked
      have tail := revokes.trans (Keeps.finished finished)
      have lead := (Keeps.others raise).trans (Keeps.live save rfl).spare
      apply (lead.trans (keyKept.trans (subkeyKept.trans tail)).spare).sound _ sound
      intro _
      exact ⟨(subkeyKept.trans tail).keyed _ trivial key, tail.reachable _ trivial hasSubkey⟩
  | @keyAdd _ _ _ owner _ keyed _ _ _ owns _ save keys bump finished =>
      have still : keyed.store.subjects.find? owner.resourceId = some owner := by
        rw [insertIdentityKey_store keys, (saveCredential_saved save).after]
        exact owns.stored
      have lead := (Keeps.live save rfl).trans (Keeps.insertKey keys rfl)
      exact (lead.trans ((Keeps.bump still bump).trans (Keeps.finished finished))).whole sound
  | keyRevoke asked owns held mine _ save bump finished =>
      rw [asked] at cautious
      exact keyRevoke_sound sound cautious owns held mine save bump finished
  | tokenCreate _ _ _ shape save record binding finished =>
      have issued := (Keeps.token save (by simp [shape, tokenRow])).trans (Keeps.record record)
      exact (issued.trans ((Keeps.bound binding).trans (Keeps.finished finished))).whole sound
  | @tokenRecover _ _ _ _ _ _ _ _ _ _ _ _ _ bound consumed _ _ _ _ _ good _ _ shape _ record save
      revoke copy consume finished =>
      have used : Keeps Everyone bound consumed := by
        rw [consumeDelivery_ok consume]
        exact Keeps.beside rfl rfl rfl rfl
      have issued := (Keeps.record record).trans (Keeps.token save (by simp [shape, tokenRow]))
      have ended := issued.trans (Keeps.token revoke (by simp [revoked, good.2.1]))
      exact (ended.trans ((Keeps.copy copy).trans (used.trans (Keeps.finished finished)))).whole sound
  | @certRequest _ _ _ saved _ requests _ _ save _ finished =>
      have listed : Keeps Everyone saved { saved with requests := requests } :=
        Keeps.beside rfl rfl rfl rfl
      exact ((Keeps.verifier save).trans (listed.trans (Keeps.finished finished))).whole sound
  | @certPublish csrId _ _ _ _ _ _ _ fill finished =>
      have told : Keeps Everyone state { state with
          requests := state.requests.modify csrId answered } := Keeps.beside rfl rfl rfl rfl
      exact (told.trans ((Keeps.fill fill).trans (Keeps.finished finished))).whole sound
  | recover asked resolved stored revoke save bump finished =>
      rw [asked] at cautious
      exact recover_sound sound cautious resolved stored revoke save bump finished
  | encryptionKeyRotate _ _ _ insert finished =>
      exact ((Keeps.rotate insert).1.trans (Keeps.finished finished)).whole sound
  | sshKeyAdd _ _ _ save finished =>
      exact ((Keeps.live save rfl).trans (Keeps.finished finished)).whole sound
  | sshKeyRevoke _ _ _ mine save finished =>
      have revokes := Keeps.token save (by simp [revoked, mine.1])
      exact (revokes.trans (Keeps.finished finished)).whole sound
  | @delegatedCreate publicKey _ grantor _ drawn _ _ maxUses _ _ keyed _ _ _ make save keys finished =>
      have made := (Keeps.make make (by simp)).trans (Keeps.live save rfl)
      have lead := made.trans (Keeps.firstKeys keys (signs_new save rfl rfl)).1
      have listed : Keeps Everyone keyed { keyed with
          delegatedIdentities := (app.subjectId publicKey, ⟨grantor, drawn, maxUses, 0⟩) ::
            keyed.delegatedIdentities } := Keeps.beside rfl rfl rfl rfl
      exact (lead.trans (listed.trans (Keeps.finished finished))).whole sound
  | idle _ _ finished => exact (Keeps.finished finished).whole sound
  | target _ _ activate finished =>
      exact ((Keeps.activate activate).1.trans (Keeps.finished finished)).whole sound
  | switch _ _ exit finished =>
      obtain ⟨kept, key, subkey⟩ := switch_kept exit
      have tail : Keeps Everyone _ next := Keeps.finished finished
      apply (kept.trans tail.spare).sound _ sound
      intro _
      exact ⟨tail.keyed _ trivial key, tail.reachable _ trivial subkey⟩
  | @retire _ retain owner _ _ _ finished =>
      have vaulted : Keeps Everyone state { state with
          vaults := state.vaults.modify owner.resourceId (retireVault retain) } :=
        Keeps.beside rfl rfl rfl rfl
      exact (vaulted.trans (Keeps.finished finished)).whole sound
  | other _ finished => exact (Keeps.finished finished).whole sound

/-! Runs. -/

/-- Whether the account operation of the event, if one ran, was careful. -/
def Event.careful (app : Installation) (event : Event) : Bool :=
  (Revocation.Event.ran event).all (PrimaryKeys.careful app event.before)

theorem oauth_sound {act : OAuth.Act} {now : Nat} {answer : OAuth.Answer} (sound : Sound state)
    (fresh : freshDraws state (.oauth act now)) (change : OAuth.Change app now state act next answer) :
    Sound next := by
  have frame := change.frame
  have minted : ∀ row, OAuth.Minted state row next → state.credentials.find? row.id = none →
      Keeps Everyone state next := by
    intro row minted unknown
    apply Keeps.frame (by rw [frame]) (by rw [frame])
    · intro subject keyId _ isSigning
      obtain ⟨old, found, mine, kind, live⟩ := signs_some isSigning
      refine signs_of_find? ?_ mine kind live
      rw [minted.after, Table.find?_put, if_neg]
      · exact found
      · intro same
        change row.id = keyId at same
        rw [← same, unknown] at found
        cases found
    · intro id _ is
      rw [frame] at is
      exact is
  cases change.mint with
  | nothing same =>
      have kept : Keeps Everyone state next :=
        Keeps.beside (by rw [frame]) (by rw [frame]) same (by rw [frame])
      exact kept.whole sound
  | access named made => exact (minted _ made (by rw [named]; exact fresh _ rfl)).whole sound
  | browser named made => exact (minted _ made (by rw [named]; exact fresh _ rfl)).whole sound

theorem transaction_sound {deed : Deed} {outcome : Outcome} (sound : Sound state)
    (fresh : freshDraws state deed)
    (cautious : Event.careful app ⟨state, deed, outcome⟩ = true)
    (transaction : Transaction app state deed next outcome) : Sound next := by
  cases transaction with
  | committed _ _ change booked =>
      have acts := change_sound sound (by exact cautious) change
      obtain ⟨_, _, _, rfl⟩ := booked.written
      apply Keeps.whole _ acts
      exact Keeps.beside rfl rfl rfl rfl
  | replayed _ _ => exact sound
  | handled _ change => exact change_sound sound (by exact cautious) change
  | responded _ _ released =>
      cases released with
      | plain _ => exact sound
      | token _ _ _ _ _ _ _ _ =>
          apply Keeps.whole _ sound
          exact Keeps.beside rfl rfl rfl rfl
  | oauth change => exact oauth_sound sound fresh change
  | elsewhere acted =>
      have finished : Finished _ state _ := ⟨_, acted, rfl⟩
      exact (Keeps.finished finished).whole sound

theorem initial_sound (initial : Initial state) : Sound state := by
  have nobody : ∀ id, registered state id = true → False := by
    intro id is
    unfold registered at is
    cases found : state.store.subjects.find? id with
    | none =>
        rw [found] at is
        cases is
    | some owner =>
        have system := initial.subjects owner (Table.find?_mem found)
        simp [found, system] at is
  constructor
  · rw [initial.identityKeys]
    exact Marking.Orderly.nil
  · rw [initial.encryptionSubkeys]
    exact Marking.Orderly.nil
  · intro id is
    exact (nobody id is).elim
  · intro id is
    exact (nobody id is).elim

theorem run_sound {clock : Nat} {past : List Event} (initial : Initial first)
    (run : Run app first state clock past)
    (cautious : ∀ event ∈ past, Event.careful app event = true) : Sound state := by
  induction run with
  | start => exact initial_sound initial
  | @deed state next clock past deed outcome before later fresh done ih =>
      have sound := ih fun event inside => cautious event (List.mem_cons_of_mem _ inside)
      exact transaction_sound sound fresh
        (cautious ⟨state, deed, outcome⟩ List.mem_cons_self) (perform_transaction done)

/-- The subject has one primary key, not retired and still signing, and one primary
encryption key, not retired. -/
structure Equipped (state : State) (subject : String) : Prop where
  key : ∃ row, KeyOf state subject row ∧ row.retiredAt = none ∧
    signs state subject row.keyId = true ∧ ∀ other, KeyOf state subject other → other = row
  subkey : ∃ row, SubkeyOf state subject row ∧ row.retiredAt = none ∧
    ∀ other, SubkeyOf state subject other → other = row

theorem Sound.equipped {subject : String} (sound : Sound state)
    (is : registered state subject = true) : Equipped state subject := by
  obtain ⟨row, chosen, isSigning⟩ := sound.keyed subject is
  obtain ⟨subkey, isSubkey⟩ := sound.reachable subject is
  constructor
  · refine ⟨row, chosen, ?_, isSigning, fun other is => is.unique sound.keys chosen⟩
    simpa [keyMarking] using sound.keys.used row chosen.1 chosen.2.2
  · refine ⟨subkey, isSubkey, ?_, fun other is => is.unique sound.subkeys isSubkey⟩
    simpa [subkeyMarking] using sound.subkeys.used subkey isSubkey.1 isSubkey.2.2

/-- An accepted revocation of the last unrevoked signing key of a registered identity that
can do something. -/
def LocksOut (event : Event) : Prop :=
  ∃ keyId row, Revocation.Event.ran event = some (.keyRevoke keyId) ∧
    event.before.credentials.find? keyId = some row ∧
    registered event.before row.subjectId = true ∧ entitled row.subjectId row = true ∧
    ∀ other ∈ credentialsOf event.before row.subjectId, entitled row.subjectId other = true →
      other.id = keyId

/-- The operation of an event that ran. -/
theorem ran_change {deed : Deed} {outcome : Outcome} {arguments : Arguments}
    (ran : Revocation.Event.ran ⟨state, deed, outcome⟩ = some arguments)
    (transaction : Transaction app state deed next outcome) :
    ∃ step after data, step.request.arguments = arguments ∧ Change app step state after data := by
  cases transaction with
  | committed _ _ change _ =>
      cases ran
      exact ⟨_, _, _, rfl, change⟩
  | handled _ change =>
      cases ran
      exact ⟨_, _, _, rfl, change⟩
  | replayed _ _ => cases ran
  | responded _ _ _ => cases ran
  | oauth _ => cases ran
  | elsewhere _ => cases ran

theorem revoke_spares {keyId : String} {row : StoredCredential}
    (asked : step.request.arguments = .keyRevoke keyId)
    (found : state.credentials.find? keyId = some row)
    (isRegistered : registered state row.subjectId = true)
    (cautious : careful app state (.keyRevoke keyId) = true)
    (isEntitled : entitled row.subjectId row = true)
    (change : Change app step state next data) :
    ∃ other ∈ credentialsOf state row.subjectId, entitled row.subjectId other = true ∧
      other.id ≠ keyId := by
  cases change with
  | keyRevoke asked' owns held mine spare save bump finished =>
      cases asked.symm.trans asked'
      cases found.symm.trans held
      have same : row.key = keyId := Table.find?_key held
      have mineToo := keyRevoke_careful cautious held rfl isRegistered
      have both := isEntitled
      simp only [entitled, signing, Bool.and_eq_true, beq_iff_eq] at both
      obtain ⟨spared, inside, isOther⟩ :=
        List.any_eq_true.mp (spare.resolve_left fun other => other both.1.1.2)
      simp only [Bool.and_eq_true, beq_iff_eq, bne_iff_ne, ne_eq] at isOther
      have spares := mineToo.1
      simp only [PrimaryKeys.spares, isEntitled, Bool.not_true, Bool.false_or, Bool.or_eq_true,
        List.isEmpty_iff, List.any_eq_true] at spares
      rcases spares with none | ⟨other, member, isAlso⟩
      · have absent := List.filter_eq_nil_iff.mp none spared inside
        have owner := (List.mem_filter.mp inside).2
        simp [signing, isOther, beq_iff_eq.mp owner] at absent
      · obtain ⟨listed, test⟩ := List.mem_filter.mp member
        refine ⟨other, listed, isAlso, ?_⟩
        rw [← same]
        simp only [Bool.and_eq_true, bne_iff_ne] at test
        exact test.2
  | _ asked' => exact absurd (asked.symm.trans asked') (by simp)

/-- In a run of careful requests every registered identity keeps its keys, and none locks
itself out. -/
theorem primary_keys_kept {clock : Nat} {past : List Event} (initial : Initial first)
    (run : Run app first state clock past)
    (cautious : ∀ event ∈ past, Event.careful app event = true) :
    (∀ id, registered state id = true → Equipped state id) ∧
      ∀ event ∈ past, ¬ LocksOut event := by
  constructor
  · intro id is
    exact (run_sound initial run cautious).equipped is
  · intro event inside
    rintro ⟨keyId, row, ran, found, isRegistered, isEntitled, alone⟩
    have careful := cautious event inside
    obtain ⟨before, after, _, passes⟩ :=
      @History.Trace.through _ _ _ (fun _ => True) _ _ _ run.trace trivial
        (fun _ _ _ _ _ => trivial) event inside
    obtain ⟨state, deed, outcome⟩ := event
    have here : state = before.1 := passes.before
    subst here
    obtain ⟨step, next, data, asked, change⟩ := ran_change ran passes.transaction
    simp only [Event.careful, ran, Option.all_some] at careful
    obtain ⟨other, listed, isAlso, apart⟩ :=
      revoke_spares asked found isRegistered careful isEntitled change
    exact apart (alone other listed isAlso)

/-- Ann adds a second key with rights and revokes her first. -/
def sampleHandover : List Deed :=
  [samplePacket "third" 1 3 (.keyRevoke "k_ann") Aside.idle,
    samplePacket "second" 1 2 (.keyAdd "two" (sampleSignature "two" "proof") sampleCeiling)
      Aside.idle,
    sampleRegister]

theorem primary_keys_kept_sample :
    Equipped (sampleTrace sampleHandover).1 "u_ann" ∧
      ∀ event ∈ (sampleTrace sampleHandover).2.2, ¬ LocksOut event := by
  -- the run is evaluated once, with everything that is asked of it
  have checked : (trace sampleInstallation sampleSystem sampleHandover).any (fun traced =>
      traced.2.2.all (Event.careful sampleInstallation) && registered traced.1 "u_ann") = true := by
    decide +kernel
  obtain ⟨traced, found, fit⟩ := (Option.any_eq_true _ _).mp checked
  rw [Bool.and_eq_true] at fit
  have kept := primary_keys_kept sampleSystem_initial (trace_run found) (List.all_eq_true.mp fit.1)
  unfold sampleTrace
  rw [found]
  exact ⟨kept.1 "u_ann" fit.2, kept.2⟩

/-- Her second key is one that a request for a certificate named, and has no rights. -/
def sampleLockout : List Deed :=
  [samplePacket "third" 1 3 (.keyRevoke "k_ann") Aside.idle,
    samplePacket "second" 1 2 (.certRequest "csr" "r_csr") Aside.idle,
    sampleRegister]

theorem last_key_revoked : ¬ ∀ (app : Installation) (first state : State) (clock : Nat)
    (past : List Event), Initial first → Run app first state clock past →
      (∀ id, registered state id = true → Equipped state id) ∧
        ∀ event ∈ past, ¬ LocksOut event := by
  intro claim
  have kept := (claim _ _ _ _ _ sampleSystem_initial
    (sampleTrace_run sampleLockout (by decide +kernel))).1 "u_ann" rfl
  obtain ⟨row, ⟨inside, _, isPrimary⟩, _⟩ := kept.key
  have none : (sampleTrace sampleLockout).1.identityKeys.rows.any IdentityKey.primary = false := rfl
  exact List.any_eq_false.mp none row inside isPrimary

end MsgServer.PrimaryKeys
