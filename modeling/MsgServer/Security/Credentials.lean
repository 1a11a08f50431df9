import MsgServer.Plugins.IdentityChanges

/-!
What the writers of credentials do to the rows that are there. A token row is written
once and from then on only marked as revoked: every save either writes another kind of
credential, or a token that was not there, or a token as it was with a time of revocation.
-/

namespace MsgServer.Credentials

open Library Session Accounts Identity

variable {state next : State} {row : StoredCredential} {version now : Nat}

structure Saved (state : State) (row : StoredCredential) (next : State) : Prop where
  owner : ∃ owner, state.store.subjects.find? row.subjectId = some owner
  same : identityUnchanged (state.credentials.find? row.id) row
  after : next = { state with credentials := state.credentials.put row }

theorem saveCredential_saved (done : saveCredential state row version = .ok next) :
    Saved state row next := by
  simp only [saveCredential, subject, Program.except_bind_ok, requireRow_ok, require_ok,
    Program.except_pure, Except.ok.injEq] at done
  obtain ⟨owner, stored, _, _, _, same, rfl⟩ := done
  exact ⟨⟨owner, stored⟩, same, rfl⟩

theorem Saved.find? (saved : Saved state row next) (id : String) :
    next.credentials.find? id = if row.id = id then some row else state.credentials.find? id := by
  rw [saved.after]
  exact Table.find?_put state.credentials row id

theorem Saved.kind {old : StoredCredential} (saved : Saved state row next)
    (found : state.credentials.find? row.id = some old) : old.kind = row.kind :=
  (saved.same old found).kind

theorem Saved.subject {old : StoredCredential} (saved : Saved state row next)
    (found : state.credentials.find? row.id = some old) : old.subjectId = row.subjectId :=
  (saved.same old found).subject

/-- The token of an id. -/
def tokenAt (state : State) (id : String) : Option StoredCredential :=
  (state.credentials.find? id).filter fun row => row.kind == .token

theorem tokenAt_some (id : String) :
    tokenAt state id = some row ↔ state.credentials.find? id = some row ∧ row.kind = .token := by
  simp [tokenAt, Option.filter_eq_some_iff]

theorem tokenAt_none_of_kind {id : String} (found : state.credentials.find? id = some row)
    (plain : row.kind ≠ .token) : tokenAt state id = none := by
  simp [tokenAt, found, plain]

/-- The row with another time of revocation. -/
def ended (ends : Option Nat) (row : StoredCredential) : StoredCredential :=
  { row with revokedAt := ends }

@[simp] theorem ended_id (ends : Option Nat) (row : StoredCredential) : (ended ends row).id = row.id :=
  rfl

@[simp] theorem ended_ended (first last : Option Nat) (row : StoredCredential) :
    ended last (ended first row) = ended last row := rfl

theorem ended_self (row : StoredCredential) : ended row.revokedAt row = row := rfl

theorem revoked_eq (now : Nat) (row : StoredCredential) : revoked now row = ended (some now) row := rfl

/-- Rows that differ only in their revocation are the same once it is set. -/
theorem ended_congr {first second last : Option Nat} {row other : StoredCredential}
    (same : ended first row = ended second other) : ended last row = ended last other := by
  have equal := congrArg (ended last) same
  simpa using equal

/-- A row as it was, but for the time of its revocation, which is not taken back. -/
inductive Aged : Option StoredCredential → Option StoredCredential → Prop
  | absent : Aged none none
  | row (row : StoredCredential) (ends : Option Nat) (kept : row.revokedAt ≠ none → ends ≠ none) :
      Aged (some row) (some (ended ends row))

theorem Aged.refl (found : Option StoredCredential) : Aged found found := by
  cases found with
  | none => exact .absent
  | some row => exact .row row row.revokedAt id

theorem Aged.trans {first second third : Option StoredCredential} (left : Aged first second)
    (right : Aged second third) : Aged first third := by
  cases left with
  | absent => exact right
  | row row ends kept =>
      cases right with
      | row _ later keptOn => exact .row row later fun revoked => keptOn (kept revoked)

theorem Aged.some {row : StoredCredential} {found : Option StoredCredential}
    (aged : Aged (some row) found) :
    ∃ ends, found = .some (ended ends row) ∧ (row.revokedAt ≠ none → ends ≠ none) := by
  cases aged with
  | row _ ends kept => exact ⟨ends, rfl, kept⟩

theorem Aged.of_some {found : Option StoredCredential} (aged : Aged found (.some row)) :
    ∃ old ends, found = .some old ∧ row = ended ends old ∧
      (old.revokedAt ≠ none → ends ≠ none) := by
  cases aged with
  | row old ends kept => exact ⟨old, ends, rfl, rfl, kept⟩

theorem Aged.revoked (row : StoredCredential) (now : Nat) :
    Aged (.some row) (.some (revoked now row)) :=
  .row row (.some now) fun _ => Option.some_ne_none now

/-- No token came, went or changed. -/
def TokensKept (state next : State) : Prop := ∀ id, Aged (tokenAt state id) (tokenAt next id)

theorem TokensKept.refl (state : State) : TokensKept state state := fun _ => Aged.refl _

theorem TokensKept.trans {first second third : State} (left : TokensKept first second)
    (right : TokensKept second third) : TokensKept first third :=
  fun id => (left id).trans (right id)

theorem TokensKept.of_credentials (same : next.credentials = state.credentials) :
    TokensKept state next := by
  intro id
  have equal : tokenAt next id = tokenAt state id := by simp only [tokenAt, same]
  rw [equal]
  exact Aged.refl _

/-- Saving a key leaves the tokens alone: an id never changes its kind. -/
theorem Saved.key (saved : Saved state row next) (plain : row.kind ≠ .token) :
    TokensKept state next := by
  intro id
  by_cases here : row.id = id
  · have before : tokenAt state id = none := by
      cases found : state.credentials.find? id with
      | none => simp [tokenAt, found]
      | some old =>
          rw [← here] at found
          have kind := saved.kind found
          rw [here] at found
          exact tokenAt_none_of_kind found (kind ▸ plain)
    have after : tokenAt next id = none := by
      refine tokenAt_none_of_kind ?_ plain
      rw [saved.find?, if_pos here]
    rw [before, after]
    exact .absent
  · have same : tokenAt next id = tokenAt state id := by
      simp only [tokenAt, saved.find?, if_neg here]
    rw [same]
    exact Aged.refl _

/-- Saving a row again, revoked, whatever its time of revocation is by now. -/
theorem Saved.revoke {ends : Option Nat} (saved : Saved state (revoked now row) next)
    (found : state.credentials.find? row.id = some (ended ends row)) : TokensKept state next := by
  intro id
  by_cases here : row.id = id
  · have after : next.credentials.find? id = some (revoked now row) := by
      rw [saved.find?]
      exact if_pos here
    rw [here] at found
    by_cases isToken : row.kind = .token
    · rw [(tokenAt_some id).mpr ⟨found, isToken⟩, (tokenAt_some id).mpr ⟨after, isToken⟩]
      exact .row (ended ends row) (some now) fun _ => Option.some_ne_none now
    · rw [tokenAt_none_of_kind found isToken, tokenAt_none_of_kind after isToken]
      exact .absent
  · have other : (revoked now row).id ≠ id := here
    have same : tokenAt next id = tokenAt state id := by
      simp only [tokenAt, saved.find?, if_neg other]
    rw [same]
    exact Aged.refl _

/-- A token that was not there is there, and nothing else changed. -/
structure NewToken (state : State) (row : StoredCredential) (next : State) : Prop where
  unknown : state.credentials.find? row.id = none
  here : ∃ ends, tokenAt next row.id = some (ended ends row)
  others : ∀ id, id ≠ row.id → Aged (tokenAt state id) (tokenAt next id)

theorem Saved.issue (saved : Saved state row next) (isToken : row.kind = .token)
    (unknown : state.credentials.find? row.id = none) : NewToken state row next := by
  refine ⟨unknown, ⟨row.revokedAt, ?_⟩, ?_⟩
  · rw [tokenAt_some, saved.find?]
    exact ⟨if_pos rfl, isToken⟩
  · intro id other
    have same : tokenAt next id = tokenAt state id := by
      simp only [tokenAt, saved.find?, if_neg (Ne.symm other)]
    rw [same]
    exact Aged.refl _

theorem NewToken.after {last : State} (new : NewToken state row next)
    (kept : TokensKept next last) : NewToken state row last := by
  refine ⟨new.unknown, ?_, fun id other => (new.others id other).trans (kept id)⟩
  obtain ⟨ends, here⟩ := new.here
  have aged := kept row.id
  rw [here] at aged
  obtain ⟨later, found, _⟩ := aged.some
  exact ⟨later, found⟩

theorem NewToken.before {first : State} (new : NewToken state row next)
    (kept : TokensKept first state) (unknown : first.credentials.find? row.id = none) :
    NewToken first row next :=
  ⟨unknown, new.here, fun id other => (kept id).trans (new.others id other)⟩

/-! Revoking a list of rows. -/

/-- The row is there, revoked or not. -/
def Held (state : State) (row : StoredCredential) : Prop :=
  ∃ ends, state.credentials.find? row.id = some (ended ends row)

theorem Held.of_find? (found : state.credentials.find? row.id = some row) : Held state row :=
  ⟨row.revokedAt, found⟩

theorem Held.revoked {other : StoredCredential} (held : Held state row)
    (saved : Saved state (revoked now other) next) (also : Held state other) : Held next row := by
  by_cases same : other.id = row.id
  · obtain ⟨ends, found⟩ := held
    obtain ⟨others, foundOther⟩ := also
    rw [same, found, Option.some.injEq] at foundOther
    refine ⟨some now, ?_⟩
    rw [saved.find?]
    rw [revoked_eq, ← ended_congr foundOther]
    exact if_pos rfl
  · obtain ⟨ends, found⟩ := held
    refine ⟨ends, ?_⟩
    rw [saved.find?]
    exact (if_neg same).trans found

/-- What a list of revocations leaves: the rows of the list revoked now, the others as
they were, and everything beside the credentials alone. -/
structure Revoked (state : State) (rows : List StoredCredential) (now : Nat) (next : State) :
    Prop where
  listed : ∀ row ∈ rows, next.credentials.find? row.id = some (revoked now row)
  others : ∀ id, (∀ row ∈ rows, row.id ≠ id) →
    next.credentials.find? id = state.credentials.find? id
  tokens : TokensKept state next
  frame : next = { state with credentials := next.credentials }

theorem revokeEach_revoked {rows : List StoredCredential}
    (held : ∀ row ∈ rows, Held state row) (done : revokeEach state rows now version = .ok next) :
    Revoked state rows now next := by
  induction rows generalizing state with
  | nil =>
      cases done
      exact ⟨by simp, fun _ _ => rfl, TokensKept.refl _, rfl⟩
  | cons row rest ih =>
      simp only [revokeEach, List.foldlM_cons, Program.except_bind_ok] at done
      obtain ⟨middle, first, later⟩ := done
      have saved := saveCredential_saved first
      have here := held row List.mem_cons_self
      have after : Revoked middle rest now next :=
        ih (fun other member => (held other (List.mem_cons_of_mem _ member)).revoked saved here) later
      obtain ⟨ends, found⟩ := here
      refine ⟨?_, ?_, (saved.revoke found).trans after.tokens, ?_⟩
      · intro other member
        rcases List.mem_cons.mp member with rfl | inRest
        · by_cases again : ∃ twin ∈ rest, twin.id = other.id
          · obtain ⟨twin, inRest, same⟩ := again
            obtain ⟨last, foundTwin⟩ := held twin (List.mem_cons_of_mem _ inRest)
            rw [same, found, Option.some.injEq] at foundTwin
            have listed := after.listed twin inRest
            rw [same, revoked_eq, ← ended_congr foundTwin] at listed
            exact listed
          · have unlisted : ∀ twin ∈ rest, twin.id ≠ other.id :=
              fun twin inRest same => again ⟨twin, inRest, same⟩
            rw [after.others _ unlisted, saved.find?]
            exact if_pos rfl
        · exact after.listed other inRest
      · intro id unlisted
        rw [after.others id fun other member => unlisted other (List.mem_cons_of_mem _ member),
          saved.find?]
        exact if_neg (unlisted row List.mem_cons_self)
      · have frame := after.frame
        rw [saved.after] at frame
        exact frame

theorem credentialsOf_held {subject : String} (row : StoredCredential)
    (member : row ∈ credentialsOf state subject) : Held state row :=
  Held.of_find? ((Table.mem_iff_find? _ row).mp (List.mem_filter.mp member).1)

theorem filtered_held {subject : String} {test : StoredCredential → Bool} (row : StoredCredential)
    (member : row ∈ (credentialsOf state subject).filter test) : Held state row :=
  credentialsOf_held row (List.mem_filter.mp member).1

end MsgServer.Credentials
