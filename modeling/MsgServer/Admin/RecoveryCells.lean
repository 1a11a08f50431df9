import MsgServer.Admin.Recovery

/-!
What each fact of a recovery checkpoint does to the one row it selects, and why doing it
again does nothing: a revocation keeps the earliest time, a removal and a destruction have
nothing left to take. Only a ban is not settled for good, since it can be applied and lifted
in turn; there the last fact decides.
-/

namespace MsgServer.Recovery

open Library Replay

variable {world : World}

/-- The time of a verified fact parses. -/
def Timed (world : World) (fact : Fact) : Prop := ∃ time, world.parseTime fact.at' = .ok time

/-- The row that a statement leaves, whether or not it changed it. -/
def rowOf {ρ : Type} (outcome : Except Failure (ρ × Bool)) : Except Failure ρ :=
  outcome.map Prod.fst

@[simp] theorem rowOf_ok {ρ : Type} {outcome : Except Failure (ρ × Bool)} {row : ρ} :
    rowOf outcome = .ok row ↔ ∃ changed, outcome = .ok (row, changed) := by
  cases outcome with
  | error failure => simp [rowOf, Except.map]
  | ok value => simp [rowOf, Except.map, Prod.ext_iff]

section Times

variable {previous : Option String} {text stamp other : String}

/-- A column holds a time that is not after the stamp. -/
def Marked (world : World) (stamp : String) (column : Option String) : Prop :=
  ∃ text known time, column = some text ∧ world.parseTime text = .ok known ∧
    world.parseTime stamp = .ok time ∧ known ≤ time

theorem earlier_cases (taken : earlier world previous stamp = .ok text) :
    (previous = none ∧ text = stamp) ∨
      ∃ before known time, previous = some before ∧ world.parseTime before = .ok known ∧
        world.parseTime stamp = .ok time ∧
        ((time < known ∧ text = stamp) ∨ (known ≤ time ∧ text = before)) := by
  cases previous with
  | none =>
      cases taken
      exact Or.inl ⟨rfl, rfl⟩
  | some before =>
      simp only [earlier, Program.except_bind_ok, Program.except_pure, Except.ok.injEq] at taken
      obtain ⟨time, atStamp, known, atBefore, picked⟩ := taken
      refine Or.inr ⟨before, known, time, rfl, atBefore, atStamp, ?_⟩
      by_cases sooner : time < known
      · rw [if_pos sooner] at picked
        exact Or.inl ⟨sooner, picked.symm⟩
      · rw [if_neg sooner] at picked
        exact Or.inr ⟨by omega, picked.symm⟩

theorem earlier_marks (parses : ∃ time, world.parseTime stamp = .ok time)
    (taken : earlier world previous stamp = .ok text) : Marked world stamp (some text) := by
  rcases earlier_cases taken with ⟨_, rfl⟩ | ⟨_, known, time, _, atBefore, atStamp, order⟩
  · obtain ⟨time, atStamp⟩ := parses
    exact ⟨_, time, time, rfl, atStamp, atStamp, Nat.le_refl time⟩
  · rcases order with ⟨_, rfl⟩ | ⟨notAfter, rfl⟩
    · exact ⟨_, time, time, rfl, atStamp, atStamp, Nat.le_refl time⟩
    · exact ⟨_, known, time, rfl, atBefore, atStamp, notAfter⟩

/-- A later fact can only move the time back. -/
theorem Marked.earlier (marked : Marked world stamp previous)
    (taken : earlier world previous other = .ok text) : Marked world stamp (some text) := by
  obtain ⟨before, known, time, rfl, atBefore, atStamp, order⟩ := marked
  rcases earlier_cases taken with ⟨absent, _⟩ | ⟨same, known', time', isSome, atSame, atOther, moved⟩
  · cases absent
  · cases isSome
    rw [atBefore] at atSame
    cases atSame
    rcases moved with ⟨sooner, rfl⟩ | ⟨_, rfl⟩
    · exact ⟨_, time', time, rfl, atOther, atStamp, by omega⟩
    · exact ⟨_, known, time, rfl, atBefore, atStamp, order⟩

theorem Marked.idle (marked : Marked world stamp (some text)) :
    Recovery.earlier world (some text) stamp = .ok text := by
  obtain ⟨_, known, time, same, atText, atStamp, order⟩ := marked
  cases same
  have notSooner : ¬ time < known := by omega
  simp [Recovery.earlier, atText, atStamp, notSooner, Program.except_ok_bind, pure, Except.pure]

end Times

section Rows

variable {good : Fact → Prop}

/-! A share whose grantor it was, revoked no later than the fact says. -/

def ShareRevoked (world : World) (fact : Fact) (row : Option ShareRow) : Prop :=
  ∃ share, row = some share ∧ share.grantor = fact.subject ∧
    Marked world fact.at' share.revokedAt

theorem revokeShare_ok {subject stamp : String} {row next : Option ShareRow} :
    rowOf (revokeShare world subject stamp row) = .ok next ↔
      ∃ share text, row = some share ∧ share.grantor = subject ∧
        earlier world share.revokedAt stamp = .ok text ∧
        next = some { share with revokedAt := some text } := by
  simp only [rowOf_ok, revokeShare, Program.except_bind_ok, requireRow_ok, require_ok,
    Program.except_pure, Except.ok.injEq, Prod.mk.injEq]
  constructor
  · rintro ⟨_, share, isRow, _, owner, text, taken, shape, _⟩
    exact ⟨share, text, isRow, owner, taken, shape.symm⟩
  · rintro ⟨share, text, isRow, owner, taken, shape⟩
    exact ⟨_, share, isRow, (), owner, text, taken, shape.symm, rfl⟩

theorem share_settling : Settling (fun fact => Timed world fact ∧ good fact)
    (fun fact row => rowOf (revokeShare world fact.subject fact.at' row))
    (ShareRevoked world) := by
  constructor
  · intro fact row next isGood done
    obtain ⟨share, text, rfl, owner, taken, rfl⟩ := revokeShare_ok.mp done
    exact ⟨_, rfl, owner, earlier_marks isGood.1 taken⟩
  · rintro fact other row next _ ⟨share, rfl, owner, marked⟩ done
    obtain ⟨_, text, same, _, taken, rfl⟩ := revokeShare_ok.mp done
    cases same
    exact ⟨_, rfl, owner, marked.earlier taken⟩
  · rintro fact row _ ⟨share, rfl, owner, marked⟩
    have ⟨text, _, _, isSome, _⟩ := marked
    rw [isSome] at marked
    refine revokeShare_ok.mpr ⟨share, text, rfl, owner, ?_, ?_⟩
    · rw [isSome]
      exact marked.idle
    · rw [← isSome]

/-! A key that is no longer primary, retired no later than the fact says. -/

def KeyRetired (world : World) (fact : Fact) (row : Option KeyRow) : Prop :=
  ∃ key, row = some key ∧ key.subject = fact.subject ∧ Marked world fact.at' key.retiredAt ∧
    key.isPrimary = 0

theorem retireKey_ok {subject stamp : String} {row next : Option KeyRow} :
    rowOf (retireKey world subject stamp row) = .ok next ↔
      ∃ key text, row = some key ∧ key.subject = subject ∧
        earlier world key.retiredAt stamp = .ok text ∧
        next = some { key with retiredAt := some text, isPrimary := 0 } := by
  simp only [rowOf_ok, retireKey, Program.except_bind_ok, requireRow_ok, require_ok,
    Program.except_pure, Except.ok.injEq, Prod.mk.injEq]
  constructor
  · rintro ⟨_, key, isRow, _, owner, text, taken, shape, _⟩
    exact ⟨key, text, isRow, owner, taken, shape.symm⟩
  · rintro ⟨key, text, isRow, owner, taken, shape⟩
    exact ⟨_, key, isRow, (), owner, text, taken, shape.symm, rfl⟩

theorem key_settling : Settling (fun fact => Timed world fact ∧ good fact)
    (fun fact row => rowOf (retireKey world fact.subject fact.at' row))
    (KeyRetired world) := by
  constructor
  · intro fact row next isGood done
    obtain ⟨key, text, rfl, owner, taken, rfl⟩ := retireKey_ok.mp done
    exact ⟨_, rfl, owner, earlier_marks isGood.1 taken, rfl⟩
  · rintro fact other row next _ ⟨key, rfl, owner, marked, _⟩ done
    obtain ⟨_, text, same, _, taken, rfl⟩ := retireKey_ok.mp done
    cases same
    exact ⟨_, rfl, owner, marked.earlier taken, rfl⟩
  · rintro fact row _ ⟨key, rfl, owner, marked, notPrimary⟩
    have ⟨text, _, _, isSome, _⟩ := marked
    rw [isSome] at marked
    refine retireKey_ok.mpr ⟨key, text, rfl, owner, ?_, ?_⟩
    · rw [isSome]
      exact marked.idle
    · rw [← isSome, ← notPrimary]

/-! A certificate that is marked revoked. -/

def CertificateRevoked (fact : Fact) (row : Option CertificateRow) : Prop :=
  ∃ stored certificate, row = some stored ∧ stored.subject = fact.subject ∧
    stored.body = .ok certificate ∧ certificate.resourceId = fact.target ∧
    certificate.subjectId = fact.subject ∧ stored.revoked = 1

theorem revokeCertificate_ok {subject target : String} {row next : Option CertificateRow} :
    rowOf (revokeCertificate subject target row) = .ok next ↔
      ∃ stored certificate, row = some stored ∧ stored.subject = subject ∧
        stored.body = .ok certificate ∧
        (certificate.resourceId = target ∧ certificate.subjectId = subject) ∧
        next = some { stored with revoked := 1 } := by
  simp only [rowOf_ok, revokeCertificate, Program.except_bind_ok, requireRow_ok, require_ok,
    Program.except_pure, Except.ok.injEq, Prod.mk.injEq]
  constructor
  · rintro ⟨_, stored, isRow, _, owner, certificate, body, _, ids, shape, _⟩
    exact ⟨stored, certificate, isRow, owner, body, ids, shape.symm⟩
  · rintro ⟨stored, certificate, isRow, owner, body, ids, shape⟩
    exact ⟨_, stored, isRow, (), owner, certificate, body, (), ids, shape.symm, rfl⟩

theorem certificate_settling : Settling good
    (fun fact row => rowOf (revokeCertificate fact.subject fact.target row))
    CertificateRevoked := by
  constructor
  · intro fact row next _ done
    obtain ⟨stored, certificate, rfl, owner, body, ⟨id, subject⟩, rfl⟩ :=
      revokeCertificate_ok.mp done
    exact ⟨_, certificate, rfl, owner, body, id, subject, rfl⟩
  · rintro fact other row next _ ⟨stored, certificate, rfl, owner, body, id, subject, _⟩ done
    obtain ⟨_, _, same, _, _, _, rfl⟩ := revokeCertificate_ok.mp done
    cases same
    exact ⟨_, certificate, rfl, owner, body, id, subject, rfl⟩
  · rintro fact row _ ⟨stored, certificate, rfl, owner, body, id, subject, revoked⟩
    refine revokeCertificate_ok.mpr ⟨stored, certificate, rfl, owner, body, ⟨id, subject⟩, ?_⟩
    rw [← revoked]

/-! A membership that stands as rejected. -/

def MembershipRemoved (fact : Fact) (row : Option MembershipRow) : Prop :=
  ∃ stored member, row = some stored ∧ fact.target ≠ "g_public" ∧ stored.body = .ok member ∧
    (member.subjectId = fact.subject ∧ member.organizationId = fact.target ∧
      (member.version : Int) = stored.generation) ∧ member.status = .rejected

theorem removeMembership_ok {subject target : String} {row next : Option MembershipRow} :
    rowOf (removeMembership subject target row) = .ok next ↔
      ∃ stored member, row = some stored ∧ target ≠ "g_public" ∧ stored.body = .ok member ∧
        (member.subjectId = subject ∧ member.organizationId = target ∧
          (member.version : Int) = stored.generation) ∧
        ((member.status = .rejected ∧ next = some stored) ∨
          (member.status ≠ .rejected ∧ next = some
            { generation := member.version + 1
              body := .ok { member with version := member.version + 1,
                                        status := .rejected } })) := by
  simp only [rowOf_ok, removeMembership, Program.except_bind_ok, requireRow_ok, require_ok,
    Program.except_pure]
  constructor
  · rintro ⟨_, _, named, stored, isRow, member, body, _, ids, shape⟩
    refine ⟨stored, member, isRow, named, body, ids, ?_⟩
    by_cases rejected : member.status = .rejected
    · rw [if_pos rejected] at shape
      cases shape
      exact Or.inl ⟨rejected, rfl⟩
    · rw [if_neg rejected] at shape
      cases shape
      exact Or.inr ⟨rejected, rfl⟩
  · rintro ⟨stored, member, isRow, named, body, ids, ⟨rejected, rfl⟩ | ⟨live, rfl⟩⟩
    · exact ⟨false, (), named, stored, isRow, member, body, (), ids, by rw [if_pos rejected]⟩
    · exact ⟨true, (), named, stored, isRow, member, body, (), ids, by rw [if_neg live]⟩

theorem membership_settling : Settling good
    (fun fact row => rowOf (removeMembership fact.subject fact.target row))
    MembershipRemoved := by
  constructor
  · intro fact row next _ done
    obtain ⟨stored, member, rfl, named, body, ids, ⟨rejected, rfl⟩ | ⟨_, rfl⟩⟩ :=
      removeMembership_ok.mp done
    · exact ⟨stored, member, rfl, named, body, ids, rejected⟩
    · exact ⟨_, _, rfl, named, rfl, ⟨ids.1, ids.2.1, by simp⟩, rfl⟩
  · rintro fact other row next _ ⟨stored, member, rfl, named, body, ids, rejected⟩ done
    obtain ⟨_, _, same, _, sameBody, _, ⟨_, rfl⟩ | ⟨live, _⟩⟩ := removeMembership_ok.mp done
    · cases same
      exact ⟨stored, member, rfl, named, body, ids, rejected⟩
    · cases same
      rw [body] at sameBody
      cases sameBody
      exact absurd rejected live
  · rintro fact row _ ⟨stored, member, rfl, named, body, ids, rejected⟩
    exact removeMembership_ok.mpr
      ⟨stored, member, rfl, named, body, ids, Or.inl ⟨rejected, rfl⟩⟩

/-! A topic membership is removed, or banned when there is one. -/

/-- What a fact does to the row of one topic membership. -/
def actTopicMembership (fact : Fact) (row : Option TopicMembership) :
    Except Failure (Option TopicMembership) :=
  if fact.kind = .topicBanApply then .ok (banMember row).1
  else rowOf (removeTopicMembership row)

def TopicMembershipGone (fact : Fact) (row : Option TopicMembership) : Prop :=
  if fact.kind = .topicBanApply then ∀ member, row = some member → member = ⟨.member, .removed⟩
  else ∃ member, row = some member ∧ member.status = .removed

theorem removeTopicMembership_ok {row next : Option TopicMembership} :
    rowOf (removeTopicMembership row) = .ok next ↔
      ∃ member, row = some member ∧ next = some { member with status := .removed } := by
  simp only [rowOf_ok, removeTopicMembership, Program.except_bind_ok, requireRow_ok,
    Program.except_pure, Except.ok.injEq, Prod.mk.injEq]
  constructor
  · rintro ⟨_, member, isRow, shape, _⟩
    exact ⟨member, isRow, shape.symm⟩
  · rintro ⟨member, isRow, shape⟩
    exact ⟨_, member, isRow, shape.symm, rfl⟩

theorem actTopicMembership_ban {fact : Fact} (isBan : fact.kind = .topicBanApply)
    {row next : Option TopicMembership} :
    actTopicMembership fact row = .ok next ↔ next = row.map fun _ => ⟨.member, .removed⟩ := by
  cases row <;> simp [actTopicMembership, isBan, banMember, eq_comm]

theorem actTopicMembership_remove {fact : Fact} (isRemoval : fact.kind ≠ .topicBanApply)
    {row next : Option TopicMembership} :
    actTopicMembership fact row = .ok next ↔
      ∃ member, row = some member ∧ next = some { member with status := .removed } := by
  rw [actTopicMembership, if_neg isRemoval]
  exact removeTopicMembership_ok

theorem topicMembership_settling : Settling good actTopicMembership TopicMembershipGone := by
  constructor
  · intro fact row next _ done
    unfold TopicMembershipGone
    by_cases isBan : fact.kind = .topicBanApply
    · rw [if_pos isBan]
      rw [actTopicMembership_ban isBan] at done
      intro member isSome
      rw [done] at isSome
      cases row <;> simp at isSome
      exact isSome.symm
    · rw [if_neg isBan]
      obtain ⟨member, _, rfl⟩ := (actTopicMembership_remove isBan).mp done
      exact ⟨_, rfl, rfl⟩
  · intro fact other row next _ holds done
    unfold TopicMembershipGone at holds ⊢
    by_cases isBan : fact.kind = .topicBanApply
    · rw [if_pos isBan] at holds ⊢
      intro member isSome
      by_cases otherBan : other.kind = .topicBanApply
      · rw [(actTopicMembership_ban otherBan).mp done] at isSome
        cases row <;> simp at isSome
        exact isSome.symm
      · obtain ⟨before, rfl, rfl⟩ := (actTopicMembership_remove otherBan).mp done
        cases holds before rfl
        exact (Option.some.inj isSome).symm
    · rw [if_neg isBan] at holds ⊢
      obtain ⟨member, rfl, removed⟩ := holds
      by_cases otherBan : other.kind = .topicBanApply
      · rw [(actTopicMembership_ban otherBan).mp done]
        exact ⟨_, rfl, rfl⟩
      · obtain ⟨_, same, rfl⟩ := (actTopicMembership_remove otherBan).mp done
        exact ⟨_, rfl, rfl⟩
  · intro fact row _ holds
    unfold TopicMembershipGone at holds
    by_cases isBan : fact.kind = .topicBanApply
    · rw [if_pos isBan] at holds
      rw [actTopicMembership_ban isBan]
      cases row with
      | none => rfl
      | some member => rw [holds member rfl]; rfl
    · rw [if_neg isBan] at holds
      obtain ⟨member, rfl, removed⟩ := holds
      exact (actTopicMembership_remove isBan).mpr ⟨member, rfl, by rw [← removed]⟩

/-! A vault without the signing key that was retired, or an empty one. -/

def actVault (fact : Fact) (row : Option Vault) : Except Failure (Option Vault) :=
  if fact.kind = .identityKeyRetire then rowOf (retireVault fact.target row)
  else rowOf (destroyVault fact.target fact.at' row)

def holdsSigning (row : Vault) : Prop :=
  row.signingNonce.isSome = true ∨ row.signingCiphertext.isSome = true

instance (row : Vault) : Decidable (holdsSigning row) := inferInstanceAs (Decidable (_ ∨ _))

def VaultSpent (fact : Fact) (row : Option Vault) : Prop :=
  if fact.kind = .identityKeyRetire then
    ∀ vault, row = some vault → vault.signingKeyId = fact.target → ¬ holdsSigning vault
  else ∃ vault, row = some vault ∧ vault.encryptionKeyId = fact.target ∧ ¬ vaultHolds vault

theorem retireVault_ok {target : String} {row next : Option Vault} :
    rowOf (retireVault target row) = .ok next ↔
      (∃ vault, row = some vault ∧ (vault.signingKeyId = target ∧ holdsSigning vault) ∧
        vaultAllowed (withoutSigning vault) ∧ next = some (withoutSigning vault)) ∨
      ((∀ vault, row = some vault → ¬ (vault.signingKeyId = target ∧ holdsSigning vault)) ∧
        next = row) := by
  cases row with
  | none => simp [retireVault, rowOf, Except.map, pure, Except.pure, eq_comm]
  | some vault =>
      by_cases meant : vault.signingKeyId = target ∧ holdsSigning vault
      · have meant' := meant
        unfold holdsSigning at meant'
        simp only [rowOf_ok, retireVault, if_pos meant', Program.except_bind_ok, require_ok,
          Program.except_pure, Except.ok.injEq, Prod.mk.injEq]
        constructor
        · rintro ⟨_, _, allowed, shape, _⟩
          exact Or.inl ⟨vault, rfl, meant, allowed, shape.symm⟩
        · rintro (⟨_, same, _, allowed, shape⟩ | ⟨none', _⟩)
          · cases same
            exact ⟨_, (), allowed, shape.symm, rfl⟩
          · exact absurd meant (none' vault rfl)
      · have meant' := meant
        unfold holdsSigning at meant'
        simp only [rowOf_ok, retireVault, if_neg meant', Program.except_pure, Except.ok.injEq,
          Prod.mk.injEq]
        constructor
        · rintro ⟨_, shape, _⟩
          exact Or.inr ⟨fun other same => Option.some.inj same ▸ meant, shape.symm⟩
        · rintro (⟨_, same, holds, _⟩ | ⟨_, shape⟩)
          · cases same
            exact absurd holds meant
          · exact ⟨_, shape.symm, rfl⟩

theorem destroyVault_ok {target stamp : String} {row next : Option Vault} :
    rowOf (destroyVault target stamp row) = .ok next ↔
      ∃ vault, row = some vault ∧ vault.encryptionKeyId = target ∧
        ((vaultHolds vault ∧ next = some (emptied vault stamp)) ∨
          (¬ vaultHolds vault ∧ next = some vault)) := by
  simp only [rowOf_ok, destroyVault, Program.except_bind_ok, requireRow_ok, require_ok,
    Program.except_pure]
  constructor
  · rintro ⟨_, vault, isRow, _, named, shape⟩
    refine ⟨vault, isRow, named, ?_⟩
    by_cases holds : vaultHolds vault
    · rw [if_pos holds] at shape
      cases shape
      exact Or.inl ⟨holds, rfl⟩
    · rw [if_neg holds] at shape
      cases shape
      exact Or.inr ⟨holds, rfl⟩
  · rintro ⟨vault, isRow, named, ⟨holds, rfl⟩ | ⟨empty, rfl⟩⟩
    · exact ⟨true, vault, isRow, (), named, by rw [if_pos holds]⟩
    · exact ⟨false, vault, isRow, (), named, by rw [if_neg empty]⟩

theorem not_holdsSigning_withoutSigning (vault : Vault) : ¬ holdsSigning (withoutSigning vault) := by
  simp [holdsSigning, withoutSigning]

theorem not_holdsSigning_of_not_vaultHolds {vault : Vault} (empty : ¬ vaultHolds vault) :
    ¬ holdsSigning vault := by
  unfold vaultHolds at empty
  unfold holdsSigning
  simp only [not_or, ne_eq, not_not] at empty
  simp [empty.1, empty.2.1]

theorem not_vaultHolds_emptied (vault : Vault) (stamp : String) :
    ¬ vaultHolds (emptied vault stamp) := by
  simp [vaultHolds, emptied]

theorem vault_settling : Settling good actVault VaultSpent := by
  constructor
  · intro fact row next _ done
    unfold actVault at done
    unfold VaultSpent
    by_cases retires : fact.kind = .identityKeyRetire
    · rw [if_pos retires] at done ⊢
      intro vault isSome named
      rcases retireVault_ok.mp done with ⟨before, _, _, _, rfl⟩ | ⟨unmeant, rfl⟩
      · cases isSome
        exact not_holdsSigning_withoutSigning before
      · exact fun holds => unmeant vault isSome ⟨named, holds⟩
    · rw [if_neg retires] at done ⊢
      obtain ⟨vault, _, named, ⟨_, rfl⟩ | ⟨empty, rfl⟩⟩ := destroyVault_ok.mp done
      · exact ⟨_, rfl, named, not_vaultHolds_emptied vault _⟩
      · exact ⟨vault, rfl, named, empty⟩
  · intro fact other row next _ holds done
    unfold actVault at done
    unfold VaultSpent at holds ⊢
    by_cases retires : fact.kind = .identityKeyRetire
    · rw [if_pos retires] at holds ⊢
      intro vault isSome named
      by_cases otherRetires : other.kind = .identityKeyRetire
      · rw [if_pos otherRetires] at done
        rcases retireVault_ok.mp done with ⟨before, _, _, _, rfl⟩ | ⟨_, rfl⟩
        · cases isSome
          exact not_holdsSigning_withoutSigning before
        · exact holds vault isSome named
      · rw [if_neg otherRetires] at done
        obtain ⟨before, isRow, _, ⟨_, rfl⟩ | ⟨empty, rfl⟩⟩ := destroyVault_ok.mp done
        · cases isSome
          simp [holdsSigning, emptied]
        · cases isSome
          exact not_holdsSigning_of_not_vaultHolds empty
    · rw [if_neg retires] at holds ⊢
      obtain ⟨vault, rfl, named, empty⟩ := holds
      have unsigned := not_holdsSigning_of_not_vaultHolds empty
      by_cases otherRetires : other.kind = .identityKeyRetire
      · rw [if_pos otherRetires] at done
        rcases retireVault_ok.mp done with ⟨_, same, ⟨_, signing⟩, _⟩ | ⟨_, rfl⟩
        · cases same
          exact absurd signing unsigned
        · exact ⟨vault, rfl, named, empty⟩
      · rw [if_neg otherRetires] at done
        obtain ⟨_, same, _, ⟨holds, _⟩ | ⟨_, rfl⟩⟩ := destroyVault_ok.mp done
        · cases same
          exact absurd holds empty
        · cases same
          exact ⟨vault, rfl, named, empty⟩
  · intro fact row _ holds
    unfold actVault
    unfold VaultSpent at holds
    by_cases retires : fact.kind = .identityKeyRetire
    · rw [if_pos retires] at holds ⊢
      exact retireVault_ok.mpr
        (Or.inr ⟨fun vault isSome meant => holds vault isSome meant.1 meant.2, rfl⟩)
    · rw [if_neg retires] at holds ⊢
      obtain ⟨vault, rfl, named, empty⟩ := holds
      exact destroyVault_ok.mpr ⟨vault, rfl, named, Or.inr ⟨empty, rfl⟩⟩

/-! A credential that was revoked no later than the fact says, and its delivery. -/

/-- The credential row that a revocation at `time` leaves. -/
def revokedBy (stored : CredentialRow) (credential : Accounts.StoredCredential) (time : Nat) :
    CredentialRow :=
  match credential.revokedAt with
  | none => revokedCredential stored credential time
  | some known => if known > time then revokedCredential stored credential time else stored

def Owned (subject target : String) (row : Option CredentialRow) (stored : CredentialRow)
    (credential : Accounts.StoredCredential) : Prop :=
  row = some stored ∧ stored.subject = subject ∧ stored.body = .ok credential ∧
    credential.id = target ∧ credential.subjectId = subject

/-- What becomes of the delivery of a credential. -/
def Consumed (world : World) (subject stamp : String)
    (credential : Accounts.StoredCredential) (row next : Option DeliveryRow) : Prop :=
  if credential.kind = .token then
    (row = none ∧ next = none) ∨ ∃ delivery text, row = some delivery ∧
      delivery.subject = subject ∧ earlier world delivery.consumedAt stamp = .ok text ∧
      next = some { delivery with consumedAt := some text }
  else next = row

theorem consumeDelivery_ok {subject stamp : String} {row next : Option DeliveryRow} :
    (∃ changed, consumeDelivery world subject stamp row = .ok (next, changed)) ↔
      (row = none ∧ next = none) ∨ ∃ delivery text, row = some delivery ∧
        delivery.subject = subject ∧ earlier world delivery.consumedAt stamp = .ok text ∧
        next = some { delivery with consumedAt := some text } := by
  cases row with
  | none => simp [consumeDelivery, pure, Except.pure, eq_comm]
  | some delivery =>
      simp only [consumeDelivery, Program.except_bind_ok, require_ok, Program.except_pure,
        Except.ok.injEq, Prod.mk.injEq]
      constructor
      · rintro ⟨_, _, owner, text, taken, shape, _⟩
        exact Or.inr ⟨delivery, text, rfl, owner, taken, shape.symm⟩
      · rintro (⟨absent, _⟩ | ⟨_, text, same, owner, taken, shape⟩)
        · cases absent
        · cases same
          exact ⟨_, (), owner, text, taken, shape.symm, rfl⟩

theorem revokeCredentialRow_ok {subject target stamp : String} {row : Option CredentialRow}
    {next : CredentialRow} {token : Bool} :
    (∃ changed, revokeCredentialRow world subject target stamp row =
        .ok (next, token, changed)) ↔
      ∃ stored credential time, Owned subject target row stored credential ∧
        world.parseTime stamp = .ok time ∧ next = revokedBy stored credential time ∧
        token = decide (credential.kind = .token) := by
  simp only [revokeCredentialRow, Program.except_bind_ok, requireRow_ok, require_ok]
  constructor
  · rintro ⟨_, stored, isRow, _, owner, credential, body, _, ids, time, parses, shape⟩
    refine ⟨stored, credential, time, ⟨isRow, owner, body, ids⟩, parses, ?_⟩
    unfold revokedBy
    cases revoked : credential.revokedAt with
    | none =>
        rw [revoked] at shape
        cases shape
        exact ⟨rfl, rfl⟩
    | some known =>
        simp only [revoked] at shape ⊢
        by_cases later : known > time
        · rw [if_pos later] at shape ⊢
          cases shape
          exact ⟨rfl, rfl⟩
        · rw [if_neg later] at shape ⊢
          cases shape
          exact ⟨rfl, rfl⟩
  · rintro ⟨stored, credential, time, ⟨isRow, owner, body, ids⟩, parses, rfl, rfl⟩
    unfold revokedBy
    cases revoked : credential.revokedAt with
    | none =>
        exact ⟨true, stored, isRow, (), owner, credential, body, (), ids, time, parses,
          by rw [revoked]; rfl⟩
    | some known =>
        by_cases later : known > time
        · exact ⟨true, stored, isRow, (), owner, credential, body, (), ids, time, parses,
            by simp [revoked, later, pure, Except.pure]⟩
        · exact ⟨false, stored, isRow, (), owner, credential, body, (), ids, time, parses,
            by simp [revoked, later, pure, Except.pure]⟩

theorem revokeAccount_ok {subject target stamp : String}
    {rows next : Option CredentialRow × Option DeliveryRow} :
    rowOf (revokeAccount world subject target stamp rows) = .ok next ↔
      ∃ stored credential time, Owned subject target rows.1 stored credential ∧
        world.parseTime stamp = .ok time ∧
        next.1 = some (revokedBy stored credential time) ∧
        Consumed world subject stamp credential rows.2 next.2 := by
  simp only [rowOf_ok, revokeAccount, Program.except_bind_ok]
  constructor
  · rintro ⟨_, ⟨row, token, revoked⟩, atRow, shape⟩
    obtain ⟨stored, credential, time, owned, parses, rfl, rfl⟩ :=
      revokeCredentialRow_ok.mp ⟨revoked, atRow⟩
    refine ⟨stored, credential, time, owned, parses, ?_⟩
    unfold Consumed
    by_cases isToken : credential.kind = .token
    · simp only [isToken, decide_true, if_true, Program.except_bind_ok, Program.except_pure,
        Except.ok.injEq, Prod.mk.injEq] at shape ⊢
      obtain ⟨⟨delivery, consumed⟩, atDelivery, rfl, _⟩ := shape
      exact ⟨rfl, consumeDelivery_ok.mp ⟨consumed, atDelivery⟩⟩
    · simp only [isToken, decide_false, Bool.false_eq_true, if_false, Program.except_pure,
        Except.ok.injEq, Prod.mk.injEq] at shape ⊢
      obtain ⟨rfl, _⟩ := shape
      exact ⟨rfl, rfl⟩
  · rintro ⟨stored, credential, time, owned, parses, first, second⟩
    obtain ⟨revoked, atRow⟩ := revokeCredentialRow_ok.mpr
      ⟨stored, credential, time, owned, parses, rfl, rfl⟩
    unfold Consumed at second
    by_cases isToken : credential.kind = .token
    · rw [if_pos isToken] at second
      obtain ⟨consumed, atDelivery⟩ := consumeDelivery_ok.mpr second
      refine ⟨revoked || consumed, _, atRow, ?_⟩
      simp only [isToken, decide_true, if_true, Program.except_bind_ok]
      exact ⟨_, atDelivery, by rw [← first]; rfl⟩
    · rw [if_neg isToken] at second
      refine ⟨revoked, _, atRow, ?_⟩
      simp only [isToken, decide_false, Bool.false_eq_true, if_false]
      rw [← first, ← second]
      rfl

/-- A credential row that holds a revocation no later than the stamp. -/
def RevokedBy (world : World) (stamp : String) (credential : Accounts.StoredCredential) : Prop :=
  ∃ known time, credential.revokedAt = some known ∧ world.parseTime stamp = .ok time ∧
    known ≤ time

def AccountRevoked (world : World) (fact : Fact)
    (rows : Option CredentialRow × Option DeliveryRow) : Prop :=
  ∃ stored credential, Owned fact.subject fact.target rows.1 stored credential ∧
    RevokedBy world fact.at' credential ∧
    (credential.kind = .token → ∀ delivery, rows.2 = some delivery →
      delivery.subject = fact.subject ∧ Marked world fact.at' delivery.consumedAt)

/-- A revocation keeps whose the credential is and moves its time back, if at all. -/
theorem revokedBy_owned {subject target : String} {row : Option CredentialRow}
    {stored : CredentialRow} {credential : Accounts.StoredCredential} {time : Nat}
    (owned : Owned subject target row stored credential) :
    ∃ revoked known, Owned subject target (some (revokedBy stored credential time))
        (revokedBy stored credential time) revoked ∧
      revoked.kind = credential.kind ∧ revoked.revokedAt = some known ∧ known ≤ time ∧
      ∀ earlier, credential.revokedAt = some earlier → known ≤ earlier := by
  obtain ⟨_, owner, body, id, subject'⟩ := owned
  have replaced : Owned subject target (some (revokedCredential stored credential time))
      (revokedCredential stored credential time) { credential with revokedAt := some time } :=
    ⟨rfl, owner, rfl, id, subject'⟩
  unfold revokedBy
  cases revoked : credential.revokedAt with
  | none =>
      refine ⟨_, time, replaced, rfl, rfl, Nat.le_refl time, ?_⟩
      intro _ isSome
      cases isSome
  | some known =>
      by_cases later : known > time
      · simp only [later, if_true]
        refine ⟨_, time, replaced, rfl, rfl, Nat.le_refl time, ?_⟩
        intro before isSome
        cases isSome
        omega
      · simp only [later, if_false]
        refine ⟨credential, known, ⟨rfl, owner, body, id, subject'⟩, rfl, revoked, by omega, ?_⟩
        intro before isSome
        cases isSome
        exact Nat.le_refl known

theorem Owned.unique {subject target other otherTarget : String} {row : Option CredentialRow}
    {stored stored' : CredentialRow} {credential credential' : Accounts.StoredCredential}
    (owned : Owned subject target row stored credential)
    (owned' : Owned other otherTarget row stored' credential') :
    stored = stored' ∧ credential = credential' ∧ subject = other ∧ target = otherTarget := by
  obtain ⟨isRow, owner, body, id, _⟩ := owned
  obtain ⟨isRow', owner', body', id', _⟩ := owned'
  rw [isRow] at isRow'
  cases isRow'
  rw [body] at body'
  cases body'
  exact ⟨rfl, rfl, owner.symm.trans owner', id.symm.trans id'⟩

theorem account_settling : Settling (fun fact => Timed world fact ∧ good fact)
    (fun fact rows => rowOf (revokeAccount world fact.subject fact.target fact.at' rows))
    (AccountRevoked world) := by
  constructor
  · rintro fact rows ⟨first, second⟩ isGood done
    obtain ⟨stored, credential, time, owned, parses, isFirst, consumed⟩ :=
      revokeAccount_ok.mp done
    obtain ⟨revoked, known, owned', sameKind, isRevoked, order, _⟩ := revokedBy_owned owned
    cases isFirst
    refine ⟨_, revoked, owned', ⟨known, time, isRevoked, parses, order⟩, ?_⟩
    intro isToken delivery isSome
    rw [Consumed, if_pos (sameKind ▸ isToken)] at consumed
    rcases consumed with ⟨_, absent⟩ | ⟨before, text, _, owner, taken, isNext⟩
    · exact absurd (isSome.symm.trans absent) (by simp)
    · cases isSome.symm.trans isNext
      exact ⟨owner, earlier_marks isGood.1 taken⟩
  · rintro fact other rows ⟨first, second⟩ _ ⟨stored, credential, owned, revoked, delivered⟩ done
    obtain ⟨stored', credential', time, owned', parses, isFirst, consumed⟩ :=
      revokeAccount_ok.mp done
    obtain ⟨rfl, rfl, sameSubject, sameTarget⟩ := owned.unique owned'
    obtain ⟨next, known, owned'', sameKind, isRevoked, _, moved⟩ := revokedBy_owned owned
    obtain ⟨before, limit, wasRevoked, limitParses, order⟩ := revoked
    cases isFirst
    refine ⟨_, next, owned'', ⟨known, limit, isRevoked, limitParses,
      Nat.le_trans (moved before wasRevoked) order⟩, ?_⟩
    intro isToken delivery isSome
    have token : credential.kind = .token := sameKind ▸ isToken
    rw [Consumed, if_pos token] at consumed
    rcases consumed with ⟨_, absent⟩ | ⟨earlierRow, text, isRow, _, taken, isNext⟩
    · exact absurd (isSome.symm.trans absent) (by simp)
    · cases isSome.symm.trans isNext
      obtain ⟨owner, marked⟩ := delivered token earlierRow isRow
      exact ⟨owner, marked.earlier taken⟩
  · rintro fact ⟨first, second⟩ _ ⟨stored, credential, owned, ⟨known, time, revoked, parses, order⟩,
      delivered⟩
    have notLater : ¬ known > time := by omega
    refine revokeAccount_ok.mpr ⟨stored, credential, time, owned, parses, ?_, ?_⟩
    · simp only [revokedBy, revoked, notLater, if_false]
      exact owned.1
    · unfold Consumed
      split
      · rename_i isToken
        cases isRow : second with
        | none => exact Or.inl ⟨rfl, rfl⟩
        | some delivery =>
            obtain ⟨owner, marked⟩ := delivered isToken delivery isRow
            have ⟨text, _, _, isSome, _⟩ := marked
            rw [isSome] at marked
            refine Or.inr ⟨delivery, text, rfl, owner, ?_, ?_⟩
            · rw [isSome]
              exact marked.idle
            · rw [← isSome]
      · rfl

/-! A ban: the row stays, an application takes its expiry for good, and the last fact
decides whether it is lifted. -/

def actTopicBan (fact : Fact) (row : Option TopicBan) : Except Failure (Option TopicBan) :=
  if fact.kind = .topicBanApply then .ok (applyBan fact.at' row).1 else rowOf (liftBan row)

/-- What a log makes of a ban that is there. -/
def banAfter : List Fact → TopicBan → TopicBan
  | [], ban => ban
  | fact :: rest, ban =>
      if fact.kind = .topicBanApply then
        banAfter rest { ban with status := .active, expiresAt := none }
      else banAfter rest { ban with status := .lifted }

theorem actTopicBan_some (fact : Fact) (ban : TopicBan) :
    actTopicBan fact (some ban) = .ok (some
      (if fact.kind = .topicBanApply then { ban with status := .active, expiresAt := none }
        else { ban with status := .lifted })) := by
  by_cases applies : fact.kind = .topicBanApply
  · simp [actTopicBan, applies, applyBan]
  · simp [actTopicBan, applies, liftBan, requireRow, rowOf, Except.map, Program.except_ok_bind,
      pure, Except.pure]

/-- A ban that is there is never refused. -/
theorem replay_ban (log : List Fact) (ban : TopicBan) :
    replay actTopicBan log (some ban) = .ok (some (banAfter log ban)) := by
  induction log generalizing ban with
  | nil => rfl
  | cons fact rest ih =>
      rw [replay, actTopicBan_some]
      by_cases applies : fact.kind = .topicBanApply
      · simp only [applies, if_true, banAfter]
        exact ih _
      · simp only [applies, if_false, banAfter]
        exact ih _

/-- Two bans that differ in their status alone, and in the expiry where a log applies the
ban, end alike, unless the log is empty. -/
theorem banAfter_congr (log : List Fact) {left right : TopicBan}
    (same : left.actor = right.actor ∧ left.createdAt = right.createdAt ∧
      left.reason = right.reason)
    (expiry : left.expiresAt = right.expiresAt ∨ ∃ fact ∈ log, fact.kind = .topicBanApply)
    (some' : log ≠ []) : banAfter log left = banAfter log right := by
  induction log generalizing left right with
  | nil => exact absurd rfl some'
  | cons fact rest ih =>
      obtain ⟨actor, created, reason⟩ := same
      simp only [banAfter]
      by_cases applies : fact.kind = .topicBanApply
      · simp only [applies, if_true]
        rw [actor, created, reason]
      · simp only [applies, if_false]
        cases rest with
        | nil =>
            have alike : left.expiresAt = right.expiresAt := by
              rcases expiry with alike | ⟨other, inside, isApply⟩
              · exact alike
              · rw [List.mem_singleton] at inside
                exact absurd (inside ▸ isApply) applies
            simp only [banAfter]
            rw [actor, created, reason, alike]
        | cons next others =>
            refine ih ⟨actor, created, reason⟩ ?_ (List.cons_ne_nil _ _)
            rcases expiry with alike | ⟨other, inside, isApply⟩
            · exact Or.inl alike
            · rcases List.mem_cons.mp inside with rfl | further
              · exact absurd isApply applies
              · exact Or.inr ⟨other, further, isApply⟩

theorem banAfter_kept (log : List Fact) (ban : TopicBan) :
    (banAfter log ban).actor = ban.actor ∧ (banAfter log ban).createdAt = ban.createdAt ∧
      (banAfter log ban).reason = ban.reason ∧
      ((∃ fact ∈ log, fact.kind = .topicBanApply) ∨
        (banAfter log ban).expiresAt = ban.expiresAt) := by
  induction log generalizing ban with
  | nil => exact ⟨rfl, rfl, rfl, Or.inr rfl⟩
  | cons fact rest ih =>
      simp only [banAfter]
      by_cases applies : fact.kind = .topicBanApply
      · simp only [applies, if_true]
        obtain ⟨actor, created, reason, _⟩ := ih { ban with status := .active, expiresAt := none }
        exact ⟨actor, created, reason, Or.inl ⟨fact, List.mem_cons_self, applies⟩⟩
      · simp only [applies, if_false]
        obtain ⟨actor, created, reason, expiry⟩ := ih { ban with status := .lifted }
        refine ⟨actor, created, reason, expiry.imp_left ?_⟩
        rintro ⟨other, inside, isApply⟩
        exact ⟨other, List.mem_cons_of_mem _ inside, isApply⟩

/-- A log over a ban that is there, replayed twice, ends as replayed once. -/
theorem banAfter_twice (log : List Fact) (ban : TopicBan) :
    banAfter log (banAfter log ban) = banAfter log ban := by
  by_cases empty : log = []
  · rw [empty]
    rfl
  · obtain ⟨actor, created, reason, expiry⟩ := banAfter_kept log ban
    exact banAfter_congr log ⟨actor, created, reason⟩ expiry.symm empty

theorem topicBan_repeatable : Repeatable good actTopicBan := by
  intro log state final _ done
  cases state with
  | some ban =>
      rw [replay_ban] at done
      cases done
      rw [replay_ban, banAfter_twice]
  | none =>
      cases log with
      | nil => rfl
      | cons fact rest =>
          -- Nothing can be lifted yet, so the first fact makes the row.
          obtain ⟨reached, stepped, followed⟩ := replay_cons_ok.mp done
          unfold actTopicBan at stepped
          by_cases applies : fact.kind = .topicBanApply
          · rw [if_pos applies] at stepped
            cases stepped
            simp only [applyBan] at followed
            rw [replay_ban] at followed
            cases followed
            rw [replay_ban, banAfter, if_pos applies]
            have first : banAfter (fact :: rest) (newBan fact.at') =
                banAfter rest (newBan fact.at') := by
              rw [banAfter, if_pos applies]
              rfl
            have twice := banAfter_twice (fact :: rest) (newBan fact.at')
            rw [first, banAfter, if_pos applies] at twice
            rw [twice]
          · rw [if_neg applies] at stepped
            simp [rowOf_ok, liftBan, requireRow, Program.except_bind_ok] at stepped

end Rows

end MsgServer.Recovery
