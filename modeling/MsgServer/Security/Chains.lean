import MsgServer.Security.Attenuation

/-!
Certificate chains only attenuate. `validate` compares a certificate with its direct
issuer; since the order on grants is transitive and every bound of a policy shrinks
from issuer to issuer, an accepted certificate respects all the authorities above it.
-/

namespace MsgServer.Certificates

open Library Session Policy Attenuation

/-- The certificate `steps` levels above, by the parents that the rows name. -/
def issuerAbove (store : Store) : Nat → Certificate → Option Certificate
  | 0, cert => some cert
  | steps + 1, cert =>
      (cert.parentCertificateId.bind store.certificates.find?).bind (issuerAbove store steps)

/-- The row of the certificate names this one as its parent. -/
def SignedUnder (store : Store) (cert parent : Certificate) : Prop :=
  cert.parentCertificateId.bind store.certificates.find? = some parent

variable {app : App} {store : Store} {now : Nat}

theorem issuerAbove_succ {cert parent : Certificate} (signed : SignedUnder store cert parent)
    (steps : Nat) : issuerAbove store (steps + 1) cert = issuerAbove store steps parent := by
  rw [issuerAbove, signed]
  rfl

theorem issuerAbove_root {cert : Certificate} (orphan : cert.parentCertificateId = none)
    (steps : Nat) : issuerAbove store (steps + 1) cert = none := by
  rw [issuerAbove, orphan]
  rfl

/-- One more level if the certificate is itself an authority. -/
def caLevels (cert : Certificate) : Nat := if cert.kind = .ca then 1 else 0

/-- What a certificate owes to the policy of an authority above it, with `between`
authorities in between. -/
structure Bounded (app : App) (store : Store) (policy : IssuancePolicy) (between : Nat)
    (cert : Certificate) : Prop where
  grants : Covered app store cert.grants policy.issueGrants
  lifetime : cert.expiresAt - cert.notBefore ≤ policy.maxCertTtlSeconds
  depth : cert.delegationDepth ≤ policy.maxDelegationDepth
  levels : between + caLevels cert ≤ policy.maxChildCaDepth

/-- What an authority hands on is no more than what it was given. -/
structure Narrowed (app : App) (store : Store) (policy : IssuancePolicy) (between : Nat)
    (own : IssuancePolicy) : Prop where
  grants : Covered app store own.issueGrants policy.issueGrants
  lifetime : own.maxCertTtlSeconds ≤ policy.maxCertTtlSeconds
  depth : own.maxDelegationDepth ≤ policy.maxDelegationDepth
  levels : own.maxChildCaDepth + between + 1 ≤ policy.maxChildCaDepth

/-- A certificate and an authority above it. -/
structure Attenuated (app : App) (store : Store) (between : Nat) (cert ancestor : Certificate) :
    Prop where
  authority : ancestor.kind = .ca
  starts : ancestor.notBefore ≤ cert.notBefore
  ends : cert.expiresAt ≤ ancestor.expiresAt
  bounded : ∃ policy, ancestor.issuance = some policy ∧ Bounded app store policy between cert
  narrowed : cert.kind = .ca → ∃ policy own, ancestor.issuance = some policy ∧
    cert.issuance = some own ∧ Narrowed app store policy between own
  online : ancestor.subjectId = onlineCa → cert.kind ≠ .ca ∧
    ∀ grant ∈ cert.grants, grant.capability ∈ onlineIssuableCapabilities

/-! One certificate under its issuer. -/

theorem Narrowed.bounded {policy own : IssuancePolicy} {between : Nat} {cert : Certificate}
    (narrowed : Narrowed app store policy between own) (bounded : Bounded app store own 0 cert) :
    Bounded app store policy (between + 1) cert where
  grants := bounded.grants.trans narrowed.grants
  lifetime := Nat.le_trans bounded.lifetime narrowed.lifetime
  depth := Nat.le_trans bounded.depth narrowed.depth
  levels := by
    have below := bounded.levels
    have above := narrowed.levels
    omega

theorem Narrowed.trans {policy middle own : IssuancePolicy} {between : Nat}
    (upper : Narrowed app store policy between middle) (lower : Narrowed app store middle 0 own) :
    Narrowed app store policy (between + 1) own where
  grants := lower.grants.trans upper.grants
  lifetime := Nat.le_trans lower.lifetime upper.lifetime
  depth := Nat.le_trans lower.depth upper.depth
  levels := by
    have below := lower.levels
    have above := upper.levels
    omega

/-- What `childCheck` says of an authority. -/
theorem caCheck_ok {cert parent : Certificate} {issuance : IssuancePolicy} {issueResource : String}
    (isCa : cert.kind = .ca)
    (passed : caCheck app store cert parent issuance issueResource = .ok ()) :
    ∃ own level, cert.issuance = some own ∧ Narrowed app store issuance 0 own ∧
      caLevel app store 32 parent = .ok level ∧ level ≤ 3 := by
  simp only [caCheck, isCa, if_true, Program.except_bind_ok, requireRow_ok, require_ok] at passed
  obtain ⟨own, isOwn, _, _, _, _, _, _, _, deeper, level, counted, _, ⟨few, _⟩, _,
    ⟨lifetime, depth⟩, issued⟩ := passed
  refine ⟨own, level, isOwn, ⟨issuance_covered issued, lifetime, depth, ?_⟩, counted, few⟩
  omega

theorem caCheck_depth {cert parent : Certificate} {issuance : IssuancePolicy}
    {issueResource : String}
    (passed : caCheck app store cert parent issuance issueResource = .ok ()) :
    caLevels cert ≤ issuance.maxChildCaDepth := by
  unfold caLevels
  split
  · rename_i isCa
    obtain ⟨own, _, _, narrowed, _⟩ := caCheck_ok isCa passed
    have levels := narrowed.levels
    omega
  · exact Nat.zero_le _

theorem childCheck_attenuated {cert parent : Certificate} {issueResource : String}
    (passed : childCheck app store now cert parent issueResource = .ok ()) :
    Attenuated app store 0 cert parent := by
  simp only [childCheck, parentIssuance, limitCheck, grantCheck, Program.except_bind_ok,
    require_ok, requireRow_ok] at passed
  obtain ⟨issuance, ⟨_, isCa, issued⟩, _, _, _, ⟨_, ⟨starts, ends⟩, _, lifetime, depth⟩, _,
    ⟨_, _, _, _, granted⟩, _, _, _, online, level⟩ := passed
  constructor
  case authority => exact isCa
  case starts => exact starts
  case ends => exact ends
  case bounded =>
    refine ⟨issuance, issued, issuance_covered granted, lifetime, depth, ?_⟩
    rw [Nat.zero_add]
    exact caCheck_depth level
  case narrowed =>
    intro isAuthority
    obtain ⟨own, _, isOwn, narrowed, _⟩ := caCheck_ok isAuthority level
    exact ⟨issuance, own, issued, isOwn, narrowed⟩
  case online =>
    intro isOnline
    simp only [onlineIssuedCheck, isOnline, if_true, require_ok] at online
    obtain ⟨kind, _, issuable⟩ := online
    constructor
    · rcases kind with identity | delegation
      · simp [identity]
      · simp [delegation]
    · intro grant member
      simpa [onlineIssuable] using issuable grant member

/-- What holds of the issuer and its own authorities holds of what it issues. -/
theorem Attenuated.under {cert parent ancestor : Certificate} {between : Nat}
    (upper : Attenuated app store between parent ancestor)
    (lower : Attenuated app store 0 cert parent) :
    Attenuated app store (between + 1) cert ancestor := by
  obtain ⟨policy, own, isPolicy, isOwn, narrowed⟩ := upper.narrowed lower.authority
  constructor
  case authority => exact upper.authority
  case starts => exact Nat.le_trans upper.starts lower.starts
  case ends => exact Nat.le_trans lower.ends upper.ends
  case bounded =>
    obtain ⟨direct, isDirect, bounded⟩ := lower.bounded
    have same : direct = own := Option.some.inj (isDirect.symm.trans isOwn)
    exact ⟨policy, isPolicy, narrowed.bounded (same ▸ bounded)⟩
  case narrowed =>
    intro isCa
    obtain ⟨direct, innermost, isDirect, isInnermost, closest⟩ := lower.narrowed isCa
    have same : direct = own := Option.some.inj (isDirect.symm.trans isOwn)
    exact ⟨policy, innermost, isPolicy, isInnermost, narrowed.trans (same ▸ closest)⟩
  case online =>
    -- The online authority issues no authority, so nobody is two levels below it.
    intro isOnline
    exact absurd lower.authority (upper.online isOnline).1

/-! Whole chains. -/

/-- A stored certificate that has been validated, so many levels below the root. -/
inductive Trusted (app : App) (store : Store) (now : Nat) : Nat → Certificate → Prop
  | root {cert : Certificate} (isRoot : cert.resourceId = app.rootCertificate.resourceId)
      (anchored : rootCheck app cert = .ok ()) : Trusted app store now 0 cert
  | under {level : Nat} {cert parent : Certificate} {issueResource : String}
      (trusted : Trusted app store now level parent) (signed : SignedUnder store cert parent)
      (other : cert.resourceId ≠ app.rootCertificate.resourceId)
      (checked : childCheck app store now cert parent issueResource = .ok ()) :
      Trusted app store now (level + 1) cert

theorem rootCheck_ok {cert : Certificate} (anchored : rootCheck app cert = .ok ()) :
    cert = app.rootCertificate ∧ cert.parentCertificateId = none := by
  simp only [rootCheck, Program.except_bind_ok, require_ok] at anchored
  obtain ⟨_, same, _, ⟨_, _, orphan, _⟩, _⟩ := anchored
  exact ⟨same, orphan⟩

/-- The induction over the chain: one level more for each issuer. -/
theorem attenuated_above {cert parent : Certificate} {issueResource : String}
    (signed : SignedUnder store cert parent)
    (checked : childCheck app store now cert parent issueResource = .ok ())
    (above : ∀ between ancestor, issuerAbove store (between + 1) parent = some ancestor →
      Attenuated app store between parent ancestor)
    (between : Nat) (ancestor : Certificate)
    (found : issuerAbove store (between + 1) cert = some ancestor) :
    Attenuated app store between cert ancestor := by
  have direct := childCheck_attenuated checked
  rw [issuerAbove_succ signed] at found
  cases between with
  | zero =>
      cases found
      exact direct
  | succ between => exact (above between ancestor found).under direct

theorem Trusted.attenuated {level : Nat} {cert : Certificate}
    (trusted : Trusted app store now level cert) (between : Nat) (ancestor : Certificate)
    (found : issuerAbove store (between + 1) cert = some ancestor) :
    Attenuated app store between cert ancestor := by
  induction trusted generalizing between ancestor with
  | root isRoot anchored =>
      rw [issuerAbove_root (rootCheck_ok anchored).2] at found
      cases found
  | under trusted signed other checked ih =>
      exact attenuated_above signed checked ih between ancestor found

/-- The chain of a trusted certificate ends at the root after as many steps as it has levels. -/
theorem Trusted.ends {level : Nat} {cert : Certificate}
    (trusted : Trusted app store now level cert) :
    issuerAbove store level cert = some app.rootCertificate ∧
      ∀ steps ancestor, issuerAbove store steps cert = some ancestor → steps ≤ level := by
  induction trusted with
  | root isRoot anchored =>
      obtain ⟨same, orphan⟩ := rootCheck_ok anchored
      refine ⟨by rw [same]; rfl, ?_⟩
      intro steps ancestor found
      cases steps with
      | zero => exact Nat.le_refl 0
      | succ steps =>
          rw [issuerAbove_root orphan] at found
          cases found
  | under trusted signed other checked ih =>
      refine ⟨by rw [issuerAbove_succ signed]; exact ih.1, ?_⟩
      intro steps ancestor found
      cases steps with
      | zero => exact Nat.zero_le _
      | succ steps =>
          rw [issuerAbove_succ signed] at found
          exact Nat.succ_le_succ (ih.2 steps ancestor found)

/-- The loop that counts levels counts them. -/
theorem Trusted.counted {level : Nat} {cert : Certificate}
    (trusted : Trusted app store now level cert) {turns count : Nat}
    (counted : caLevel app store turns cert = .ok count) : count = level + 1 := by
  induction trusted generalizing turns count with
  | root isRoot anchored =>
      cases turns with
      | zero => cases counted
      | succ turns =>
          simp only [caLevel, isRoot, if_true, Except.ok.injEq] at counted
          exact counted.symm
  | @under level cert parent issueResource trusted signed other checked ih =>
      cases turns with
      | zero => cases counted
      | succ turns =>
          simp only [caLevel, other, if_false, Program.except_bind_ok, requireRow_ok,
            Program.except_pure, Except.ok.injEq] at counted
          obtain ⟨row, found, upper, counted, rfl⟩ := counted
          have same : row = parent := Option.some.inj (found.symm.trans signed)
          rw [same] at counted
          rw [ih counted]

theorem childCheck_level {cert parent : Certificate} {issueResource : String} {level : Nat}
    (trusted : Trusted app store now level parent)
    (checked : childCheck app store now cert parent issueResource = .ok ())
    (isCa : cert.kind = .ca) : level + 1 ≤ 3 := by
  simp only [childCheck, Program.except_bind_ok] at checked
  obtain ⟨issuance, _, _, _, _, _, _, _, _, _, _, _, passed⟩ := checked
  obtain ⟨_, count, _, _, counted, few⟩ := caCheck_ok isCa passed
  rw [trusted.counted counted] at few
  exact few

/-- No authority is more than three levels below the root. -/
theorem Trusted.level {level : Nat} {cert : Certificate}
    (trusted : Trusted app store now level cert) (isCa : cert.kind = .ca) : level ≤ 3 := by
  cases trusted with
  | root isRoot anchored => exact Nat.zero_le 3
  | under trusted signed other checked => exact childCheck_level trusted checked isCa

/-! Accepted certificates. -/

/-- What `validate` has established of the certificate it returns. -/
inductive Accepted (app : App) (store : Store) (now : Nat) (cert : Certificate) : Prop
  | root (anchored : rootCheck app cert = .ok ())
  | under {level : Nat} {parent : Certificate} {issueResource : String}
      (trusted : Trusted app store now level parent) (signed : SignedUnder store cert parent)
      (checked : childCheck app store now cert parent issueResource = .ok ())

theorem presentCheck_given {given : Option Certificate} {id : String} {cert : Certificate}
    (present : presentCheck app store now given id = .ok cert) :
    given = none → store.certificates.find? id = some cert := by
  rintro rfl
  simp only [presentCheck, lookup, certificate, Program.except_bind_ok, requireRow_ok,
    Program.except_pure, Except.ok.injEq] at present
  obtain ⟨_, found, _, _, _, _, _, _, rfl⟩ := present
  exact found

/-- The recursion of `validate`, one certificate at a time. -/
theorem validateFrom_ok {depth : Nat} {seen : List String} {id : String}
    {given : Option Certificate} {issuanceResource : Option String} {cert : Certificate}
    (accepted : validateFrom app store now depth seen id given issuanceResource = .ok cert) :
    presentCheck app store now given id = .ok cert ∧
      (id = app.rootCertificate.resourceId ∧ rootCheck app cert = .ok () ∨
        id ≠ app.rootCertificate.resourceId ∧ ∃ lower parentName parent issueResource,
          depth = lower + 1 ∧ cert.parentCertificateId = some parentName ∧
            validateFrom app store now lower (id :: seen) parentName none none = .ok parent ∧
            childCheck app store now cert parent issueResource = .ok ()) := by
  cases depth with
  | zero => cases accepted
  | succ depth =>
      simp only [validateFrom, Program.except_bind_ok] at accepted
      obtain ⟨_, _, present, isPresent, rest⟩ := accepted
      split at rest
      · rename_i isRoot
        simp only [Program.except_bind_ok, Program.except_pure, Except.ok.injEq] at rest
        obtain ⟨_, anchored, rfl⟩ := rest
        exact ⟨isPresent, Or.inl ⟨isRoot, anchored⟩⟩
      · rename_i other
        simp only [Program.except_bind_ok, parentId, require_ok, requireRow_ok,
          Program.except_pure, Except.ok.injEq] at rest
        obtain ⟨parentName, ⟨_, _, named⟩, parent, validated, _, checked, _, _, rfl⟩ := rest
        exact ⟨isPresent, Or.inr ⟨other, depth, parentName, parent, _, rfl, named, validated,
          checked⟩⟩

theorem trusted_of_validated {depth : Nat} {seen : List String} {id : String} {cert : Certificate}
    (accepted : validateFrom app store now depth seen id none none = .ok cert) :
    store.certificates.find? id = some cert ∧ ∃ level, Trusted app store now level cert := by
  induction depth generalizing seen id cert with
  | zero => cases accepted
  | succ depth ih =>
      obtain ⟨present, anchored | issued⟩ := validateFrom_ok accepted
      · have stored := presentCheck_given present rfl
        have named : cert.resourceId = id := Table.find?_key stored
        exact ⟨stored, 0, .root (named.trans anchored.1) anchored.2⟩
      · obtain ⟨other, lower, parentName, parent, issueResource, isLower, isNamed, validated,
          checked⟩ := issued
        have stored := presentCheck_given present rfl
        have named : cert.resourceId = id := Table.find?_key stored
        cases isLower
        obtain ⟨parentStored, level, trusted⟩ := ih validated
        have signed : SignedUnder store cert parent := by
          rw [SignedUnder, isNamed]
          exact parentStored
        exact ⟨stored, level + 1, .under trusted signed (by rw [named]; exact other) checked⟩

theorem accepted_of_validated {depth : Nat} {seen : List String} {id : String}
    {given : Option Certificate} {issuanceResource : Option String} {cert : Certificate}
    (accepted : validateFrom app store now depth seen id given issuanceResource = .ok cert) :
    Accepted app store now cert := by
  obtain ⟨_, anchored | issued⟩ := validateFrom_ok accepted
  · exact .root anchored.2
  · obtain ⟨_, lower, parentName, parent, issueResource, _, isNamed, validated, checked⟩ := issued
    obtain ⟨parentStored, level, trusted⟩ := trusted_of_validated validated
    have signed : SignedUnder store cert parent := by
      rw [SignedUnder, isNamed]
      exact parentStored
    exact .under trusted signed checked

/-- An accepted certificate attenuates every authority above it, and there are at
most four of these. -/
structure Attenuates (app : App) (store : Store) (cert : Certificate) : Prop where
  rooted : ∃ level, level + caLevels cert ≤ 4 ∧
    issuerAbove store level cert = some app.rootCertificate ∧
      ∀ steps ancestor, issuerAbove store steps cert = some ancestor → steps ≤ level
  attenuated : ∀ between ancestor, issuerAbove store (between + 1) cert = some ancestor →
    Attenuated app store between cert ancestor

theorem Accepted.attenuates {cert : Certificate} (accepted : Accepted app store now cert) :
    Attenuates app store cert := by
  cases accepted with
  | root anchored =>
      obtain ⟨same, orphan⟩ := rootCheck_ok anchored
      refine ⟨⟨0, ?_, by rw [same]; rfl, ?_⟩, ?_⟩
      · unfold caLevels
        split <;> omega
      · intro steps ancestor found
        cases steps with
        | zero => exact Nat.le_refl 0
        | succ steps =>
            rw [issuerAbove_root orphan] at found
            cases found
      · intro between ancestor found
        rw [issuerAbove_root orphan] at found
        cases found
  | @under level parent issueResource trusted signed checked =>
      have direct := childCheck_attenuated checked
      have few := trusted.level direct.authority
      refine ⟨⟨level + 1, ?_, by rw [issuerAbove_succ signed]; exact trusted.ends.1, ?_⟩,
        attenuated_above signed checked trusted.attenuated⟩
      · unfold caLevels
        split
        · rename_i isCa
          have fewer := childCheck_level trusted checked isCa
          omega
        · omega
      · intro steps ancestor found
        cases steps with
        | zero => exact Nat.zero_le _
        | succ steps =>
            rw [issuerAbove_succ signed] at found
            exact Nat.succ_le_succ (trusted.ends.2 steps ancestor found)

/-- Every certificate that `validate` accepts, in whatever call, attenuates all the
authorities above it. -/
theorem validated_attenuates (app : App) (store : Store) (now depth : Nat) (seen : List String)
    (id : String) (given : Option Certificate) (issuanceResource : Option String)
    (cert : Certificate)
    (accepted : validateFrom app store now depth seen id given issuanceResource = .ok cert) :
    Attenuates app store cert :=
  (accepted_of_validated accepted).attenuates

/-! A user certificate under an authority under the root. -/

def sampleGrant (capability operation : String) : CapabilityGrant :=
  ⟨capability, 1, ⟨"r_root", true⟩, [operation], []⟩

def sampleCertificate (id subject issuer : String) (parent : Option String)
    (kind : CertificateKind) (grants : List CapabilityGrant) (issuance : Option IssuancePolicy) :
    Certificate :=
  ⟨id, "1", subject, "k_" ++ id, issuer, parent, [], kind, grants, 0, 100, "https://msg.test", 0,
    issuance, ⟨"k_" ++ id, "ed25519", id⟩⟩

def sampleRoot : Certificate :=
  sampleCertificate "root" rootSubject rootSubject none .ca
    [sampleGrant "cert.issue" "cert.publish@1", sampleGrant "cert.ca.issue" "cert.publish@1"]
    (some ⟨[sampleGrant "cert.issue" "cert.publish@1", sampleGrant "store.basic" "store.get@1"],
      100, 2, 0⟩)

def sampleAuthority : Certificate :=
  sampleCertificate "desk" "u_desk" rootSubject (some "root") .ca
    [sampleGrant "cert.issue" "cert.publish@1"]
    (some ⟨[sampleGrant "store.basic" "store.get@1"], 100, 0, 0⟩)

def sampleLeaf : Certificate :=
  sampleCertificate "ann" "u_ann" "u_desk" (some "desk") .identity
    [sampleGrant "store.basic" "store.get@1"] none

def sampleInstallation : App :=
  { sampleApp with
    rootCertificate := sampleRoot
    capability := fun _ _ => some ⟨["root"], ["cert.publish@1", "store.get@1"], false, none⟩ }

def sampleKey (cert : Certificate) : Credential :=
  ⟨cert.keyId, cert.subjectId, .signingKey, "", [], 0, none, none⟩

def sampleStore : Store :=
  { Store.empty with
    resources :=
      ⟨[⟨"r_root", "root", 1, "/", none, rootSubject, "g_public", 0o755, 0, none, .active⟩,
        ⟨"desk", "certificate", 1, "desk", some "r_root", "u_desk", "g_public", 0o755, 0, none,
          .active⟩,
        ⟨"ann", "certificate", 1, "ann", some "r_root", "u_ann", "g_public", 0o755, 0, none,
          .active⟩], by decide⟩
    credentials := ⟨[sampleKey sampleRoot, sampleKey sampleAuthority, sampleKey sampleLeaf], by decide⟩
    certificates := ⟨[sampleRoot, sampleAuthority, sampleLeaf], by decide⟩ }

theorem validated_attenuates_leaf : Attenuates sampleInstallation sampleStore sampleLeaf :=
  validated_attenuates sampleInstallation sampleStore 10 32 [] "ann" none none sampleLeaf rfl

end MsgServer.Certificates
