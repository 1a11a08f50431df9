import MsgServer.Security.Policy

/-!
security/certificates.py: `CertificateValidator`. `validate` carries a set `seen`
of at most 32 ids and refuses an id it has seen; `depth` is 32 less the size of
that set, so a depth of 0 is the source's `len(seen) < 32` failing. Publication
(`validate_publication`) passes the certificate it is about to store and the
request it answers; every other caller passes neither.
-/

namespace MsgServer.Certificates

open Session Policy

def onlineCa : String := "u_online_ca"

def onlineIssuableCapabilities : List String :=
  ["identity.basic", "resource.basic", "discussion.basic", "communication.basic",
    "discovery.basic", "transfer.basic", "group.basic", "cert.request", "git.basic",
    "hosting.basic", "keystore.basic", "batch.basic", "sharing.basic", "money.basic",
    "store.basic", "bounty.basic", "orders.basic", "delivery.basic"]

variable (app : App) (store : Store) (now : Nat)

def validateConstraints (spec : CapabilitySpec) (constraints : List (String × Constraint)) :
    Except Failure Unit :=
  match spec.constraintsSchema with
  | some schema => app.constraintsValid schema constraints
  | none => require (constraints = []) "unknown_grant_constraint"

def validateGrant (grant : CapabilityGrant) : Except Failure CapabilitySpec := do
  let spec ← requireRow (app.capability grant.capability grant.version) "unknown_capability"
  let scope ← resource app store grant.scope.resourceId
  require (scope.type ∈ spec.scopeTypes) "invalid_scope_type"
  require (grant.operations ≠ [] ∧ ∀ operation ∈ grant.operations, operation ∈ spec.operations)
    "invalid_grant_operations"
  validateConstraints app spec grant.constraints
  return spec

/-- The grant is one of a policy's grants with its rights reduced. The tests run
in this order and stop at the first that fails. -/
def attenuates (grant allowed : CapabilityGrant) : Except Failure Bool :=
  if grant.capability = allowed.capability ∧ grant.version = allowed.version ∧
      ∀ operation ∈ grant.operations, operation ∈ allowed.operations then do
    let inside ← scopeSubset app store grant.scope allowed.scope
    return inside && constraintsSubset grant.constraints allowed.constraints
  else .ok false

/-- `for allowed in ...: if ...: return True`, which stops at the first hit. -/
def firstOf {α : Type} (items : List α) (test : α → Except Failure Bool) :
    Except Failure Bool :=
  match items with
  | [] => .ok false
  | item :: rest => do
      let hit ← test item
      if hit then return true else firstOf rest test

def allowedIssuance (grant : CapabilityGrant) (policy : IssuancePolicy) :
    Except Failure Bool := do
  let _ ← validateGrant app store grant
  firstOf policy.issueGrants fun allowed => attenuates app store grant allowed

def requireIssuance (policy : IssuancePolicy) (grant : CapabilityGrant) :
    Except Failure Unit := do
  let allowed ← allowedIssuance app store grant policy
  require (allowed = true) "issuance_scope_exceeded"

def rootCheck (cert : Certificate) : Except Failure Unit := do
  require (cert = app.rootCertificate) "trust_anchor_mismatch"
  require (cert.subjectId = rootSubject ∧ cert.issuerId = rootSubject ∧
    cert.parentCertificateId = none ∧ cert.kind = .ca) "invalid_root_certificate"
  verified app app.rootPublicKey (app.certificateBody app.rootCertificate) cert.signature
    "certificate"

def liveAt (key : Credential) : Bool :=
  key.revokedAt == none && decide (key.notBefore ≤ now) &&
    match key.expiresAt with
    | none => true
    | some expiry => decide (now < expiry)

def parentIssuance (parent : Certificate) : Except Failure IssuancePolicy := do
  require (parent.kind = .ca) "issuer_not_ca"
  requireRow parent.issuance "issuer_not_ca"

/-- Signatures and keys of one certificate under its validated parent. -/
def keyCheck (cert parent : Certificate) : Except Failure Unit := do
  require (cert.issuerId = parent.subjectId) "issuer_mismatch"
  let parentKey ← credential store (some parent.keyId)
  require (parentKey.subjectId = parent.subjectId ∧ parentKey.revokedAt = none)
    "issuer_key_revoked"
  verified app parentKey.verifier (app.certificateBody cert) cert.signature "certificate"
  let subjectKey ← credential store (some cert.keyId)
  require (subjectKey.subjectId = cert.subjectId) "certificate_key_mismatch"
  require (liveAt now subjectKey = true) "certificate_key_revoked"

/-- Validity, lifetime and delegation depth against the parent. -/
def limitCheck (cert parent : Certificate) (issuance : IssuancePolicy) :
    Except Failure Unit := do
  require (parent.notBefore ≤ cert.notBefore ∧ cert.expiresAt ≤ parent.expiresAt)
    "certificate_validity_escalation"
  require (cert.expiresAt - cert.notBefore ≤ issuance.maxCertTtlSeconds)
    "certificate_ttl_escalation"
  require (cert.delegationDepth ≤ issuance.maxDelegationDepth) "delegation_depth_exceeded"

def grantCheck (cert parent : Certificate) (issuance : IssuancePolicy) (issueResource : String) :
    Except Failure Unit := do
  let mayIssue ← anyOf parent.grants fun grant =>
    grantCovers app store grant "cert.issue" "cert.publish@1" issueResource
  require (mayIssue = true) "issuer_cannot_issue"
  cert.grants.forM (requireIssuance app store issuance)

def onlineIssuable (grant : CapabilityGrant) : Bool := decide (grant.capability ∈ onlineIssuableCapabilities)

/-- `self.registry.capability(...).ca_only` of one grant; an unknown capability raises. -/
def onlineGrant (grant : CapabilityGrant) : Except Failure Bool :=
  if onlineIssuable grant then do
    let spec ← requireRow (app.capability grant.capability grant.version) "unknown_capability"
    return !spec.caOnly
  else .ok false

/-- `all(...)` over a generator stops at the first grant that fails. -/
def allOf {α : Type} (items : List α) (test : α → Except Failure Bool) : Except Failure Bool :=
  match items with
  | [] => .ok true
  | item :: rest => do
      let hit ← test item
      if hit then allOf rest test else return false

def onlineCaShape (cert parent : Certificate) : Bool :=
  match cert.issuance with
  | none => false
  | some issuance =>
      parent.resourceId == app.rootCertificate.resourceId && cert.kind == .ca &&
        issuance.maxChildCaDepth == 0 &&
        match cert.grants with
        | [grant] => grant.capability == "cert.issue" &&
            decide ("cert.publish@1" ∈ grant.operations)
        | _ => false

def onlineCaCheck (cert parent : Certificate) : Except Failure Unit :=
  if cert.subjectId = onlineCa then do
    require (onlineCaShape app cert parent = true) "online_ca_policy_exceeded"
    let allowed ← allOf (cert.issuance.elim [] IssuancePolicy.issueGrants) (onlineGrant app)
    require (allowed = true) "online_ca_policy_exceeded"
  else .ok ()

def onlineIssuedCheck (cert parent : Certificate) : Except Failure Unit :=
  if parent.subjectId = onlineCa then
    require ((cert.kind = .identity ∨ cert.kind = .delegation) ∧
      (cert.kind = .delegation → cert.authoritySources ≠ []) ∧
      ∀ grant ∈ cert.grants, onlineIssuable grant = true) "online_ca_policy_exceeded"
  else .ok ()

/-- Levels between a certificate and the root. The chain has been validated, so
32 turns always suffice. -/
def caLevel : Nat → Certificate → Except Failure Nat
  | 0, _ => .error { code := "certificate_cycle" }
  | turns + 1, ancestor =>
      if ancestor.resourceId = app.rootCertificate.resourceId then .ok 1
      else do
        let parent ← requireRow (ancestor.parentCertificateId.bind store.certificates.find?)
          "certificate_not_found"
        let level ← caLevel turns parent
        return level + 1

def caCheck (cert parent : Certificate) (issuance : IssuancePolicy) (issueResource : String) :
    Except Failure Unit :=
  if cert.kind = .ca then do
    let own ← requireRow cert.issuance "ca_depth_exceeded"
    require (0 < issuance.maxChildCaDepth) "ca_depth_exceeded"
    let mayIssue ← anyOf parent.grants fun grant =>
      grantCovers app store grant "cert.ca.issue" "cert.publish@1" issueResource
    require (mayIssue = true) "issuer_cannot_issue_ca"
    require (own.maxChildCaDepth < issuance.maxChildCaDepth) "ca_depth_exceeded"
    let level ← caLevel app store 32 parent
    require (level ≤ 3 ∧ own.maxChildCaDepth + level ≤ 3) "ca_depth_exceeded"
    require (own.maxCertTtlSeconds ≤ issuance.maxCertTtlSeconds ∧
      own.maxDelegationDepth ≤ issuance.maxDelegationDepth) "issuance_policy_escalation"
    own.issueGrants.forM (requireIssuance app store issuance)
  else require (cert.issuance = none) "unexpected_issuance_policy"

def sourceResourceCheck (source : ResourceRef) : Except Failure Unit := do
  let row ← resource app store source.id
  require (row.type = "delegation" ∧ row.state = .active) "authority_source_inactive"
  require (source.revision = row.revision) "authority_source_changed"

def grantorCredential (fact : DelegationFact) : Except Failure (Option Credential) :=
  match fact.grantorCredentialId with
  | none => .ok none
  | some id => do
      let key ← credential store (some id)
      require (liveAt now key = true) "authority_source_inactive"
      require (key.subjectId ∉ store.identityArchived) "authority_source_inactive"
      return some key

def coveredByKey (key : Option Credential) (grant : CapabilityGrant) : Except Failure Bool :=
  match key with
  | none => .ok true
  | some key => anyOf key.ceiling fun live => attenuates app store grant live

/-- One grant of a delegation fact: the grantor still owns its target and the
grantor's own key, where it is bound, still covers it. -/
def factGrantCheck (fact : DelegationFact) (key : Option Credential) (grant : CapabilityGrant) :
    Except Failure Unit := do
  let target ← resource app store grant.scope.resourceId
  require (target.owner = fact.grantor) "authority_source_lost"
  let covered ← coveredByKey app store key grant
  require (covered = true) "authority_source_lost"

def delegatedGrantCheck (fact : DelegationFact) (grant : CapabilityGrant) :
    Except Failure Unit := do
  let covered ← anyOf fact.grants fun allowed => attenuates app store grant allowed
  require (covered = true) "delegation_scope_exceeded"

/-- `validate_authority` up to the recursion into the parent certificate. -/
def authorityFact (source : ResourceRef) (cert : Certificate) : Except Failure DelegationFact := do
  sourceResourceCheck app store source
  let fact ← requireRow (setting store.delegations source.id) "authority_source_invalid"
  require (fact.grantee = cert.subjectId) "authority_source_invalid"
  require (now < fact.expiresAt) "authority_source_expired"
  let key ← grantorCredential store now fact
  fact.grants.forM (factGrantCheck app store fact key)
  (cert.grants ++ cert.issuance.elim [] IssuancePolicy.issueGrants).forM
    (delegatedGrantCheck app store fact)
  return fact

/-- Everything `validate` checks of a certificate under its validated parent, up to
the authority sources. -/
def childCheck (cert parent : Certificate) (issueResource : String) : Except Failure Unit := do
  let issuance ← parentIssuance parent
  keyCheck app store now cert parent
  limitCheck cert parent issuance
  grantCheck app store cert parent issuance issueResource
  onlineCaCheck app cert parent
  onlineIssuedCheck cert parent
  caCheck app store cert parent issuance issueResource

/-- `lookup` reads the stored certificate and its revocation, unless publication
hands the certificate in. -/
def lookup (given : Option Certificate) (id : String) : Except Failure Certificate :=
  match given with
  | some cert => .ok cert
  | none => certificate store id

def revocationCheck (given : Option Certificate) (id : String) : Except Failure Unit :=
  match given with
  | some _ => .ok ()
  | none => do
      let revoked ← certificateRevoked store id
      require (revoked = false) "certificate_revoked"

def presentCheck (given : Option Certificate) (id : String) : Except Failure Certificate := do
  let cert ← lookup store given id
  require (cert.targetService = app.service) "wrong_service"
  require (cert.notBefore ≤ now ∧ now < cert.expiresAt) "certificate_expired"
  revocationCheck store given id
  return cert

def issueResourceOf (issuanceResource : Option String) (cert : Certificate) : String :=
  issuanceResource.getD ((setting store.certificateRequests cert.resourceId).getD cert.resourceId)

def parentId (cert : Certificate) : Except Failure String := do
  require (cert.subjectId ≠ rootSubject) "local_only"
  requireRow cert.parentCertificateId "local_only"

/-- `validate_authority`, given the validation of the certificate a delegation
was itself granted under. -/
def authorityUnder (validateParent : String → Except Failure Certificate) (cert : Certificate)
    (source : ResourceRef) : Except Failure DelegationFact := do
  let fact ← authorityFact app store now source cert
  (fact.parentCertificate.toList).forM fun id => do
    let _ ← validateParent id
    return ()
  return fact

def sourceCheck (validateParent : String → Except Failure Certificate) (cert : Certificate)
    (source : ResourceRef) : Except Failure Unit := do
  let _ ← authorityUnder app store now validateParent cert source
  return ()

def validateFrom : Nat → List String → String → Option Certificate → Option String →
    Except Failure Certificate
  | 0, _, _, _, _ => .error { code := "certificate_cycle" }
  | depth + 1, seen, id, given, issuanceResource => do
      require (id ∉ seen) "certificate_cycle"
      let cert ← presentCheck app store now given id
      if id = app.rootCertificate.resourceId then do
        rootCheck app cert
        return cert
      else do
        let parent ← parentId cert
        let parentCert ← validateFrom depth (id :: seen) parent none none
        childCheck app store now cert parentCert (issueResourceOf store issuanceResource cert)
        cert.authoritySources.forM (sourceCheck app store now
          (fun granted => validateFrom depth (id :: seen) granted none none) cert)
        return cert

def validate (id : String) : Except Failure Certificate :=
  validateFrom app store now 32 [] id none none

/-- `validate_authority` as the ceiling check calls it, with nothing seen yet. -/
def validateAuthority (source : ResourceRef) (cert : Certificate) :
    Except Failure DelegationFact :=
  authorityUnder app store now
    (fun granted => validateFrom app store now 31 [cert.resourceId] granted none none) cert source

end MsgServer.Certificates
