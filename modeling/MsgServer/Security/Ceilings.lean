import MsgServer.Security.Attenuation
import MsgServer.Security.Authorization

/-!
Authorization is monotone in the ceiling of the principal. Every test asks whether some
grant covers something, and a grant covers whatever a grant within it covers. The tests
are comprehensions that evaluate all grants, so a larger ceiling may also run into a
chain of ancestors that cannot be read; `Legible` says where that would matter.
-/

namespace MsgServer.Authorization

open Library Session Policy Certificates ResourceTree Attenuation

variable {app : App} {store : Store} {now : Nat}

/-- The principal with another ceiling. -/
def under (principal : Principal) (grants : List CapabilityGrant) : Principal :=
  { principal with ceiling := grants }

def Context.under (context : Context) (grants : List CapabilityGrant) : Context :=
  { context with principal := Authorization.under context.principal grants }

/-- The chain above the resource can be read. -/
def Legible (app : App) (store : Store) (id : String) : Prop :=
  ∃ above, ancestors app store id = .ok above

/-! Tests that evaluate. -/

def Answers (test : Except Failure Bool) : Prop := ∃ answer, test = .ok answer

theorem Answers.ok (answer : Bool) : Answers (.ok answer) := ⟨answer, rfl⟩

theorem anyOf_answers {α : Type} {items : List α} {test : α → Except Failure Bool}
    (each : ∀ item ∈ items, Answers (test item)) : Answers (anyOf items test) := by
  have ran : ∃ results, items.mapM test = .ok results := by
    induction items with
    | nil => exact ⟨[], rfl⟩
    | cons item rest ih =>
        obtain ⟨answer, here⟩ := each item List.mem_cons_self
        obtain ⟨results, later⟩ := ih fun other member => each other (List.mem_cons_of_mem _ member)
        exact ⟨answer :: results, by
          rw [List.mapM_cons, here, later]
          rfl⟩
  obtain ⟨results, ran⟩ := ran
  exact ⟨results.any id, by
    rw [anyOf, ran]
    rfl⟩

theorem anyOf_hit {α : Type} {items : List α} {test : α → Except Failure Bool}
    (each : ∀ item ∈ items, Answers (test item)) {item : α} (member : item ∈ items)
    (hit : test item = .ok true) : anyOf items test = .ok true := by
  obtain ⟨answer, found⟩ := anyOf_answers each
  simp only [anyOf, Program.except_bind_ok, Program.except_pure, Except.ok.injEq] at found
  obtain ⟨results, ran, rfl⟩ := found
  obtain ⟨result, inResults, tested⟩ := (mapM_ok ran).1 item member
  rw [hit] at tested
  have passed : results.any id = true :=
    List.any_eq_true.mpr ⟨result, inResults, (Except.ok.inj tested).symm⟩
  rw [anyOf, ran]
  exact congrArg _ passed

theorem scopeContains_answers {id : String} (legible : Legible app store id) (scope : Scope) :
    Answers (scopeContains app store scope id) := by
  obtain ⟨above, climbed⟩ := legible
  unfold scopeContains
  split
  · exact .ok _
  · split
    · rw [climbed]
      exact .ok _
    · exact .ok _

theorem grantCovers_answers {id : String} (legible : Legible app store id)
    (capability operation : String) (grant : CapabilityGrant) :
    Answers (grantCovers app store grant capability operation id) := by
  unfold grantCovers
  split
  · exact scopeContains_answers legible grant.scope
  · exact .ok _

theorem operationInScope_answers {id : String} (legible : Legible app store id)
    (operation : String) (grant : CapabilityGrant) :
    Answers (operationInScope app store operation id grant) := by
  unfold operationInScope
  split
  · exact scopeContains_answers legible grant.scope
  · exact .ok _

theorem baseInScope_answers {id : String} (legible : Legible app store id)
    (operation : String) (grant : CapabilityGrant) :
    Answers (baseInScope app store operation id grant) := by
  unfold baseInScope
  split
  · exact operationInScope_answers legible operation grant
  · exact .ok _

/-! A grant covers what a grant within it covers. -/

theorem grantCovers_within {small large : CapabilityGrant} {capability operation id : String}
    (within : Within app store small large)
    (covers : grantCovers app store small capability operation id = .ok true) :
    grantCovers app store large capability operation id = .ok true := by
  unfold grantCovers at covers ⊢
  split at covers
  · rename_i same
    rw [if_pos ⟨within.capability ▸ same.1, within.version ▸ same.2.1,
      within.operations operation same.2.2⟩]
    exact scopeContains_of_subset within.scope covers
  · cases covers

theorem operationInScope_within {small large : CapabilityGrant} {operation id : String}
    (within : Within app store small large)
    (covers : operationInScope app store operation id small = .ok true) :
    operationInScope app store operation id large = .ok true := by
  unfold operationInScope at covers ⊢
  split at covers
  · rename_i member
    rw [if_pos (within.operations operation member)]
    exact scopeContains_of_subset within.scope covers
  · cases covers

theorem baseInScope_within {small large : CapabilityGrant} {operation id : String}
    (within : Within app store small large)
    (covers : baseInScope app store operation id small = .ok true) :
    baseInScope app store operation id large = .ok true := by
  unfold baseInScope at covers ⊢
  split at covers
  · rename_i base
    rw [if_pos (within.capability ▸ base)]
    exact operationInScope_within within covers
  · cases covers

/-- The induction step of every comparison below: a test over the smaller ceiling. -/
theorem anyOf_covered {smaller larger : List CapabilityGrant} {test : CapabilityGrant → Except Failure Bool}
    (shrunk : Covered app store smaller larger) (each : ∀ grant ∈ larger, Answers (test grant))
    (mono : ∀ small large, Within app store small large → test small = .ok true →
      test large = .ok true) (passed : anyOf smaller test = .ok true) :
    anyOf larger test = .ok true := by
  obtain ⟨grant, member, hit⟩ := anyOf_true passed
  obtain ⟨other, inLarger, within⟩ := shrunk grant member
  exact anyOf_hit each inLarger (mono grant other within hit)

/-! `has`. The certificates of the principal do not depend on its ceiling. -/

variable {principal : Principal} {smaller : List CapabilityGrant}

/-- A test of the smaller ceiling that passed has read all certificates. -/
theorem has_read {capability operation id : String}
    (passed : has app store now (under principal smaller) capability operation id = .ok true) :
    requireCurrent store = .ok () ∧
      (isLocalRoot principal = true ∨ ∃ held, grants app store now principal = .ok held) := by
  simp only [has, Program.except_bind_ok] at passed
  obtain ⟨_, isCurrent, rest⟩ := passed
  refine ⟨isCurrent, ?_⟩
  split at rest
  · rename_i isRoot
    exact Or.inl isRoot
  · simp only [hasUnderCeiling, Program.except_bind_ok] at rest
    obtain ⟨covered, _, later⟩ := rest
    cases covered with
    | false => cases later
    | true =>
        simp only [if_true, certified, Program.except_bind_ok] at later
        obtain ⟨held, isHeld, _⟩ := later
        exact Or.inr ⟨held, isHeld⟩

theorem has_answers {capability operation id : String} (legible : Legible app store id)
    (isCurrent : requireCurrent store = .ok ())
    (held : isLocalRoot principal = true ∨ ∃ held, grants app store now principal = .ok held) :
    Answers (has app store now principal capability operation id) := by
  rw [has, isCurrent, Program.except_ok_bind]
  split
  · exact .ok _
  · rename_i notRoot
    obtain ⟨held, isHeld⟩ := held.resolve_left notRoot
    obtain ⟨covered, asked⟩ := anyOf_answers fun grant (_ : grant ∈ principal.ceiling) =>
      grantCovers_answers legible capability operation grant
    rw [hasUnderCeiling, asked, Program.except_ok_bind]
    split
    · rw [certified, isHeld, Program.except_ok_bind]
      exact anyOf_answers fun grant _ => grantCovers_answers legible capability operation grant
    · exact .ok _

theorem has_mono {capability operation id : String}
    (shrunk : Covered app store smaller principal.ceiling) (legible : Legible app store id)
    (passed : has app store now (under principal smaller) capability operation id = .ok true) :
    has app store now principal capability operation id = .ok true := by
  simp only [has, Program.except_bind_ok] at passed ⊢
  obtain ⟨_, isCurrent, rest⟩ := passed
  refine ⟨(), isCurrent, ?_⟩
  have same : isLocalRoot (under principal smaller) = isLocalRoot principal := rfl
  rw [same] at rest
  split at rest
  · rename_i isRoot
    rw [if_pos isRoot]
    exact rest
  · rename_i notRoot
    rw [if_neg notRoot]
    simp only [hasUnderCeiling, Program.except_bind_ok] at rest ⊢
    obtain ⟨covered, asked, later⟩ := rest
    cases covered with
    | false => cases later
    | true =>
        have larger : anyOf principal.ceiling (fun grant =>
            grantCovers app store grant capability operation id) = .ok true :=
          anyOf_covered shrunk
            (fun grant _ => grantCovers_answers legible capability operation grant)
            (fun _ _ within => grantCovers_within within) asked
        exact ⟨true, larger, later⟩

/-! The ceiling check and base capabilities. -/

/-- The tool that made an output of the principal's has a chain that can be read. -/
def OutputsLegible (app : App) (store : Store) (principal : Principal) (id : String) : Prop :=
  ∀ output, setting store.toolOutputs id = some output →
    some output.subject = principal.subject → Legible app store output.toolId

theorem ownsToolOutput_mono {operation id : String}
    (shrunk : Covered app store smaller principal.ceiling)
    (outputs : OutputsLegible app store principal id)
    (passed : ownsToolOutput app store now (under principal smaller) operation id = .ok true) :
    ownsToolOutput app store now principal operation id = .ok true := by
  unfold ownsToolOutput at passed ⊢
  cases found : setting store.toolOutputs id with
  | none => simp [found] at passed
  | some output =>
      simp only [found] at passed ⊢
      have sameSubject : (under principal smaller).subject = principal.subject := rfl
      rw [sameSubject] at passed
      split at passed
      · rename_i own
        rw [if_pos own]
        exact has_mono shrunk (outputs output found own) passed
      · cases passed

theorem ownsToolOutput_answers {operation id : String}
    (outputs : OutputsLegible app store principal id) (isCurrent : requireCurrent store = .ok ())
    (held : isLocalRoot principal = true ∨ ∃ held, grants app store now principal = .ok held) :
    Answers (ownsToolOutput app store now principal operation id) := by
  unfold ownsToolOutput
  split
  · exact .ok _
  · rename_i output found
    split
    · rename_i own
      exact has_answers (outputs output found own) isCurrent held
    · exact .ok _

theorem ceilingAllows_mono {operation id : String}
    (shrunk : Covered app store smaller principal.ceiling) (legible : Legible app store id)
    (outputs : OutputsLegible app store principal id)
    (passed : ceilingAllows app store now (under principal smaller) operation id = .ok true) :
    ceilingAllows app store now principal operation id = .ok true := by
  simp only [ceilingAllows, Program.except_bind_ok] at passed ⊢
  obtain ⟨allowed, asked, rest⟩ := passed
  obtain ⟨answer, larger⟩ := anyOf_answers fun grant (_ : grant ∈ principal.ceiling) =>
    operationInScope_answers legible operation grant
  cases allowed with
  | true =>
      exact ⟨true, anyOf_covered shrunk
        (fun grant _ => operationInScope_answers legible operation grant)
        (fun _ _ within => operationInScope_within within) asked, rfl⟩
  | false =>
      refine ⟨answer, larger, ?_⟩
      cases answer with
      | true => rfl
      | false =>
          simp only [Bool.false_eq_true, if_false] at rest ⊢
          split at rest
          · rename_i listed
            rw [if_pos listed]
            exact ownsToolOutput_mono shrunk outputs rest
          · cases rest

theorem ceiling_mono {operation id : String}
    (shrunk : Covered app store smaller principal.ceiling) (legible : Legible app store id)
    (outputs : OutputsLegible app store principal id)
    (passed : ceiling app store now (under principal smaller) operation id = .ok ()) :
    ceiling app store now principal operation id = .ok () := by
  simp only [ceiling, Program.except_bind_ok] at passed ⊢
  obtain ⟨_, isCurrent, _, live, rest⟩ := passed
  refine ⟨(), isCurrent, (), live, ?_⟩
  unfold ceilingCheck at rest ⊢
  have sameMethod : (under principal smaller).method = principal.method := rfl
  rw [sameMethod] at rest
  split at rest
  · rename_i anonymous
    rw [if_pos anonymous]
  · rename_i known
    rw [if_neg known]
    simp only [Program.except_bind_ok, require_ok] at rest ⊢
    obtain ⟨allowed, asked, _, isAllowed, delegated⟩ := rest
    rw [isAllowed] at asked
    exact ⟨true, ceilingAllows_mono shrunk legible outputs asked, (), rfl, delegated⟩

theorem ordinary_answers {operation id : String} (legible : Legible app store id) :
    Answers (ordinary app store principal operation id) := by
  unfold ordinary
  split
  · exact .ok _
  · exact anyOf_answers fun grant _ => baseInScope_answers legible operation grant

theorem ordinary_mono {operation id : String}
    (shrunk : Covered app store smaller principal.ceiling) (legible : Legible app store id)
    (passed : ordinary app store (under principal smaller) operation id = .ok true) :
    ordinary app store principal operation id = .ok true := by
  unfold ordinary at passed ⊢
  have sameMethod : (under principal smaller).method = principal.method := rfl
  rw [sameMethod] at passed
  split at passed
  · rename_i free
    rw [if_pos free]
  · rename_i known
    rw [if_neg known]
    exact anyOf_covered shrunk (fun grant _ => baseInScope_answers legible operation grant)
      (fun _ _ within => baseInScope_within within) passed

/-! One check. -/

theorem ordinaryOrOutput_mono {row : Resource} {check : Check} {operation : String}
    (shrunk : Covered app store smaller principal.ceiling) (legible : Legible app store row.id)
    (outputs : OutputsLegible app store principal row.id)
    (passed : ordinaryOrOutput app store now (under principal smaller) row check operation =
      .ok true) :
    ordinaryOrOutput app store now principal row check operation = .ok true := by
  simp only [ordinaryOrOutput, Program.except_bind_ok] at passed ⊢
  obtain ⟨plain, asked, rest⟩ := passed
  obtain ⟨answer, larger⟩ : Answers (ordinary app store principal operation row.id) :=
    ordinary_answers legible
  cases plain with
  | true => exact ⟨true, ordinary_mono shrunk legible asked, rest⟩
  | false =>
      refine ⟨answer, larger, ?_⟩
      cases answer with
      | true => rfl
      | false =>
          split at rest
          · rename_i reading
            rw [if_pos reading]
            exact ownsToolOutput_mono shrunk outputs rest
          · cases rest

theorem ordinaryOrOutput_answers {row : Resource} {check : Check} {operation : String}
    (legible : Legible app store row.id) (outputs : OutputsLegible app store principal row.id)
    (isCurrent : requireCurrent store = .ok ())
    (held : isLocalRoot principal = true ∨ ∃ held, grants app store now principal = .ok held) :
    Answers (ordinaryOrOutput app store now principal row check operation) := by
  obtain ⟨plain, asked⟩ : Answers (ordinary app store principal operation row.id) :=
    ordinary_answers legible
  rw [ordinaryOrOutput, asked, Program.except_ok_bind]
  split
  · exact ownsToolOutput_answers outputs isCurrent held
  · exact .ok _

theorem traversalCheck_mono {members : List String} {operation : String} {tool shared : Bool}
    {ancestor : Resource} (shrunk : Covered app store smaller principal.ceiling)
    (legible : Legible app store ancestor.id)
    (passed : traversalCheck app store now (under principal smaller) members operation tool shared
      ancestor = .ok ()) :
    traversalCheck app store now principal members operation tool shared ancestor = .ok () := by
  simp only [traversalCheck, traversable, Program.except_bind_ok, require_ok] at passed ⊢
  obtain ⟨passes, ⟨readable, isReadable, rest⟩, _, isPassing, isActive⟩ := passed
  refine ⟨true, ⟨readable, isReadable, ?_⟩, (), rfl, isActive⟩
  rw [isPassing] at rest
  split at rest
  · rename_i free
    rw [if_pos free]
    exact rest
  · rename_i closed
    rw [if_neg closed]
    exact has_mono shrunk legible rest

theorem gateCheck_mono {operation id : String} {ancestor : Resource}
    (shrunk : Covered app store smaller principal.ceiling) (legible : Legible app store id)
    (passed : gateCheck app store now (under principal smaller) operation id ancestor = .ok ()) :
    gateCheck app store now principal operation id ancestor = .ok () := by
  unfold gateCheck at passed ⊢
  split at passed
  · rename_i gated
    rw [if_pos gated]
    simp only [Program.except_bind_ok, require_ok] at passed ⊢
    obtain ⟨held, asked, isHeld⟩ := passed
    rw [isHeld] at asked
    exact ⟨true, has_mono shrunk legible asked, rfl⟩
  · rename_i open_
    rw [if_neg open_]

theorem writeGate_mono {check : Check} {operation id : String} {chain : List Resource}
    (shrunk : Covered app store smaller principal.ceiling) (legible : Legible app store id)
    (passed : writeGate app store now (under principal smaller) check operation id chain = .ok ()) :
    writeGate app store now principal check operation id chain = .ok () := by
  unfold writeGate at passed ⊢
  split at passed
  · rename_i writing
    rw [if_pos writing]
    simp only [Program.except_bind_ok, require_ok, Program.except_forM_ok] at passed ⊢
    obtain ⟨_, subject, gates⟩ := passed
    exact ⟨(), subject, fun ancestor member => gateCheck_mono shrunk legible (gates ancestor member)⟩
  · rename_i reading
    rw [if_neg reading]

/-- The only rule of a check that looks at the ceiling is the one of `certgate`. -/
theorem checkAllowed_same {row : Resource} {members : List String} {check : Check}
    {operation : String} {shared : Bool} (plain : check ≠ .certgate) :
    checkAllowed app store now (under principal smaller) row members check operation shared =
      checkAllowed app store now principal row members check operation shared := by
  cases check <;> first | rfl | exact absurd rfl plain

theorem finalCheck_mono {row : Resource} {members : List String} {check : Check}
    {operation : String} {shared presentationEdit : Bool}
    (shrunk : Covered app store smaller principal.ceiling) (legible : Legible app store row.id)
    (outputs : OutputsLegible app store principal row.id)
    (passed : finalCheck app store now (under principal smaller) row members check operation shared
      presentationEdit = .ok ()) :
    finalCheck app store now principal row members check operation shared presentationEdit =
      .ok () := by
  simp only [finalCheck, Program.except_bind_ok] at passed ⊢
  obtain ⟨allowed, isAllowed, plain, isPlain, rest⟩ := passed
  split at rest
  · rename_i both
    -- The rule itself allows it, and so does a base capability.
    obtain ⟨own, base⟩ := Bool.and_eq_true_iff.mp both
    subst base
    refine ⟨allowed, ?_, true, ordinaryOrOutput_mono shrunk legible outputs isPlain, ?_⟩
    · by_cases gate : check = .certgate
      · subst gate
        have held : allowed = true := by simpa using own
        subst held
        exact has_mono shrunk legible isAllowed
      · rwa [checkAllowed_same gate] at isAllowed
    · rw [if_pos both]
      rfl
  · -- An override allows it, and the certificates behind it have been read.
    simp only [Program.except_bind_ok, require_ok] at rest
    obtain ⟨override, asked, isOverride⟩ := rest
    subst isOverride
    have gate : check ≠ .certgate := by
      rintro rfl
      cases asked
    rw [checkAllowed_same gate] at isAllowed
    unfold overridden at asked
    cases capability : overrideCapability check with
    | none => simp [capability] at asked
    | some capability' =>
        simp only [capability] at asked
        obtain ⟨isCurrent, held⟩ := has_read asked
        obtain ⟨answer, larger⟩ : Answers
            (ordinaryOrOutput app store now principal row check operation) :=
          ordinaryOrOutput_answers legible outputs isCurrent held
        refine ⟨allowed, isAllowed, answer, larger, ?_⟩
        split
        · rfl
        · simp only [Program.except_bind_ok, require_ok]
          refine ⟨true, ?_, rfl⟩
          simp only [overridden, capability]
          exact has_mono shrunk legible asked

theorem csrCheck_mono {row : Resource} {operation : String}
    (shrunk : Covered app store smaller principal.ceiling) (legible : Legible app store row.id)
    (passed : csrCheck app store now (under principal smaller) row operation = .ok ()) :
    csrCheck app store now principal row operation = .ok () := by
  simp only [csrCheck, Program.except_bind_ok, require_ok] at passed ⊢
  obtain ⟨request, found, _, issuer, held, asked, isHeld⟩ := passed
  rw [isHeld] at asked
  exact ⟨request, found, (), issuer, true, has_mono shrunk legible asked, rfl⟩

theorem modeCheck_mono {row : Resource} {above : List Resource} {members : List String}
    {check : Check} {operation : String} {presentationEdit : Bool}
    (shrunk : Covered app store smaller principal.ceiling)
    (climbed : ancestors app store row.id = .ok above)
    (outputs : OutputsLegible app store principal row.id)
    (passed : modeCheck app store now (under principal smaller) row above members check operation
      presentationEdit = .ok ()) :
    modeCheck app store now principal row above members check operation presentationEdit =
      .ok () := by
  have legible : Legible app store row.id := ⟨above, climbed⟩
  simp only [modeCheck, Program.except_bind_ok, require_ok, Program.except_forM_ok] at passed ⊢
  obtain ⟨tool, access, _, isTool, shared, reads, _, traversed, _, gated, decided⟩ := passed
  have sameTool : toolAccess app store now principal row operation = .ok tool := by
    unfold toolAccess at access ⊢
    split at access
    · rename_i toolType
      rw [if_pos toolType]
      have held := isTool toolType
      subst held
      exact has_mono shrunk legible access
    · rename_i otherType
      rw [if_neg otherType]
      exact access
  refine ⟨tool, sameTool, (), isTool, shared, reads, (), ?_, (),
    writeGate_mono shrunk legible gated, ?_⟩
  · intro ancestor member
    exact traversalCheck_mono shrunk (ancestors_above climbed member) (traversed ancestor member)
  · unfold controlledCheck at decided ⊢
    have sameSubject : (under principal smaller).subject = principal.subject := rfl
    rw [sameSubject] at decided
    split at decided
    · rename_i toolType
      rw [if_pos toolType]
      exact decided
    · rename_i otherType
      rw [if_neg otherType]
      split at decided
      · rename_i request
        rw [if_pos request]
        exact csrCheck_mono shrunk legible decided
      · rename_i ordinaryType
        rw [if_neg ordinaryType]
        exact finalCheck_mono shrunk legible outputs decided

theorem requireCheck_mono {context : Context} {requestName : Option String}
    {members : List String} {check : AccessRequirement}
    (shrunk : Covered app store smaller context.principal.ceiling)
    (outputs : ∀ row, resource app store check.resourceId = .ok row →
      OutputsLegible app store context.principal row.id)
    (passed : requireCheck app store now (context.under smaller) requestName members check =
      .ok ()) :
    requireCheck app store now context requestName members check = .ok () := by
  simp only [requireCheck, Program.except_bind_ok] at passed ⊢
  obtain ⟨row, found, _, watched, _, saved, _, ceiled, above, climbed, edit, presented, _, wiki, _,
    previewed, _, system, _, legacy, _, personal, _, banned, decided⟩ := passed
  refine ⟨row, found, (), watched, (), saved, (),
    ceiling_mono shrunk ⟨above, climbed⟩ (outputs row found) ceiled, above, climbed, edit, presented,
    (), wiki, (), previewed, (), system, (), legacy, (), personal, (), banned, ?_⟩
  cases first : (above ++ [row]).findSome? fun item => directOf store item.id with
  | some direct =>
      simp only [directOrMode, first] at decided ⊢
      exact decided
  | none =>
      simp only [directOrMode, first] at decided ⊢
      exact modeCheck_mono shrunk climbed (outputs row found) decided

theorem requireAccess_mono {context : Context} {requestName : Option String}
    {checks : List AccessRequirement} {refs : List ResourceRef}
    (shrunk : Covered app store smaller context.principal.ceiling)
    (outputs : ∀ check ∈ checks, ∀ row, resource app store check.resourceId = .ok row →
      OutputsLegible app store context.principal row.id)
    (passed : requireAccess app store now (context.under smaller) requestName checks = .ok refs) :
    requireAccess app store now context requestName checks = .ok refs := by
  simp only [requireAccess, Program.except_bind_ok, Program.except_forM_ok] at passed ⊢
  obtain ⟨_, isCurrent, _, live, _, rooted, _, each, answer⟩ := passed
  exact ⟨(), isCurrent, (), live, (), rooted, (),
    fun check member => requireCheck_mono shrunk (outputs check member) (each check member), answer⟩

/-- Shrinking a credential never grants access: what is refused under a ceiling is refused
under every ceiling within it. -/
theorem ceiling_shrinking_refused (app : App) (store : Store) (now : Nat) (context : Context)
    (requestName : Option String) (checks : List AccessRequirement)
    (smaller : List CapabilityGrant) (shrunk : Covered app store smaller context.principal.ceiling)
    (outputs : ∀ check ∈ checks, ∀ row, resource app store check.resourceId = .ok row →
      OutputsLegible app store context.principal row.id)
    (refused : ∃ failure,
      requireAccess app store now context requestName checks = .error failure) :
    ∃ failure, requireAccess app store now (context.under smaller) requestName checks =
      .error failure := by
  obtain ⟨failure, isRefused⟩ := refused
  cases answered : requireAccess app store now (context.under smaller) requestName checks with
  | error other => exact ⟨other, rfl⟩
  | ok refs =>
      rw [requireAccess_mono shrunk outputs answered] at isRefused
      cases isRefused

/-! A tool output whose tool has lost its place in the tree. -/

def toolGrant (scope : Scope) : CapabilityGrant :=
  ⟨"tool.use", 1, scope, ["discovery.get@1"], []⟩

def issueGrant : CapabilityGrant := ⟨"cert.issue", 1, ⟨"r_root", true⟩, ["cert.publish@1"], []⟩

def toolCertificate (id subject : String) (parent : Option String) (kind : CertificateKind)
    (grants : List CapabilityGrant) (issuance : Option IssuancePolicy) : Certificate :=
  ⟨id, "1", subject, "k_" ++ id, rootSubject, parent, [], kind, grants, 0, 100,
    "https://msg.test", 0, issuance, ⟨"k_" ++ id, "ed25519", id⟩⟩

def toolAnchor : Certificate :=
  toolCertificate "root" rootSubject none .ca [issueGrant]
    (some ⟨[toolGrant ⟨"x_tool", false⟩], 100, 1, 0⟩)

def toolHolder : Certificate :=
  toolCertificate "ann" "u_ann" (some "root") .identity [toolGrant ⟨"x_tool", false⟩] none

def toolInstallation : App :=
  { sampleApp with
    rootCertificate := toolAnchor
    capability := fun _ _ => some ⟨["tool"], ["discovery.get@1"], false, none⟩ }

def toolResource (id type owner : String) (parent : Option String) : Resource :=
  ⟨id, type, 1, id, parent, owner, "g_public", 0o755, 0, none, .active⟩

def toolKey (cert : Certificate) : Credential :=
  ⟨cert.keyId, cert.subjectId, .signingKey, "", [], 0, none, none⟩

/-- `parent` is what the shelf of the tool lies in. -/
def toolStore (parent : Option String) : Store :=
  { Store.empty with
    resources :=
      ⟨[toolResource "r_root" "root" rootSubject none,
        toolResource "ann" "certificate" "u_ann" (some "r_root"),
        toolResource "f_out" "file" "u_ann" (some "r_root"),
        toolResource "x_shelf" "space" rootSubject parent,
        toolResource "x_tool" "tool" rootSubject (some "x_shelf")],
        (by decide : ["r_root", "ann", "f_out", "x_shelf", "x_tool"].Nodup)⟩
    subjects := ⟨[⟨"u_ann", .registered, 0, false⟩], by decide⟩
    credentials := ⟨[toolKey toolAnchor, toolKey toolHolder], by decide⟩
    certificates := ⟨[toolAnchor, toolHolder], by decide⟩
    toolOutputs := [("f_out", ⟨"u_ann", "x_tool"⟩)] }

def toolContext (ceiling : List CapabilityGrant) : Context :=
  ⟨⟨some "u_ann", some "u_ann", some "k_ann", .signature, ["ann"], ceiling⟩, .network, 10⟩

def readOutput : List AccessRequirement := [⟨"f_out", "discovery.get@1", .read⟩]

theorem toolGrant_covered (store : Store) :
    Covered toolInstallation store [toolGrant ⟨"x_tool", false⟩]
      [toolGrant ⟨"x_tool", false⟩, toolGrant ⟨"r_root", true⟩] := by
  intro grant member
  rw [List.mem_singleton.mp member]
  exact ⟨_, List.mem_cons_self, rfl, rfl, fun _ listed => listed,
    (scopeSubset_true _ _).mpr (Or.inl ⟨rfl, fun deep => deep⟩), rfl⟩

/-- In a sound tree both ceilings fail alike: here the certificates have been revoked. -/
theorem ceiling_shrinking_refused_revoked :
    ∃ failure, requireAccess toolInstallation
      { toolStore (some "r_root") with revokedCertificates := ["ann"] } 10
      ((toolContext [toolGrant ⟨"x_tool", false⟩, toolGrant ⟨"r_root", true⟩]).under
        [toolGrant ⟨"x_tool", false⟩]) none readOutput = .error failure :=
  ceiling_shrinking_refused toolInstallation _ 10
    (toolContext [toolGrant ⟨"x_tool", false⟩, toolGrant ⟨"r_root", true⟩]) none readOutput
    [toolGrant ⟨"x_tool", false⟩] (toolGrant_covered _)
    (by
      intro check member row found output isOutput own
      have same : check = ⟨"f_out", "discovery.get@1", .read⟩ := List.mem_singleton.mp member
      subst same
      cases found
      cases isOutput
      exact ⟨_, rfl⟩)
    ⟨_, rfl⟩

/-- The shelf and the tool contain each other: the wider ceiling asks for the chain above
the tool and fails, the exact one does not ask. -/
theorem ceiling_shrinking_granted :
    ¬ ∀ (app : App) (store : Store) (now : Nat) (context : Context) (requestName : Option String)
      (checks : List AccessRequirement) (smaller : List CapabilityGrant),
      Covered app store smaller context.principal.ceiling →
      (∃ failure, requireAccess app store now context requestName checks = .error failure) →
      ∃ failure, requireAccess app store now (context.under smaller) requestName checks =
        .error failure := by
  intro claimed
  obtain ⟨failure, refused⟩ := claimed toolInstallation (toolStore (some "x_tool")) 10
    (toolContext [toolGrant ⟨"x_tool", false⟩, toolGrant ⟨"r_root", true⟩]) none readOutput
    [toolGrant ⟨"x_tool", false⟩] (toolGrant_covered _) ⟨{ code := "parent_cycle" }, rfl⟩
  have granted : requireAccess toolInstallation (toolStore (some "x_tool")) 10
      ((toolContext [toolGrant ⟨"x_tool", false⟩, toolGrant ⟨"r_root", true⟩]).under
        [toolGrant ⟨"x_tool", false⟩]) none readOutput = .ok [{ id := "ann" }] := rfl
  rw [granted] at refused
  cases refused

end MsgServer.Authorization
