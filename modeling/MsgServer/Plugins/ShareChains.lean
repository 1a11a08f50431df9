import MsgServer.Plugins.Sharing

/-!
A grant that the authorizer treats as active stands at the end of a chain of live
grants that starts with the owner. The chain is found by following source links when
somebody reads; a new grant is only compared with the chain of its source, and the
reader follows 16 links at most.
-/

namespace MsgServer.Sharing

open Library Session Policy Authorization ResourceTree

variable {app : App} {store next : Store} {now : Nat} {row : Resource}

/-! What a chain is. -/

/-- A grant of this resource that has neither been revoked nor expired. -/
structure InForce (store : Store) (now : Nat) (row : Resource) (grant : ShareGrantV2) : Prop where
  stored : storedGrant store grant.id = some grant
  onResource : grant.resourceId = row.id
  unrevoked : grant.revokedAt = none
  unexpired : ∃ expires, grant.expiresAt = some expires ∧ now < expires

/-- A child never outlives its source. -/
def outlived (grant source : ShareGrantV2) : Prop :=
  ∀ own bound, grant.expiresAt = some own → source.expiresAt = some bound → own ≤ bound

/-- Every link of the chain is in force, every source may be handed on and holds for the
subject that handed it on, and the first grant is one of the present owner. -/
inductive SourceChain (app : App) (store : Store) (now : Nat) (row : Resource) :
    ShareGrantV2 → Prop
  | owned {grant : ShareGrantV2} (force : InForce store now row grant)
      (first : grant.parentId = none) (owner : grant.grantor = row.owner) :
      SourceChain app store now row grant
  | reshared {grant source : ShareGrantV2} (force : InForce store now row grant)
      (link : grant.parentId = some source.id) (above : SourceChain app store now row source)
      (allowed : source.allowReshare = true) (earlier : outlived grant source)
      (handed : granteeHolds app store source (some grant.grantor) = .ok true) :
      SourceChain app store now row grant

/-- The grants that a chain of links leads to, whatever has become of them. -/
inductive Above (store : Store) : String → ShareGrantV2 → Prop
  | self {id : String} {grant : ShareGrantV2} (found : storedGrant store id = some grant) :
      Above store id grant
  | link {id parent : String} {grant ancestor : ShareGrantV2}
      (found : storedGrant store id = some grant) (source : grant.parentId = some parent)
      (above : Above store parent ancestor) : Above store id ancestor

/-- Revoked, expired, or a first grant of somebody who does not own the resource any more. -/
def Dead (now : Nat) (row : Resource) (grant : ShareGrantV2) : Prop :=
  grant.revokedAt ≠ none ∨ (∀ expires, grant.expiresAt = some expires → expires ≤ now) ∨
    (grant.parentId = none ∧ grant.grantor ≠ row.owner)

/-- The chain of a source ends within so many grants. -/
def sourced (store : Store) : Nat → Option String → Bool
  | _, none => true
  | 0, some _ => false
  | left + 1, some id =>
      match storedGrant store id with
      | none => false
      | some grant => sourced store left grant.parentId

theorem storedGrant_id {id : String} {grant : ShareGrantV2}
    (found : storedGrant store id = some grant) : grant.id = id := by
  simpa using List.find?_some found

theorem Above.stored {id : String} {ancestor : ShareGrantV2} (above : Above store id ancestor) :
    storedGrant store ancestor.id = some ancestor := by
  induction above with
  | self found =>
      rw [storedGrant_id found]
      exact found
  | link found source above ih => exact ih

theorem SourceChain.force {grant : ShareGrantV2} (chain : SourceChain app store now row grant) :
    InForce store now row grant := by
  cases chain with
  | owned force first owner => exact force
  | reshared force link above allowed earlier handed => exact force

/-- Nothing above a live grant is dead. -/
theorem SourceChain.alive {id : String} {grant ancestor : ShareGrantV2}
    (found : storedGrant store id = some grant) (chain : SourceChain app store now row grant)
    (above : Above store id ancestor) : ¬ Dead now row ancestor := by
  induction above generalizing grant with
  | @self id other foundHere =>
      rw [found] at foundHere
      cases foundHere
      rintro (revoked | expired | ⟨isFirst, stranger⟩)
      · exact revoked chain.force.unrevoked
      · obtain ⟨expires, isExpiry, later⟩ := chain.force.unexpired
        have := expired expires isExpiry
        omega
      · cases chain with
        | owned force first owner => exact stranger owner
        | reshared force link above allowed earlier handed =>
            rw [isFirst] at link
            cases link
  | @link id parent other ancestor foundHere source above ih =>
      rw [found] at foundHere
      cases foundHere
      cases chain with
      | owned force first owner =>
          rw [first] at source
          cases source
      | @reshared _ next force link higher allowed earlier handed =>
          rw [link] at source
          cases source
          exact ih higher.force.stored higher

/-! The loop follows one path. -/

/-- The ids that the loop visits when it succeeds. -/
inductive Walk (app : App) (store : Store) (now : Nat) (row : Resource) :
    String → Option String → Option Nat → Bool → List String → Prop
  | owned {id : String} {subject : Option String} {child : Option Nat} {reshare : Bool}
      {grant : ShareGrantV2} {expires : Nat} (found : storedGrant store id = some grant)
      (apt : grant.resourceId = row.id ∧ grant.revokedAt = none)
      (times : grantTimes now grant child reshare = some expires)
      (holds : granteeHolds app store grant subject = .ok true) (first : grant.parentId = none)
      (owner : grant.grantor = row.owner) : Walk app store now row id subject child reshare [id]
  | source {id parent : String} {subject : Option String} {child : Option Nat} {reshare : Bool}
      {grant : ShareGrantV2} {expires : Nat} {ids : List String}
      (found : storedGrant store id = some grant)
      (apt : grant.resourceId = row.id ∧ grant.revokedAt = none)
      (times : grantTimes now grant child reshare = some expires)
      (holds : granteeHolds app store grant subject = .ok true)
      (link : grant.parentId = some parent)
      (above : Walk app store now row parent (some grant.grantor) (some expires) true ids) :
      Walk app store now row id subject child reshare (id :: ids)

/-- One turn of the loop. -/
theorem loop_succ (left : Nat) (seen : List String) (id : String) (subject : Option String)
    (child : Option Nat) (reshare : Bool) :
    shareSourceLoop app store now (left + 1) seen row id subject child reshare = .ok true ↔
      id ∉ seen ∧ ∃ grant expires, storedGrant store id = some grant ∧
        (grant.resourceId = row.id ∧ grant.revokedAt = none) ∧
        grantTimes now grant child reshare = some expires ∧
        granteeHolds app store grant subject = .ok true ∧
        ((grant.parentId = none ∧ grant.grantor = row.owner) ∨
          ∃ parent, grant.parentId = some parent ∧
            shareSourceLoop app store now left (id :: seen) row parent (some grant.grantor)
              (some expires) true = .ok true) := by
  rw [shareSourceLoop]
  by_cases visited : id ∈ seen
  · simp [visited]
  · rw [if_neg visited]
    show (match storedGrant store id with
      | none => _
      | some grant => _) = _ ↔ _
    cases found : storedGrant store id with
    | none => simp
    | some grant =>
        by_cases apt : grant.resourceId = row.id ∧ grant.revokedAt = none
        · have checked : ¬ (grant.resourceId ≠ row.id ∨ grant.revokedAt ≠ none) := by
            rintro (other | revoked)
            · exact other apt.1
            · exact revoked apt.2
          simp only [if_neg checked]
          cases times : grantTimes now grant child reshare with
          | none => simp [times]
          | some expires =>
              simp only [Program.except_bind_ok]
              constructor
              · rintro ⟨holds, held, rest⟩
                cases holds with
                | false => cases rest
                | true =>
                    refine ⟨visited, grant, expires, rfl, apt, times, held, ?_⟩
                    cases link : grant.parentId with
                    | none =>
                        simp only [link] at rest
                        exact Or.inl ⟨rfl, by simpa using rest⟩
                    | some parent =>
                        simp only [link] at rest
                        exact Or.inr ⟨parent, rfl, by simpa using rest⟩
              · rintro ⟨_, other, until_, same, _, sameTimes, held, rest⟩
                cases same
                rw [times] at sameTimes
                cases sameTimes
                refine ⟨true, held, ?_⟩
                rcases rest with ⟨first, owner⟩ | ⟨parent, link, later⟩
                · simp [first, owner]
                · simp [link, later]
        · have refused : grant.resourceId ≠ row.id ∨ grant.revokedAt ≠ none := by
            by_cases onResource : grant.resourceId = row.id
            · exact Or.inr fun unrevoked => apt ⟨onResource, unrevoked⟩
            · exact Or.inl onResource
          simp only [if_pos refused]
          constructor
          · intro absurd
            cases absurd
          · rintro ⟨_, other, _, same, isApt, _⟩
            cases same
            exact absurd isApt apt

/-- The loop succeeds when its path is short enough and meets no id twice. -/
theorem loop_walk {left : Nat} {seen : List String} {id : String} {subject : Option String}
    {child : Option Nat} {reshare : Bool} :
    shareSourceLoop app store now left seen row id subject child reshare = .ok true ↔
      ∃ ids, Walk app store now row id subject child reshare ids ∧ ids.length ≤ left ∧
        ids.Nodup ∧ ∀ visited ∈ ids, visited ∉ seen := by
  induction left generalizing seen id subject child reshare with
  | zero =>
      rw [shareSourceLoop]
      constructor
      · intro absurd
        cases absurd
      · rintro ⟨ids, walk, short, _⟩
        cases walk <;> simp at short
  | succ left ih =>
      rw [loop_succ]
      constructor
      · rintro ⟨fresh, grant, expires, found, apt, times, holds, ⟨first, owner⟩ | ⟨parent, link,
          later⟩⟩
        · exact ⟨[id], .owned found apt times holds first owner, by simp, by simp, by simpa⟩
        · obtain ⟨ids, walk, short, distinct, apart⟩ := ih.mp later
          refine ⟨id :: ids, .source found apt times holds link walk, ?_, ?_, ?_⟩
          · exact Nat.succ_le_succ short
          · exact List.nodup_cons.mpr ⟨fun inside => apart id inside List.mem_cons_self, distinct⟩
          · intro visited member
            rcases List.mem_cons.mp member with rfl | later
            · exact fresh
            · exact fun old => apart visited later (List.mem_cons_of_mem _ old)
      · rintro ⟨ids, walk, short, distinct, apart⟩
        cases walk with
        | @owned _ _ _ _ grant expires found apt times holds first owner =>
            exact ⟨apart id List.mem_cons_self, grant, expires, found, apt, times, holds,
              Or.inl ⟨first, owner⟩⟩
        | @source _ parent _ _ _ grant expires rest found apt times holds link above =>
            obtain ⟨once, distinctRest⟩ := List.nodup_cons.mp distinct
            refine ⟨apart id List.mem_cons_self, grant, expires, found, apt, times, holds,
              Or.inr ⟨parent, link, ih.mpr ⟨rest, above, ?_, distinctRest, ?_⟩⟩⟩
            · exact Nat.le_of_succ_le_succ short
            · intro visited member old
              rcases List.mem_cons.mp old with rfl | earlier
              · exact once member
              · exact apart visited (List.mem_cons_of_mem _ member) earlier

/-- The path is given by the links alone. -/
theorem Walk.unique {id : String} {subject subject' : Option String} {child child' : Option Nat}
    {reshare reshare' : Bool} {ids ids' : List String}
    (walk : Walk app store now row id subject child reshare ids)
    (other : Walk app store now row id subject' child' reshare' ids') : ids = ids' := by
  induction walk generalizing subject' child' reshare' ids' with
  | owned found apt times holds first owner =>
      cases other with
      | owned foundOther => rfl
      | source foundOther _ _ _ link above =>
          rw [found] at foundOther
          cases foundOther
          rw [first] at link
          cases link
  | source found apt times holds link above ih =>
      cases other with
      | owned foundOther _ _ _ first owner =>
          rw [found] at foundOther
          cases foundOther
          rw [first] at link
          cases link
      | source foundOther _ _ _ linkOther aboveOther =>
          rw [found] at foundOther
          cases foundOther
          rw [link] at linkOther
          cases linkOther
          rw [ih aboveOther]

theorem Walk.sourced {id : String} {subject : Option String} {child : Option Nat}
    {reshare : Bool} {ids : List String} (walk : Walk app store now row id subject child reshare ids)
    (left : Nat) : sourced store left (some id) = true ↔ ids.length ≤ left := by
  induction walk generalizing left with
  | owned found apt times holds first owner =>
      cases left with
      | zero => simp [Sharing.sourced]
      | succ left => simp [Sharing.sourced, found, first]
  | source found apt times holds link above ih =>
      cases left with
      | zero => simp [Sharing.sourced]
      | succ left => simp [Sharing.sourced, found, link, ih left]

theorem Walk.inForce {id : String} {grant : ShareGrantV2} {child : Option Nat} {reshare : Bool}
    {expires : Nat} (found : storedGrant store id = some grant)
    (apt : grant.resourceId = row.id ∧ grant.revokedAt = none)
    (times : grantTimes now grant child reshare = some expires) :
    InForce store now row grant ∧ grant.expiresAt = some expires ∧
      (reshare = true → grant.allowReshare = true) ∧ ∀ own, child = some own → own ≤ expires := by
  unfold grantTimes at times
  split at times
  · rename_i until_ created isExpiry isCreation
    split at times
    · rename_i passed
      cases times
      obtain ⟨_, _, _, later, _, earlier, allowed⟩ := passed
      refine ⟨⟨?_, apt.1, apt.2, expires, isExpiry, later⟩, isExpiry, allowed, earlier⟩
      rw [storedGrant_id found]
      exact found
    · cases times
  · cases times

/-- What the authorizer accepts is a chain of live grants. -/
theorem Walk.chain {id : String} {subject : Option String} {child : Option Nat} {reshare : Bool}
    {ids : List String} (walk : Walk app store now row id subject child reshare ids) :
    ∃ grant expires, storedGrant store id = some grant ∧ SourceChain app store now row grant ∧
      grant.expiresAt = some expires ∧ (reshare = true → grant.allowReshare = true) ∧
      (∀ own, child = some own → own ≤ expires) ∧
      granteeHolds app store grant subject = .ok true := by
  induction walk with
  | owned found apt times holds first owner =>
      obtain ⟨force, isExpiry, allowed, earlier⟩ := Walk.inForce found apt times
      exact ⟨_, _, found, .owned force first owner, isExpiry, allowed, earlier, holds⟩
  | source found apt times holds link above ih =>
      obtain ⟨force, isExpiry, allowed, earlier⟩ := Walk.inForce found apt times
      obtain ⟨source, bound, foundSource, chain, isBound, mayReshare, limits, handed⟩ := ih
      rw [← storedGrant_id foundSource] at link
      refine ⟨_, _, found, .reshared force link chain (mayReshare rfl) ?_ handed, isExpiry,
        allowed, earlier, holds⟩
      intro own limit isOwn isLimit
      rw [isExpiry, Option.some.injEq] at isOwn
      rw [isBound, Option.some.injEq] at isLimit
      rw [← isOwn, ← isLimit]
      exact limits _ rfl

theorem active_walk {subject : Option String} {id : String}
    (active : shareSourceActive app store now row subject id = .ok true) :
    ∃ ids, Walk app store now row id subject none false ids := by
  simp only [shareSourceActive, Program.except_bind_ok] at active
  obtain ⟨_, _, forbidden, _, looped⟩ := active
  cases forbidden with
  | true => cases looped
  | false =>
      obtain ⟨ids, walk, _⟩ := loop_walk.mp looped
      exact ⟨ids, walk⟩

/-! A new grant. -/

/-- The source was read without a child; the new grant is one that expires no later. -/
theorem Walk.narrowed {id : String} {subject : Option String} {ids : List String} {expires : Nat}
    (walk : Walk app store now row id subject none true ids)
    (earlier : ∀ source, storedGrant store id = some source →
      ∀ bound, source.expiresAt = some bound → expires ≤ bound) :
    Walk app store now row id subject (some expires) true ids := by
  have narrow : ∀ (grant : ShareGrantV2) (until_ : Nat), storedGrant store id = some grant →
      grantTimes now grant none true = some until_ →
        grantTimes now grant (some expires) true = some until_ := by
    intro grant until_ found times
    unfold grantTimes at times ⊢
    split at times
    · rename_i bound created isBound isCreation
      have child := earlier grant found bound isBound
      split at times
      · rename_i passed
        rw [if_pos]
        · exact times
        · obtain ⟨operations, constraints, before, later, ordered, _, allowed⟩ := passed
          refine ⟨operations, constraints, before, later, ordered, ?_, allowed⟩
          intro own isOwn
          cases isOwn
          exact child
      · cases times
    · cases times
  cases walk with
  | owned found apt times holds first owner =>
      exact .owned found apt (narrow _ _ found times) holds first owner
  | source found apt times holds link above =>
      exact .source found apt (narrow _ _ found times) holds link above

def withGrant (store : Store) (made : ShareGrantV2) : Store :=
  { store with shareGrantsV2 := store.shareGrantsV2 ++ [made] }

theorem storedGrant_made {made : ShareGrantV2} (fresh : storedGrant store made.id = none) :
    storedGrant (withGrant store made) made.id = some made := by
  simp only [storedGrant, withGrant] at fresh ⊢
  rw [List.find?_append, fresh]
  simp

theorem storedGrant_kept {made grant : ShareGrantV2} {id : String}
    (found : storedGrant store id = some grant) :
    storedGrant (withGrant store made) id = some grant := by
  simp only [storedGrant, withGrant] at found ⊢
  rw [List.find?_append, found]
  rfl

/-- A further grant changes nothing for the chains that were there. -/
theorem Walk.kept {made : ShareGrantV2} {id : String} {subject : Option String}
    {child : Option Nat} {reshare : Bool} {ids : List String}
    (walk : Walk app store now row id subject child reshare ids) :
    Walk app (withGrant store made) now row id subject child reshare ids := by
  induction walk with
  | owned found apt times holds first owner =>
      exact .owned (storedGrant_kept found) apt times holds first owner
  | source found apt times holds link above ih =>
      exact .source (storedGrant_kept found) apt times holds link ih

theorem Walk.stored {id : String} {subject : Option String} {child : Option Nat} {reshare : Bool}
    {ids : List String} (walk : Walk app store now row id subject child reshare ids) :
    ∀ visited ∈ ids, ∃ grant, storedGrant store visited = some grant := by
  induction walk with
  | owned found apt times holds first owner =>
      intro visited member
      rw [List.mem_singleton.mp member]
      exact ⟨_, found⟩
  | source found apt times holds link above ih =>
      intro visited member
      rcases List.mem_cons.mp member with rfl | later
      · exact ⟨_, found⟩
      · exact ih visited later

/-- What an accepted request was found to be. -/
structure Accepted (app : App) (store : Store) (request : GrantRequest) (row : Resource)
    (made : ShareGrantV2) : Prop where
  stored : store.resources.find? row.id = some row
  target : ∃ above, ancestors app store row.id = .ok above ∧
    shareTargetError app store row (above ++ [row]) = .ok false
  fresh : storedGrant store made.id = none
  apt : made.resourceId = row.id ∧ made.revokedAt = none
  grantor : request.context.principal.subject = some made.grantor
  rights : made.operations = ["read"] ∧ made.constraints = []
  times : made.createdAt = some request.context.now ∧
    ∃ expires, made.expiresAt = some expires ∧ request.context.now < expires
  source : (made.parentId = none ∧ request.sourceGrantId = none ∧ made.grantor = row.owner) ∨
    ∃ parent, made.parentId = some parent ∧ request.sourceGrantId = some parent ∧
      reshareActive app store request.context.now row (some made.grantor) parent = .ok true ∧
      ∀ source, storedGrant store parent = some source → outlived made source

theorem sharable_ok {principal : Principal} {operation value : String}
    (done : sharable app store now principal operation value = .ok row) :
    store.resources.find? row.id = some row ∧ ∃ above, ancestors app store row.id = .ok above ∧
      shareTargetError app store row (above ++ [row]) = .ok false := by
  simp only [sharable, Program.except_bind_ok, require_ok, Program.except_pure,
    Except.ok.injEq] at done
  obtain ⟨id, resolved, row, atId, _, _, _, _, _, _, _, _, _, _, above, climbed, forbidden, asked,
    _, clear, rfl⟩ := done
  obtain ⟨stored, member, rfl⟩ := resolve_stored resolved
  have same := resource_self member atId
  subst same
  subst clear
  exact ⟨(Table.mem_iff_find? _ row).mp member, above, climbed, asked⟩

theorem readSource_ok {request : GrantRequest} {expires : Nat} {parent : String} {done : Unit}
    (read : readSource app store row request expires parent = .ok done) :
    reshareActive app store request.context.now row request.context.principal.subject parent =
      .ok true ∧ ∀ source, storedGrant store parent = some source →
        ∀ bound, source.expiresAt = some bound → expires ≤ bound := by
  simp only [readSource, Program.except_bind_ok, requireRow_ok, require_ok] at read
  obtain ⟨source, found, active, resharing, _, isActive, inside⟩ := read
  subst isActive
  refine ⟨resharing, ?_⟩
  intro other atParent bound isBound
  rw [atParent, Option.filter_eq_some_iff] at found
  cases found.1
  have limit := inside.1
  rw [isBound] at limit
  simpa using limit

theorem grantV2_ok {request : GrantRequest} {made : ShareGrantV2}
    (done : grantV2 app store request = .ok (next, made)) :
    next = withGrant store made ∧ ∃ row, Accepted app store request row made := by
  simp only [grantV2, insertGrant, Program.except_bind_ok, require_ok, requireRow_ok,
    Program.except_pure, Except.ok.injEq, Prod.mk.injEq] at done
  obtain ⟨row, shared, _, rights, grantee, _, expires, _, _, ⟨later, _⟩, parent, inherited, grantor,
    isGrantor, _, ⟨_, ⟨fresh, _⟩, rfl⟩, rfl, rfl⟩ := done
  obtain ⟨found, target⟩ := sharable_ok shared
  refine ⟨rfl, row, found, target, fresh, ⟨rfl, rfl⟩, isGrantor, rights,
    ⟨rfl, expires, rfl, later⟩, ?_⟩
  unfold readParent at inherited
  split at inherited
  · rename_i own
    simp only [Program.except_bind_ok, require_ok, Program.except_pure, Except.ok.injEq] at inherited
    obtain ⟨_, unsourced, _, _, rfl⟩ := inherited
    rw [isGrantor] at own
    exact Or.inl ⟨rfl, unsourced, Option.some.inj own⟩
  · simp only [Program.except_bind_ok, requireRow_ok, Program.except_pure,
      Except.ok.injEq] at inherited
    obtain ⟨source, isSource, _, read, rfl⟩ := inherited
    obtain ⟨active, bounded⟩ := readSource_ok read
    rw [isGrantor] at active
    refine Or.inr ⟨source, rfl, isSource, active, ?_⟩
    rintro other found own bound ⟨⟩ isBound
    exact bounded other found bound isBound

theorem reshare_walk {subject : Option String} {id : String}
    (active : reshareActive app store now row subject id = .ok true) :
    ∃ ids, Walk app store now row id subject none true ids ∧ ids.Nodup := by
  simp only [reshareActive, Program.except_bind_ok] at active
  obtain ⟨_, _, forbidden, _, looped⟩ := active
  cases forbidden with
  | true => cases looped
  | false =>
      obtain ⟨ids, walk, _, distinct, _⟩ := loop_walk.mp looped
      exact ⟨ids, walk, distinct⟩

/-- The loop is all that is left to ask about a new grant. -/
theorem Accepted.looped {request : GrantRequest} {made : ShareGrantV2}
    (accepted : Accepted app store request row made) (subject : Option String) :
    shareSourceActive app (withGrant store made) now row subject made.id = .ok true ↔
      shareSourceLoop app (withGrant store made) now 16 [] row made.id subject none false =
        .ok true := by
  obtain ⟨above, climbed, clear⟩ := accepted.target
  have sameAbove : ancestors app (withGrant store made) row.id = .ok above := by
    rw [ancestors_congr (show (withGrant store made).resources = store.resources from rfl)]
    exact climbed
  have sameTarget : shareTargetError app (withGrant store made) row (above ++ [row]) = .ok false :=
    clear
  simp only [shareSourceActive, sameAbove, Program.except_ok_bind, sameTarget]
  rfl

theorem Accepted.grantTimes {request : GrantRequest} {made : ShareGrantV2}
    (accepted : Accepted app store request row made) :
    ∃ expires, made.expiresAt = some expires ∧
      grantTimes request.context.now made none false = some expires := by
  obtain ⟨created, expires, isExpiry, later⟩ := accepted.times
  refine ⟨expires, isExpiry, ?_⟩
  simp [Authorization.grantTimes, isExpiry, created, accepted.rights.1, accepted.rights.2, later]

/-- A new grant is active when it is made if its source stands within 15 grants of the
owner; one link further and the reader, who follows 16, never reaches the owner. -/
theorem Accepted.active {request : GrantRequest} {made : ShareGrantV2}
    (accepted : Accepted app store request row made) {subject : Option String}
    (holds : granteeHolds app (withGrant store made) made subject = .ok true) :
    shareSourceActive app (withGrant store made) request.context.now row subject made.id =
        .ok true ↔ sourced store 15 request.sourceGrantId = true := by
  obtain ⟨expires, isExpiry, times⟩ := accepted.grantTimes
  have found := storedGrant_made accepted.fresh
  rw [accepted.looped, loop_walk]
  rcases accepted.source with ⟨first, unsourced, owner⟩ | ⟨parent, link, isSource, active, bounded⟩
  · have walk : Walk app (withGrant store made) request.context.now row made.id subject none false
        [made.id] := .owned found accepted.apt times holds first owner
    rw [unsourced]
    constructor
    · intro _
      simp [sourced]
    · intro _
      exact ⟨_, walk, by simp, by simp, by simp⟩
  · obtain ⟨ids, above, distinct⟩ := reshare_walk active
    have limited : ∀ source, storedGrant store parent = some source →
        ∀ bound, source.expiresAt = some bound → expires ≤ bound :=
      fun source stored bound isBound => bounded source stored expires bound isExpiry isBound
    have walk : Walk app (withGrant store made) request.context.now row made.id subject none false
        (made.id :: ids) :=
      .source found accepted.apt times holds link (above.narrowed limited).kept
    have fresh : made.id ∉ ids := by
      intro inside
      obtain ⟨grant, stored⟩ := above.stored made.id inside
      rw [accepted.fresh] at stored
      cases stored
    rw [isSource, above.sourced]
    constructor
    · rintro ⟨others, other, short, _⟩
      rw [← walk.unique other, List.length_cons] at short
      omega
    · intro short
      refine ⟨_, walk, ?_, List.nodup_cons.mpr ⟨fresh, distinct⟩, by simp⟩
      rw [List.length_cons]
      omega

/-! Revocation. -/

theorem storedGrant_revoked (store : Store) (now : Nat) (id wanted : String) :
    storedGrant { store with shareGrantsV2 := store.shareGrantsV2.map (revokeRow now id) } wanted =
      (storedGrant store wanted).map (revokeRow now id) := by
  have keeps : (fun grant => grant.id == wanted) ∘ revokeRow now id =
      fun grant => grant.id == wanted := by
    funext grant
    simp only [Function.comp_apply, revokeRow]
    split <;> rfl
  simp only [storedGrant, List.find?_map, keeps]

theorem revokeV2_ok {request : RevokeRequest} (done : revokeV2 app store request = .ok next) :
    (∃ grant, storedGrant store request.grantId = some grant) ∧
      next = { store with
        shareGrantsV2 := store.shareGrantsV2.map (revokeRow request.context.now request.grantId) } := by
  simp only [revokeV2, Program.except_bind_ok, requireRow_ok, require_ok, Prod.exists,
    Program.except_pure, Except.ok.injEq] at done
  obtain ⟨grant, found, _, _, _, _, _, _, _, rfl⟩ := done
  exact ⟨⟨grant, found⟩, rfl⟩

/-- A grant that has been revoked. -/
def Revoked (id : String) (store : Store) : Prop :=
  ∃ grant, storedGrant store id = some grant ∧ grant.revokedAt ≠ none

theorem revokeRow_revoked {grant : ShareGrantV2} {id : String} (revoked : grant.revokedAt ≠ none) :
    (revokeRow now id grant).revokedAt ≠ none := by
  unfold revokeRow
  split
  · simp
  · exact revoked

theorem revoked_now {request : RevokeRequest} (done : revokeV2 app store request = .ok next) :
    Revoked request.grantId next := by
  obtain ⟨⟨grant, found⟩, rfl⟩ := revokeV2_ok done
  refine ⟨revokeRow request.context.now request.grantId grant, ?_, ?_⟩
  · rw [storedGrant_revoked, found]
    rfl
  · unfold revokeRow
    split
    · simp
    · rename_i refused
      intro unrevoked
      exact refused ⟨storedGrant_id found, unrevoked⟩

/-- No step undoes a revocation. -/
theorem revoked_step {id : String} (steps : SharingStep) (revoked : Revoked id store) :
    Revoked id (step app steps store) := by
  obtain ⟨grant, found, gone⟩ := revoked
  cases done : attempt app store steps with
  | error failure =>
      rw [step, done]
      exact ⟨grant, found, gone⟩
  | ok changed =>
      rw [step, done]
      cases steps with
      | grant request =>
          simp only [attempt, Program.except_bind_ok, Prod.exists, Program.except_pure,
            Except.ok.injEq] at done
          obtain ⟨next, made, granted, rfl⟩ := done
          obtain ⟨rfl, _⟩ := grantV2_ok granted
          exact ⟨grant, storedGrant_kept found, gone⟩
      | revoke request =>
          obtain ⟨_, rfl⟩ := revokeV2_ok done
          refine ⟨revokeRow request.context.now request.grantId grant, ?_, revokeRow_revoked gone⟩
          have mapped := storedGrant_revoked store request.context.now request.grantId id
          rw [found] at mapped
          exact mapped
      | rest change =>
          cases done
          exact ⟨grant, found, gone⟩

/-! Whole runs. -/

/-- The grants that the authorizer treats as active, in one state. -/
structure ChainsLive (app : App) (store : Store) : Prop where
  chained : ∀ now row subject id, shareSourceActive app store now row subject id = .ok true →
    ∃ grant, storedGrant store id = some grant ∧ SourceChain app store now row grant
  disabled : ∀ now row subject id ancestor, Above store id ancestor → Dead now row ancestor →
    shareSourceActive app store now row subject id ≠ .ok true

theorem chains_live (app : App) (store : Store) : ChainsLive app store := by
  have chained : ∀ now row subject id,
      shareSourceActive app store now row subject id = .ok true →
        ∃ grant, storedGrant store id = some grant ∧ SourceChain app store now row grant := by
    intro now row subject id active
    obtain ⟨ids, walk⟩ := active_walk active
    obtain ⟨grant, _, found, chain, _⟩ := walk.chain
    exact ⟨grant, found, chain⟩
  refine ⟨chained, ?_⟩
  intro now row subject id ancestor above dead active
  obtain ⟨grant, found, chain⟩ := chained now row subject id active
  exact chain.alive found above dead

/-- What a run of grants, revocations and other changes leaves. -/
structure SharesKept (app : App) (start : Store) (steps : List SharingStep) : Prop where
  live : ChainsLive app (Run.run (step app) steps start)
  /-- Nothing below a revoked grant is active again. -/
  revoked : ∀ early request later next, steps = early ++ .revoke request :: later →
    revokeV2 app (Run.run (step app) early start) request = .ok next →
      ∀ now row subject id ancestor, Above (Run.run (step app) steps start) id ancestor →
        ancestor.id = request.grantId →
          shareSourceActive app (Run.run (step app) steps start) now row subject id ≠ .ok true
  /-- A grant is active from the start, for everybody it is made to, when its source stands
  within 15 grants of the owner, and only then. -/
  granted : ∀ early request later next made, steps = early ++ .grant request :: later →
    grantV2 app (Run.run (step app) early start) request = .ok (next, made) →
      ∀ row subject, next.resources.find? made.resourceId = some row →
        granteeHolds app next made subject = .ok true →
          (shareSourceActive app next request.context.now row subject made.id = .ok true ↔
            sourced (Run.run (step app) early start) 15 request.sourceGrantId = true)

/-- Re-share chains are live and attenuated in every state of every run. -/
theorem share_chains_live (app : App) (start : Store) (steps : List SharingStep) :
    SharesKept app start steps := by
  refine ⟨chains_live app _, ?_, ?_⟩
  · intro early request later next split done now row subject id ancestor above named
    have gone : Revoked request.grantId (Run.run (step app) steps start) := by
      rw [split, Run.run_append, Run.run_cons]
      apply Run.run_invariant (step app) fun act state => revoked_step act
      rw [step, attempt, done]
      exact revoked_now done
    obtain ⟨grant, found, revokedAt⟩ := gone
    apply (chains_live app _).disabled now row subject id ancestor above
    left
    have stored := above.stored
    rw [named, found] at stored
    cases stored
    exact revokedAt
  · intro early request later next made split done row subject atRow holds
    obtain ⟨rfl, other, accepted⟩ := grantV2_ok done
    have same : row = other := by
      have atRow : (Run.run (step app) early start).resources.find? made.resourceId = some row :=
        atRow
      rw [accepted.apt.1, accepted.stored] at atRow
      exact (Option.some.inj atRow).symm
    subst same
    exact accepted.active holds

/-! Eighteen users hand one post on from each to the next. -/

def sampleUsers : List String :=
  ["u_00", "u_01", "u_02", "u_03", "u_04", "u_05", "u_06", "u_07", "u_08", "u_09", "u_10", "u_11",
    "u_12", "u_13", "u_14", "u_15", "u_16", "u_17"]

def sampleResource (id type : String) (parent : Option String) : Resource :=
  ⟨id, type, 1, id, parent, "u_00", "g_public", 0o755, 0, none, .active⟩

def sampleStart : Store :=
  { Store.empty with
    resources :=
      ⟨sampleResource "r_root" "root" none :: sampleResource "p_note" "post" (some "r_root") ::
        sampleUsers.map fun id => sampleResource id "user" (some "r_root"), by decide⟩
    subjects := ⟨sampleUsers.map fun id => ⟨id, .registered, 0, false⟩, by decide⟩ }

def sampleRequest (grantor grantee : String) (source : Option String) : GrantRequest where
  context :=
    { principal := ⟨some grantor, some grantor, some "k_sample", .signature, [],
        [⟨"communication.basic", 1, ⟨"r_root", true⟩, [grantOperation], []⟩]⟩
      entry := .network
      now := 10 }
  now := 10
  resource := "p_note"
  grantee := grantee
  granteeKind := .user
  operations := ["read"]
  expiresAt := some 1000
  allowReshare := true
  constraints := []
  sourceGrantId := source
  id := "share_" ++ grantee

def handOn : List String → Option String → List SharingStep
  | grantor :: grantee :: rest, source =>
      .grant (sampleRequest grantor grantee source) ::
        handOn (grantee :: rest) (some ("share_" ++ grantee))
  | _, _ => []

def sampleChain : Store :=
  Run.run (step sampleApp) (handOn (sampleUsers.take 17) none) sampleStart

def sampleLast : GrantRequest := sampleRequest "u_16" "u_17" (some "share_u_16")

def sampleMade : ShareGrantV2 :=
  newGrant (sampleResource "p_note" "post" (some "r_root")) sampleLast "u_16" "u_17" 1000
    (some "share_u_16")

theorem sampleLast_done :
    grantV2 sampleApp sampleChain sampleLast = .ok (withGrant sampleChain sampleMade, sampleMade) := by
  have answer : (grantV2 sampleApp sampleChain sampleLast).toOption.map Prod.snd =
      some sampleMade := by decide +kernel
  cases done : grantV2 sampleApp sampleChain sampleLast with
  | error failure =>
      rw [done] at answer
      cases answer
  | ok pair =>
      obtain ⟨next, made⟩ := pair
      rw [done] at answer
      have same : made = sampleMade := Option.some.inj answer
      rw [(grantV2_ok done).1, same]

/-- The seventeenth grant of a chain is made and is never active. -/
theorem deep_grant_inactive : ¬ ∀ (app : App) (start : Store) (steps : List SharingStep)
    (early : List SharingStep) (request : GrantRequest) (later : List SharingStep) (next : Store)
    (made : ShareGrantV2), steps = early ++ .grant request :: later →
      grantV2 app (Run.run (step app) early start) request = .ok (next, made) →
        ∀ row subject, next.resources.find? made.resourceId = some row →
          granteeHolds app next made subject = .ok true →
            shareSourceActive app next request.context.now row subject made.id = .ok true := by
  intro claim
  have active := claim sampleApp sampleStart (handOn sampleUsers none)
    (handOn (sampleUsers.take 17) none) sampleLast [] _ _ rfl sampleLast_done
    (sampleResource "p_note" "post" (some "r_root")) (some "u_17") (by decide +kernel) rfl
  have inactive : (shareSourceActive sampleApp (withGrant sampleChain sampleMade) 10
      (sampleResource "p_note" "post" (some "r_root")) (some "u_17") "share_u_17").toOption =
        some false := by decide +kernel
  have isActive : shareSourceActive sampleApp (withGrant sampleChain sampleMade) 10
      (sampleResource "p_note" "post" (some "r_root")) (some "u_17") "share_u_17" = .ok true := active
  rw [isActive] at inactive
  cases inactive

end MsgServer.Sharing
