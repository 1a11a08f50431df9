import MsgServer.Plugins.EventRuns
import MsgServer.Plugins.Sync

/-!
What one page of synchronisation owes. The losses come first and take exactly what the client
can no longer read out of the seen list; the events follow only where every loss was reported.
The two paths, which test the limit at different places, compute the same up to the bound on
the seen list.
-/

namespace MsgServer.EventLog

open Library Session Authorization

variable {app : Deployment} {db : Database} {reader : Reader} {subject : String} {limit : Nat}

/-- What a client makes of one item: the set of references it mirrors. -/
def mirrorItem (known : List String) : SyncItem → List String
  | .revoked id => known.filter fun other => other != id
  | .change _ _ _ ref => if ref.id ∈ known then known else known ++ [ref.id]

def mirror (known : List String) (items : List SyncItem) : List String :=
  items.foldl mirrorItem known

theorem mirror_append (known : List String) (first rest : List SyncItem) :
    mirror known (first ++ rest) = mirror (mirror known first) rest := by
  rw [mirror, List.foldl_append]
  rfl

theorem mirrorItem_nodup {known : List String} (item : SyncItem) (nodup : known.Nodup) :
    (mirrorItem known item).Nodup := by
  cases item with
  | revoked id => exact nodup.filter _
  | change seq kind type ref =>
      show (if ref.id ∈ known then known else known ++ [ref.id]).Nodup
      by_cases inside : ref.id ∈ known
      · rwa [if_pos inside]
      · rw [if_neg inside]
        refine List.nodup_append.mpr ⟨nodup, List.nodup_singleton _, ?_⟩
        intro other listed last same
        rw [List.mem_singleton.mp same]
        rintro rfl
        exact inside listed

theorem mirror_nodup {known : List String} (items : List SyncItem) (nodup : known.Nodup) :
    (mirror known items).Nodup := by
  induction items generalizing known with
  | nil => exact nodup
  | cons item rest ih => exact ih (mirrorItem_nodup item nodup)

/-- The progress of a page mirrors its items, and keeps to the limit. -/
structure Mirrored (known : List String) (limit : Nat) (state : Progress) : Prop where
  seen : state.seen = mirror known state.items
  nodup : state.seen.Nodup
  bounded : state.items.length ≤ limit

section Losses

theorem revoke_mirrored {known : List String} {state : Progress} {id : String}
    (mirrored : Mirrored known limit state) (room : state.items.length < limit) :
    Mirrored known limit (state.revoke id) := by
  have same : (state.revoke id).seen = mirror known (state.revoke id).items := by
    show state.seen.erase id = mirror known (state.items ++ [.revoked id])
    rw [mirror_append, ← mirrored.seen, mirrored.nodup.erase_eq_filter]
    rfl
  refine ⟨same, mirrored.nodup.erase id, ?_⟩
  show (state.items ++ [SyncItem.revoked id]).length ≤ limit
  rw [List.length_append, List.length_singleton]
  omega

/-- The losses that a loop over some references reported: all of them, unless the page is full. -/
structure Losses (app : Deployment) (db : Database) (reader : Reader) (limit : Nat)
    (ids : List String) (state final : Progress) (lost : List String) : Prop where
  sublist : lost.Sublist ids
  unreadable : ∀ id ∈ lost, canRead app db reader id = .ok false
  items : final.items = state.items ++ lost.map SyncItem.revoked
  complete : final.items.length < limit → ∀ id ∈ ids, canRead app db reader id = .ok false → id ∈ lost

theorem Losses.none {ids : List String} {state : Progress}
    (complete : state.items.length < limit →
      ∀ id ∈ ids, canRead app db reader id = .ok false → id ∈ ([] : List String)) :
    Losses app db reader limit ids state state [] :=
  ⟨List.nil_sublist _, fun _ inside => (nomatch inside), (List.append_nil _).symm, complete⟩

theorem Losses.skip {ids lost : List String} {id : String} {state final : Progress}
    (shown : canRead app db reader id = .ok true)
    (losses : Losses app db reader limit ids state final lost) :
    Losses app db reader limit (id :: ids) state final lost := by
  refine ⟨losses.sublist.cons id, losses.unreadable, losses.items, ?_⟩
  intro room other inside hidden
  rcases List.mem_cons.mp inside with rfl | further
  · cases shown.symm.trans hidden
  · exact losses.complete room other further hidden

theorem Losses.lose {ids lost : List String} {id : String} {state final : Progress}
    (hidden : canRead app db reader id = .ok false)
    (losses : Losses app db reader limit ids (state.revoke id) final lost) :
    Losses app db reader limit (id :: ids) state final (id :: lost) := by
  refine ⟨losses.sublist.cons_cons id, ?_, ?_, ?_⟩
  · intro other inside
    rcases List.mem_cons.mp inside with rfl | further
    · exact hidden
    · exact losses.unreadable other further
  · rw [losses.items]
    show (state.items ++ [SyncItem.revoked id]) ++ _ = _
    rw [List.append_assoc]
    rfl
  · intro room other inside gone
    rcases List.mem_cons.mp inside with rfl | further
    · exact List.mem_cons_self
    · exact List.mem_cons_of_mem _ (losses.complete room other further gone)

theorem inlineRevoke_losses {known ids : List String} {state final : Progress}
    (done : inlineRevoke app db reader limit ids state = .ok final)
    (mirrored : Mirrored known limit state) :
    Mirrored known limit final ∧ ∃ lost, Losses app db reader limit ids state final lost := by
  induction ids generalizing state with
  | nil =>
      cases done
      exact ⟨mirrored, [], .none fun _ _ inside => nomatch inside⟩
  | cons id rest ih =>
      simp only [inlineRevoke, Program.except_bind_ok] at done
      obtain ⟨shown, seen, followed⟩ := done
      cases shown with
      | true =>
          obtain ⟨kept, lost, losses⟩ := ih followed mirrored
          exact ⟨kept, lost, losses.skip seen⟩
      | false =>
          by_cases full : state.items.length = limit
          · simp only [Bool.false_eq_true, if_false, if_pos full, Program.except_pure,
              Except.ok.injEq] at followed
            subst followed
            refine ⟨mirrored, [], .none ?_⟩
            intro room
            omega
          · simp only [Bool.false_eq_true, if_false, if_neg full] at followed
            have room : state.items.length < limit := by
              have := mirrored.bounded
              omega
            obtain ⟨kept, lost, losses⟩ := ih followed (revoke_mirrored mirrored room)
            exact ⟨kept, id :: lost, losses.lose seen⟩

theorem checkpointRevoke_losses {known ids : List String} {state final : Progress}
    (done : checkpointRevoke app db reader limit ids state = .ok final)
    (mirrored : Mirrored known limit state) (room : state.items.length < limit) :
    Mirrored known limit final ∧ ∃ lost, Losses app db reader limit ids state final lost := by
  induction ids generalizing state with
  | nil =>
      cases done
      exact ⟨mirrored, [], .none fun _ _ inside => nomatch inside⟩
  | cons id rest ih =>
      simp only [checkpointRevoke, Program.except_bind_ok] at done
      obtain ⟨shown, seen, followed⟩ := done
      cases shown with
      | true =>
          obtain ⟨kept, lost, losses⟩ := ih followed mirrored room
          exact ⟨kept, lost, losses.skip seen⟩
      | false =>
          have kept : Mirrored known limit (state.revoke id) := revoke_mirrored mirrored room
          by_cases full : limit ≤ (state.revoke id).items.length
          · simp only [Bool.false_eq_true, if_false, if_pos full, Program.except_pure,
              Except.ok.injEq] at followed
            subst followed
            refine ⟨kept, [id], .lose seen (.none ?_)⟩
            intro space
            omega
          · simp only [Bool.false_eq_true, if_false, if_neg full] at followed
            obtain ⟨still, lost, losses⟩ := ih followed kept (by omega)
            exact ⟨still, id :: lost, losses.lose seen⟩

end Losses

section Events

/-- What `sync` shows of one event. -/
def candidatesVerdict (app : Deployment) (source : Database × Reader) (entry : Nat × Event) :
    Except Failure (List SyncItem) := do
  let subject ← subjectOf source.2
  candidates app source.1 source.2 subject entry

theorem candidates_changes {entry : Nat × Event} {found : List SyncItem}
    (asked : candidates app db reader subject entry = .ok found) :
    ∃ refs : List ResourceRef, found = refs.map fun ref =>
      SyncItem.change entry.1 (changeKind entry.2.type) entry.2.type ref := by
  simp only [candidates, Program.except_bind_ok, Program.except_pure, Except.ok.injEq] at asked
  obtain ⟨refs, _, rfl⟩ := asked
  exact ⟨refs, rfl⟩

theorem addSeen_mirror {bound seq : Nat} {kind : ChangeKind} {type : String}
    {refs : List ResourceRef} {seen next : List String}
    (added : addSeen bound (refs.map fun ref => SyncItem.change seq kind type ref) seen = .ok next) :
    next = mirror seen (refs.map fun ref => SyncItem.change seq kind type ref) := by
  induction refs generalizing seen with
  | nil =>
      cases added
      rfl
  | cons ref rest ih =>
      have step : mirror seen ((ref :: rest).map fun ref => SyncItem.change seq kind type ref) =
          mirror (mirrorItem seen (.change seq kind type ref))
            (rest.map fun ref => SyncItem.change seq kind type ref) := rfl
      rw [step, mirrorItem]
      rw [List.map_cons, addSeen] at added
      by_cases inside : ref.id ∈ seen
      · rw [if_pos inside] at added ⊢
        exact ih added
      · rw [if_neg inside] at added ⊢
        obtain ⟨_, _, later⟩ := (Program.except_bind_ok _ _ _).mp added
        exact ih later

theorem syncTurn_taken {bound : Nat} {entry : Nat × Event} {state next : Progress}
    (taken : syncTurn app db reader bound limit subject entry state = .ok (.last next) ∨
      syncTurn app db reader bound limit subject entry state = .ok (.more next)) :
    ∃ found seen, candidates app db reader subject entry = .ok found ∧
      addSeen bound found state.seen = .ok seen ∧
      state.items.length + found.length ≤ limit ∧
      next = ⟨state.items ++ found, seen, state.scanned + 1⟩ := by
  simp only [syncTurn, Program.except_bind_ok] at taken
  rcases taken with ⟨_, _, found, asked, _, _, fitted⟩ | ⟨_, _, found, asked, _, _, fitted⟩
  · by_cases over' : limit < state.items.length + found.length
    · rw [if_pos over'] at fitted
      cases fitted
    · rw [if_neg over'] at fitted
      simp only [Program.except_bind_ok, Program.except_pure, Except.ok.injEq] at fitted
      obtain ⟨_, _, impossible⟩ := fitted
      cases impossible
  · by_cases over' : limit < state.items.length + found.length
    · rw [if_pos over'] at fitted
      cases fitted
    · rw [if_neg over'] at fitted
      simp only [Program.except_bind_ok, Program.except_pure, Except.ok.injEq,
        Feed.Turn.more.injEq] at fitted
      obtain ⟨seen, added, rfl⟩ := fitted
      exact ⟨found, seen, asked, added, by omega, rfl⟩

theorem syncTurn_mirrored {known : List String} {bound : Nat} {entry : Nat × Event}
    {state next : Progress} (mirrored : Mirrored known limit state)
    (taken : syncTurn app db reader bound limit subject entry state = .ok (.last next) ∨
      syncTurn app db reader bound limit subject entry state = .ok (.more next)) :
    Mirrored known limit next := by
  obtain ⟨found, seen, asked, added, fits, rfl⟩ := syncTurn_taken taken
  obtain ⟨refs, rfl⟩ := candidates_changes asked
  have grown := addSeen_mirror added
  have same : seen = mirror known (state.items ++ refs.map fun ref =>
      SyncItem.change entry.1 (changeKind entry.2.type) entry.2.type ref) := by
    rw [mirror_append, ← mirrored.seen, ← grown]
  refine ⟨same, ?_, ?_⟩
  · show seen.Nodup
    rw [grown]
    exact mirror_nodup _ mirrored.nodup
  · rw [List.length_append]
    exact fits

theorem syncScan_page {known : List String} {bound seq stop : Nat} {state final : Progress}
    (isSubject : subjectOf reader = .ok subject) (increasing : Feed.Increasing db.events)
    (mirrored : Mirrored known limit state)
    (done : syncScan app db reader bound limit subject seq state = .ok (stop, final)) :
    Mirrored known limit final ∧ ∃ shown, final.items = state.items ++ shown ∧
      Feed.Faithful (candidatesVerdict app) db.events ⟨(db, reader), seq, stop, shown⟩ := by
  refine ⟨?_, ?_⟩
  · obtain ⟨examined, _, turns, _⟩ := Feed.scan_examined done
    exact turns.keeps (fun entry state next kept taken => syncTurn_mirrored kept taken) mirrored
  · refine Feed.scan_shows Progress.items ?_ increasing (List.prefix_refl _) done
    intro entry state next taken
    obtain ⟨found, seen, asked, _, _, rfl⟩ := syncTurn_taken taken
    refine ⟨found, ?_, rfl⟩
    simp only [candidatesVerdict, Program.except_bind_ok]
    exact ⟨subject, isSubject, asked⟩

end Events

section Pages

/-- The references that the items revoke. -/
def lostOf (items : List SyncItem) : List String :=
  items.filterMap fun item =>
    match item with
    | .revoked id => some id
    | .change _ _ _ _ => none

/-- The items about events. -/
def shownOf (items : List SyncItem) : List SyncItem :=
  items.filter fun item =>
    match item with
    | .revoked _ => false
    | .change _ _ _ _ => true

/-- A page that went from one position and seen list to another. -/
structure SyncPage where
  source : Database × Reader
  limit : Nat
  start : Nat
  before : List String
  items : List SyncItem
  stop : Nat
  after : List String

def SyncPage.events (page : SyncPage) : Feed.Page (Database × Reader) SyncItem :=
  ⟨page.source, page.start, page.stop, shownOf page.items⟩

/-- What a page owes to its client. -/
structure SyncPage.Sound (app : Deployment) (log : Feed.Log Event) (page : SyncPage) : Prop where
  split : page.items = (lostOf page.items).map SyncItem.revoked ++ shownOf page.items
  lost : (lostOf page.items).Sublist page.before
  unreadable : ∀ id ∈ lostOf page.items, canRead app page.source.1 page.source.2 id = .ok false
  complete : shownOf page.items ≠ [] ∨ page.stop ≠ page.start →
    ∀ id ∈ page.before, canRead app page.source.1 page.source.2 id = .ok false →
      id ∈ lostOf page.items
  faithful : Feed.Faithful (candidatesVerdict app) log page.events
  mirrored : page.after = mirror page.before page.items
  nodup : page.after.Nodup
  bounded : page.items.length ≤ page.limit

theorem shownOf_changes {items : List SyncItem}
    (changes : ∀ item ∈ items, ∃ seq kind type ref, item = SyncItem.change seq kind type ref) :
    shownOf items = items ∧ lostOf items = [] := by
  refine ⟨List.filter_eq_self.mpr ?_, List.filterMap_eq_nil_iff.mpr ?_⟩
  · intro item inside
    obtain ⟨_, _, _, _, rfl⟩ := changes item inside
    rfl
  · intro item inside
    obtain ⟨_, _, _, _, rfl⟩ := changes item inside
    rfl

theorem shownOf_split {lost : List String} {shown : List SyncItem}
    (changes : ∀ item ∈ shown, ∃ seq kind type ref, item = SyncItem.change seq kind type ref) :
    shownOf (lost.map SyncItem.revoked ++ shown) = shown ∧
      lostOf (lost.map SyncItem.revoked ++ shown) = lost := by
  obtain ⟨shows, loses⟩ := shownOf_changes changes
  refine ⟨?_, ?_⟩
  · rw [shownOf, List.filter_append]
    show List.filter _ _ ++ shownOf shown = shown
    rw [shows, List.filter_eq_nil_iff.mpr]
    · rfl
    · intro item inside
      obtain ⟨_, _, rfl⟩ := List.mem_map.mp inside
      exact Bool.false_ne_true
  · rw [lostOf, List.filterMap_append]
    show List.filterMap _ _ ++ lostOf shown = lost
    rw [loses, List.append_nil, List.filterMap_map]
    exact List.filterMap_some

theorem faithful_changes {log : Feed.Log Event} {page : Feed.Page (Database × Reader) SyncItem}
    (faithful : Feed.Faithful (candidatesVerdict app) log page) :
    ∀ item ∈ page.items, ∃ seq kind type ref, item = SyncItem.change seq kind type ref ∧
      page.start < seq ∧ seq ≤ page.stop := by
  intro item inside
  rw [faithful.items] at inside
  obtain ⟨entry, within, shown⟩ := List.mem_flatMap.mp inside
  obtain ⟨found, judged⟩ := faithful.examined entry within
  rw [judged] at shown
  simp only [candidatesVerdict, Program.except_bind_ok] at judged
  obtain ⟨_, _, asked⟩ := judged
  obtain ⟨refs, rfl⟩ := candidates_changes asked
  obtain ⟨ref, _, rfl⟩ := List.mem_map.mp shown
  exact ⟨_, _, _, _, rfl, (Feed.mem_between.mp within).2⟩

/-- The losses of a page and the events after them, put together. -/
theorem page_sound {seq stop : Nat} {seen lost : List String} {revoked final : Progress}
    {shown : List SyncItem} (losses : Losses app db reader limit seen ⟨[], seen, 0⟩ revoked lost)
    (mirrored : Mirrored seen limit final) (grown : final.items = revoked.items ++ shown)
    (faithful : Feed.Faithful (candidatesVerdict app) db.events ⟨(db, reader), seq, stop, shown⟩)
    (room : shown ≠ [] ∨ stop ≠ seq → revoked.items.length < limit) :
    SyncPage.Sound app db.events ⟨(db, reader), limit, seq, seen, final.items, stop, final.seen⟩ := by
  have shape : final.items = lost.map SyncItem.revoked ++ shown := by
    rw [grown, losses.items]
    rfl
  have changes : ∀ item ∈ shown, ∃ seq kind type ref, item = SyncItem.change seq kind type ref := by
    intro item inside
    obtain ⟨number, kind, type, ref, same, _⟩ := faithful_changes faithful item inside
    exact ⟨number, kind, type, ref, same⟩
  obtain ⟨shows, loses⟩ := @shownOf_split lost shown changes
  rw [← shape] at shows loses
  refine ⟨?_, ?_, ?_, ?_, ?_, mirrored.seen, mirrored.nodup, mirrored.bounded⟩
  · rw [shows, loses]
    exact shape
  · rw [loses]
    exact losses.sublist
  · rw [loses]
    exact losses.unreadable
  · rw [shows, loses]
    exact fun went => losses.complete (room went)
  · show Feed.Faithful _ _ ⟨(db, reader), seq, stop, shownOf final.items⟩
    rw [shows]
    exact faithful

theorem faithful_still (seq : Nat) :
    Feed.Faithful (candidatesVerdict app) db.events ⟨(db, reader), seq, seq, []⟩ := by
  refine ⟨Nat.le_refl _, Or.inl rfl, ?_, ?_⟩
  · intro entry within
    rw [show Feed.between _ _ _ = [] from Feed.between_same seq db.events] at within
    cases within
  · rw [show Feed.between _ _ _ = [] from Feed.between_same seq db.events]
    rfl

theorem inlineDelta_sound {seq stop : Nat} {seen : List String} {final : Progress}
    (isSubject : subjectOf reader = .ok subject) (increasing : Feed.Increasing db.events)
    (nodup : seen.Nodup) (done : inlineDelta app db reader subject limit seq seen = .ok (stop, final)) :
    SyncPage.Sound app db.events ⟨(db, reader), limit, seq, seen, final.items, stop, final.seen⟩ := by
  simp only [inlineDelta, Program.except_bind_ok] at done
  obtain ⟨revoked, loses, scanned⟩ := done
  obtain ⟨mirrored, lost, losses⟩ := inlineRevoke_losses loses ⟨rfl, nodup, Nat.zero_le _⟩
  by_cases room : revoked.items.length < limit
  · rw [if_pos room] at scanned
    obtain ⟨kept, shown, grown, faithful⟩ := syncScan_page isSubject increasing mirrored scanned
    exact page_sound losses kept grown faithful fun _ => room
  · rw [if_neg room] at scanned
    cases scanned
    exact page_sound losses mirrored (List.append_nil _).symm (faithful_still seq)
      fun went => absurd went (by simp)

theorem checkpointDelta_sound {body : SyncState} {delta : Delta} (positive : 1 ≤ limit)
    (isSubject : subjectOf reader = .ok subject) (increasing : Feed.Increasing db.events)
    (nodup : body.seen.Nodup) (done : checkpointDelta app db reader subject body limit = .ok delta) :
    SyncPage.Sound app db.events
        ⟨(db, reader), limit, body.seq, body.seen, delta.items, delta.updated.seq, delta.updated.seen⟩ ∧
      delta.updated = body.moved delta.updated.seq delta.updated.seen ∧
      delta.stale = staleFor app db subject body ∧
      (delta.stale = true → delta.updated.seq = body.seq) := by
  simp only [checkpointDelta, Program.except_bind_ok, Program.except_pure, Except.ok.injEq,
    Prod.exists] at done
  obtain ⟨_, _, revoked, loses, stop, final, followed, rfl⟩ := done
  obtain ⟨mirrored, lost, losses⟩ :=
    checkpointRevoke_losses loses ⟨rfl, nodup, Nat.zero_le _⟩ positive
  have still : SyncPage.Sound app db.events
      ⟨(db, reader), limit, body.seq, body.seen, revoked.items, body.seq, revoked.seen⟩ :=
    page_sound losses mirrored (List.append_nil _).symm (faithful_still body.seq)
      fun went => absurd went (by simp)
  unfold checkpointEvents at followed
  by_cases stale : staleFor app db subject body = true
  · rw [if_pos stale] at followed
    obtain ⟨_, _, same⟩ := (Program.except_bind_ok _ _ _).mp followed
    cases same
    exact ⟨still, rfl, rfl, fun _ => rfl⟩
  · rw [if_neg stale] at followed
    by_cases room : revoked.items.length < limit
    · rw [if_pos room] at followed
      obtain ⟨kept, shown, grown, faithful⟩ := syncScan_page isSubject increasing mirrored followed
      exact ⟨page_sound losses kept grown faithful fun _ => room, rfl, rfl,
        fun holds => absurd holds stale⟩
    · rw [if_neg room] at followed
      cases followed
      exact ⟨still, rfl, rfl, fun _ => rfl⟩

end Pages

section Agreement

def resyncRequired : Failure := { code := "resync_required" }

theorem revoke_full {ids : List String} {state : Progress} (full : state.items.length = limit)
    (determined : ∀ id ∈ ids, ∃ shown, canRead app db reader id = .ok shown) :
    inlineRevoke app db reader limit ids state = .ok state := by
  induction ids with
  | nil => rfl
  | cons id rest ih =>
      obtain ⟨shown, read⟩ := determined id List.mem_cons_self
      have later := ih fun other inside => determined other (List.mem_cons_of_mem _ inside)
      rw [inlineRevoke, read, Program.except_ok_bind]
      cases shown with
      | true => exact later
      | false =>
          rw [if_neg Bool.false_ne_true, if_pos full]
          rfl

/-- The two loops over the seen references stop at the same one. -/
theorem revoke_agrees {ids : List String} {state : Progress} (room : state.items.length < limit)
    (determined : ∀ id ∈ ids, ∃ shown, canRead app db reader id = .ok shown) :
    inlineRevoke app db reader limit ids state = checkpointRevoke app db reader limit ids state := by
  induction ids generalizing state with
  | nil => rfl
  | cons id rest ih =>
      obtain ⟨shown, read⟩ := determined id List.mem_cons_self
      have others : ∀ other ∈ rest, ∃ shown, canRead app db reader other = .ok shown :=
        fun other inside => determined other (List.mem_cons_of_mem _ inside)
      have longer : (state.revoke id).items.length = state.items.length + 1 := by
        show (state.items ++ [SyncItem.revoked id]).length = _
        rw [List.length_append, List.length_singleton]
      rw [inlineRevoke, checkpointRevoke, read, Program.except_ok_bind, Program.except_ok_bind]
      cases shown with
      | true => exact ih room others
      | false =>
          rw [if_neg Bool.false_ne_true, if_neg Bool.false_ne_true, if_neg (by omega)]
          by_cases full : limit ≤ (state.revoke id).items.length
          · rw [if_pos full]
            exact revoke_full (by omega) others
          · rw [if_neg full]
            exact ih (by omega) others

section Bounds

variable {bound wider : Nat}

theorem addSeen_grows {items : List SyncItem} {seen next : List String}
    (added : addSeen bound items seen = .ok next) : seen.length ≤ next.length := by
  induction items generalizing seen with
  | nil =>
      cases added
      exact Nat.le_refl _
  | cons item rest ih =>
      cases item with
      | revoked id => exact ih added
      | change seq kind type ref =>
          rw [addSeen] at added
          by_cases inside : ref.id ∈ seen
          · rw [if_pos inside] at added
            exact ih added
          · rw [if_neg inside] at added
            obtain ⟨_, _, later⟩ := (Program.except_bind_ok _ _ _).mp added
            have := ih later
            rw [List.length_append, List.length_singleton] at this
            omega

theorem addSeen_wider (order : bound ≤ wider) (items : List SyncItem) (seen : List String) :
    addSeen bound items seen = addSeen wider items seen ∨
      (addSeen bound items seen = .error resyncRequired ∧
        ∀ next, addSeen wider items seen = .ok next → bound < next.length) := by
  induction items generalizing seen with
  | nil => exact Or.inl rfl
  | cons item rest ih =>
      cases item with
      | revoked id => exact ih seen
      | change seq kind type ref =>
          rw [addSeen, addSeen]
          by_cases inside : ref.id ∈ seen
          · rw [if_pos inside, if_pos inside]
            exact ih seen
          · rw [if_neg inside, if_neg inside]
            by_cases fits : seen.length < bound
            · rw [require_true _ fits, require_true _ (Nat.lt_of_lt_of_le fits order)]
              exact ih (seen ++ [ref.id])
            · refine Or.inr ⟨?_, ?_⟩
              · have refused : require (seen.length < bound) "resync_required" =
                    .error resyncRequired := (require_error _ _ _).mpr ⟨fits, rfl⟩
                rw [refused]
                rfl
              · intro next added
                obtain ⟨_, _, later⟩ := (Program.except_bind_ok _ _ _).mp added
                have := addSeen_grows later
                rw [List.length_append, List.length_singleton] at this
                omega

theorem syncTurn_wider (order : bound ≤ wider) {entry : Nat × Event} {state : Progress} :
    syncTurn app db reader bound limit subject entry state =
        syncTurn app db reader wider limit subject entry state ∨
      (syncTurn app db reader bound limit subject entry state = .error resyncRequired ∧
        ((∃ failure, syncTurn app db reader wider limit subject entry state = .error failure) ∨
          ∃ next, syncTurn app db reader wider limit subject entry state = .ok (.more next) ∧
            bound < next.seen.length)) := by
  unfold syncTurn
  cases require (state.scanned + 1 ≤ 5000) "resync_required" with
  | error failure => exact Or.inl rfl
  | ok _ =>
      cases candidates app db reader subject entry with
      | error failure => exact Or.inl rfl
      | ok found =>
          simp only [Program.except_ok_bind]
          cases require (found.length ≤ limit) "resync_required" with
          | error failure => exact Or.inl rfl
          | ok _ =>
              simp only [Program.except_ok_bind]
              by_cases deferred : limit < state.items.length + found.length
              · rw [if_pos deferred, if_pos deferred]
                exact Or.inl rfl
              · rw [if_neg deferred, if_neg deferred]
                rcases addSeen_wider order found state.seen with same | ⟨refused, grows⟩
                · rw [same]
                  exact Or.inl rfl
                · refine Or.inr ⟨by rw [refused]; rfl, ?_⟩
                  cases added : addSeen wider found state.seen with
                  | error failure => exact Or.inl ⟨failure, rfl⟩
                  | ok next => exact Or.inr ⟨_, rfl, grows next added⟩

theorem syncTurn_grows {entry : Nat × Event} {state next : Progress}
    (long : bound < state.seen.length)
    (taken : syncTurn app db reader wider limit subject entry state = .ok (.last next) ∨
      syncTurn app db reader wider limit subject entry state = .ok (.more next)) :
    bound < next.seen.length := by
  obtain ⟨found, seen, _, added, _, rfl⟩ := syncTurn_taken taken
  have := addSeen_grows added
  show bound < seen.length
  omega

/-- A wider bound changes the scan only where the narrower one was met. -/
theorem scan_wider (order : bound ≤ wider) {rows : Feed.Log Event} {seq : Nat} {state : Progress} :
    Feed.scan (syncTurn app db reader bound limit subject) rows seq state =
        Feed.scan (syncTurn app db reader wider limit subject) rows seq state ∨
      (Feed.scan (syncTurn app db reader bound limit subject) rows seq state = .error resyncRequired ∧
        ∀ stop final, Feed.scan (syncTurn app db reader wider limit subject) rows seq state =
          .ok (stop, final) → bound < final.seen.length) := by
  induction rows generalizing seq state with
  | nil => exact Or.inl rfl
  | cons entry rest ih =>
      rw [Feed.scan, Feed.scan]
      rcases @syncTurn_wider app db reader subject limit bound wider order entry state with
        same | ⟨refused, other⟩
      · rw [same]
        cases syncTurn app db reader wider limit subject entry state with
        | error failure => exact Or.inl rfl
        | ok turn =>
            cases turn with
            | defer => exact Or.inl rfl
            | last next => exact Or.inl rfl
            | more next => exact ih
      · rw [refused]
        refine Or.inr ⟨rfl, ?_⟩
        intro stop final done
        rcases other with ⟨failure, failed⟩ | ⟨next, taken, long⟩
        · rw [failed] at done
          cases done
        · rw [taken] at done
          obtain ⟨examined, _, turns, _⟩ := Feed.scan_examined done
          exact turns.keeps (fun entry state next kept took => syncTurn_grows kept took) long

end Bounds

/-- The inline page under another bound on the seen list than its own. -/
def inlineUnder (app : Deployment) (db : Database) (reader : Reader) (bound : Nat)
    (subject : String) (limit seq : Nat) (seen : List String) : Except Failure (Nat × Progress) := do
  let revoked ← inlineRevoke app db reader limit seen ⟨[], seen, 0⟩
  if revoked.items.length < limit then syncScan app db reader bound limit subject seq revoked
  else return (seq, revoked)

theorem inlineUnder_wider {seq : Nat} {seen : List String} :
    inlineDelta app db reader subject limit seq seen =
        inlineUnder app db reader 10000 subject limit seq seen ∨
      (inlineDelta app db reader subject limit seq seen = .error resyncRequired ∧
        ∀ stop final, inlineUnder app db reader 10000 subject limit seq seen = .ok (stop, final) →
          64 < final.seen.length) := by
  unfold inlineDelta inlineUnder
  cases inlineRevoke app db reader limit seen ⟨[], seen, 0⟩ with
  | error failure => exact Or.inl rfl
  | ok revoked =>
      simp only [Program.except_ok_bind]
      by_cases room : revoked.items.length < limit
      · rw [if_pos room, if_pos room]
        exact scan_wider (by decide)
      · rw [if_neg room, if_neg room]
        exact Or.inl rfl

/-- The body of a checkpoint that stands where an inline cursor of the present authority does. -/
def sameBody (app : Deployment) (db : Database) (subject : String) (start : SyncStart) : SyncState :=
  ⟨start.seq, start.seen, watchHash app db subject, db.authorizationEpoch, topicHash app db subject⟩

theorem checkpointDelta_under {start : SyncStart} (positive : 1 ≤ limit)
    (determined : ∀ id ∈ start.seen, ∃ shown, canRead app db reader id = .ok shown) :
    checkpointDelta app db reader subject (sameBody app db subject start) limit =
      (inlineUnder app db reader 10000 subject limit start.seq start.seen).map fun reached =>
        ⟨reached.2.items, (sameBody app db subject start).moved reached.1 reached.2.seen, false⟩ := by
  have fresh : staleFor app db subject (sameBody app db subject start) = false := by
    simp [staleFor, sameBody]
  have loops : inlineRevoke app db reader limit start.seen ⟨[], start.seen, 0⟩ =
      checkpointRevoke app db reader limit start.seen ⟨[], start.seen, 0⟩ :=
    revoke_agrees positive determined
  have watched : require ((sameBody app db subject start).watchDigest = watchHash app db subject)
      "resync_required" = .ok () := require_true _ rfl
  unfold checkpointDelta inlineUnder
  rw [watched, Program.except_ok_bind, fresh]
  show (checkpointRevoke app db reader limit start.seen ⟨[], start.seen, 0⟩ >>= _) = _
  rw [← loops]
  cases inlineRevoke app db reader limit start.seen ⟨[], start.seen, 0⟩ with
  | error failure => rfl
  | ok revoked =>
      simp only [Program.except_ok_bind, checkpointEvents, fresh, Bool.false_eq_true, if_false]
      by_cases room : revoked.items.length < limit
      · rw [if_pos room, if_pos room]
        show (syncScan app db reader 10000 limit subject start.seq revoked >>= _) = _
        cases syncScan app db reader 10000 limit subject start.seq revoked <;> rfl
      · rw [if_neg room, if_neg room]
        rfl

/-- The bounds of the inline cursor that a page would exceed. -/
def TooLarge (app : Deployment) (db : Database) (reader : Reader) (subject : String)
    (start : SyncStart) (delta : Delta) : Prop :=
  64 < delta.updated.seen.length ∨ 4096 < app.seenBytes delta.updated.seen ∨
    min 8192 app.maxPathBytes < "/_r/s/".length + app.tokenLength
      (inlineToken app db reader subject start delta.updated.seq
        ⟨⟨subject, delta.updated.seq, start.expiresAt⟩, delta.updated.seen⟩)

theorem inlinePage_reached {start : SyncStart} {delta : Delta} {stop : Nat} {final : Progress}
    (isDelta : delta = ⟨final.items, (sameBody app db subject start).moved stop final.seen, false⟩)
    (reached : inlineDelta app db reader subject limit start.seq start.seen = .ok (stop, final)) :
    inlinePage app db reader subject limit start = .ok (.page delta.items
        (inlineToken app db reader subject start delta.updated.seq
          ⟨⟨subject, delta.updated.seq, start.expiresAt⟩, delta.updated.seen⟩)) ∨
      (inlinePage app db reader subject limit start = .error resyncRequired ∧
        TooLarge app db reader subject start delta) := by
  subst isDelta
  unfold inlinePage sealSyncSeen
  rw [reached, Program.except_ok_bind]
  show (_ >>= _) = _ ∨ (_ >>= _) = _ ∧ _
  by_cases few : final.seen.length ≤ 64
  · rw [require_true _ few, Program.except_ok_bind]
    by_cases short : app.seenBytes final.seen ≤ 4096
    · rw [require_true _ short]
      simp only [Program.except_ok_bind, Program.except_pure]
      by_cases fits : "/_r/s/".length + app.tokenLength (inlineToken app db reader subject start stop
          ⟨⟨subject, stop, start.expiresAt⟩, final.seen⟩) ≤ min 8192 app.maxPathBytes
      · rw [require_true _ fits]
        exact Or.inl rfl
      · rw [(require_error _ _ _).mpr ⟨fits, rfl⟩]
        exact Or.inr ⟨rfl, Or.inr (Or.inr (Nat.lt_of_not_le fits))⟩
    · rw [(require_error _ _ _).mpr ⟨short, rfl⟩]
      exact Or.inr ⟨rfl, Or.inr (Or.inl (Nat.lt_of_not_le short))⟩
  · rw [(require_error _ _ _).mpr ⟨few, rfl⟩]
    exact Or.inr ⟨rfl, Or.inl (Nat.lt_of_not_le few)⟩

end Agreement

/-- From one position and seen list and under one authority, the inline page and the delta of a
checkpoint show the same items and reach the same position and seen list, or fail alike; only
that the inline page may answer `resync_required` by the bound on its own seen list or token. -/
theorem inline_checkpoint_agree (app : Deployment) (db : Database) (reader : Reader)
    (subject : String) (start : SyncStart) (limit : Nat)
    (allowed : 1 ≤ limit ∧ limit ≤ 100)
    (determined : ∀ id ∈ start.seen, ∃ shown, canRead app db reader id = .ok shown) :
    (∃ delta token, checkpointDelta app db reader subject (sameBody app db subject start) limit =
          .ok delta ∧
        inlinePage app db reader subject limit start = .ok (.page delta.items token) ∧
        token = inlineToken app db reader subject start delta.updated.seq
          ⟨⟨subject, delta.updated.seq, start.expiresAt⟩, delta.updated.seen⟩) ∨
      (∃ delta, checkpointDelta app db reader subject (sameBody app db subject start) limit =
          .ok delta ∧
        inlinePage app db reader subject limit start = .error resyncRequired ∧
        TooLarge app db reader subject start delta) ∨
      ∃ failure, checkpointDelta app db reader subject (sameBody app db subject start) limit =
          .error failure ∧
        (inlinePage app db reader subject limit start = .error failure ∨
          (inlinePage app db reader subject limit start = .error resyncRequired ∧
            inlineDelta app db reader subject limit start.seq start.seen ≠
              inlineUnder app db reader 10000 subject limit start.seq start.seen)) := by
  rw [checkpointDelta_under allowed.1 determined]
  have fails : ∀ failure, inlineDelta app db reader subject limit start.seq start.seen =
      .error failure → inlinePage app db reader subject limit start = .error failure := by
    intro failure failed
    unfold inlinePage
    rw [failed]
    rfl
  rcases @inlineUnder_wider app db reader subject limit start.seq start.seen with same | ⟨refused, long⟩
  · cases wide : inlineUnder app db reader 10000 subject limit start.seq start.seen with
    | error failure => exact Or.inr (Or.inr ⟨failure, rfl, Or.inl (fails failure (same.trans wide))⟩)
    | ok reached =>
        obtain ⟨delta, isDelta⟩ : ∃ delta : Delta, delta = ⟨reached.2.items,
            (sameBody app db subject start).moved reached.1 reached.2.seen, false⟩ := ⟨_, rfl⟩
        rcases inlinePage_reached isDelta (same.trans wide) with shown | large
        · exact Or.inl ⟨delta, _, congrArg Except.ok isDelta.symm, shown, rfl⟩
        · exact Or.inr (Or.inl ⟨delta, congrArg Except.ok isDelta.symm, large⟩)
  · cases wide : inlineUnder app db reader 10000 subject limit start.seq start.seen with
    | error failure =>
        refine Or.inr (Or.inr ⟨failure, rfl, ?_⟩)
        by_cases alike : failure = resyncRequired
        · exact Or.inl (alike ▸ fails _ refused)
        · refine Or.inr ⟨fails _ refused, ?_⟩
          rw [refused]
          intro equal
          cases equal
          exact alike rfl
    | ok reached =>
        exact Or.inr (Or.inl ⟨_, rfl, fails _ refused, Or.inl (long reached.1 reached.2 wide)⟩)

/-- A reader that has seen a reference which is gone, and events of its own. -/
theorem inline_checkpoint_agree_sample :
    let start : SyncStart := ⟨0, ["p_gone"], 1000, 0, ""⟩
    (∃ delta token, checkpointDelta sampleDeployment sampleDatabase sampleReader "u_alice"
          (sameBody sampleDeployment sampleDatabase "u_alice" start) 1 = .ok delta ∧
        inlinePage sampleDeployment sampleDatabase sampleReader "u_alice" 1 start =
          .ok (.page delta.items token) ∧
        token = inlineToken sampleDeployment sampleDatabase sampleReader "u_alice" start
          delta.updated.seq ⟨⟨"u_alice", delta.updated.seq, 1000⟩, delta.updated.seen⟩) ∨
      (∃ delta, checkpointDelta sampleDeployment sampleDatabase sampleReader "u_alice"
          (sameBody sampleDeployment sampleDatabase "u_alice" start) 1 = .ok delta ∧
        inlinePage sampleDeployment sampleDatabase sampleReader "u_alice" 1 start =
          .error resyncRequired ∧
        TooLarge sampleDeployment sampleDatabase sampleReader "u_alice" start delta) ∨
      ∃ failure, checkpointDelta sampleDeployment sampleDatabase sampleReader "u_alice"
          (sameBody sampleDeployment sampleDatabase "u_alice" start) 1 = .error failure ∧
        (inlinePage sampleDeployment sampleDatabase sampleReader "u_alice" 1 start = .error failure ∨
          (inlinePage sampleDeployment sampleDatabase sampleReader "u_alice" 1 start =
              .error resyncRequired ∧
            inlineDelta sampleDeployment sampleDatabase sampleReader "u_alice" 1 0 ["p_gone"] ≠
              inlineUnder sampleDeployment sampleDatabase sampleReader 10000 "u_alice" 1 0
                ["p_gone"])) :=
  inline_checkpoint_agree sampleDeployment sampleDatabase sampleReader "u_alice"
    ⟨0, ["p_gone"], 1000, 0, ""⟩ 1 ⟨by decide, by decide⟩ (by
      intro id inside
      rw [List.mem_singleton.mp inside]
      exact ⟨false, by decide +kernel⟩)

end MsgServer.EventLog
