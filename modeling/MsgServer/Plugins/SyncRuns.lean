import MsgServer.Plugins.SyncPages

/-!
A client that synchronises, by inline cursors or by a checkpoint that it acknowledges, while
events are committed and everything else of the database changes. What it mirrors is at all
times the seen list that its cursor or its checkpoint carries.
-/

namespace MsgServer.EventLog

open Library Session Authorization

section Machine

/-- The limits that the schema of the request admits. -/
abbrev PageLimit := { limit : Nat // 1 ≤ limit ∧ limit ≤ 100 }

/-- The client holds a cursor and may have a page of its checkpoint that it has not yet
acknowledged; `pages` are those it has taken in. -/
structure Syncing where
  db : Database
  held : Option Token
  pending : Option (SyncPage × Token)
  pages : List SyncPage

inductive SyncAct where
  | commit (seq : Nat) (event : Event)
  | change (next : Database)
  | open' (reader : Reader) (checkpointId : String)
  | page (reader : Reader) (limit : PageLimit)
  | ack (reader : Reader)

/-- The position and the seen list that a cursor stands for. -/
def heldPoint (db : Database) (held : Option Token) : Nat × List String :=
  match held with
  | none => (db.syncFloor, [])
  | some (.syncV2 _ position) => (position.seq, position.seenCiphertext.seen)
  | some (.checkpoint _ position) =>
      match db.checkpoints.find? position.id with
      | some row => (row.body.seq, row.body.seen)
      | none => (0, [])
  | some _ => (0, [])

/-- The position and the seen list that an answer leads to. -/
def tokenPoint (token : Token) : Nat × List String :=
  match token with
  | .syncV2 _ position => (position.seq, position.seenCiphertext.seen)
  | .checkpointAck _ position => (position.digest.state.seq, position.digest.state.seen)
  | _ => (0, [])

/-- The page that an answer with this token shows to the holder of a cursor. -/
def shownPage (db : Database) (held : Option Token) (reader : Reader) (limit : PageLimit)
    (items : List SyncItem) (token : Token) : SyncPage where
  source := (db, reader)
  limit := limit.val
  start := (heldPoint db held).1
  before := (heldPoint db held).2
  items := items
  stop := (tokenPoint token).1
  after := (tokenPoint token).2

variable (app : Deployment)

def syncStep : SyncAct → Syncing → Syncing
  | .commit seq event, state =>
      { state with db := { state.db with events := append state.db.events (seq, event) } }
  | .change next, state =>
      { state with db := { next with
          events := state.db.events
          syncFloor := state.db.syncFloor
          checkpoints := state.db.checkpoints } }
  | .open' reader checkpointId, state =>
      match syncCheckpointOpen app state.db reader checkpointId state.held with
      | .error _ => state
      | .ok (db, opened) => { state with db := db, held := some opened.cursor, pending := none }
  | .page reader limit, state =>
      match sync app state.db reader ⟨state.held.map some, some limit.val⟩ with
      | .error _ => state
      | .ok (.resync _) => state
      | .ok (.page items token) =>
          { state with
            held := some token
            pending := none
            pages := state.pages ++ [shownPage state.db state.held reader limit items token] }
      | .ok (.checkpoint items _ ack _) =>
          { state with
            pending := some (shownPage state.db state.held reader limit items ack, ack) }
  | .ack reader, state =>
      match state.pending with
      | none => state
      | some (page, ack) =>
          match syncCheckpointAck app state.db reader (some ack) with
          | .error _ => state
          | .ok (db, acked) => {
              db := db
              held := some acked.cursor
              pending := none
              pages := state.pages ++ [page] }

end Machine

section Chain

/-- Each page starts where the one before it ended, with the seen list it left. -/
def SyncChained : Nat × List String → List SyncPage → Nat × List String → Prop
  | point, [], reached => reached = point
  | point, page :: rest, reached =>
      (page.start, page.before) = point ∧ SyncChained (page.stop, page.after) rest reached

variable {app : Deployment} {log : Feed.Log Event} {point reached : Nat × List String}
variable {pages : List SyncPage}

theorem syncChained_concat {page : SyncPage} (chained : SyncChained point pages reached)
    (next : (page.start, page.before) = reached) :
    SyncChained point (pages ++ [page]) (page.stop, page.after) := by
  induction pages generalizing point with
  | nil =>
      cases chained
      exact ⟨next, rfl⟩
  | cons first rest ih => exact ⟨chained.1, ih chained.2⟩

theorem syncChained_later {earlier : List SyncPage}
    (chained : SyncChained point (earlier ++ pages) reached) :
    ∃ middle, SyncChained middle pages reached := by
  induction earlier generalizing point with
  | nil => exact ⟨point, chained⟩
  | cons page rest ih => exact ih chained.2

theorem syncChained_feed (chained : SyncChained point pages reached) :
    Feed.Chained point.1 (pages.map SyncPage.events) reached.1 := by
  induction pages generalizing point with
  | nil => exact congrArg Prod.fst chained
  | cons page rest ih => exact ⟨congrArg Prod.fst chained.1, ih chained.2⟩

theorem syncChained_mirror (chained : SyncChained point pages reached)
    (sound : ∀ page ∈ pages, page.Sound app log) :
    mirror point.2 (pages.flatMap SyncPage.items) = reached.2 := by
  induction pages generalizing point with
  | nil => exact (congrArg Prod.snd chained).symm
  | cons page rest ih =>
      have later := ih chained.2 fun other inside => sound other (List.mem_cons_of_mem _ inside)
      have before : page.before = point.2 := congrArg Prod.snd chained.1
      rw [List.flatMap_cons, mirror_append, ← before,
        ← (sound page List.mem_cons_self).mirrored]
      exact later

/-- A reference that no item revokes stays. -/
theorem mem_mirror {known : List String} {items : List SyncItem} {id : String}
    (inside : id ∈ known) (kept : id ∉ lostOf items) : id ∈ mirror known items := by
  induction items generalizing known with
  | nil => exact inside
  | cons item rest ih =>
      cases item with
      | revoked gone =>
          have apart : id ≠ gone ∧ id ∉ lostOf rest := by
            rw [lostOf, List.filterMap_cons] at kept
            exact ⟨fun same => kept (same ▸ List.mem_cons_self),
              fun listed => kept (List.mem_cons_of_mem _ listed)⟩
          have stays : id ∈ known.filter fun other => other != gone :=
            List.mem_filter.mpr ⟨inside, by simpa using apart.1⟩
          exact ih stays apart.2
      | change seq kind type ref =>
          have stays : id ∈ if ref.id ∈ known then known else known ++ [ref.id] := by
            by_cases listed : ref.id ∈ known
            · rwa [if_pos listed]
            · rw [if_neg listed]
              exact List.mem_append_left _ inside
          exact ih stays kept

/-- Where a loss is not made good again, it is reported before any event is shown. -/
theorem loss_first {id : String} (chained : SyncChained point pages reached)
    (sound : ∀ page ∈ pages, page.Sound app log) (seen : id ∈ point.2)
    (hidden : ∀ page ∈ pages, canRead app page.source.1 page.source.2 id = .ok false)
    {first rest : List SyncPage} {last : SyncPage} (split : pages = first ++ last :: rest)
    (shows : shownOf last.items ≠ []) : ∃ page ∈ first ++ [last], id ∈ lostOf page.items := by
  subst split
  induction first generalizing point with
  | nil =>
      have before : last.before = point.2 := congrArg Prod.snd chained.1
      refine ⟨last, List.mem_singleton_self _, ?_⟩
      exact (sound last List.mem_cons_self).complete (Or.inl shows) id (before ▸ seen)
        (hidden last List.mem_cons_self)
  | cons page others ih =>
      have here := sound page List.mem_cons_self
      by_cases reported : id ∈ lostOf page.items
      · exact ⟨page, List.mem_cons_self, reported⟩
      · have before : page.before = point.2 := congrArg Prod.snd chained.1
        have stays : id ∈ page.after := by
          rw [here.mirrored, before]
          exact mem_mirror seen reported
        have tail : SyncChained (page.stop, page.after) (others ++ last :: rest) reached := chained.2
        obtain ⟨found, inside, reports⟩ := ih
          (show id ∈ ((page.stop, page.after) : Nat × List String).2 from stays) tail
          (fun other listed => sound other (List.mem_cons_of_mem _ listed))
          (fun other listed => hidden other (List.mem_cons_of_mem _ listed))
        exact ⟨found, List.mem_cons_of_mem _ inside, reports⟩

def itemSeq : SyncItem → Nat
  | .revoked _ => 0
  | .change seq _ _ _ => seq

theorem Sound.within {page : SyncPage} (sound : page.Sound app log) :
    ∀ item ∈ shownOf page.items, page.start < itemSeq item ∧ itemSeq item ≤ page.stop := by
  intro item inside
  obtain ⟨_, _, _, _, rfl, bounds⟩ := faithful_changes sound.faithful item inside
  exact bounds

theorem syncChained_start (chained : SyncChained point pages reached)
    (sound : ∀ page ∈ pages, page.Sound app log) : ∀ page ∈ pages, point.1 ≤ page.start := by
  induction pages generalizing point with
  | nil =>
      intro page inside
      cases inside
  | cons first rest ih =>
      have begins : first.start = point.1 := congrArg Prod.fst chained.1
      have ordered : first.start ≤ first.stop := (sound first List.mem_cons_self).faithful.ordered
      have later := ih chained.2 fun other inside => sound other (List.mem_cons_of_mem _ inside)
      intro page inside
      rcases List.mem_cons.mp inside with rfl | further
      · omega
      · have : first.stop ≤ page.start := later page further
        omega

/-- No event is shown on two pages, and later pages show later events. -/
theorem syncChained_apart (chained : SyncChained point pages reached)
    (sound : ∀ page ∈ pages, page.Sound app log) :
    pages.Pairwise fun early late => ∀ item ∈ shownOf early.items, ∀ other ∈ shownOf late.items,
      itemSeq item < itemSeq other := by
  induction pages generalizing point with
  | nil => exact .nil
  | cons page rest ih =>
      have later : ∀ other ∈ rest, other.Sound app log :=
        fun other inside => sound other (List.mem_cons_of_mem _ inside)
      refine List.pairwise_cons.mpr ⟨?_, ih chained.2 later⟩
      intro late inside item shown other follows
      have ends := (Sound.within (sound page List.mem_cons_self) item shown).2
      have begins := (Sound.within (later late inside) other follows).1
      have order : page.stop ≤ late.start := syncChained_start chained.2 later late inside
      omega

/-- A page shows each reference that its events list once at most once. -/
theorem Sound.shown_nodup {page : SyncPage} (sound : page.Sound app log)
    (increasing : Feed.Increasing log) (listed : ∀ entry ∈ log, entry.2.resources.Nodup) :
    (shownOf page.items).Nodup := by
  have shape : shownOf page.items = (Feed.between page.start page.stop log).flatMap fun entry =>
      Feed.shown (candidatesVerdict app page.source entry) := sound.faithful.items
  rw [shape]
  have found : ∀ entry ∈ Feed.between page.start page.stop log, ∃ refs : List ResourceRef,
      refs.Nodup ∧ Feed.shown (candidatesVerdict app page.source entry) = refs.map fun ref =>
        SyncItem.change entry.1 (changeKind entry.2.type) entry.2.type ref := by
    intro entry within
    obtain ⟨items, judged⟩ := sound.faithful.examined entry within
    have asked := judged
    simp only [candidatesVerdict, candidates, Program.except_bind_ok, Program.except_pure,
      Except.ok.injEq] at asked
    obtain ⟨_, _, refs, kept, rfl⟩ := asked
    refine ⟨refs, (keep_sublist kept).nodup (listed entry (Feed.mem_between.mp within).1), ?_⟩
    show Feed.shown (candidatesVerdict app page.source entry) = _
    rw [show candidatesVerdict app page.source entry = _ from judged]
    rfl
  refine List.nodup_flatMap.mpr ⟨?_, ?_⟩
  · intro entry within
    obtain ⟨refs, nodup, shows⟩ := found entry within
    rw [shows]
    exact nodup.map fun first second same => by
      injection same
  · refine (Feed.between_increasing increasing).imp_of_mem ?_
    intro early late inEarly inLate order item shownEarly shownLate
    obtain ⟨_, _, early'⟩ := found early inEarly
    obtain ⟨_, _, late'⟩ := found late inLate
    change item ∈ Feed.shown (candidatesVerdict app page.source early) at shownEarly
    change item ∈ Feed.shown (candidatesVerdict app page.source late) at shownLate
    rw [early'] at shownEarly
    rw [late'] at shownLate
    obtain ⟨_, _, rfl⟩ := List.mem_map.mp shownEarly
    obtain ⟨_, _, same⟩ := List.mem_map.mp shownLate
    injection same with numbers
    omega

theorem syncChained_nodup (chained : SyncChained point pages reached)
    (sound : ∀ page ∈ pages, page.Sound app log) (increasing : Feed.Increasing log)
    (listed : ∀ entry ∈ log, entry.2.resources.Nodup) :
    (pages.flatMap fun page => shownOf page.items).Nodup := by
  refine List.nodup_flatMap.mpr ⟨?_, ?_⟩
  · intro page inside
    exact Sound.shown_nodup (sound page inside) increasing listed
  · refine (syncChained_apart chained sound).imp ?_
    intro early late apart item shownEarly shownLate
    have := apart item shownEarly item shownLate
    omega

end Chain

section Answers

variable {app : Deployment} {db : Database} {reader : Reader}

theorem openSyncSeen_ok {sealedSeen : SealedSeen} {context : SeenContext} {seen : List String}
    (opened : openSyncSeen sealedSeen context = .ok seen) :
    seen = sealedSeen.seen ∧ seen.Nodup := by
  simp only [openSyncSeen, Program.except_bind_ok, require_ok, Program.except_pure,
    Except.ok.injEq] at opened
  obtain ⟨_, _, _, ⟨_, _, nodup⟩, rfl⟩ := opened
  exact ⟨rfl, nodup⟩

theorem sealSyncSeen_ok {seen : List String} {context : SeenContext} {sealedSeen : SealedSeen}
    (done : sealSyncSeen app seen context = .ok sealedSeen) : sealedSeen.seen = seen := by
  simp only [sealSyncSeen, Program.except_bind_ok, require_ok, Program.except_pure,
    Except.ok.injEq] at done
  obtain ⟨_, _, _, _, rfl⟩ := done
  rfl

theorem inlineStart_ok {subject : String} {held : Option Token} {start : SyncStart}
    (started : inlineStart app db reader subject (held.map some) = .ok start) :
    (start.seq, start.seen) = heldPoint db held ∧ start.seen.Nodup := by
  cases held with
  | none =>
      cases started
      exact ⟨rfl, List.nodup_nil⟩
  | some token =>
      simp only [Option.map_some, inlineStart, Program.except_bind_ok] at started
      obtain ⟨opened, inspected, matched⟩ := started
      cases inspect_ok inspected
      cases token with
      | syncV2 query position =>
          simp only [Program.except_bind_ok, Program.except_pure, Except.ok.injEq] at matched
          obtain ⟨_, _, _, _, _, _, _, _, _, _, seen, unsealed, rfl⟩ := matched
          obtain ⟨rfl, nodup⟩ := openSyncSeen_ok unsealed
          exact ⟨rfl, nodup⟩
      | events => cases matched
      | sync => cases matched
      | checkpoint => cases matched
      | checkpointAck => cases matched
      | other => cases matched

theorem checkpointRecord_ok {subject : String} {text : Option Token} {row : CheckpointRow}
    (found : checkpointRecord app db reader subject text = .ok row) :
    ∃ query position, text = some (.checkpoint query position) ∧ query = subject ∧
      db.checkpoints.find? position.id = some row ∧ row.id = position.id ∧
      row.version = position.version ∧ row.body.seen.Nodup := by
  simp only [checkpointRecord, Program.except_bind_ok] at found
  obtain ⟨token, inspected, matched⟩ := found
  cases text with
  | none => simp [inspect, requireRow] at inspected
  | some text =>
      cases inspect_ok inspected
      cases token with
      | checkpoint query position =>
          simp only [Program.except_bind_ok, require_ok, requireRow_ok, Program.except_pure,
            Except.ok.injEq] at matched
          obtain ⟨_, rfl, row, stored, _, _, _, version, _, _, _, ⟨_, nodup, _⟩, _, _, rfl⟩ := matched
          exact ⟨_, position, rfl, rfl, stored, Table.find?_key stored, version, nodup⟩
      | events => cases matched
      | sync => cases matched
      | syncV2 => cases matched
      | checkpointAck => cases matched
      | other => cases matched

theorem inlinePage_ok {subject : String} {limit : Nat} {start : SyncStart} {answer : SyncAnswer}
    (answered : inlinePage app db reader subject limit start = .ok answer) :
    ∃ stop final token, inlineDelta app db reader subject limit start.seq start.seen =
        .ok (stop, final) ∧ answer = .page final.items token ∧ tokenPoint token = (stop, final.seen) := by
  simp only [inlinePage, Program.except_bind_ok, Program.except_pure, Except.ok.injEq,
    Prod.exists] at answered
  obtain ⟨stop, final, reached, sealedSeen, done, _, _, rfl⟩ := answered
  refine ⟨stop, final, _, reached, rfl, ?_⟩
  rw [← sealSyncSeen_ok done]
  rfl

theorem inlineSync_ok {subject : String} {held : Option Token} {limit : PageLimit}
    {answer : SyncAnswer} (isSubject : subjectOf reader = .ok subject)
    (increasing : Feed.Increasing db.events)
    (answered : inlineSync app db reader subject ⟨held.map some, some limit.val⟩ = .ok answer) :
    (∃ items, answer = .resync items) ∨
      ∃ items token, answer = .page items token ∧
        (shownPage db held reader limit items token).Sound app db.events ∧
        heldPoint db (some token) = tokenPoint token := by
  simp only [inlineSync, Program.except_bind_ok] at answered
  obtain ⟨start, started, followed⟩ := answered
  obtain ⟨point, nodup⟩ := inlineStart_ok started
  split at followed
  · simp only [inlineStale, Program.except_bind_ok, Program.except_pure, Except.ok.injEq] at followed
    obtain ⟨_, _, _, _, rfl⟩ := followed
    exact Or.inl ⟨_, rfl⟩
  · obtain ⟨stop, final, token, reached, rfl, ends⟩ := inlinePage_ok followed
    refine Or.inr ⟨_, _, rfl, ?_, ?_⟩
    · have sound := inlineDelta_sound isSubject increasing nodup reached
      rw [shownPage, ← point, ends]
      exact sound
    · simp only [inlinePage, Program.except_bind_ok, Program.except_pure, Except.ok.injEq,
        Prod.exists, SyncAnswer.page.injEq] at followed
      obtain ⟨_, _, _, _, _, _, _, _, rfl⟩ := followed
      rfl

theorem checkpointSync_ok {subject : String} {token : Token} {limit : PageLimit}
    {answer : SyncAnswer} (isSubject : subjectOf reader = .ok subject)
    (increasing : Feed.Increasing db.events)
    (answered : checkpointSync app db reader subject token limit.val = .ok answer) :
    ∃ row delta, checkpointRecord app db reader subject (some token) = .ok row ∧
      checkpointDelta app db reader subject row.body limit.val = .ok delta ∧
      answer = .checkpoint delta.items token (ackToken subject row limit.val delta) delta.stale ∧
      (shownPage db (some token) reader limit delta.items
        (ackToken subject row limit.val delta)).Sound app db.events := by
  simp only [checkpointSync, Program.except_bind_ok, Program.except_pure, Except.ok.injEq] at answered
  obtain ⟨row, recorded, delta, computed, rfl⟩ := answered
  obtain ⟨query, position, same, rfl, stored, _, _, nodup⟩ := checkpointRecord_ok recorded
  cases same
  refine ⟨row, delta, recorded, computed, rfl, ?_⟩
  have sound := (checkpointDelta_sound limit.property.1 isSubject increasing nodup computed).1
  have point : heldPoint db (some (.checkpoint query position)) = (row.body.seq, row.body.seen) := by
    show (match db.checkpoints.find? position.id with
      | some row => (row.body.seq, row.body.seen)
      | none => (0, [])) = _
    rw [stored]
  rw [shownPage, point]
  exact sound

/-- An answer of `sync` to the holder of a cursor. -/
theorem sync_ok {held : Option Token} {limit : PageLimit} {answer : SyncAnswer}
    (increasing : Feed.Increasing db.events)
    (answered : sync app db reader ⟨held.map some, some limit.val⟩ = .ok answer) :
    (∃ items, answer = .resync items) ∨
      (∃ items token, answer = .page items token ∧
        (shownPage db held reader limit items token).Sound app db.events ∧
        heldPoint db (some token) = tokenPoint token) ∨
      ∃ subject token row delta, held = some token ∧
        checkpointRecord app db reader subject (some token) = .ok row ∧
        answer = .checkpoint delta.items token (ackToken subject row limit.val delta) delta.stale ∧
        (shownPage db held reader limit delta.items
          (ackToken subject row limit.val delta)).Sound app db.events := by
  simp only [sync, Program.except_bind_ok] at answered
  obtain ⟨subject, isSubject, _, _, routed⟩ := answered
  cases held with
  | none =>
      rcases inlineSync_ok isSubject increasing routed with stale | shown
      · exact Or.inl stale
      · exact Or.inr (Or.inl shown)
  | some token =>
      simp only [Option.map_some, Program.except_bind_ok] at routed
      obtain ⟨opened, inspected, matched⟩ := routed
      cases inspect_ok inspected
      cases token with
      | checkpoint query position =>
          obtain ⟨row, delta, recorded, _, rfl, sound⟩ := checkpointSync_ok isSubject increasing matched
          exact Or.inr (Or.inr ⟨subject, _, row, delta, rfl, recorded, rfl, sound⟩)
      | _ =>
          rcases @inlineSync_ok app db reader subject (some _) limit answer isSubject increasing matched
            with stale | shown
          · exact Or.inl stale
          · exact Or.inr (Or.inl shown)

theorem syncCheckpointOpen_ok {checkpointId : String} {held : Option Token} {next : Database}
    {opened : Opened} (done : syncCheckpointOpen app db reader checkpointId held = .ok (next, opened)) :
    next.events = db.events ∧ heldPoint next (some opened.cursor) = heldPoint db held := by
  simp only [syncCheckpointOpen, Program.except_bind_ok] at done
  obtain ⟨subject, _, _, _, token, inspected, matched⟩ := done
  cases held with
  | none => simp [inspect, requireRow] at inspected
  | some held =>
      cases inspect_ok inspected
      cases token with
      | syncV2 query position =>
          simp only [Program.except_bind_ok, Program.except_pure, Except.ok.injEq, Prod.mk.injEq,
            insertRow_ok] at matched
          obtain ⟨_, _, _, _, _, _, seen, unsealed, rows, inserted, rfl, rfl⟩ := matched
          refine ⟨rfl, ?_⟩
          have stored := Table.find?_insert inserted checkpointId
          rw [if_pos rfl] at stored
          show (match rows.find? checkpointId with
            | some row => (row.body.seq, row.body.seen)
            | none => (0, [])) = _
          rw [stored, (openSyncSeen_ok unsealed).1]
          rfl
      | events => cases matched
      | sync => cases matched
      | checkpoint => cases matched
      | checkpointAck => cases matched
      | other => cases matched

/-- An accepted acknowledgement: the row it was for takes just the state that was shown. -/
theorem syncCheckpointAck_ok {text : Option Token} {next : Database} {acked : Acked}
    (done : syncCheckpointAck app db reader text = .ok (next, acked)) :
    ∃ query position row delta, text = some (.checkpointAck query position) ∧
      checkpointRecord app db reader query
        (some (checkpointToken query position.id position.version)) = .ok row ∧
      checkpointDelta app db reader query row.body position.limit = .ok delta ∧
      position.digest = ⟨delta.items, delta.updated, delta.stale⟩ ∧
      subjectOf reader = .ok query ∧ 1 ≤ position.limit ∧
      next = { db with
        checkpoints := db.checkpoints.modify row.id
          (CheckpointRow.advance delta (reader.context.now + thirtyDays)) } ∧
      acked.cursor = checkpointToken query row.id (row.version + 1) ∧
      acked.resyncRequired = delta.stale := by
  simp only [syncCheckpointAck, Program.except_bind_ok] at done
  obtain ⟨subject, signed, _, _, token, inspected, matched⟩ := done
  cases text with
  | none => simp [inspect, requireRow] at inspected
  | some text =>
      cases inspect_ok inspected
      cases token with
      | checkpointAck query position =>
          simp only [Program.except_bind_ok, require_ok, Program.except_pure, Except.ok.injEq,
            Prod.mk.injEq] at matched
          obtain ⟨_, rfl, _, ⟨positive, _⟩, row, recorded, delta, computed, _, digest, rfl, rfl⟩ :=
            matched
          have isSubject : subjectOf reader = .ok query := by
            simp only [signedSubject, Program.except_bind_ok, requireRow_ok] at signed
            obtain ⟨_, named, _, _, same⟩ := signed
            cases same
            exact (requireRow_ok _ _ _).mpr named
          exact ⟨query, position, row, delta, rfl, recorded, computed, digest.symm, isSubject,
            positive, rfl, rfl, rfl⟩
      | events => cases matched
      | sync => cases matched
      | syncV2 => cases matched
      | checkpoint => cases matched
      | other => cases matched

/-- The cursor after an acknowledgement stands where the acknowledged page ended. -/
theorem syncCheckpointAck_point {ack : Token} {next : Database} {acked : Acked}
    (done : syncCheckpointAck app db reader (some ack) = .ok (next, acked)) :
    next.events = db.events ∧ heldPoint next (some acked.cursor) = tokenPoint ack := by
  obtain ⟨query, position, row, delta, same, recorded, _, digest, _, _, rfl, cursor, _⟩ :=
    syncCheckpointAck_ok done
  obtain ⟨_, _, token, _, stored, isId, _, _⟩ := checkpointRecord_ok recorded
  cases same
  cases token
  have found := Table.find?_modify_self db.checkpoints row.id
    (CheckpointRow.advance delta (reader.context.now + thirtyDays)) fun _ => rfl
  have here : db.checkpoints.find? row.id = some row := by
    rw [isId]
    exact stored
  rw [here] at found
  refine ⟨rfl, ?_⟩
  rw [cursor, tokenPoint, digest]
  show (match (db.checkpoints.modify row.id _).find? row.id with
    | some row => (row.body.seq, row.body.seen)
    | none => (0, [])) = _
  rw [found]
  rfl

end Answers

section Run

variable {app : Deployment} {point : Nat × List String} {state : Syncing}

/-- The pages lead from the first point to the one the client holds, and a page that waits for
its acknowledgement starts there. -/
structure Synced (app : Deployment) (point : Nat × List String) (state : Syncing) : Prop where
  increasing : Feed.Increasing state.db.events
  chained : SyncChained point state.pages (heldPoint state.db state.held)
  sound : ∀ page ∈ state.pages, page.Sound app state.db.events
  pending : ∀ page ack, state.pending = some (page, ack) →
    page.Sound app state.db.events ∧ (page.start, page.before) = heldPoint state.db state.held ∧
      (page.stop, page.after) = tokenPoint ack

theorem Sound.grow {page : SyncPage} {log more : Feed.Log Event} (sound : page.Sound app log)
    (increasing : Feed.Increasing (log ++ more)) : page.Sound app (log ++ more) :=
  { sound with faithful := sound.faithful.grow increasing }

theorem heldPoint_same {db next : Database} (held : Option Token)
    (floor : next.syncFloor = db.syncFloor) (rows : next.checkpoints = db.checkpoints) :
    heldPoint next held = heldPoint db held := by
  unfold heldPoint
  rw [floor, rows]

/-- A write that leaves the checkpoints alone and at most appends to the log. -/
theorem Synced.rewrite {next : Database} {more : Feed.Log Event} (synced : Synced app point state)
    (floor : next.syncFloor = state.db.syncFloor) (rows : next.checkpoints = state.db.checkpoints)
    (grown : next.events = state.db.events ++ more)
    (increasing : Feed.Increasing (state.db.events ++ more)) :
    Synced app point { state with db := next } := by
  have same := heldPoint_same state.held floor rows
  refine ⟨?_, ?_, ?_, ?_⟩
  · show Feed.Increasing next.events
    rw [grown]
    exact increasing
  · show SyncChained point state.pages (heldPoint next state.held)
    rw [same]
    exact synced.chained
  · intro page inside
    show page.Sound app next.events
    rw [grown]
    exact Sound.grow (synced.sound page inside) increasing
  · intro page ack waits
    obtain ⟨sound, starts, ends⟩ := synced.pending page ack waits
    refine ⟨?_, ?_, ends⟩
    · show page.Sound app next.events
      rw [grown]
      exact Sound.grow sound increasing
    · show _ = heldPoint next state.held
      rw [same]
      exact starts

/-- One more page is taken in, and the client holds the point it leads to. -/
theorem Synced.take {page : SyncPage} {next : Database} {held : Option Token}
    (synced : Synced app point state) (sound : page.Sound app state.db.events)
    (starts : (page.start, page.before) = heldPoint state.db state.held)
    (log : next.events = state.db.events) (ends : heldPoint next held = (page.stop, page.after)) :
    Synced app point ⟨next, held, none, state.pages ++ [page]⟩ := by
  refine ⟨?_, ?_, ?_, fun _ _ waits => nomatch waits⟩
  · show Feed.Increasing next.events
    rw [log]
    exact synced.increasing
  · show SyncChained point (state.pages ++ [page]) (heldPoint next held)
    rw [ends]
    exact syncChained_concat synced.chained starts
  · intro other inside
    show other.Sound app next.events
    rw [log]
    rcases List.mem_append.mp inside with earlier | latest
    · exact synced.sound other earlier
    · rw [List.mem_singleton.mp latest]
      exact sound

theorem syncStep_synced (act : SyncAct) (synced : Synced app point state) :
    Synced app point (syncStep app act state) := by
  cases act with
  | commit seq event =>
      obtain ⟨more, grown, increasing⟩ := append_cases state.db.events (seq, event) synced.increasing
      exact synced.rewrite rfl rfl grown increasing
  | change next =>
      exact synced.rewrite rfl rfl (List.append_nil _).symm
        (by rw [List.append_nil]; exact synced.increasing)
  | open' reader checkpointId =>
      simp only [syncStep]
      cases outcome : syncCheckpointOpen app state.db reader checkpointId state.held with
      | error failure => exact synced
      | ok answer =>
          obtain ⟨next, opened⟩ := answer
          obtain ⟨log, same⟩ := syncCheckpointOpen_ok outcome
          refine ⟨?_, ?_, ?_, fun _ _ waits => nomatch waits⟩
          · show Feed.Increasing next.events
            rw [log]
            exact synced.increasing
          · show SyncChained point state.pages (heldPoint next (some opened.cursor))
            rw [same]
            exact synced.chained
          · intro page inside
            show page.Sound app next.events
            rw [log]
            exact synced.sound page inside
  | page reader limit =>
      simp only [syncStep]
      cases outcome : sync app state.db reader ⟨state.held.map some, some limit.val⟩ with
      | error failure => exact synced
      | ok answer =>
          rcases sync_ok synced.increasing outcome with ⟨items, rfl⟩ |
            ⟨items, token, rfl, sound, ends⟩ | ⟨subject, token, row, delta, _, _, rfl, sound⟩
          · exact synced
          · exact synced.take sound rfl rfl ends
          · refine ⟨synced.increasing, synced.chained, synced.sound, ?_⟩
            intro page ack waits
            cases waits
            exact ⟨sound, rfl, rfl⟩
  | ack reader =>
      simp only [syncStep]
      cases waits : state.pending with
      | none => exact synced
      | some shown =>
          obtain ⟨page, ack⟩ := shown
          obtain ⟨sound, starts, ends⟩ := synced.pending page ack waits
          dsimp only
          cases outcome : syncCheckpointAck app state.db reader (some ack) with
          | error failure => exact synced
          | ok answer =>
              obtain ⟨next, acked⟩ := answer
              obtain ⟨log, reached⟩ := syncCheckpointAck_point outcome
              exact synced.take sound starts log (reached.trans ends.symm)

theorem run_synced (acts : List SyncAct) (synced : Synced app point state) :
    Synced app point (Run.run (syncStep app) acts state) :=
  Run.run_invariant (syncStep app) (fun act _ kept => syncStep_synced act kept) acts state synced

end Run

/-- In every run: what the client mirrors is the seen list it holds; the pages tile the log; each
page reports its losses first, only such as the client had seen, and every loss before the next
event; and no event is on two pages. -/
theorem sync_mirrors (app : Deployment) (db : Database) (held : Option Token)
    (acts : List SyncAct) (increasing : Feed.Increasing db.events) :
    let state := Run.run (syncStep app) acts ⟨db, held, none, []⟩
    mirror (heldPoint db held).2 (state.pages.flatMap SyncPage.items) =
        (heldPoint state.db state.held).2 ∧
      Feed.Chained (heldPoint db held).1 (state.pages.map SyncPage.events)
        (heldPoint state.db state.held).1 ∧
      (∀ page ∈ state.pages, page.Sound app state.db.events) ∧
      (state.pages.Pairwise fun early late => ∀ item ∈ shownOf early.items,
        ∀ other ∈ shownOf late.items, itemSeq item < itemSeq other) ∧
      ((∀ entry ∈ state.db.events, entry.2.resources.Nodup) →
        (state.pages.flatMap fun page => shownOf page.items).Nodup) ∧
      ∀ earlier pages, state.pages = earlier ++ pages → ∀ id first, pages.head? = some first →
        id ∈ first.before →
        (∀ page ∈ pages, canRead app page.source.1 page.source.2 id = .ok false) →
        ∀ between last rest, pages = between ++ last :: rest → shownOf last.items ≠ [] →
          ∃ page ∈ between ++ [last], id ∈ lostOf page.items := by
  intro state
  have synced : Synced app (heldPoint db held) state :=
    run_synced acts ⟨increasing, rfl, fun _ inside => (nomatch inside), fun _ _ waits => nomatch waits⟩
  refine ⟨syncChained_mirror synced.chained synced.sound, syncChained_feed synced.chained,
    synced.sound, syncChained_apart synced.chained synced.sound,
    syncChained_nodup synced.chained synced.sound synced.increasing, ?_⟩
  intro earlier pages split id first isFirst seen hidden between last rest parted shows
  have chained := synced.chained
  rw [split] at chained
  obtain ⟨middle, later⟩ := syncChained_later chained
  cases pages with
  | nil => cases isFirst
  | cons page others =>
      cases isFirst
      have before : first.before = middle.2 := congrArg Prod.snd later.1
      have sound : ∀ page ∈ first :: others, page.Sound app state.db.events :=
        fun page inside => synced.sound page (split ▸ List.mem_append_right _ inside)
      exact loss_first later sound (before ▸ seen) hidden parted shows

section Sample

def sampleSyncReader : Reader :=
  { sampleReader with
    context := { sampleReader.context with
      principal := { sampleReader.context.principal with
        ceiling := [⟨"communication.basic", 1, ⟨"u_alice", false⟩,
          [syncOperation, "communication.sync_checkpoint_ack@1"], []⟩] } } }

theorem sync_mirrors_sample :
    let state := Run.run (syncStep sampleDeployment) [.page sampleSyncReader ⟨50, by decide⟩]
      ⟨sampleDatabase, none, none, []⟩
    mirror (heldPoint sampleDatabase none).2 (state.pages.flatMap SyncPage.items) =
        (heldPoint state.db state.held).2 ∧
      ∀ page ∈ state.pages, page.Sound sampleDeployment state.db.events :=
  let result := sync_mirrors sampleDeployment sampleDatabase none
    [.page sampleSyncReader ⟨50, by decide⟩] (by decide : List.Pairwise _ sampleDatabase.events)
  ⟨result.1, result.2.2.1⟩

end Sample

end MsgServer.EventLog
