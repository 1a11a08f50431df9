import MsgServer.Library.Run
import MsgServer.Plugins.Events

/-!
Following the cursors of a change feed while events are committed and everything else of the
database changes. Each page examines the log from the cursor it was asked with up to the
cursor it returns; so the pages tile the log.
-/

namespace MsgServer.EventLog

open Library Session Authorization

section Follow

/-- One more committed row: its number is above all that are visible. -/
def append (log : Feed.Log Event) (entry : Nat × Event) : Feed.Log Event :=
  if ∀ other ∈ log, other.1 < entry.1 then log ++ [entry] else log

def appendAll (log : Feed.Log Event) (entries : Feed.Log Event) : Feed.Log Event :=
  entries.foldl append log

def tokenSeq : Token → Nat
  | .events _ position => position.seq
  | .sync _ position => position.seq
  | .syncV2 _ position => position.seq
  | .checkpoint _ _ => 0
  | .checkpointAck _ _ => 0
  | .other _ => 0

/-- Where a request with this cursor starts, if it is accepted. -/
def startOf (db : Database) (cursor : Option Token) : Nat :=
  match cursor with
  | none => db.syncFloor
  | some token => tokenSeq token

/-- A reader that follows a feed: the cursor it holds and the pages it has got. -/
structure Following (ι β : Type) where
  db : Database
  cursor : Option Token
  pages : List (Feed.Page (Database × ι) β)

/-- Events are committed, other writes change everything but the log, and the reader asks for
a page, in the course of which more events are committed. -/
inductive Act (ι : Type) where
  | commit (seq : Nat) (event : Event)
  | change (next : Database)
  | page (asked : ι) (meanwhile : Feed.Log Event)

variable {ι β : Type}
variable (ask : Database → ι → Option Token → Feed.Log Event → Except Failure (List β × Token))

/-- A request that fails leaves the reader where it was. -/
def follow : Act ι → Following ι β → Following ι β
  | .commit seq event, state =>
      { state with db := { state.db with events := append state.db.events (seq, event) } }
  | .change next, state =>
      { state with db := { next with
          events := state.db.events
          syncFloor := state.db.syncFloor } }
  | .page asked meanwhile, state =>
      let log := appendAll state.db.events meanwhile
      match ask state.db asked state.cursor log with
      | .error _ => { state with db := { state.db with events := log } }
      | .ok (items, token) => {
          db := { state.db with events := log }
          cursor := some token
          pages := state.pages ++
            [⟨(state.db, asked), startOf state.db state.cursor, tokenSeq token, items⟩] }

def Following.delivered (state : Following ι β) : List β := state.pages.flatMap Feed.Page.items

variable (verdict : Database × ι → Nat × Event → Except Failure (List β))

/-- The pages tile the log from the first start up to the cursor. -/
structure Tiled (start : Nat) (state : Following ι β) : Prop where
  increasing : Feed.Increasing state.db.events
  chained : Feed.Chained start state.pages (startOf state.db state.cursor)
  faithful : ∀ page ∈ state.pages, Feed.Faithful verdict state.db.events page

variable {ask verdict}

theorem append_cases (log : Feed.Log Event) (entry : Nat × Event)
    (increasing : Feed.Increasing log) :
    ∃ more, append log entry = log ++ more ∧ Feed.Increasing (log ++ more) := by
  unfold append
  by_cases above : ∀ other ∈ log, other.1 < entry.1
  · rw [if_pos above]
    refine ⟨[entry], rfl, List.pairwise_append.mpr ⟨increasing, List.pairwise_singleton _ _, ?_⟩⟩
    intro other inside last same
    rw [List.mem_singleton.mp same]
    exact above other inside
  · rw [if_neg above]
    exact ⟨[], (List.append_nil _).symm, by rwa [List.append_nil]⟩

theorem appendAll_grows (log entries : Feed.Log Event) (increasing : Feed.Increasing log) :
    ∃ more, appendAll log entries = log ++ more ∧ Feed.Increasing (log ++ more) := by
  induction entries generalizing log with
  | nil => exact ⟨[], (List.append_nil _).symm, by rwa [List.append_nil]⟩
  | cons entry rest ih =>
      obtain ⟨first, grown, ordered⟩ := append_cases log entry increasing
      obtain ⟨later, further, still⟩ := ih (append log entry) (grown ▸ ordered)
      rw [grown, List.append_assoc] at further still
      refine ⟨first ++ later, ?_, still⟩
      rw [← further, ← grown]
      rfl

/-- What a page owes: it examined the log from its cursor to the one it returns. -/
def Honest (ask : Database → ι → Option Token → Feed.Log Event → Except Failure (List β × Token))
    (verdict : Database × ι → Nat × Event → Except Failure (List β)) : Prop :=
  ∀ db asked cursor log items token, Feed.Increasing log →
    ask db asked cursor log = .ok (items, token) →
      Feed.Faithful verdict log ⟨(db, asked), startOf db cursor, tokenSeq token, items⟩

theorem Tiled.grow {start : Nat} {state : Following ι β} {more : Feed.Log Event}
    (tiled : Tiled verdict start state) (increasing : Feed.Increasing (state.db.events ++ more))
    {log : Feed.Log Event} (grown : log = state.db.events ++ more) :
    Tiled verdict start { state with db := { state.db with events := log } } := by
  subst grown
  refine ⟨increasing, ?_, ?_⟩
  · have same : startOf { state.db with events := state.db.events ++ more } state.cursor =
        startOf state.db state.cursor := by
      cases state.cursor <;> rfl
    exact same ▸ tiled.chained
  · exact fun page inside => (tiled.faithful page inside).grow increasing

theorem follow_tiled (honest : Honest ask verdict) {start : Nat} (act : Act ι)
    (state : Following ι β) (tiled : Tiled verdict start state) :
    Tiled verdict start (follow ask act state) := by
  cases act with
  | commit seq event =>
      obtain ⟨more, grown, increasing⟩ := append_cases state.db.events (seq, event) tiled.increasing
      exact tiled.grow increasing grown
  | change next =>
      refine ⟨tiled.increasing, ?_, tiled.faithful⟩
      have same : startOf { next with
          events := state.db.events
          syncFloor := state.db.syncFloor } state.cursor = startOf state.db state.cursor := by
        cases state.cursor <;> rfl
      exact same ▸ tiled.chained
  | page asked meanwhile =>
      obtain ⟨more, grown, increasing⟩ := appendAll_grows state.db.events meanwhile tiled.increasing
      have kept := tiled.grow increasing grown
      simp only [follow]
      cases outcome : ask state.db asked state.cursor (appendAll state.db.events meanwhile) with
      | error failure => exact kept
      | ok answer =>
          obtain ⟨items, token⟩ := answer
          have page := honest _ _ _ _ _ _ kept.increasing outcome
          refine ⟨kept.increasing, Feed.chained_concat tiled.chained rfl, ?_⟩
          intro other inside
          rcases List.mem_append.mp inside with earlier | latest
          · exact kept.faithful other earlier
          · rw [List.mem_singleton.mp latest]
            exact page

theorem run_tiled (honest : Honest ask verdict) {start : Nat} (acts : List (Act ι))
    (state : Following ι β) (tiled : Tiled verdict start state) :
    Tiled verdict start (Run.run (follow ask) acts state) :=
  Run.run_invariant (follow ask) (fun act next => follow_tiled honest act next) acts state tiled

end Follow

section Asking

variable (app : Deployment)

structure EventsAsked where
  reader : Reader
  resource : Option String
  limit : Option Nat
  late : Nat → Bool

structure ChangesAsked where
  reader : Reader
  limit : Option Nat
  timing : Timing

def askEvents (db : Database) (asked : EventsAsked) (cursor : Option Token)
    (log : Feed.Log Event) : Except Failure (List EventItem × Token) := do
  let page ← events app db asked.reader ⟨asked.resource, cursor.map some, asked.limit⟩ asked.late log
  return (page.items, page.cursor)

def askChanges (db : Database) (asked : ChangesAsked) (cursor : Option Token)
    (log : Feed.Log Event) : Except Failure (List ChangeItem × Token) := do
  let page ← changes app db asked.reader ⟨cursor.map some, asked.limit⟩ asked.timing log
  return (page.items, page.syncCursor)

/-- What `events` finds in a row for this request. -/
def eventsVerdict (source : Database × EventsAsked) (entry : Nat × Event) :
    Except Failure (List EventItem) := do
  let subject ← subjectOf source.2.reader
  let scope ← eventsScope app source.1 source.2.reader ⟨source.2.resource, none, none⟩
  eventFound app source.1 source.2.reader subject scope (followedBy source.1 subject) entry

def changesVerdict (source : Database × ChangesAsked) (entry : Nat × Event) :
    Except Failure (List ChangeItem) := do
  let subject ← subjectOf source.2.reader
  changeFound app source.1 source.2.reader subject source.2.timing entry

variable {app}

theorem eventTurn_taken {db : Database} {reader : Reader} {subject : String}
    {scope : Option String} {followed : List String} {limit : Nat} {late : Nat → Bool}
    {entry : Nat × Event} {items next : List EventItem}
    (taken : eventTurn app db reader subject scope followed limit late entry items =
        .ok (.last next) ∨
      eventTurn app db reader subject scope followed limit late entry items = .ok (.more next)) :
    ∃ found, eventFound app db reader subject scope followed entry = .ok found ∧
      next = items ++ found := by
  simp only [eventTurn, Program.except_bind_ok, Program.except_pure, Except.ok.injEq] at taken
  rcases taken with ⟨_, _, found, asked, turned⟩ | ⟨_, _, found, asked, turned⟩
  · refine ⟨found, asked, ?_⟩
    split at turned
    · exact (Feed.Turn.last.inj turned).symm
    · cases turned
  · refine ⟨found, asked, ?_⟩
    split at turned
    · cases turned
    · exact (Feed.Turn.more.inj turned).symm

theorem changeTurn_taken {db : Database} {reader : Reader} {subject : String} {limit : Nat}
    {timing : Timing} {entry : Nat × Event} {items next : List ChangeItem}
    (taken : changeTurn app db reader subject limit timing entry items = .ok (.last next) ∨
      changeTurn app db reader subject limit timing entry items = .ok (.more next)) :
    ∃ found, changeFound app db reader subject timing entry = .ok found ∧
      next = items ++ found := by
  simp only [changeTurn, Program.except_bind_ok, Program.except_pure, Except.ok.injEq] at taken
  rcases taken with ⟨_, _, found, asked, turned⟩ | ⟨_, _, found, asked, turned⟩
  · refine ⟨found, asked, ?_⟩
    split at turned
    · exact (Feed.Turn.last.inj turned).symm
    · cases turned
  · refine ⟨found, asked, ?_⟩
    split at turned
    · cases turned
    · exact (Feed.Turn.more.inj turned).symm

theorem inspect_ok {token opened : Token} (inspected : inspect app (some token) = .ok opened) :
    opened = token := by
  simp only [inspect, requireRow, Program.except_bind_ok, Except.ok.injEq, Program.except_pure]
    at inspected
  obtain ⟨_, rfl, _, _, rfl⟩ := inspected
  rfl

theorem eventsStart_ok {db : Database} {reader : Reader} {subject : String}
    {scope : Option String} {cursor : Option Token} {position expires : Nat}
    (started : eventsStart app db reader subject scope (cursor.map some) = .ok (position, expires)) :
    position = startOf db cursor := by
  cases cursor with
  | none =>
      cases started
      rfl
  | some token =>
      simp only [Option.map_some, eventsStart, Program.except_bind_ok] at started
      obtain ⟨opened, inspected, matched⟩ := started
      cases inspect_ok inspected
      cases token with
      | events query saved =>
          simp only [Program.except_bind_ok, Program.except_pure, Except.ok.injEq,
            Prod.mk.injEq] at matched
          obtain ⟨_, _, _, _, _, _, _, _, rfl, _⟩ := matched
          rfl
      | sync => cases matched
      | syncV2 => cases matched
      | checkpoint => cases matched
      | checkpointAck => cases matched
      | other => cases matched

theorem changesStart_ok {db : Database} {subject : String} {cursor : Option Token}
    {position : Nat} (started : changesStart app db subject (cursor.map some) = .ok position) :
    position = startOf db cursor := by
  cases cursor with
  | none =>
      cases started
      rfl
  | some token =>
      simp only [Option.map_some, changesStart, Program.except_bind_ok] at started
      obtain ⟨opened, inspected, matched⟩ := started
      cases inspect_ok inspected
      cases token with
      | sync query saved =>
          simp only [Program.except_bind_ok, Program.except_pure, Except.ok.injEq] at matched
          obtain ⟨_, _, _, _, _, _, rfl⟩ := matched
          rfl
      | events => cases matched
      | syncV2 => cases matched
      | checkpoint => cases matched
      | checkpointAck => cases matched
      | other => cases matched

theorem askEvents_honest : Honest (askEvents app) (eventsVerdict app) := by
  intro db asked cursor log items token increasing answered
  simp only [askEvents, events, Program.except_bind_ok, Program.except_pure, Except.ok.injEq,
    Prod.mk.injEq, Prod.exists] at answered
  obtain ⟨_, ⟨subject, isSubject, _, _, scope, isScope, position, expires, started, stop, found,
    scanned, rfl⟩, rfl, rfl⟩ := answered
  rw [← eventsStart_ok started]
  refine Feed.scan_faithful id ?_ increasing (List.take_prefix _ _) rfl scanned
  intro entry state next taken
  obtain ⟨shown, asks, grown⟩ := eventTurn_taken taken
  refine ⟨shown, ?_, grown⟩
  simp only [eventsVerdict, Program.except_bind_ok]
  exact ⟨subject, isSubject, scope, isScope, asks⟩

theorem askChanges_honest : Honest (askChanges app) (changesVerdict app) := by
  intro db asked cursor log items token increasing answered
  simp only [askChanges, changes, Program.except_bind_ok, Program.except_pure, Except.ok.injEq,
    Prod.mk.injEq, Prod.exists] at answered
  obtain ⟨_, ⟨subject, isSubject, _, _, position, started, stop, found, scanned, rfl⟩, rfl, rfl⟩ :=
    answered
  rw [← changesStart_ok started]
  have window : ((Feed.between position (max position (lastSeq db.events)) log).take 65).take 64 <+:
      Feed.after position log :=
    (List.take_prefix _ _).trans ((List.take_prefix _ _).trans (Feed.between_first increasing))
  refine Feed.scan_faithful id ?_ increasing window rfl scanned
  intro entry state next taken
  obtain ⟨shown, asks, grown⟩ := changeTurn_taken taken
  refine ⟨shown, ?_, grown⟩
  simp only [changesVerdict, Program.except_bind_ok]
  exact ⟨subject, isSubject, asks⟩

theorem eventFound_single {db : Database} {reader : Reader} {subject : String}
    {scope : Option String} {followed : List String} {entry : Nat × Event} {found : List EventItem}
    (asked : eventFound app db reader subject scope followed entry = .ok found) :
    (found.map EventItem.seq).Sublist [entry.1] := by
  simp only [eventFound, Program.except_bind_ok] at asked
  obtain ⟨permitted, _, shaped⟩ := asked
  split at shaped
  · simp only [Program.except_bind_ok, Program.except_pure, Except.ok.injEq] at shaped
    obtain ⟨_, _, _, _, _, _, rfl⟩ := shaped
    exact List.Sublist.refl _
  · cases shaped
    exact List.nil_sublist _

theorem changeFound_single {db : Database} {reader : Reader} {subject : String} {timing : Timing}
    {entry : Nat × Event} {found : List ChangeItem}
    (asked : changeFound app db reader subject timing entry = .ok found) :
    (found.map ChangeItem.seq).Sublist [entry.1] := by
  simp only [changeFound, Program.except_bind_ok] at asked
  obtain ⟨permitted, _, relevant, _, shaped⟩ := asked
  split at shaped
  · cases shaped
    exact List.Sublist.refl _
  · cases shaped
    exact List.nil_sublist _

end Asking

section Steady

/-- What a reader sees and follows, where none of it changes. -/
structure View where
  subject : String
  watches : String → Bool
  topics : String → Bool
  readable : String → Bool
  above : String → List String
  direct : String → Option Conversation

def View.followed (view : View) (id : String) : Bool := view.watches id || view.topics id

/-- The database shows the reader this view; `read` is the feed's test of readability. -/
structure Steady (app : Deployment) (view : View) (db : Database) (reader : Reader)
    (read : String → Except Failure Bool) : Prop where
  subject : reader.context.principal.subject = some view.subject
  watches : ∀ id, id ∈ watchesOf db view.subject ↔ view.watches id = true
  topics : ∀ id, (∃ row ∈ topicsOf db view.subject, row.topic = id ∧ row.status = "active") ↔
    view.topics id = true
  readable : ∀ id shown, read id = .ok shown → shown = view.readable id
  above : ∀ id ids, ancestorIds app db id = .ok ids → ids = view.above id
  direct : ∀ id direct, directAncestor app db id = .ok direct → direct = view.direct id

def View.relevant (view : View) (scope : Option String) (event : Event) (ref : ResourceRef) : Bool :=
  match scope with
  | some scope => decide (ref.id = scope ∨ scope ∈ view.above ref.id)
  | none =>
      decide (event.subject = some view.subject ∨ view.followed ref.id = true ∨
        ∃ id ∈ view.above ref.id, view.followed id = true) ||
      inConversation (view.direct ref.id) view.subject

/-- An event has a reference that is relevant and readable, or it has none and is the
reader's own. -/
def View.wantsEvent (view : View) (scope : Option String) (event : Event) : Bool :=
  decide ((event.resources.filter fun ref =>
      view.readable ref.id && view.relevant scope event ref) ≠ [] ∨
    (scope = none ∧ event.resources = [] ∧ event.subject = some view.subject))

def View.topicMember (view : View) (event : Event) : Bool :=
  isTopicEvent event &&
    match dataText event "topic_id" with
    | some topic => topic != "" && view.topics topic
    | none => false

def View.reaches (view : View) (ref : ResourceRef) : Bool :=
  view.watches ref.id || (view.above ref.id).any view.watches || (view.direct ref.id).isSome

/-- A change is relevant by its subject, its topic or one of its readable references. -/
def View.wantsChange (view : View) (event : Event) : Bool :=
  decide (((event.subject = some view.subject ∨
        (∃ owner ∈ event.subject, view.watches owner = true) ∨ view.topicMember event = true) ∨
      (event.resources.filter fun ref => view.readable ref.id).any view.reaches = true) ∧
    ((event.resources.filter fun ref => view.readable ref.id) ≠ [] ∨
      (event.resources = [] ∧ event.subject = some view.subject)))

variable {app : Deployment} {view : View} {db : Database} {reader : Reader}

theorem Steady.followed {read : String → Except Failure Bool} (steady : Steady app view db reader read)
    (id : String) : id ∈ followedBy db view.subject ↔ view.followed id = true := by
  have active : id ∈ (activeTopics db view.subject).map Prod.fst ↔
      ∃ row ∈ topicsOf db view.subject, row.topic = id ∧ row.status = "active" := by
    simp only [activeTopics, List.map_map, List.mem_map, List.mem_filter, Function.comp]
    constructor
    · rintro ⟨row, ⟨inside, live⟩, rfl⟩
      exact ⟨row, inside, rfl, by simpa using live⟩
    · rintro ⟨row, inside, rfl, live⟩
      exact ⟨row, ⟨inside, by simpa using live⟩, rfl⟩
  rw [followedBy, List.mem_append, active, steady.watches, steady.topics, View.followed,
    Bool.or_eq_true]

theorem referenceRelevant_view {read : String → Except Failure Bool}
    (steady : Steady app view db reader read) {scope : Option String} {event : Event}
    {ref : ResourceRef} {answer : Bool}
    (asked : referenceRelevant app db view.subject scope (followedBy db view.subject) event ref =
      .ok answer) : answer = view.relevant scope event ref := by
  simp only [referenceRelevant, Program.except_bind_ok] at asked
  obtain ⟨ids, climbed, decided⟩ := asked
  have isAbove := steady.above ref.id ids climbed
  subst isAbove
  cases scope with
  | some scope => exact (Except.ok.inj decided).symm
  | none =>
      have same : (event.subject = some view.subject ∨ ref.id ∈ followedBy db view.subject ∨
            ∃ id ∈ view.above ref.id, id ∈ followedBy db view.subject) ↔
          (event.subject = some view.subject ∨ view.followed ref.id = true ∨
            ∃ id ∈ view.above ref.id, view.followed id = true) := by
        simp only [steady.followed]
      by_cases near : event.subject = some view.subject ∨ ref.id ∈ followedBy db view.subject ∨
          ∃ id ∈ view.above ref.id, id ∈ followedBy db view.subject
      · rw [if_pos near] at decided
        rw [View.relevant, decide_eq_true (same.mp near), Bool.true_or]
        exact (Except.ok.inj decided).symm
      · rw [if_neg near] at decided
        simp only [Program.except_bind_ok, Program.except_pure, Except.ok.injEq] at decided
        obtain ⟨direct, found, rfl⟩ := decided
        rw [View.relevant, decide_eq_false (fun reached => near (same.mpr reached)), Bool.false_or,
          steady.direct ref.id direct found]

theorem eventFound_view {scope : Option String} {entry : Nat × Event} {found : List EventItem}
    (steady : Steady app view db reader fun id => readable app db reader eventsOperation (some id))
    (asked : eventFound app db reader view.subject scope (followedBy db view.subject) entry =
      .ok found) :
    found.map EventItem.seq = if view.wantsEvent scope entry.2 then [entry.1] else [] := by
  simp only [eventFound, Program.except_bind_ok] at asked
  obtain ⟨permitted, kept, shaped⟩ := asked
  have picks := keep_ok (fun ref => view.readable ref.id && view.relevant scope entry.2 ref) kept
      fun ref _ passes tested => by
    simp only [permittedReference, Program.except_bind_ok] at tested
    obtain ⟨shown, read, decided⟩ := tested
    have seen := steady.readable ref.id shown read
    cases shown with
    | true =>
        rw [← seen, Bool.true_and]
        exact referenceRelevant_view steady decided
    | false =>
        rw [← seen, Bool.false_and]
        exact (Except.ok.inj decided).symm
  rw [View.wantsEvent, ← picks]
  split at shaped
  · next wanted =>
      simp only [Program.except_bind_ok, Program.except_pure, Except.ok.injEq] at shaped
      obtain ⟨_, _, _, _, _, _, rfl⟩ := shaped
      rw [decide_eq_true wanted]
      rfl
  · next unwanted =>
      cases shaped
      rw [decide_eq_false unwanted]
      rfl

theorem permittedChanges_view {timing : Timing} {seq : Nat} {refs : List ResourceRef}
    {permitted : List (ResourceRef × ParentInfo)}
    (steady : Steady app view db reader fun id => visible app db reader changesOperation id)
    (asked : permittedChanges app db reader timing seq refs = .ok permitted) :
    permitted.map Prod.fst = refs.filter fun ref => view.readable ref.id := by
  induction refs generalizing permitted with
  | nil =>
      cases asked
      rfl
  | cons ref rest ih =>
      simp only [permittedChanges, Program.except_bind_ok] at asked
      obtain ⟨_, _, shown, seen, followed⟩ := asked
      have same := steady.readable ref.id shown seen
      cases shown with
      | true =>
          simp only [if_true, Program.except_bind_ok, Program.except_pure, Except.ok.injEq] at followed
          obtain ⟨_, _, others, later, rfl⟩ := followed
          rw [List.map_cons, ih later, List.filter_cons, ← same]
          rfl
      | false =>
          rw [List.filter_cons, ← same]
          exact ih followed

theorem reachesWatched_view {timing : Timing} {seq : Nat} {refs : List ResourceRef} {answer : Bool}
    {read : String → Except Failure Bool} (steady : Steady app view db reader read)
    (asked : reachesWatched app db view.subject timing seq refs = .ok answer) :
    answer = refs.any view.reaches := by
  induction refs with
  | nil =>
      cases asked
      rfl
  | cons ref rest ih =>
      simp only [reachesWatched, Program.except_bind_ok] at asked
      obtain ⟨_, _, ids, climbed, direct, found, decided⟩ := asked
      have isDirect := steady.direct ref.id direct found
      subst isDirect
      have same : (ref.id ∈ watchesOf db view.subject ∨ (∃ id ∈ ids, id ∈ watchesOf db view.subject) ∨
          (view.direct ref.id).isSome = true) ↔ view.reaches ref = true := by
        rw [View.reaches, Bool.or_eq_true, Bool.or_eq_true, or_assoc, List.any_eq_true]
        by_cases watched : ref.id ∈ watchesOf db view.subject
        · simp [watched, (steady.watches ref.id).mp watched]
        · rw [unwatchedAbove, if_neg watched] at climbed
          rw [steady.above ref.id ids climbed]
          simp only [steady.watches]
      rw [List.any_cons]
      split at decided
      · next near =>
          rw [same.mp near, Bool.true_or]
          exact (Except.ok.inj decided).symm
      · next far =>
          rw [Bool.eq_false_iff.mpr fun reached => far (same.mpr reached), Bool.false_or]
          exact ih decided

theorem subjectRelevant_view {read : String → Except Failure Bool}
    (steady : Steady app view db reader read) (event : Event) :
    subjectRelevant db view.subject event ↔ (event.subject = some view.subject ∨
      (∃ owner ∈ event.subject, view.watches owner = true) ∨ view.topicMember event = true) := by
  have member : topicMember db view.subject event = view.topicMember event := by
    rw [topicMember, View.topicMember]
    cases dataText event "topic_id" with
    | none => rfl
    | some topic =>
        have same : ((topicsOf db view.subject).any fun row =>
            row.topic == topic && row.status == "active") = view.topics topic := by
          rw [Bool.eq_iff_iff, ← steady.topics topic, List.any_eq_true]
          simp
        simp only [same]
  rw [subjectRelevant, member]
  simp only [steady.watches]

theorem changeFound_view {timing : Timing} {entry : Nat × Event} {found : List ChangeItem}
    (steady : Steady app view db reader fun id => visible app db reader changesOperation id)
    (asked : changeFound app db reader view.subject timing entry = .ok found) :
    found.map ChangeItem.seq = if view.wantsChange entry.2 then [entry.1] else [] := by
  simp only [changeFound, Program.except_bind_ok] at asked
  obtain ⟨permitted, kept, relevant, judged, shaped⟩ := asked
  have picks := permittedChanges_view steady kept
  have nonempty : permitted ≠ [] ↔
      (entry.2.resources.filter fun ref => view.readable ref.id) ≠ [] := by
    rw [← picks]
    simp
  have decides : relevant = true ↔ ((entry.2.subject = some view.subject ∨
      (∃ owner ∈ entry.2.subject, view.watches owner = true) ∨ view.topicMember entry.2 = true) ∨
      (entry.2.resources.filter fun ref => view.readable ref.id).any view.reaches = true) := by
    rw [← subjectRelevant_view steady]
    unfold changeRelevant at judged
    by_cases own : subjectRelevant db view.subject entry.2
    · rw [if_pos own] at judged
      simp [own, ← Except.ok.inj judged]
    · rw [if_neg own, picks] at judged
      simp [own, ← reachesWatched_view steady judged]
  have same : (relevant = true ∧ (permitted ≠ [] ∨
      (entry.2.resources = [] ∧ entry.2.subject = some view.subject))) ↔
      view.wantsChange entry.2 = true := by
    rw [View.wantsChange, decide_eq_true_iff, decides, nonempty]
  split at shaped
  · next wanted =>
      cases shaped
      rw [if_pos (same.mp wanted)]
      rfl
  · next unwanted =>
      cases shaped
      rw [if_neg fun wants => unwanted (same.mpr wants)]
      rfl

end Steady

section Once

variable {app : Deployment} {ι β : Type}

theorem tiled_increasing {verdict : Database × ι → Nat × Event → Except Failure (List β)}
    {start : Nat} {state : Following ι β} (tiled : Tiled verdict start state) {key : β → Nat}
    (single : ∀ source entry found, verdict source entry = .ok found →
      (found.map key).Sublist [entry.1]) :
    (state.delivered.map key).Pairwise (· < ·) := by
  have keys := Feed.chained_keys tiled.increasing tiled.chained tiled.faithful single
  have ordered : ((Feed.between start (startOf state.db state.cursor) state.db.events).map
      Prod.fst).Pairwise (· < ·) :=
    Feed.increasing_keys (Feed.between_increasing tiled.increasing)
  exact ordered.sublist keys

theorem tiled_wanted {verdict : Database × ι → Nat × Event → Except Failure (List β)}
    {start : Nat} {state : Following ι β} (tiled : Tiled verdict start state) {key : β → Nat}
    (wants : Event → Bool)
    (steady : ∀ page ∈ state.pages, ∀ entry found, verdict page.source entry = .ok found →
      found.map key = if wants entry.2 then [entry.1] else []) :
    state.delivered.map key =
      ((Feed.between start (startOf state.db state.cursor) state.db.events).filter
        fun entry => wants entry.2).map Prod.fst :=
  Feed.chained_wanted tiled.increasing tiled.chained tiled.faithful wants steady

theorem eventsVerdict_single (source : Database × EventsAsked) (entry : Nat × Event)
    (found : List EventItem) (asked : eventsVerdict app source entry = .ok found) :
    (found.map EventItem.seq).Sublist [entry.1] := by
  simp only [eventsVerdict, Program.except_bind_ok] at asked
  obtain ⟨_, _, _, _, finds⟩ := asked
  exact eventFound_single finds

theorem changesVerdict_single (source : Database × ChangesAsked) (entry : Nat × Event)
    (found : List ChangeItem) (asked : changesVerdict app source entry = .ok found) :
    (found.map ChangeItem.seq).Sublist [entry.1] := by
  simp only [changesVerdict, Program.except_bind_ok] at asked
  obtain ⟨_, _, finds⟩ := asked
  exact changeFound_single finds

/-- The reader asks for the events of one scope, and what it sees and follows is this view. -/
structure EventsSteady (app : Deployment) (view : View) (scope : Option String)
    (source : Database × EventsAsked) : Prop where
  scope : eventsScope app source.1 source.2.reader ⟨source.2.resource, none, none⟩ = .ok scope
  steady : Steady app view source.1 source.2.reader fun id =>
    readable app source.1 source.2.reader eventsOperation (some id)

def ChangesSteady (app : Deployment) (view : View) (source : Database × ChangesAsked) : Prop :=
  Steady app view source.1 source.2.reader fun id =>
    visible app source.1 source.2.reader changesOperation id

theorem eventsVerdict_view {view : View} {scope : Option String} {source : Database × EventsAsked}
    (steady : EventsSteady app view scope source) (entry : Nat × Event) (found : List EventItem)
    (asked : eventsVerdict app source entry = .ok found) :
    found.map EventItem.seq = if view.wantsEvent scope entry.2 then [entry.1] else [] := by
  simp only [eventsVerdict, Program.except_bind_ok] at asked
  obtain ⟨subject, isSubject, chosen, isScope, finds⟩ := asked
  cases isScope.symm.trans steady.scope
  cases ((requireRow_ok _ _ _).mp isSubject).symm.trans steady.steady.subject
  exact eventFound_view steady.steady finds

theorem changesVerdict_view {view : View} {source : Database × ChangesAsked}
    (steady : ChangesSteady app view source) (entry : Nat × Event) (found : List ChangeItem)
    (asked : changesVerdict app source entry = .ok found) :
    found.map ChangeItem.seq = if view.wantsChange entry.2 then [entry.1] else [] := by
  simp only [changesVerdict, Program.except_bind_ok] at asked
  obtain ⟨subject, isSubject, finds⟩ := asked
  cases ((requireRow_ok _ _ _).mp isSubject).symm.trans steady.subject
  exact changeFound_view steady finds

/-- The other cursors of a page of changes: an item's cursor stands at the item, within what
was examined, and the tail cursor at the end of the log. -/
structure Hinted (db : Database) (start : Nat) (page : ChangesPage) : Prop where
  resumes : ∀ item ∈ page.items, tokenSeq item.resumeCursor = item.seq ∧ start < item.seq ∧
    item.seq ≤ tokenSeq page.syncCursor
  tail : tokenSeq page.tailCursor = max start (lastSeq db.events)
  more : page.hasMore = true ↔ tokenSeq page.syncCursor < tokenSeq page.tailCursor

theorem changes_hinted {db : Database} {asked : ChangesAsked} {cursor : Option Token}
    {log : Feed.Log Event} {page : ChangesPage} (increasing : Feed.Increasing log)
    (done : changes app db asked.reader ⟨cursor.map some, asked.limit⟩ asked.timing log = .ok page) :
    Hinted db (startOf db cursor) page := by
  have answered : askChanges app db asked cursor log = .ok (page.items, page.syncCursor) :=
    (Program.except_bind_ok _ _ _).mpr ⟨page, done, rfl⟩
  have faithful := askChanges_honest db asked cursor log _ _ increasing answered
  simp only [changes, Program.except_bind_ok, Program.except_pure, Except.ok.injEq,
    Prod.exists] at done
  obtain ⟨subject, _, _, _, position, started, stop, found, _, rfl⟩ := done
  refine ⟨?_, ?_, ?_⟩
  · intro item inside
    have shows : found = _ := faithful.items
    change item ∈ found at inside
    rw [shows] at inside
    obtain ⟨entry, within, shown⟩ := List.mem_flatMap.mp inside
    obtain ⟨items, judged⟩ := faithful.examined entry within
    rw [judged] at shown
    simp only [changesVerdict, changeFound, Program.except_bind_ok] at judged
    obtain ⟨_, _, _, _, _, _, shaped⟩ := judged
    split at shaped
    · cases shaped
      cases List.mem_singleton.mp shown
      exact ⟨rfl, (Feed.mem_between.mp within).2⟩
    · cases shaped
      cases shown
  · rw [← changesStart_ok started]
    rfl
  · exact decide_eq_true_iff

end Once

/-- The pages of each feed tile the log between the start and the cursor: every event there was
examined on exactly one page, which shows what it found, in order. What is shown never repeats
a number; and where the reader's view does not change, it is exactly what the view wants. -/
theorem feeds_deliver_once (app : Deployment) (db : Database) (cursor : Option Token)
    (increasing : Feed.Increasing db.events) :
    (∀ acts, let state := Run.run (follow (askEvents app)) acts ⟨db, cursor, []⟩
      Tiled (eventsVerdict app) (startOf db cursor) state ∧
        (state.delivered.map EventItem.seq).Pairwise (· < ·) ∧
        ∀ view scope, (∀ page ∈ state.pages, EventsSteady app view scope page.source) →
          state.delivered.map EventItem.seq =
            ((Feed.between (startOf db cursor) (startOf state.db state.cursor)
              state.db.events).filter fun entry => view.wantsEvent scope entry.2).map Prod.fst) ∧
      (∀ acts, let state := Run.run (follow (askChanges app)) acts ⟨db, cursor, []⟩
        Tiled (changesVerdict app) (startOf db cursor) state ∧
          (state.delivered.map ChangeItem.seq).Pairwise (· < ·) ∧
          ∀ view, (∀ page ∈ state.pages, ChangesSteady app view page.source) →
            state.delivered.map ChangeItem.seq =
              ((Feed.between (startOf db cursor) (startOf state.db state.cursor)
                state.db.events).filter fun entry => view.wantsChange entry.2).map Prod.fst) ∧
      (∀ (asked : ChangesAsked) log page, Feed.Increasing log →
        changes app db asked.reader ⟨cursor.map some, asked.limit⟩ asked.timing log = .ok page →
          Hinted db (startOf db cursor) page) := by
  refine ⟨?_, ?_, ?_⟩
  · intro acts
    have tiled := run_tiled (askEvents_honest : Honest (askEvents app) (eventsVerdict app)) acts ⟨db, cursor, []⟩
      ⟨increasing, rfl, fun _ inside => nomatch inside⟩
    refine ⟨tiled, tiled_increasing tiled eventsVerdict_single, ?_⟩
    intro view scope steady
    exact tiled_wanted tiled _ fun page inside => eventsVerdict_view (steady page inside)
  · intro acts
    have tiled := run_tiled (askChanges_honest : Honest (askChanges app) (changesVerdict app)) acts ⟨db, cursor, []⟩
      ⟨increasing, rfl, fun _ inside => nomatch inside⟩
    refine ⟨tiled, tiled_increasing tiled changesVerdict_single, ?_⟩
    intro view steady
    exact tiled_wanted tiled _ fun page inside => changesVerdict_view (steady page inside)
  · intro asked log page ordered done
    exact changes_hinted ordered done

section Sample

def sampleReader : Reader where
  context :=
    { principal :=
        { actor := some "u_alice", subject := some "u_alice", credentialId := some "k_alice",
          method := .signature, certificates := [],
          ceiling := [⟨"communication.basic", 1, ⟨"u_alice", false⟩,
            [eventsOperation, changesOperation], []⟩] }
      entry := .network
      now := 100 }
  clock := 100

def sampleDeployment : Deployment where
  toApp := sampleApp
  resolveScope := fun _ address => .ok address
  eventsDigest := fun epoch _ _ => toString epoch
  watchDigest := fun ids => String.join ids
  topicDigest := fun _ => ""
  tokenLength := fun _ => 100
  seenBytes := List.length
  maxPathBytes := 8192

def sampleEvent (id : String) : Event where
  id := id
  type := "communication.watch"
  time := 10
  requestId := "request_" ++ id
  actor := some "u_alice"
  subject := some "u_alice"
  resources := []
  data := []

/-- Two events of the reader, without references. -/
def sampleDatabase : Database where
  core := Store.empty
  topics := []
  watches := []
  authorizationEpoch := 0
  syncFloor := 0
  events := [(1, sampleEvent "e_1"), (3, sampleEvent "e_2")]
  checkpoints := Table.empty

def sampleChanges : ChangesAsked where
  reader := sampleReader
  limit := some 1
  timing := ⟨fun _ => false, fun _ _ => false, fun _ _ => false, fun _ => false⟩

theorem feeds_deliver_once_sample :
    let state := Run.run (follow (askChanges sampleDeployment))
      [.page sampleChanges [], .commit 5 (sampleEvent "e_3"), .page sampleChanges []]
      ⟨sampleDatabase, none, []⟩
    Tiled (changesVerdict sampleDeployment) 0 state ∧
      (state.delivered.map ChangeItem.seq).Pairwise (· < ·) :=
  let tiled := (feeds_deliver_once sampleDeployment sampleDatabase none
    (by decide : List.Pairwise _ sampleDatabase.events)).2.1
      [.page sampleChanges [], .commit 5 (sampleEvent "e_3"), .page sampleChanges []]
  ⟨tiled.1, tiled.2.1⟩

/-- A cursor that `changes` returns passes an event that no page examined. -/
theorem tail_cursor_passes :
    ¬ ∀ (app : Deployment) (db : Database) (asked : ChangesAsked) (cursor : Option Token)
        (page : ChangesPage), Feed.Increasing db.events →
      changes app db asked.reader ⟨cursor.map some, asked.limit⟩ asked.timing db.events = .ok page →
      ∀ token ∈ [page.syncCursor, page.tailCursor], ∀ entry ∈ db.events,
        tokenSeq page.syncCursor < entry.1 → tokenSeq token < entry.1 := by
  intro passes
  have asked : ∃ page, changes sampleDeployment sampleDatabase sampleReader ⟨none, some 1⟩
      sampleChanges.timing sampleDatabase.events = .ok page ∧
      tokenSeq page.syncCursor = 1 ∧ tokenSeq page.tailCursor = 3 := by
    refine ⟨⟨[⟨1, sampleEvent "e_1", [], .sync "u_alice" ⟨1, 0, ""⟩⟩],
      .sync "u_alice" ⟨1, 0, ""⟩, .sync "u_alice" ⟨3, 0, ""⟩, true⟩, ?_, rfl, rfl⟩
    decide +kernel
  obtain ⟨page, done, first, tail⟩ := asked
  have wrong := passes sampleDeployment sampleDatabase sampleChanges none page
    (by decide : List.Pairwise _ sampleDatabase.events) done page.tailCursor (by simp)
    (3, sampleEvent "e_2") (by simp [sampleDatabase]) (by rw [first]; decide)
  rw [tail] at wrong
  exact absurd wrong (by decide)

end Sample

end MsgServer.EventLog
