import MsgServer.Plugins.SyncRuns

/-!
One checkpoint under any interleaving of the pages shown for it and their acknowledgements:
resent, reordered and concurrent, with new events and any other writes between them. The delta
is computed again when it is acknowledged; the digest and the version decide.
-/

namespace MsgServer.EventLog

open Library Session Authorization

section Machine

/-- A page that was shown for a version of a checkpoint. -/
structure Shown where
  subject : String
  id : String
  version : Nat
  limit : Nat
  delta : Delta
  deriving DecidableEq

/-- The acknowledgement that the page carries. -/
def Shown.token (shown : Shown) : Token :=
  .checkpointAck shown.subject ⟨shown.id, shown.version, shown.limit,
    ⟨shown.delta.items, shown.delta.updated, shown.delta.stale⟩⟩

/-- Every page that was shown, and those whose acknowledgement was accepted, in order. -/
structure Acking where
  db : Database
  shown : List Shown
  accepted : List Shown

inductive AckAct where
  | commit (seq : Nat) (event : Event)
  | change (next : Database)
  | open' (reader : Reader) (checkpointId : String) (text : Option Token)
  | get (reader : Reader) (text : Option Token) (limit : PageLimit)
  | ack (reader : Reader) (text : Option Token)

/-- The page that an answer shows for a checkpoint. -/
def shownOfAnswer : SyncAnswer → List Shown
  | .checkpoint items _ (.checkpointAck subject position) stale =>
      [⟨subject, position.id, position.version, position.limit,
        ⟨items, position.digest.state, stale⟩⟩]
  | _ => []

variable (app : Deployment)

/-- An acknowledgement carries the server's tag only where it was shown. -/
def ackStep : AckAct → Acking → Acking
  | .commit seq event, state =>
      { state with db := { state.db with events := append state.db.events (seq, event) } }
  | .change next, state =>
      { state with db := { next with
          events := state.db.events
          syncFloor := state.db.syncFloor
          checkpoints := state.db.checkpoints } }
  | .open' reader checkpointId text, state =>
      match syncCheckpointOpen app state.db reader checkpointId text with
      | .error _ => state
      | .ok (db, _) => { state with db := db }
  | .get reader text limit, state =>
      match sync app state.db reader ⟨some text, some limit.val⟩ with
      | .error _ => state
      | .ok answer => { state with shown := state.shown ++ shownOfAnswer answer }
  | .ack reader text, state =>
      match state.shown.find? fun shown => some shown.token = text with
      | none => state
      | some shown =>
          match syncCheckpointAck app state.db reader text with
          | .error _ => state
          | .ok (db, _) => { state with db := db, accepted := state.accepted ++ [shown] }

end Machine

section Deltas

variable {app : Deployment} {state : Acking} {id : String}

/-- What a client that takes in a delta makes of the state it had. -/
def applyDelta (body : SyncState) (delta : Delta) : SyncState :=
  body.moved delta.updated.seq (mirror body.seen delta.items)

def acceptedOf (state : Acking) (id : String) : List Shown :=
  state.accepted.filter fun shown => shown.id == id

/-- A row of version `first` and this body, after the deltas that were accepted since. -/
structure Applied (state : Acking) (id : String) (first : Nat) (body : SyncState) : Prop where
  row : ∃ row, state.db.checkpoints.find? id = some row ∧
    row.version = first + (acceptedOf state id).length ∧
    row.body = ((acceptedOf state id).map Shown.delta).foldl applyDelta body ∧
    body.seq ≤ row.body.seq
  versions : (acceptedOf state id).map Shown.version = List.range' first (acceptedOf state id).length
  shown : ∀ shown ∈ acceptedOf state id, shown ∈ state.shown

/-- Every step but an accepted acknowledgement leaves the row and the accepted pages alone. -/
theorem Applied.same {first : Nat} {body : SyncState} {next : Acking}
    (applied : Applied state id first body)
    (row : next.db.checkpoints.find? id = state.db.checkpoints.find? id)
    (accepted : acceptedOf next id = acceptedOf state id)
    (shown : ∀ page ∈ state.shown, page ∈ next.shown) : Applied next id first body := by
  refine ⟨?_, ?_, ?_⟩
  · rw [row, accepted]
    exact applied.row
  · rw [accepted]
    exact applied.versions
  · rw [accepted]
    exact fun page inside => shown page (applied.shown page inside)

/-- The recomputed delta moves the row to just the state that a client reaches by it. -/
theorem checkpointDelta_applies {db : Database} {reader : Reader} {subject : String} {limit : Nat}
    {body : SyncState} {delta : Delta} (positive : 1 ≤ limit)
    (isSubject : subjectOf reader = .ok subject) (increasing : Feed.Increasing db.events)
    (nodup : body.seen.Nodup) (done : checkpointDelta app db reader subject body limit = .ok delta) :
    delta.updated = applyDelta body delta ∧ body.seq ≤ delta.updated.seq := by
  obtain ⟨sound, shape, _, _⟩ := checkpointDelta_sound positive isSubject increasing nodup done
  refine ⟨?_, sound.faithful.ordered⟩
  have mirrored : delta.updated.seen = mirror body.seen delta.items := sound.mirrored
  rw [shape, mirrored]
  rfl

/-- An accepted acknowledgement was for the current version, and its delta is what the state
gives now. -/
theorem ack_accepted {shown : Shown} {reader : Reader} {next : Database} {acked : Acked}
    {db : Database} (done : syncCheckpointAck app db reader (some shown.token) = .ok (next, acked)) :
    ∃ row, db.checkpoints.find? shown.id = some row ∧ row.id = shown.id ∧
      row.version = shown.version ∧ row.body.seen.Nodup ∧ subjectOf reader = .ok shown.subject ∧
      1 ≤ shown.limit ∧
      checkpointDelta app db reader shown.subject row.body shown.limit = .ok shown.delta ∧
      next = { db with
        checkpoints := db.checkpoints.modify shown.id
          (CheckpointRow.advance shown.delta (reader.context.now + thirtyDays)) } := by
  obtain ⟨query, position, row, delta, same, recorded, computed, digest, isSubject, positive, rfl,
    _, _⟩ := syncCheckpointAck_ok done
  cases same
  obtain ⟨_, _, token, _, stored, isId, version, nodup⟩ := checkpointRecord_ok recorded
  cases token
  have isDelta : delta = shown.delta := by
    injection digest with items updated stale
    cases delta
    exact congr (congr (congrArg Delta.mk items.symm) updated.symm) stale.symm
  subst isDelta
  exact ⟨row, stored, isId, version, nodup, isSubject, positive, computed, by rw [isId]⟩

theorem syncCheckpointOpen_keeps {db next : Database} {reader : Reader} {checkpointId : String}
    {text : Option Token} {opened : Opened} {row : CheckpointRow}
    (done : syncCheckpointOpen app db reader checkpointId text = .ok (next, opened))
    (stored : db.checkpoints.find? id = some row) :
    next.checkpoints.find? id = db.checkpoints.find? id := by
  simp only [syncCheckpointOpen, Program.except_bind_ok] at done
  obtain ⟨subject, _, _, _, token, _, matched⟩ := done
  cases token with
  | syncV2 query position =>
      simp only [Program.except_bind_ok, Program.except_pure, Except.ok.injEq, Prod.mk.injEq,
        insertRow_ok] at matched
      obtain ⟨_, _, _, _, _, _, seen, _, rows, inserted, rfl, _⟩ := matched
      show rows.find? id = _
      rw [Table.find?_insert inserted id]
      by_cases same : checkpointId = id
      · subst same
        have fresh := Table.insert_fresh inserted
        cases fresh.symm.trans stored
      · rw [if_neg same]
  | events => cases matched
  | sync => cases matched
  | checkpoint => cases matched
  | checkpointAck => cases matched
  | other => cases matched

/-- The accepted page is of the version that the row has, and the row takes its delta. -/
theorem Applied.acknowledge {first : Nat} {body : SyncState} {shown : Shown} {reader : Reader}
    {row : CheckpointRow} (increasing : Feed.Increasing state.db.events)
    (applied : Applied state shown.id first body)
    (stored : state.db.checkpoints.find? shown.id = some row) (version : row.version = shown.version)
    (nodup : row.body.seen.Nodup) (isSubject : subjectOf reader = .ok shown.subject)
    (positive : 1 ≤ shown.limit)
    (computed : checkpointDelta app state.db reader shown.subject row.body shown.limit =
      .ok shown.delta) (listed : shown ∈ state.shown) :
    Applied { state with
      db := { state.db with
        checkpoints := state.db.checkpoints.modify shown.id
          (CheckpointRow.advance shown.delta (reader.context.now + thirtyDays)) }
      accepted := state.accepted ++ [shown] } shown.id first body := by
  obtain ⟨old, found, counted, reached, order⟩ := applied.row
  cases stored.symm.trans found
  obtain ⟨moves, later⟩ := checkpointDelta_applies positive isSubject increasing nodup computed
  have more : acceptedOf { state with
      db := { state.db with
        checkpoints := state.db.checkpoints.modify shown.id
          (CheckpointRow.advance shown.delta (reader.context.now + thirtyDays)) }
      accepted := state.accepted ++ [shown] } shown.id = acceptedOf state shown.id ++ [shown] := by
    show (state.accepted ++ [shown]).filter _ = _
    rw [List.filter_append, List.filter_cons_of_pos (by simp)]
    rfl
  refine ⟨⟨row.advance shown.delta (reader.context.now + thirtyDays), ?_, ?_, ?_, ?_⟩, ?_, ?_⟩
  · have changed := Table.find?_modify_self state.db.checkpoints shown.id
      (CheckpointRow.advance shown.delta (reader.context.now + thirtyDays)) fun _ => rfl
    rw [stored] at changed
    exact changed
  · rw [more, List.length_append, List.length_singleton]
    show row.version + 1 = _
    omega
  · rw [more, List.map_append, List.foldl_append, ← reached]
    exact moves
  · exact Nat.le_trans order later
  · rw [more, List.map_append, List.length_append, List.length_singleton, List.range'_concat,
      applied.versions, Nat.one_mul, ← counted, version]
    rfl
  · rw [more]
    intro page inside
    rcases List.mem_append.mp inside with earlier | latest
    · exact applied.shown page earlier
    · rw [List.mem_singleton.mp latest]
      exact listed

theorem ackStep_applied {first : Nat} {body : SyncState} (act : AckAct)
    (increasing : Feed.Increasing state.db.events) (applied : Applied state id first body) :
    Applied (ackStep app act state) id first body := by
  cases act with
  | commit seq event => exact applied.same rfl rfl fun _ inside => inside
  | change next => exact applied.same rfl rfl fun _ inside => inside
  | open' reader checkpointId text =>
      simp only [ackStep]
      cases outcome : syncCheckpointOpen app state.db reader checkpointId text with
      | error failure => exact applied
      | ok answer =>
          obtain ⟨next, opened⟩ := answer
          refine applied.same ?_ rfl fun _ inside => inside
          obtain ⟨row, stored, _⟩ := applied.row
          exact syncCheckpointOpen_keeps outcome stored
  | get reader text limit =>
      simp only [ackStep]
      cases sync app state.db reader ⟨some text, some limit.val⟩ with
      | error failure => exact applied
      | ok answer => exact applied.same rfl rfl fun _ inside => List.mem_append_left _ inside
  | ack reader text =>
      simp only [ackStep]
      cases found : state.shown.find? fun shown => some shown.token = text with
      | none => exact applied
      | some shown =>
          have token : some shown.token = text := by simpa using List.find?_some found
          subst token
          dsimp only
          cases outcome : syncCheckpointAck app state.db reader (some shown.token) with
          | error failure => exact applied
          | ok answer =>
              obtain ⟨next, acked⟩ := answer
              obtain ⟨row, stored, isId, version, nodup, isSubject, positive, computed, rfl⟩ :=
                ack_accepted outcome
              by_cases mine : shown.id = id
              · subst mine
                exact applied.acknowledge increasing stored version nodup isSubject positive computed
                  (List.mem_of_find?_eq_some found)
              · refine applied.same ?_ ?_ fun _ inside => inside
                · exact Table.find?_modify_ne _ _ fun same => mine same.symm
                · show (state.accepted ++ [shown]).filter _ = _
                  rw [List.filter_append, List.filter_cons_of_neg (by simpa using mine)]
                  exact List.append_nil _

theorem ackStep_increasing (act : AckAct) (increasing : Feed.Increasing state.db.events) :
    Feed.Increasing (ackStep app act state).db.events := by
  cases act with
  | commit seq event =>
      obtain ⟨more, grown, ordered⟩ := append_cases state.db.events (seq, event) increasing
      show Feed.Increasing (append state.db.events (seq, event))
      rw [grown]
      exact ordered
  | change next => exact increasing
  | open' reader checkpointId text =>
      simp only [ackStep]
      cases outcome : syncCheckpointOpen app state.db reader checkpointId text with
      | error failure => exact increasing
      | ok answer =>
          obtain ⟨next, opened⟩ := answer
          cases text with
          | none =>
              simp only [syncCheckpointOpen, Program.except_bind_ok] at outcome
              obtain ⟨_, _, _, _, _, inspected, _⟩ := outcome
              simp [inspect, requireRow] at inspected
          | some token =>
              show Feed.Increasing next.events
              rw [(syncCheckpointOpen_ok outcome).1]
              exact increasing
  | get reader text limit =>
      simp only [ackStep]
      cases sync app state.db reader ⟨some text, some limit.val⟩ with
      | error failure => exact increasing
      | ok answer => exact increasing
  | ack reader text =>
      simp only [ackStep]
      cases found : state.shown.find? fun shown => some shown.token = text with
      | none => exact increasing
      | some shown =>
          have token : some shown.token = text := by simpa using List.find?_some found
          subst token
          dsimp only
          cases outcome : syncCheckpointAck app state.db reader (some shown.token) with
          | error failure => exact increasing
          | ok answer =>
              obtain ⟨next, acked⟩ := answer
              show Feed.Increasing next.events
              rw [(syncCheckpointAck_point outcome).1]
              exact increasing

theorem run_applied {first : Nat} {body : SyncState} (acts : List AckAct)
    (increasing : Feed.Increasing state.db.events) (applied : Applied state id first body) :
    Applied (Run.run (ackStep app) acts state) id first body := by
  induction acts generalizing state with
  | nil => exact applied
  | cons act rest ih =>
      exact ih (ackStep_increasing act increasing) (ackStep_applied act increasing applied)

theorem run_increasing (acts : List AckAct) (increasing : Feed.Increasing state.db.events) :
    Feed.Increasing (Run.run (ackStep app) acts state).db.events := by
  induction acts generalizing state with
  | nil => exact increasing
  | cons act rest ih => exact ih (ackStep_increasing act increasing)

/-- What was accepted before makes no difference to what happens now. -/
theorem ackStep_forgets (act : AckAct) (accepted : List Shown) :
    (ackStep app act { state with accepted := accepted }).db = (ackStep app act state).db ∧
      (ackStep app act { state with accepted := accepted }).shown = (ackStep app act state).shown := by
  cases act with
  | commit seq event => exact ⟨rfl, rfl⟩
  | change next => exact ⟨rfl, rfl⟩
  | open' reader checkpointId text =>
      simp only [ackStep]
      cases syncCheckpointOpen app state.db reader checkpointId text <;> exact ⟨rfl, rfl⟩
  | get reader text limit =>
      simp only [ackStep]
      cases sync app state.db reader ⟨some text, some limit.val⟩ <;> exact ⟨rfl, rfl⟩
  | ack reader text =>
      simp only [ackStep]
      cases state.shown.find? fun shown => some shown.token = text with
      | none => exact ⟨rfl, rfl⟩
      | some shown =>
          dsimp only
          cases syncCheckpointAck app state.db reader text <;> exact ⟨rfl, rfl⟩

theorem run_forgets (acts : List AckAct) (left right : Acking) (db : left.db = right.db)
    (shown : left.shown = right.shown) :
    (Run.run (ackStep app) acts left).db = (Run.run (ackStep app) acts right).db := by
  induction acts generalizing left right with
  | nil => exact db
  | cons act rest ih =>
      obtain ⟨leftDb, leftShown, accepted⟩ := left
      cases db
      cases shown
      have kept : (ackStep app act { right with accepted := accepted }).db =
          (ackStep app act right).db ∧ (ackStep app act { right with accepted := accepted }).shown =
          (ackStep app act right).shown := ackStep_forgets act accepted
      exact ih _ _ kept.1 kept.2

/-- From any state on, a row stays and its position never falls. -/
theorem run_seq (acts : List AckAct) (increasing : Feed.Increasing state.db.events)
    {row : CheckpointRow} (stored : state.db.checkpoints.find? id = some row) :
    ∃ later, (Run.run (ackStep app) acts state).db.checkpoints.find? id = some later ∧
      row.body.seq ≤ later.body.seq := by
  have fresh : Applied { state with accepted := [] } id row.version row.body :=
    ⟨⟨row, stored, rfl, rfl, Nat.le_refl _⟩, rfl, fun _ inside => nomatch inside⟩
  have applied : Applied (Run.run (ackStep app) acts { state with accepted := [] }) id
      row.version row.body := run_applied acts increasing fresh
  have same : (Run.run (ackStep app) acts { state with accepted := [] }).db =
      (Run.run (ackStep app) acts state).db := run_forgets acts _ state rfl rfl
  obtain ⟨later, found, _, _, order⟩ := applied.row
  rw [same] at found
  exact ⟨later, found, order⟩

end Deltas

/-- The page still fits: it is of the version that the row has, and the delta computed now is the
one that was shown. -/
def Shown.Current (app : Deployment) (db : Database) (reader : Reader) (shown : Shown) : Prop :=
  ∃ row, db.checkpoints.find? shown.id = some row ∧ row.version = shown.version ∧
    checkpointDelta app db reader shown.subject row.body shown.limit = .ok shown.delta

/-- In every run a checkpoint is what the accepted deltas, in order, make of the one it was: each
accepted page was shown, and had the version of its place in that order. An acknowledgement that
was not shown, is of another version or gives another delta now changes nothing. -/
theorem checkpoint_acknowledged (app : Deployment) (db : Database) (shown : List Shown)
    (acts : List AckAct) (increasing : Feed.Increasing db.events) (id : String)
    (row : CheckpointRow) (stored : db.checkpoints.find? id = some row) :
    let state := Run.run (ackStep app) acts ⟨db, shown, []⟩
    Applied state id row.version row.body ∧
      (acceptedOf state id).Nodup ∧
      (∀ reader page, ¬ Shown.Current app state.db reader page →
        ackStep app (.ack reader (some page.token)) state = state) ∧
      (∀ reader text, (∀ page ∈ state.shown, some page.token ≠ text) →
        ackStep app (.ack reader text) state = state) ∧
      ∀ first later, acts = first ++ later → ∀ before,
        (Run.run (ackStep app) first ⟨db, shown, []⟩).db.checkpoints.find? id = some before →
          ∃ after, state.db.checkpoints.find? id = some after ∧ before.body.seq ≤ after.body.seq := by
  intro state
  have applied : Applied state id row.version row.body :=
    run_applied acts increasing
      ⟨⟨row, stored, rfl, rfl, Nat.le_refl _⟩, rfl, fun _ inside => nomatch inside⟩
  refine ⟨applied, ?_, ?_, ?_, ?_⟩
  · have distinct : ((acceptedOf state id).map Shown.version).Nodup := by
      rw [applied.versions]
      exact List.nodup_range'
    exact distinct.of_map _
  · intro reader page outdated
    simp only [ackStep]
    cases found : state.shown.find? fun shown => some shown.token = some page.token with
    | none => rfl
    | some listed =>
        dsimp only
        cases outcome : syncCheckpointAck app state.db reader (some page.token) with
        | error failure => rfl
        | ok answer =>
            obtain ⟨next, acked⟩ := answer
            obtain ⟨current, held, _, version, _, _, _, computed, _⟩ := ack_accepted outcome
            exact absurd ⟨current, held, version, computed⟩ outdated
  · intro reader text unknown
    have absent : (state.shown.find? fun shown => some shown.token = text) = none := by
      apply List.find?_eq_none.mpr
      intro page inside
      simpa using unknown page inside
    simp only [ackStep, absent]
  · rintro first later rfl before held
    have split : state = Run.run (ackStep app) later
        (Run.run (ackStep app) first ⟨db, shown, []⟩) := Run.run_append _ _ _ _
    rw [split]
    exact run_seq later (run_increasing first increasing) held

section Sample

/-- A checkpoint that has seen a reference which is gone. -/
def sampleCheckpoint : CheckpointRow where
  id := "sync_1"
  subject := "u_alice"
  credentialId := some "k_alice"
  version := 0
  expiresAt := 1000
  body := ⟨0, ["p_gone"], "", 0, ""⟩

def sampleCheckpoints : Database :=
  { sampleDatabase with checkpoints := ⟨[sampleCheckpoint], by simp⟩ }

theorem checkpoint_acknowledged_sample :
    let state := Run.run (ackStep sampleDeployment)
      [.get sampleSyncReader (some (.checkpoint "u_alice" ⟨"sync_1", 0⟩)) ⟨50, by decide⟩,
        .ack sampleSyncReader none]
      ⟨sampleCheckpoints, [], []⟩
    Applied state "sync_1" 0 sampleCheckpoint.body ∧ (acceptedOf state "sync_1").Nodup :=
  let result := checkpoint_acknowledged sampleDeployment sampleCheckpoints []
    [.get sampleSyncReader (some (.checkpoint "u_alice" ⟨"sync_1", 0⟩)) ⟨50, by decide⟩,
      .ack sampleSyncReader none] (by decide : List.Pairwise _ sampleDatabase.events)
    "sync_1" sampleCheckpoint rfl
  ⟨result.1, result.2.1⟩

end Sample

end MsgServer.EventLog
