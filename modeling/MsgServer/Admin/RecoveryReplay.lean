import MsgServer.Admin.RecoveryRuns

/-!
The replay of a whole checkpoint against a database: what it needs, what it leaves and how
two replays compose. The tables follow the replay of the facts; the gate is never touched,
and the receipt of a replayed prefix is one that the whole checkpoint continues.
-/

namespace MsgServer.Recovery

open Library Replay Program

variable {world : World}

/-- What the facts do to the tables. -/
abbrev act (world : World) (fact : Fact) (tables : Tables) : Except Failure Tables :=
  rowOf (apply world fact tables)

section Facts

variable {facts : List Fact} {db next : Database} {changed : Nat}

theorem applyFact_ok {fact : Fact} {turned : Bool}
    (done : applyFact world fact db = .ok (next, turned)) :
    act world fact db.tables = .ok next.tables ∧ next.quarantine = db.quarantine ∧
      next.recoveryReplay = db.recoveryReplay := by
  simp only [applyFact, except_bind_ok, Prod.exists, except_pure, Except.ok.injEq,
    Prod.mk.injEq] at done
  obtain ⟨tables, flag, applied, rfl, _⟩ := done
  exact ⟨rowOf_ok.mpr ⟨flag, applied⟩, rfl, rfl⟩

theorem applyFact_total {fact : Fact} {tables : Tables}
    (acts : act world fact db.tables = .ok tables) :
    ∃ next turned, applyFact world fact db = .ok (next, turned) ∧ next.tables = tables := by
  obtain ⟨flag, applied⟩ := rowOf_ok.mp acts
  refine ⟨_, flag, (except_bind_ok _ _ _).mpr ⟨_, applied, rfl⟩, rfl⟩

theorem applyFacts_ok (done : applyFacts world facts db = .ok changed next) :
    replay (act world) facts db.tables = .ok next.tables ∧ next.quarantine = db.quarantine ∧
      next.recoveryReplay = db.recoveryReplay := by
  induction facts generalizing db changed with
  | nil =>
      obtain ⟨_, rfl⟩ := (pure_ok _ _ _ _).mp done
      exact ⟨rfl, rfl, rfl⟩
  | cons fact rest ih =>
      simp only [applyFacts, bind_ok, update_ok, pure_ok] at done
      obtain ⟨_, between, stepped, _, _, followed, _, rfl⟩ := done
      have step := applyFact_ok stepped
      have later := ih followed
      exact ⟨replay_cons_ok.mpr ⟨_, step.1, later.1⟩, later.2.1.trans step.2.1,
        later.2.2.trans step.2.2⟩

theorem applyFacts_total {tables : Tables}
    (acts : replay (act world) facts db.tables = .ok tables) :
    ∃ changed next, applyFacts world facts db = .ok changed next := by
  induction facts generalizing db with
  | nil => exact ⟨0, db, rfl⟩
  | cons fact rest ih =>
      obtain ⟨reached, first, later⟩ := replay_cons_ok.mp acts
      obtain ⟨between, turned, stepped, same⟩ := applyFact_total first
      rw [← same] at later
      obtain ⟨changed, next, followed⟩ := ih later
      refine ⟨turned.toNat + changed, next, ?_⟩
      simp only [applyFacts, bind_ok, update_ok, pure_ok]
      exact ⟨turned, between, stepped, changed, next, followed, rfl, rfl⟩

end Facts

section Whole

variable {call : Call} {packet : Packet} {pin : Pin} {db next : Database} {report : Report}

/-- Everything that a replay checks before it applies the first fact. -/
structure Admitted (world : World) (call : Call) (packet : Packet) (pin : Pin) (db : Database) :
    Prop where
  operator : call.operator ≠ ""
  accepted : checkpointAccepted world call.now packet pin
  gate : checkGate packet.checkpoint db = .ok ()
  previous : checkPrevious world packet.checkpoint pin db = .ok ()

/-- What a replay that was not refused leaves. -/
structure Applied (world : World) (packet : Packet) (pin : Pin) (db next : Database) : Prop where
  tables : replay (act world) packet.checkpoint.entries db.tables = .ok next.tables
  quarantine : next.quarantine = db.quarantine
  receipt : next.recoveryReplay = some (some (receiptOf world packet.checkpoint pin))

theorem recordReceipt_shape (receipt : Receipt) (changed : Nat) :
    (recordReceipt world call pin receipt changed db).tables = db.tables ∧
      (recordReceipt world call pin receipt changed db).quarantine = db.quarantine ∧
      (recordReceipt world call pin receipt changed db).recoveryReplay = some (some receipt) := by
  unfold recordReceipt
  by_cases still : changed = 0 ∧ db.recoveryReplay = some (some receipt)
  · rw [if_pos still]
    exact ⟨rfl, rfl, still.2⟩
  · rw [if_neg still]
    exact ⟨rfl, rfl, rfl⟩

theorem turnEpoch_shape (changed : Nat) :
    (turnEpoch changed db).tables = db.tables ∧
      (turnEpoch changed db).quarantine = db.quarantine := by
  unfold turnEpoch
  split <;> exact ⟨rfl, rfl⟩

theorem verifyCheckpoint_ok {now : Nat} {body : Checkpoint} {approved : Pin} :
    verifyCheckpoint world now packet (some pin) = .ok (body, approved) ↔
      checkpointAccepted world now packet pin ∧ body = packet.checkpoint ∧ approved = pin := by
  simp only [verifyCheckpoint, requireRow, except_bind_ok, Except.ok.injEq, except_pure,
    Prod.mk.injEq, require_ok]
  constructor
  · rintro ⟨_, rfl, _, accepted, rfl, rfl⟩
    exact ⟨accepted, rfl, rfl⟩
  · rintro ⟨accepted, rfl, rfl⟩
    exact ⟨_, rfl, (), accepted, rfl, rfl⟩

theorem replayCheckpoint_ok
    (done : replayCheckpoint world call packet (some pin) db = .ok report next) :
    Admitted world call packet pin db ∧ Applied world packet pin db next := by
  simp only [replayCheckpoint, atomically_ok, replayBody, bind_ok, query_ok, write_ok, pure_ok,
    require_ok, Prod.exists, verifyCheckpoint_ok, Except.ok.injEq] at done
  obtain ⟨_, _, ⟨operator, rfl⟩, body, approved, _, ⟨⟨accepted, rfl, rfl⟩, rfl⟩, _, _,
    ⟨gate, rfl⟩, _, _, ⟨previous, rfl⟩, changed, reached, facts, _, _, rfl, _, _, rfl, _, rfl⟩ :=
    done
  have effect := applyFacts_ok facts
  have turned := @turnEpoch_shape reached changed
  have recorded := @recordReceipt_shape world call approved (turnEpoch changed reached)
    (receiptOf world packet.checkpoint approved) changed
  refine ⟨⟨operator, accepted, gate, previous⟩, ?_, ?_, recorded.2.2⟩
  · rw [effect.1, recorded.1, turned.1]
  · rw [recorded.2.1, turned.2, effect.2.1]

theorem replayCheckpoint_total {tables : Tables} (admitted : Admitted world call packet pin db)
    (acts : replay (act world) packet.checkpoint.entries db.tables = .ok tables) :
    ∃ report next, replayCheckpoint world call packet (some pin) db = .ok report next := by
  obtain ⟨changed, reached, facts⟩ := applyFacts_total acts
  simp only [replayCheckpoint, atomically_ok, replayBody, bind_ok, query_ok, write_ok, pure_ok,
    require_ok, Prod.exists, verifyCheckpoint_ok, Except.ok.injEq]
  exact ⟨_, _, (), db, ⟨admitted.operator, rfl⟩, _, _, db, ⟨⟨admitted.accepted, rfl, rfl⟩, rfl⟩,
    (), db, ⟨admitted.gate, rfl⟩, (), db, ⟨admitted.previous, rfl⟩, changed, reached, facts,
    (), _, rfl, (), _, rfl, rfl, rfl⟩

theorem replayed_ok {approved : Option Pin}
    (done : replayCheckpoint world call packet approved db = .ok report next) :
    replayed world call packet approved db = next := by
  rw [replayed, done]

/-- A replay that fails leaves the database as it was. -/
theorem replayed_refused {approved : Option Pin}
    (refused : ¬ ∃ report next, replayCheckpoint world call packet approved db = .ok report next) :
    replayed world call packet approved db = db := by
  unfold replayed
  cases outcome : replayCheckpoint world call packet approved db with
  | ok report next => exact absurd ⟨report, next, outcome⟩ refused
  | error failure next => exact ((atomically_error _ _ _ _).mp outcome).1

/-- Without a pin nothing is replayed. -/
theorem replayCheckpoint_unpinned :
    ¬ ∃ report next, replayCheckpoint world call packet none db = .ok report next := by
  rintro ⟨report, next, done⟩
  simp [replayCheckpoint, replayBody, verifyCheckpoint, requireRow] at done

theorem entriesAccepted_timed {now sequence : Nat} {entries : List Fact}
    (accepted : entriesAccepted world now sequence entries) :
    ∀ fact ∈ entries, Timed world fact := by
  induction entries generalizing sequence with
  | nil =>
      intro fact inside
      cases inside
  | cons first rest ih =>
      obtain ⟨⟨_, _, _, stamped⟩, later⟩ := accepted
      intro fact inside
      rcases List.mem_cons.mp inside with rfl | further
      · unfold timeAccepted at stamped
        split at stamped
        · exact ⟨_, ‹_›⟩
        · exact stamped.elim
      · exact ih later fact further

theorem Admitted.timed (admitted : Admitted world call packet pin db) :
    ∀ fact ∈ packet.checkpoint.entries, Timed world fact :=
  entriesAccepted_timed admitted.accepted.2.1

end Whole

section Convergence

variable {call earlier : Call} {packet part : Packet} {pin partPin : Pin} {db reached : Database}

/-- A gate that let a part of the checkpoint pass lets the whole pass, since a replay does not
touch it. -/
theorem checkGate_same (same : reached.quarantine = db.quarantine) :
    checkGate packet.checkpoint reached = checkGate packet.checkpoint db := by
  rw [checkGate, checkGate, same]

theorem checkPrevious_ok {body : Checkpoint} :
    checkPrevious world body pin db = .ok () ↔
      ∀ setting, db.recoveryReplay = some setting →
        ∃ receipt, setting = some receipt ∧ receiptContinues world body pin receipt := by
  unfold checkPrevious
  cases db.recoveryReplay with
  | none => simp
  | some setting =>
      cases setting with
      | none => simp [requireRow]
      | some receipt => simp [requireRow, require_ok]

/-- A receipt that a prefix continues is one that the whole continues. -/
theorem receiptContinues_whole {receipt : Receipt} (admitted : Admitted world earlier part partPin db)
    (accepted : checkpointAccepted world call.now packet pin)
    (first : part.checkpoint.entries <+: packet.checkpoint.entries)
    (continues : receiptContinues world part.checkpoint partPin receipt) :
    receiptContinues world packet.checkpoint pin receipt := by
  obtain ⟨⟨_, _, _, partFormat, _, _, _, _, partLength⟩, _⟩ := admitted.accepted
  obtain ⟨⟨_, _, _, format, _, _, _, _, length⟩, _⟩ := accepted
  obtain ⟨known, order, digest⟩ := continues
  have shorter : part.checkpoint.entries.length ≤ packet.checkpoint.entries.length := first.length_le
  refine ⟨?_, by omega, ?_⟩
  · rw [partFormat] at known
    rw [format]
    exact known
  · obtain ⟨rest, whole⟩ := first
    rw [digest, ← whole, List.take_append_of_le_length (by omega)]

/-- The receipt of a prefix is one that the whole continues. -/
theorem receiptOf_continues (admitted : Admitted world earlier part partPin db)
    (accepted : checkpointAccepted world call.now packet pin)
    (first : part.checkpoint.entries <+: packet.checkpoint.entries) :
    receiptContinues world packet.checkpoint pin (receiptOf world part.checkpoint partPin) := by
  apply receiptContinues_whole admitted accepted first
  obtain ⟨⟨_, _, _, format, _, _, _, _, length⟩, _⟩ := admitted.accepted
  refine ⟨Or.inl format, Nat.le_refl _, ?_⟩
  show _ = world.entriesDigest (part.checkpoint.entries.take partPin.sequence)
  rw [← length, List.take_length]
  rfl

/-- Where a prefix was replayed, the whole is admitted before exactly when it is after. -/
theorem admitted_after (admitted : Admitted world earlier part partPin db)
    (applied : Applied world part partPin db reached)
    (first : part.checkpoint.entries <+: packet.checkpoint.entries) :
    Admitted world call packet pin reached ↔ Admitted world call packet pin db := by
  have same := @checkGate_same packet db reached applied.quarantine
  constructor
  · rintro ⟨operator, accepted, gate, _⟩
    refine ⟨operator, accepted, same ▸ gate, checkPrevious_ok.mpr ?_⟩
    intro setting stored
    obtain ⟨receipt, rfl, continues⟩ := checkPrevious_ok.mp admitted.previous setting stored
    exact ⟨receipt, rfl, receiptContinues_whole admitted accepted first continues⟩
  · rintro ⟨operator, accepted, gate, _⟩
    refine ⟨operator, accepted, same ▸ gate, checkPrevious_ok.mpr ?_⟩
    intro setting stored
    cases applied.receipt.symm.trans stored
    exact ⟨_, rfl, receiptOf_continues admitted accepted first⟩

/-- After a prefix the whole has the same effect on the tables as it would have had. -/
theorem replay_after (admitted : Admitted world earlier part partPin db)
    (applied : Applied world part partPin db reached)
    (first : part.checkpoint.entries <+: packet.checkpoint.entries) :
    replay (act world) packet.checkpoint.entries reached.tables =
      replay (act world) packet.checkpoint.entries db.tables := by
  obtain ⟨rest, whole⟩ := first
  rw [← whole]
  exact apply_repeatable.converges admitted.timed applied.tables

/-- Replaying a checkpoint after a part of it has the outcome of replaying it at once. -/
theorem replayed_after (admitted : Admitted world earlier part partPin db)
    (applied : Applied world part partPin db reached)
    (first : part.checkpoint.entries <+: packet.checkpoint.entries) :
    (∃ report next, replayCheckpoint world call packet (some pin) reached = .ok report next) ↔
      ∃ report next, replayCheckpoint world call packet (some pin) db = .ok report next := by
  have same := replay_after admitted applied first
  constructor
  · rintro ⟨report, next, done⟩
    have effect := replayCheckpoint_ok done
    exact replayCheckpoint_total ((admitted_after admitted applied first).mp effect.1)
      (same.symm.trans effect.2.tables)
  · rintro ⟨report, next, done⟩
    have effect := replayCheckpoint_ok done
    exact replayCheckpoint_total ((admitted_after admitted applied first).mpr effect.1)
      (same.trans effect.2.tables)

/-- The same, also where the part was refused or its replay was not pinned. -/
theorem replayed_after_part {partPin : Option Pin}
    (first : part.checkpoint.entries <+: packet.checkpoint.entries) :
    (∃ report next, replayCheckpoint world call packet (some pin)
        (replayed world earlier part partPin db) = .ok report next) ↔
      ∃ report next, replayCheckpoint world call packet (some pin) db = .ok report next := by
  by_cases succeeds : ∃ report next, replayCheckpoint world earlier part partPin db = .ok report next
  · cases partPin with
    | none => exact absurd succeeds replayCheckpoint_unpinned
    | some partPin =>
        obtain ⟨report, next, done⟩ := succeeds
        have effect := replayCheckpoint_ok done
        rw [replayed_ok done]
        exact replayed_after effect.1 effect.2 first
  · rw [replayed_refused succeeds]

theorem replayed_converges {partPin : Option Pin}
    (first : part.checkpoint.entries <+: packet.checkpoint.entries)
    (succeeds : ∃ report next, replayCheckpoint world call packet (some pin) db = .ok report next) :
    (replayed world call packet (some pin) (replayed world earlier part partPin db)).tables =
      (replayed world call packet (some pin) db).tables := by
  by_cases ahead : ∃ report next, replayCheckpoint world earlier part partPin db = .ok report next
  · cases partPin with
    | none => exact absurd ahead replayCheckpoint_unpinned
    | some partPin =>
        obtain ⟨_, between, done⟩ := ahead
        have effect := replayCheckpoint_ok done
        obtain ⟨_, last, whole⟩ := (replayed_after effect.1 effect.2 first).mpr succeeds
        obtain ⟨_, direct, plain⟩ := succeeds
        rw [replayed_ok done, replayed_ok whole, replayed_ok plain]
        have afterwards := (replayCheckpoint_ok whole).2.tables
        rw [replay_after effect.1 effect.2 first] at afterwards
        exact Except.ok.inj (afterwards.symm.trans (replayCheckpoint_ok plain).2.tables)
  · rw [replayed_refused ahead]

/-- A second replay finds nothing to do, and a second refusal does nothing. -/
theorem replayed_twice {again : Call} (accepted : checkpointAccepted world call.now packet pin)
    (operator : again.operator = call.operator) :
    (replayed world again packet (some pin) (replayed world call packet (some pin) db)).tables =
      (replayed world call packet (some pin) db).tables := by
  by_cases succeeds : ∃ report next, replayCheckpoint world call packet (some pin) db = .ok report next
  · obtain ⟨_, once, done⟩ := succeeds
    have effect := replayCheckpoint_ok done
    have repeats := apply_repeatable _ _ _ effect.1.timed effect.2.tables
    rw [replayed_ok done]
    by_cases twice : ∃ report next, replayCheckpoint world again packet (some pin) once = .ok report next
    · obtain ⟨_, last, later⟩ := twice
      rw [replayed_ok later]
      exact Except.ok.inj ((replayCheckpoint_ok later).2.tables.symm.trans repeats)
    · rw [replayed_refused twice]
  · rw [replayed_refused succeeds]
    -- What refused the first call, the operator or the database, refuses the second one too.
    refine congrArg Database.tables (replayed_refused ?_)
    rintro ⟨_, last, later⟩
    have effect := replayCheckpoint_ok later
    refine succeeds (replayCheckpoint_total ⟨?_, accepted, effect.1.gate, effect.1.previous⟩
      effect.2.tables)
    rw [← operator]
    exact effect.1.operator

end Convergence

section Sample

def sampleWorld : World where
  parseTime := fun text => if text = "2026-01-01T00:00:00Z" then .ok 1 else .error { code := "invalid_time" }
  byteLength := fun _ => 32
  sha256Hex := fun text => decide (text.length = 64)
  checkpointDigest := fun body => "head " ++ toString body.sequence
  entriesDigest := fun facts => "entries " ++ toString facts.length
  canonical := fun body => body.service
  verify := fun _ _ _ _ => true
  keyId := fun key => key

def sampleFact (sequence : Nat) (topic : String) : Fact where
  sequence := sequence
  kind := .topicMembershipRemove
  subject := "u_alice"
  target := topic
  at' := "2026-01-01T00:00:00Z"

def sampleBackup : String := String.ofList (List.replicate 64 'a')

def samplePacket (entries : List Fact) : Packet where
  checkpoint := ⟨checkpointFormat, "https://msg.example", sampleBackup, entries.length, entries⟩
  signature := ⟨"recovery", "ed25519", ""⟩

def samplePin (entries : List Fact) : Pin :=
  ⟨"https://msg.example", "recovery", "head " ++ toString entries.length, entries.length⟩

def sampleCall : Call := ⟨"operator", 2, "audit_1"⟩

/-- One member of topic `t_1`; there is no `t_2`. -/
def sampleTables : Tables where
  credentials := fun _ => none
  deliveries := fun _ => none
  certificates := fun _ => none
  shareGrants := fun _ => none
  shareGrantsV2 := fun _ => none
  shareLinks := fun _ => none
  memberships := fun _ => none
  topicMemberships := fun key => if key = ("t_1", "u_alice") then some ⟨.member, .active⟩ else none
  topicBans := fun _ => none
  identityKeys := fun _ => none
  encryptionSubkeys := fun _ => none
  vaults := fun _ => none
  resources := fun id => decide (id = "t_1")

def sampleDatabase : Database where
  tables := sampleTables
  quarantine := some (some ⟨"msg-recovery-quarantine-v1", false, "health_only", some sampleBackup⟩)
  recoveryReplay := none
  authorizationEpoch := 0
  audit := []

end Sample

end MsgServer.Recovery
