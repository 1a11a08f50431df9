import Mathlib.Data.List.Induction
import MsgServer.Library.Fence
import MsgServer.Library.Run
import MsgServer.Plugins.InternetMail

/-!
Runs of the mail between services. No envelope is ever filed twice and each is filed under
the key recorded for its sender; the ids in an inbox differ as long as no envelope is filed
under the marker of a message whose fence has expired and that is still there.
-/

namespace MsgServer.Internet

open Library Codec

variable (world : World)

/-! What one request does -/

theorem recipientOf_ok {facts : Facts} {envelope : Envelope} {subject : Text}
    (done : recipientOf world facts envelope = .ok subject) :
    subject = envelope.recipientSubject := by
  simp only [recipientOf, Program.except_bind_ok, require_ok, exists_const,
    Program.except_pure, Except.ok.injEq] at done
  obtain ⟨sender, -, -, recipient, -, own, -, -, found, -, account, -, known, rfl⟩ := done
  exact known.2.2.2

/-- The sender's recorded key made the signature. -/
def Signed (contacts : Table Contact.address) (envelope : Envelope) : Prop :=
  ∃ contact, contacts.find? envelope.sender = some contact ∧
    contact.subjectId = envelope.senderSubject ∧ verifySender world contact envelope = .ok ()

/-- An envelope that passed the checks. -/
structure Admitted (request : Request) (envelope : Envelope) (settings : Settings) : Prop where
  signed : Signed world (settings envelope.recipientSubject).contacts envelope
  alive : ∃ expires, world.parseTime envelope.expiresAt = .ok expires ∧ request.now < expires

theorem screen_ok {request : Request} {envelope : Envelope} {settings : Settings}
    {subject : Text} (done : screen world request envelope settings = .ok subject) :
    subject = envelope.recipientSubject ∧ Admitted world request envelope settings := by
  simp only [screen, verifyTimes, Program.except_bind_ok, require_ok, exists_const, requireRow_ok,
    Program.except_pure, Except.ok.injEq] at done
  obtain ⟨-, -, found, reached, contact, known, same, _, checked, times, -, -, rfl⟩ := done
  have named := recipientOf_ok world reached
  subst named
  obtain ⟨issued, -, expires, parsed, -, -, -, alive⟩ := times
  exact ⟨rfl, ⟨contact, known, same, checked⟩, expires, parsed, alive⟩

/-- A message put in an inbox, with the contacts of the account at that moment. -/
structure Delivery where
  envelope : Envelope
  contacts : Table Contact.address

/-- What a request with this output has put in an inbox. -/
def delivered (request : Request) (data : Data) (settings : Settings) : List Delivery :=
  match request.call, data with
  | .receive envelope, .received _ false =>
      [{ envelope := envelope, contacts := (settings envelope.recipientSubject).contacts }]
  | _, _ => []

/-- There is room for one more message and one more record. -/
def Room (mail : Mail) (seen : Table Seen.marker) : Prop :=
  mail.messages.length < maxMessages ∧ seen.rows.length < maxSeen

/-- What an accepted request leaves behind. -/
inductive Effect (request : Request) (settings : Settings) : Data → Settings → Prop
  | contacts (subject : Text) (contacts : Table Contact.address) (data : Data)
      (quiet : delivered request data settings = []) :
      Effect request settings data
        (settings.set subject { settings subject with contacts := contacts })
  | duplicate (messageId : Text) : Effect request settings (.received messageId true) settings
  | filed (envelope : Envelope) (seen : Table Seen.marker)
      (call : request.call = .receive envelope)
      (admitted : screen world request envelope settings = .ok envelope.recipientSubject)
      (purged : purge world request.now (settings envelope.recipientSubject).seen = .ok seen)
      (free : seen.find? (envelope.marker world) = none)
      (room : Room (settings envelope.recipientSubject) seen) :
      Effect request settings (.received envelope.messageId false)
        (settings.set envelope.recipientSubject
          (file world request.now envelope (settings envelope.recipientSubject) seen))
  | dropped (subject id : Text) :
      Effect request settings (.deleted id) (settings.set subject ((settings subject).drop id))

theorem receive_effect {request : Request} {envelope : Envelope} {settings next : Settings}
    {data : Data} (call : request.call = .receive envelope)
    (done : receive world request envelope settings = .ok (data, next)) :
    Effect world request settings data next := by
  simp only [receive, Program.except_bind_ok] at done
  obtain ⟨subject, admitted, seen, purged, done⟩ := done
  have named := (screen_ok world admitted).1
  subst named
  split at done
  · simp only [Program.except_bind_ok, require_ok, exists_const, Program.except_pure,
      Except.ok.injEq, Prod.mk.injEq] at done
    obtain ⟨-, rfl, rfl⟩ := done
    exact .duplicate _
  · rename_i free
    simp only [Program.except_bind_ok, require_ok, exists_const, Program.except_pure,
      Except.ok.injEq, Prod.mk.injEq] at done
    obtain ⟨room, rfl, rfl⟩ := done
    exact .filed envelope seen call admitted purged free room

theorem act_effect {request : Request} {settings next : Settings} {data : Data}
    (done : act world request settings = .ok (data, next)) :
    Effect world request settings data next := by
  unfold act at done
  split at done
  · rename_i address subjectId publicKey call
    simp only [allow, Program.except_bind_ok, require_ok, exists_const, Program.except_pure,
      Except.ok.injEq, Prod.mk.injEq] at done
    obtain ⟨subject, -, parts, -, bytes, -, -, -, rfl, rfl⟩ := done
    exact .contacts subject _ _ (by simp [delivered, call])
  · rename_i address call
    simp only [revoke, Program.except_bind_ok, Program.except_pure, Except.ok.injEq,
      Prod.mk.injEq] at done
    obtain ⟨subject, -, parts, -, rfl, rfl⟩ := done
    exact .contacts subject _ _ (by simp [delivered, call])
  · rename_i envelope call
    exact receive_effect world call done
  · rename_i id call
    simp only [delete, Program.except_bind_ok, Program.except_pure, Except.ok.injEq,
      Prod.mk.injEq] at done
    obtain ⟨subject, -, rfl, rfl⟩ := done
    exact .dropped subject id

/-! Runs -/

/-- The mail of all accounts, and every message that was put in an inbox. -/
structure Machine where
  settings : Settings
  log : List Delivery

def start : Machine := { settings := noMail, log := [] }

/-- A refused request leaves the settings as they are. -/
def step (request : Request) (machine : Machine) : Machine :=
  match act world request machine.settings with
  | .ok (data, settings) =>
      { settings := settings, log := machine.log ++ delivered request data machine.settings }
  | .error _ => machine

def run (requests : List Request) : Machine := Run.run (step world) requests start

/-! The fence -/

/-- The time that `parse_time` reads. -/
def instant (text : Text) : Int :=
  match world.parseTime text with
  | .ok time => time
  | .error _ => 0

theorem instant_ok {text : Text} {time : Int} (parsed : world.parseTime text = .ok time) :
    instant world text = time := by
  simp [instant, parsed]

/-- The account and the marker that a delivery is fenced under. -/
def Delivery.key (delivery : Delivery) : Text × Text :=
  (delivery.envelope.recipientSubject, delivery.envelope.marker world)

def Delivery.expires (delivery : Delivery) : Int := instant world delivery.envelope.expiresAt

/-- The fences hold a marker of an account. -/
def held (settings : Settings) (name : Text × Text) (limit : Int) : Prop :=
  ∃ row, (settings name.1).seen.find? name.2 = some row ∧
    world.parseTime row.expiresAt = .ok limit

/-- Every record of a fence has a date. -/
def Dated (settings : Settings) : Prop :=
  ∀ subject, ∀ row ∈ (settings subject).seen.rows, ∃ time,
    world.parseTime row.expiresAt = .ok time

/-- A message of an inbox is one that was delivered, under its marker. -/
def Recorded (machine : Machine) : Prop :=
  ∀ subject, ∀ message ∈ (machine.settings subject).messages,
    message.id = message.envelope.marker world ∧
      ∃ delivery ∈ machine.log, delivery.envelope = message.envelope ∧
        delivery.envelope.recipientSubject = subject

structure Kept (now : Int) (machine : Machine) : Prop where
  fenced : Fence.Covers (Delivery.key world) (Delivery.expires world) (held world machine.settings)
    now machine.log
  dated : Dated world machine.settings
  recorded : Recorded world machine
  once : (machine.log.map Delivery.envelope).Nodup
  signed : ∀ delivery ∈ machine.log, Signed world delivery.contacts delivery.envelope

theorem kept_start (now : Int) : Kept world now start where
  fenced := Fence.covers_nil
  dated := by
    intro subject row inside
    cases inside
  recorded := by
    intro subject message inside
    cases inside
  once := List.nodup_nil
  signed := by
    intro delivery inside
    cases inside

theorem unexpired_iff {now : Int} {row : Seen} :
    unexpired world now row = true ↔
      ∃ expires, world.parseTime row.expiresAt = .ok expires ∧ now < expires := by
  unfold unexpired
  cases world.parseTime row.expiresAt with
  | ok expires => simp
  | error failure => simp

theorem parseAll_ok {rows : List Seen} :
    parseAll world rows = .ok () ↔ ∀ row ∈ rows, ∃ time, world.parseTime row.expiresAt = .ok time := by
  induction rows with
  | nil => simp [parseAll]
  | cons row rest ih =>
      cases parsed : world.parseTime row.expiresAt with
      | ok time => simp [parseAll, parsed, ih]
      | error failure => simp [parseAll, parsed]

theorem purge_ok {now : Int} {seen next : Table Seen.marker} :
    purge world now seen = .ok next ↔
      (∀ row ∈ seen.rows, ∃ time, world.parseTime row.expiresAt = .ok time) ∧
        seen.keep (unexpired world now) = next := by
  simp only [purge, Program.except_bind_ok, Program.except_pure, Except.ok.injEq]
  constructor
  · rintro ⟨_, parsed, shape⟩
    exact ⟨(parseAll_ok world).mp parsed, shape⟩
  · rintro ⟨parsed, shape⟩
    exact ⟨(), (parseAll_ok world).mpr parsed, shape⟩

/-- A change that leaves the fences and adds no message keeps the invariant. -/
theorem Kept.quiet {now later : Int} {machine : Machine} {next : Settings}
    (kept : Kept world now machine) (time : now ≤ later)
    (seen : ∀ subject, (next subject).seen = (machine.settings subject).seen)
    (messages : ∀ subject, ∀ message ∈ (next subject).messages,
      message ∈ (machine.settings subject).messages) :
    Kept world later { settings := next, log := machine.log } where
  fenced := by
    refine kept.fenced.purge time ?_
    intro name limit _ holds
    simpa [held, seen] using holds
  dated := by
    intro subject row inside
    rw [seen] at inside
    exact kept.dated subject row inside
  recorded := by
    intro subject message inside
    exact kept.recorded subject message (messages subject message inside)
  once := kept.once
  signed := kept.signed

/-- The mail of one account is the only one that a request writes. -/
theorem set_seen {settings : Settings} {subject : Text} {mail : Mail}
    (same : mail.seen = (settings subject).seen) (other : Text) :
    (settings.set subject mail other).seen = (settings other).seen := by
  by_cases here : other = subject
  · subst here
    simpa using same
  · rw [Settings.set_ne _ _ here]

theorem set_messages {settings : Settings} {subject : Text} {mail : Mail}
    (fewer : ∀ message ∈ mail.messages, message ∈ (settings subject).messages) (other : Text) :
    ∀ message ∈ (settings.set subject mail other).messages,
      message ∈ (settings other).messages := by
  by_cases here : other = subject
  · subst here
    simpa using fewer
  · rw [Settings.set_ne _ _ here]
    exact fun message inside => inside

section Filing

variable {world} {now : Int} {request : Request} {envelope : Envelope} {settings : Settings}
  {seen : Table Seen.marker}

/-- The settings after an envelope was filed. -/
def filed (world : World) (request : Request) (envelope : Envelope) (settings : Settings)
    (seen : Table Seen.marker) : Settings :=
  settings.set envelope.recipientSubject
    (file world request.now envelope (settings envelope.recipientSubject) seen)

/-- The new record of the fence. -/
def fenceRow (world : World) (envelope : Envelope) : Seen :=
  { marker := envelope.marker world, digest := digest world envelope.wire
    expiresAt := envelope.expiresAt }

theorem filed_self : filed world request envelope settings seen envelope.recipientSubject =
    file world request.now envelope (settings envelope.recipientSubject) seen :=
  Settings.set_self ..

theorem filed_ne {other : Text} (apart : other ≠ envelope.recipientSubject) :
    filed world request envelope settings seen other = settings other :=
  Settings.set_ne _ _ apart

theorem find_filed (marker : Text) :
    (filed world request envelope settings seen envelope.recipientSubject).seen.find? marker =
      if envelope.marker world = marker then some (fenceRow world envelope)
      else seen.find? marker := by
  rw [filed_self]
  exact Table.find?_put seen (fenceRow world envelope) marker

/-- What the purge has kept is still held; the new record has a marker of its own. -/
theorem held_filed (purged : purge world request.now (settings envelope.recipientSubject).seen =
      .ok seen) (free : seen.find? (envelope.marker world) = none)
    {name : Text × Text} {limit : Int} (alive : request.now < limit)
    (holds : held world settings name limit) :
    held world (filed world request envelope settings seen) name limit := by
  obtain ⟨row, found, parsed⟩ := holds
  by_cases here : name.1 = envelope.recipientSubject
  · have still : unexpired world request.now row = true :=
      (unexpired_iff world).mpr ⟨limit, parsed, alive⟩
    have inSeen : seen.find? name.2 = some row := by
      rw [← ((purge_ok world).mp purged).2, Table.find?_keep, ← here, found]
      exact Option.filter_some_pos still
    have apart : envelope.marker world ≠ name.2 := by
      intro same
      rw [same, inSeen] at free
      cases free
    refine ⟨row, ?_, parsed⟩
    rw [here, find_filed, if_neg apart]
    exact inSeen
  · exact ⟨row, by rw [filed_ne here]; exact found, parsed⟩

theorem held_new {expires : Int} (parsed : world.parseTime envelope.expiresAt = .ok expires) :
    held world (filed world request envelope settings seen)
      (envelope.recipientSubject, envelope.marker world) expires :=
  ⟨fenceRow world envelope, by rw [find_filed, if_pos rfl], parsed⟩

theorem dated_filed (dated : Dated world settings)
    (purged : purge world request.now (settings envelope.recipientSubject).seen = .ok seen)
    {expires : Int} (parsed : world.parseTime envelope.expiresAt = .ok expires) :
    Dated world (filed world request envelope settings seen) := by
  intro subject row inside
  by_cases here : subject = envelope.recipientSubject
  · subst here
    rw [Table.mem_iff_find?, find_filed] at inside
    split at inside
    · cases inside
      exact ⟨expires, parsed⟩
    · have older := Table.find?_mem inside
      rw [← ((purge_ok world).mp purged).2] at older
      exact dated _ row (List.mem_filter.mp older).1
  · rw [filed_ne here] at inside
    exact dated subject row inside

/-- A marker that the purged fence lacks is held by no record that is still alive. -/
theorem not_held (purged : purge world request.now (settings envelope.recipientSubject).seen =
      .ok seen) (free : seen.find? (envelope.marker world) = none) (limit : Int)
    (alive : request.now < limit) :
    ¬ held world settings (envelope.recipientSubject, envelope.marker world) limit := by
  rintro ⟨row, found, parsed⟩
  have still : unexpired world request.now row = true :=
    (unexpired_iff world).mpr ⟨limit, parsed, alive⟩
  rw [← ((purge_ok world).mp purged).2, Table.find?_keep, found,
    Option.filter_some_pos still] at free
  cases free

theorem recorded_filed {machine : Machine} (recorded : Recorded world machine)
    (contacts : Table Contact.address) :
    Recorded world
      { settings := filed world request envelope machine.settings seen
        log := machine.log ++ [{ envelope := envelope, contacts := contacts }] } := by
  intro subject message inside
  have older : message ∈ (machine.settings subject).messages →
      message.id = message.envelope.marker world ∧
        ∃ delivery ∈ machine.log ++ [{ envelope := envelope, contacts := contacts }],
          delivery.envelope = message.envelope ∧
            delivery.envelope.recipientSubject = subject := by
    intro present
    obtain ⟨named, delivery, logged, shape⟩ := recorded subject message present
    exact ⟨named, delivery, List.mem_append_left _ logged, shape⟩
  by_cases here : subject = envelope.recipientSubject
  · subst here
    dsimp only at inside
    rw [filed_self] at inside
    rcases List.mem_append.mp inside with present | newest
    · exact older present
    · rw [List.mem_singleton] at newest
      subst newest
      exact ⟨rfl, _, List.mem_append_right _ (List.mem_singleton_self _), rfl, rfl⟩
  · dsimp only at inside
    rw [filed_ne here] at inside
    exact older inside

theorem kept_filed {machine : Machine} (kept : Kept world now machine)
    (time : now ≤ request.now) (admitted : Admitted world request envelope machine.settings)
    (purged : purge world request.now (machine.settings envelope.recipientSubject).seen = .ok seen)
    (free : seen.find? (envelope.marker world) = none) :
    Kept world request.now
      { settings := filed world request envelope machine.settings seen
        log := machine.log ++ [
          { envelope := envelope
            contacts := (machine.settings envelope.recipientSubject).contacts }] } := by
  obtain ⟨expires, parsed, alive⟩ := admitted.alive
  have read := instant_ok world parsed
  constructor
  case fenced =>
    have older := kept.fenced.purge time (fun _ _ alive holds =>
      held_filed purged free alive holds)
    apply older.accept
    rw [Delivery.expires, read]
    exact held_new parsed
  case dated => exact dated_filed kept.dated purged parsed
  case recorded => exact recorded_filed kept.recorded _
  case once =>
    -- an earlier delivery of the envelope would still be held
    have fresh := (kept.fenced.purge time fun _ _ _ holds => holds).fresh
      (not_held purged free)
    rw [List.map_append, List.map_singleton]
    apply List.nodup_append.mpr
    refine ⟨kept.once, List.nodup_singleton _, ?_⟩
    intro other inside last inLast same
    rw [List.mem_singleton] at inLast
    obtain ⟨delivery, logged, shape⟩ := List.mem_map.mp inside
    have equal : delivery.envelope = envelope := shape.trans (same.trans inLast)
    apply fresh delivery logged
    · rw [Delivery.expires, equal, read]
      exact alive
    · rw [Delivery.key, equal]
  case signed =>
    intro delivery inside
    rcases List.mem_append.mp inside with older | newest
    · exact kept.signed delivery older
    · rw [List.mem_singleton] at newest
      subst newest
      exact admitted.signed

end Filing

theorem kept_step {now : Int} {machine : Machine} (request : Request)
    (kept : Kept world now machine) (time : now ≤ request.now) :
    Kept world request.now (step world request machine) := by
  unfold step
  cases done : act world request machine.settings with
  | error failure => exact kept.quiet world time (fun _ => rfl) (fun _ _ inside => inside)
  | ok result =>
      obtain ⟨data, next⟩ := result
      cases act_effect world done with
      | contacts subject contacts data quiet =>
          dsimp only
          rw [quiet, List.append_nil]
          exact kept.quiet world time (set_seen rfl) (set_messages fun _ inside => inside)
      | duplicate messageId =>
          have quiet : delivered request (.received messageId true) machine.settings = [] := by
            unfold delivered
            split <;> simp_all
          dsimp only
          rw [quiet, List.append_nil]
          exact kept.quiet world time (fun _ => rfl) (fun _ _ inside => inside)
      | filed envelope seen call admitted purged free room =>
          have logged : delivered request (.received envelope.messageId false) machine.settings =
              [{ envelope := envelope
                 contacts := (machine.settings envelope.recipientSubject).contacts }] := by
            simp [delivered, call]
          dsimp only
          rw [logged]
          exact kept_filed kept time (screen_ok world admitted).2 purged free
      | dropped subject id =>
          have quiet : delivered request (.deleted id) machine.settings = [] := by
            unfold delivered
            split <;> simp_all
          dsimp only
          rw [quiet, List.append_nil]
          exact kept.quiet world time (set_seen rfl)
            (set_messages fun _ inside => List.mem_of_mem_filter inside)

theorem run_concat (earlier : List Request) (request : Request) :
    run world (earlier ++ [request]) = step world request (run world earlier) :=
  Run.run_concat ..

/-- The clock of a run never goes back. -/
def Ordered (requests : List Request) : Prop :=
  requests.Pairwise fun first second => first.now ≤ second.now

instance (requests : List Request) : Decidable (Ordered requests) :=
  inferInstanceAs (Decidable (requests.Pairwise _))

theorem kept_run {requests : List Request} (ordered : Ordered requests) {now : Int}
    (latest : ∀ request ∈ requests, request.now ≤ now) : Kept world now (run world requests) := by
  induction requests using List.reverseRecOn generalizing now with
  | nil => exact kept_start world now
  | append_singleton earlier request ih =>
      obtain ⟨before, -, since⟩ := List.pairwise_append.mp ordered
      have older := ih before fun other inside =>
        since other inside request (List.mem_singleton_self request)
      have stepped := kept_step world request older (le_refl _)
      rw [run_concat]
      exact stepped.quiet world
        (latest request (List.mem_append_right _ (List.mem_singleton_self request)))
        (fun _ => rfl) (fun _ _ inside => inside)

theorem latest_exists (requests : List Request) :
    ∃ now, ∀ request ∈ requests, request.now ≤ now := by
  induction requests with
  | nil => exact ⟨0, by simp⟩
  | cons request rest ih =>
      obtain ⟨now, bound⟩ := ih
      refine ⟨max request.now now, ?_⟩
      intro other inside
      rcases List.mem_cons.mp inside with first | later
      · subst first
        exact le_max_left _ _
      · exact le_trans (bound other later) (le_max_right _ _)

/-! Ids -/

def Distinct (settings : Settings) : Prop :=
  ∀ subject, ((settings subject).messages.map Message.id).Nodup

/-- The request files an envelope under the marker of a message that is still in the inbox,
because the fence of that message has expired. -/
def Refiles (request : Request) (settings : Settings) : Prop :=
  ∃ envelope, request.call = .receive envelope ∧
    screen world request envelope settings = .ok envelope.recipientSubject ∧
    envelope.marker world ∈ (settings envelope.recipientSubject).messages.map Message.id ∧
    ((settings envelope.recipientSubject).seen.keep (unexpired world request.now)).find?
      (envelope.marker world) = none ∧
    Room (settings envelope.recipientSubject)
      ((settings envelope.recipientSubject).seen.keep (unexpired world request.now))

theorem ids_filed {request : Request} {envelope : Envelope} {settings : Settings}
    {seen : Table Seen.marker} :
    (filed world request envelope settings seen envelope.recipientSubject).messages.map
        Message.id =
      (settings envelope.recipientSubject).messages.map Message.id ++ [envelope.marker world] := by
  rw [filed_self]
  simp [file]

theorem distinct_set {settings : Settings} {subject : Text} {mail : Mail}
    (distinct : Distinct settings) (own : (mail.messages.map Message.id).Nodup) :
    Distinct (settings.set subject mail) := by
  intro other
  by_cases here : other = subject
  · subst here
    simpa using own
  · rw [Settings.set_ne _ _ here]
    exact distinct other

theorem refiles_step {request : Request} {machine : Machine}
    (dated : Dated world machine.settings) (refiles : Refiles world request machine.settings) :
    ¬ Distinct (step world request machine).settings := by
  obtain ⟨envelope, call, admitted, present, free, room⟩ := refiles
  have purged : purge world request.now (machine.settings envelope.recipientSubject).seen =
      .ok ((machine.settings envelope.recipientSubject).seen.keep (unexpired world request.now)) :=
    (purge_ok world).mpr ⟨dated envelope.recipientSubject, rfl⟩
  have space : (machine.settings envelope.recipientSubject).messages.length < maxMessages ∧
      ((machine.settings envelope.recipientSubject).seen.keep
        (unexpired world request.now)).rows.length < maxSeen := room
  have done : act world request machine.settings =
      .ok (.received envelope.messageId false, filed world request envelope machine.settings
        ((machine.settings envelope.recipientSubject).seen.keep (unexpired world request.now))) := by
    simp only [act, call, receive, admitted, Program.except_ok_bind, purged, free]
    rw [require_true _ space]
    rfl
  intro distinct
  have twice := distinct envelope.recipientSubject
  rw [step, done] at twice
  dsimp only at twice
  rw [ids_filed] at twice
  exact (List.nodup_append.mp twice).2.2 _ present _ (List.mem_singleton_self _) rfl

theorem distinct_step {request : Request} {machine : Machine}
    (distinct : Distinct machine.settings) (clear : ¬ Refiles world request machine.settings) :
    Distinct (step world request machine).settings := by
  unfold step
  cases done : act world request machine.settings with
  | error failure => exact distinct
  | ok result =>
      obtain ⟨data, next⟩ := result
      cases act_effect world done with
      | contacts subject contacts data quiet => exact distinct_set distinct (distinct subject)
      | duplicate messageId => exact distinct
      | filed envelope seen call admitted purged free room =>
          have shape := ((purge_ok world).mp purged).2
          have absent : envelope.marker world ∉
              (machine.settings envelope.recipientSubject).messages.map Message.id := by
            intro present
            apply clear
            exact ⟨envelope, call, admitted, present, by rw [shape]; exact free,
              by rw [shape]; exact room⟩
          apply distinct_set distinct
          have ids : (file world request.now envelope
              (machine.settings envelope.recipientSubject) seen).messages.map Message.id =
              (machine.settings envelope.recipientSubject).messages.map Message.id ++
                [envelope.marker world] := by
            rw [← filed_self]
            exact ids_filed world
          rw [ids]
          apply List.nodup_append.mpr
          refine ⟨distinct _, List.nodup_singleton _, ?_⟩
          intro other inside last inLast same
          rw [List.mem_singleton] at inLast
          exact absent (inLast ▸ same ▸ inside)
      | dropped subject id =>
          apply distinct_set distinct
          exact (distinct subject).sublist (List.filter_sublist.map Message.id)

/-- With distinct ids a deletion takes at most one message. -/
theorem drop_single {mail : Mail} (distinct : (mail.messages.map Message.id).Nodup) (id : Text) :
    mail.messages.length ≤ (mail.drop id).messages.length + 1 := by
  by_cases present : ∃ message ∈ mail.messages, message.id = id
  · obtain ⟨message, inside, rfl⟩ := present
    have shape := Table.length_filter_key distinct inside
    apply le_of_eq
    rw [← shape]
    dsimp only [Mail.drop]
    congr 1
    apply congrArg
    apply List.filter_congr
    intro other _
    by_cases same : other.id = message.id <;> simp [same]
  · have whole : mail.messages.filter (fun message => message.id ≠ id) = mail.messages := by
      apply List.filter_eq_self.mpr
      intro message inside
      simpa using fun same => present ⟨message, inside, same⟩
    simp only [Mail.drop, whole]
    omega

/-- What mail that is delivered at most once means in one state of a run. -/
structure DeliveredOnce (machine : Machine) : Prop where
  once : (machine.log.map Delivery.envelope).Nodup
  distinct : Distinct machine.settings
  single : ∀ subject id, (machine.settings subject).messages.length ≤
    ((machine.settings subject).drop id).messages.length + 1
  signed : ∀ delivery ∈ machine.log, Signed world delivery.contacts delivery.envelope
  recorded : Recorded world machine

/-- In every state of a run all of it holds exactly if no request files an envelope under the
marker of a message that is still there. -/
theorem delivered_once (requests : List Request) (ordered : Ordered requests) :
    (∀ earlier, earlier <+: requests → DeliveredOnce world (run world earlier)) ↔
      ∀ earlier request later, requests = earlier ++ request :: later →
        ¬ Refiles world request (run world earlier).settings := by
  have kept : ∀ earlier, earlier <+: requests → ∃ now, Kept world now (run world earlier) := by
    intro earlier first
    obtain ⟨now, latest⟩ := latest_exists earlier
    exact ⟨now, kept_run world (ordered.sublist first.sublist) latest⟩
  constructor
  · intro always earlier request later shape refiles
    have before : earlier <+: requests := ⟨request :: later, shape.symm⟩
    have after : earlier ++ [request] <+: requests := ⟨later, by rw [shape]; simp⟩
    obtain ⟨now, known⟩ := kept earlier before
    have next := (always _ after).distinct
    rw [run_concat] at next
    exact refiles_step world known.dated refiles next
  · intro clear
    -- the ids differ in every state, by induction on the run
    have distinct : ∀ earlier, earlier <+: requests → Distinct (run world earlier).settings := by
      intro earlier first
      induction earlier using List.reverseRecOn with
      | nil => exact fun subject => List.nodup_nil
      | append_singleton earlier request ih =>
          obtain ⟨later, shape⟩ := first
          have whole : requests = earlier ++ request :: later := by
            rw [← shape]
            simp
          rw [run_concat]
          exact distinct_step world (ih ⟨request :: later, whole.symm⟩)
            (clear earlier request later whole)
    intro earlier first
    obtain ⟨now, known⟩ := kept earlier first
    have ids := distinct earlier first
    exact
      { once := known.once
        distinct := ids
        single := fun subject id => drop_single (ids subject) id
        signed := known.signed
        recorded := known.recorded }

/-! A run with a marker that comes back -/

def plainWorld : World where
  sha256 := fun bytes => bytes.flatMap fun byte =>
    [hexDigit (byte.toNat / 16), hexDigit (byte.toNat % 16)]
  ed25519 := fun publicKey signature _ => signature = publicKey
  parseTime := fun text =>
    if text = "2026-01-01T00:00:00Z".toList then .ok 0
    else if text = "2026-01-01T00:10:00Z".toList then .ok 600000000
    else if text = "2026-01-01T00:20:00Z".toList then .ok 1200000000
    else .error { code := "invalid_datetime" }
  timestamp := decimal
  netloc := "testserver".toList

def senderKey : List UInt8 := List.replicate 32 7

def plainEnvelope (issuedAt expiresAt body : String) : Envelope where
  messageId := List.replicate 32 '0'
  sender := "alice@remote.test".toList
  senderSubject := "u_remote".toList
  recipient := "bob@testserver".toList
  recipientSubject := "u_bob".toList
  issuedAt := issuedAt.toList
  expiresAt := expiresAt.toList
  body := body.toList
  signature :=
    { keyId := keyId plainWorld senderKey, algorithm := "ed25519".toList, value := b64 senderKey }

def plainFacts : Facts where
  requireBase := fun _ _ => .ok ()
  resource := fun _ => .ok { type := "user".toList, state := "active".toList }
  resolve := fun _ => .ok "u_bob".toList
  archived := fun _ => false
  acceptWrites := true

def allowRequest : Request where
  principal :=
    { subject := some "u_bob".toList, actor := some "u_bob".toList, method := "certificate".toList }
  requestId := "r1".toList
  now := 0
  facts := plainFacts
  call := .allow "alice@remote.test".toList "u_remote".toList (b64 senderKey)

def receiveRequest (now : Int) (envelope : Envelope) : Request where
  principal := { subject := none, actor := none, method := "anonymous".toList }
  requestId := envelope.requestId plainWorld
  now := now
  facts := plainFacts
  call := .receive envelope

def firstEnvelope : Envelope := plainEnvelope "2026-01-01T00:00:00Z" "2026-01-01T00:10:00Z" "one"
def secondEnvelope : Envelope := plainEnvelope "2026-01-01T00:10:00Z" "2026-01-01T00:20:00Z" "two"

/-- The first envelope and a resent copy of it. -/
def resentRun : List Request :=
  [allowRequest, receiveRequest 0 firstEnvelope, receiveRequest 1 firstEnvelope]

theorem delivered_once_resent : DeliveredOnce plainWorld (run plainWorld resentRun) := by
  refine (delivered_once plainWorld resentRun (by decide +kernel)).mpr ?_ resentRun
    List.prefix_rfl
  rintro earlier request later shape ⟨envelope, call, admitted, present, free, room⟩
  rcases earlier with _ | ⟨first, _ | ⟨second, _ | ⟨third, rest⟩⟩⟩
  · -- the grant receives nothing
    simp only [resentRun, List.nil_append, List.cons.injEq] at shape
    rw [← shape.1] at call
    cases call
  · -- the inbox is still empty
    simp only [resentRun, List.cons_append, List.nil_append, List.cons.injEq] at shape
    rw [← shape.2.1] at call
    cases call
    rw [← shape.1] at present
    revert present
    decide +kernel
  · -- the fence still holds the marker
    simp only [resentRun, List.cons_append, List.nil_append, List.cons.injEq] at shape
    rw [← shape.2.2.1] at call free
    cases call
    rw [← shape.1, ← shape.2.1] at free
    revert free
    decide +kernel
  · simp [resentRun] at shape

/-- A second envelope under the same message id, once the first has expired. -/
def reusedRun : List Request :=
  [allowRequest, receiveRequest 0 firstEnvelope, receiveRequest 600000000 secondEnvelope]

/-- Both messages are in the inbox under one id, and one deletion takes both. -/
theorem ids_repeated :
    Ordered reusedRun ∧ ¬ DeliveredOnce plainWorld (run plainWorld reusedRun) ∧
      ((run plainWorld reusedRun).settings "u_bob".toList).messages.length = 2 ∧
      (((run plainWorld reusedRun).settings "u_bob".toList).drop
        (firstEnvelope.marker plainWorld)).messages = [] := by
  have reached : Ordered reusedRun ∧
      ¬ (((run plainWorld reusedRun).settings "u_bob".toList).messages.map Message.id).Nodup ∧
      ((run plainWorld reusedRun).settings "u_bob".toList).messages.length = 2 ∧
      (((run plainWorld reusedRun).settings "u_bob".toList).drop
        (firstEnvelope.marker plainWorld)).messages = [] := by
    decide +kernel
  exact ⟨reached.1, fun once => reached.2.1 (once.distinct "u_bob".toList), reached.2.2⟩

end MsgServer.Internet
