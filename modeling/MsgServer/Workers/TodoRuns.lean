import Mathlib.Algebra.Order.Floor.Div
import MsgServer.Workers.Todos

/-!
Runs of the reminders among everything else the server does. Reminders are kept apart by
their ids, so one is sent for a todo and a due time; the batches go around the active todos,
so each todo that is due has its turn.
-/

namespace MsgServer.Todos

open Library Session

variable {worker : Worker} {world next : World} {now : Nat}

/-! One run -/

/-- What a run reads of a todo depends on the resources and the contents only. -/
theorem dueOf_congr (store : next.store = world.store) (details : next.details = world.details)
    (todo : Resource) : dueOf worker next now todo = dueOf worker world now todo := by
  simp only [dueOf, store, details]

theorem todos_congr (store : next.store = world.store) : todos next = todos world := by
  simp only [todos, store]

/-- A message that is no reminder and has no reminder's id. -/
def Plain (worker : Worker) (message : Message) : Prop :=
  message.notice = none ∧ ∀ resource dueAt, message.id ≠ worker.noticeId resource dueAt

/-- A reminder of a due time in its one text. -/
def Genuine (worker : Worker) (message : Message) : Prop :=
  ∃ now todo due time, message = reminder worker now todo due ∧ due.dueAt = worker.wire time

/-- The contents hold due times as `todo_put` stores them. -/
def Written (worker : Worker) (world : World) : Prop :=
  ∀ resource revision details, world.details resource revision = .ok details →
    ∃ given, storedDue worker given = .ok details.dueAt

/-- A todo that passes every test. -/
structure Passes (worker : Worker) (world : World) (now : Nat) (todo : Resource) (due : Due)
    (above : String) (parent : Resource) (details : Details) (time : Nat) : Prop where
  revision : todo.revision = some due.revision
  hidden : todo.mode &&& 0o077 = 0
  nested : todo.parent = some above
  found : resource worker.app world.store above = .ok parent
  folder : TodoFolder todo parent
  content : world.details todo.id due.revision = .ok details
  dueAt : details.dueAt = some due.dueAt
  filled : due.dueAt ≠ ""
  pending : details.status ∈ ["pending", "in_progress"]
  parsed : worker.parseTime due.dueAt = .ok time
  reached : time ≤ now
  status : due.status = details.status

theorem dueOf_some {todo : Resource} {due : Due} :
    dueOf worker world now todo = .ok (some due) ↔
      ∃ above parent details time, Passes worker world now todo due above parent details time := by
  constructor
  · intro found
    unfold dueOf at found
    cases revised : todo.revision with
    | none => simp [revised] at found
    | some revision =>
        by_cases hidden : todo.mode &&& 0o077 = 0
        · cases nested : todo.parent with
          | none => simp [revised, hidden, nested] at found
          | some above =>
              simp only [revised, hidden, nested, ne_eq, not_true_eq_false, if_false,
                Program.except_bind_ok] at found
              obtain ⟨parent, isParent, found⟩ := found
              by_cases folder : TodoFolder todo parent
              · simp only [if_pos folder, Program.except_bind_ok] at found
                obtain ⟨details, content, found⟩ := found
                cases timed : details.dueAt with
                | none => simp [timed] at found
                | some dueAt =>
                    simp only [timed] at found
                    split at found
                    · simp at found
                    · rename_i open'
                      rw [not_or, not_not] at open'
                      simp only [Program.except_bind_ok, Program.except_pure,
                        Except.ok.injEq] at found
                      obtain ⟨time, parsed, found⟩ := found
                      split at found
                      · cases found
                      · rename_i reached
                        obtain rfl := Option.some.inj found
                        exact ⟨above, parent, details, time, revised, hidden, nested, isParent,
                          folder, content, timed, open'.1, open'.2, parsed,
                          Nat.le_of_not_lt reached, rfl⟩
              · simp [if_neg folder] at found
        · simp [revised, hidden] at found
  · rintro ⟨above, parent, details, time, passes⟩
    obtain ⟨revision, dueAt, status⟩ := due
    have open' : ¬ (dueAt = "" ∨ details.status ∉ ["pending", "in_progress"]) := by
      rw [not_or, not_not]
      exact ⟨passes.filled, passes.pending⟩
    have reached : ¬ now < time := Nat.not_lt.mpr passes.reached
    have same : status = details.status := passes.status
    simp only [dueOf, passes.revision, passes.hidden, passes.nested, ne_eq, not_true_eq_false,
      if_false, Program.except_bind_ok]
    refine ⟨parent, passes.found, ?_⟩
    simp only [if_pos passes.folder, Program.except_bind_ok]
    refine ⟨details, passes.content, ?_⟩
    simp only [passes.dueAt, if_neg open', Program.except_bind_ok]
    exact ⟨time, passes.parsed, by simp [reached, same]⟩

theorem dueOf_written (written : Written worker world) {todo : Resource} {due : Due}
    (found : dueOf worker world now todo = .ok (some due)) :
    ∃ time, due.dueAt = worker.wire time := by
  obtain ⟨above, parent, details, time, passes⟩ := dueOf_some.mp found
  obtain ⟨given, stored⟩ := written _ _ _ passes.content
  rw [passes.dueAt] at stored
  cases given with
  | none => simp [storedDue] at stored
  | some text =>
      simp only [storedDue, Program.except_bind_ok, Program.except_pure, Except.ok.injEq,
        Option.some.injEq] at stored
      obtain ⟨found, -, same⟩ := stored
      exact ⟨found, same.symm⟩

theorem dueOf_later {todo : Resource} {due : Due} {later : Nat} (order : now ≤ later)
    (found : dueOf worker world now todo = .ok (some due)) :
    dueOf worker world later todo = .ok (some due) := by
  obtain ⟨above, parent, details, time, passes⟩ := dueOf_some.mp found
  exact dueOf_some.mpr
    ⟨above, parent, details, time, { passes with reached := passes.reached.trans order }⟩

/-- A run adds reminders and changes nothing else but the cursor and the audit. -/
structure Grown (worker : Worker) (world next : World) : Prop where
  store : next.store = world.store
  details : next.details = world.details
  cursor : next.cursor = world.cursor
  messages : ∃ more, next.messages.rows = world.messages.rows ++ more ∧
    ∀ message ∈ more, ∃ now todo due, dueOf worker world now todo = .ok (some due) ∧
      message = reminder worker now todo due

theorem Grown.refl (worker : Worker) (world : World) : Grown worker world world :=
  ⟨rfl, rfl, rfl, [], by simp, by simp⟩

theorem Grown.trans {last : World} (first : Grown worker world next)
    (second : Grown worker next last) : Grown worker world last := by
  obtain ⟨more, rows, reminders⟩ := first.messages
  obtain ⟨others, otherRows, otherReminders⟩ := second.messages
  refine ⟨second.store.trans first.store, second.details.trans first.details,
    second.cursor.trans first.cursor, more ++ others, ?_, ?_⟩
  · rw [otherRows, rows, List.append_assoc]
  · intro message member
    rcases List.mem_append.mp member with early | late
    · exact reminders message early
    · obtain ⟨now, todo, due, found, same⟩ := otherReminders message late
      exact ⟨now, todo, due, dueOf_congr first.store first.details todo ▸ found, same⟩

/-- The inbox holds a message under the id of a reminder. -/
def Noted (worker : Worker) (world : World) (resource dueAt : String) : Prop :=
  ∃ message ∈ world.messages.rows, message.id = worker.noticeId resource dueAt

theorem Grown.noted {resource dueAt : String} (grown : Grown worker world next)
    (noted : Noted worker world resource dueAt) : Noted worker next resource dueAt := by
  obtain ⟨message, member, same⟩ := noted
  obtain ⟨more, rows, -⟩ := grown.messages
  exact ⟨message, rows ▸ List.mem_append_left _ member, same⟩

theorem deliver_ok {todo : Resource} {before after : Nat}
    (done : deliver worker now (world, before) todo = .ok (next, after)) :
    Grown worker world next ∧
      ∀ due, dueOf worker world now todo = .ok (some due) →
        Noted worker next todo.id due.dueAt := by
  rw [deliver, Program.except_bind_ok] at done
  obtain ⟨found, read, done⟩ := done
  cases found with
  | none =>
      cases done
      refine ⟨.refl _ _, fun due other => ?_⟩
      rw [read] at other
      cases other
  | some due =>
      have same (other : Due) (again : dueOf worker world now todo = .ok (some other)) :
          other = due := by
        rw [read] at again
        exact (Option.some.inj (Except.ok.inj again)).symm
      cases inserted : world.messages.insert (reminder worker now todo due) with
      | none =>
          simp only [inserted] at done
          cases done
          obtain ⟨message, there⟩ := (Table.insert_eq_none _ _).mp inserted
          refine ⟨.refl _ _, fun other again => ?_⟩
          rw [same other again]
          exact ⟨message, Table.find?_mem there, Table.find?_key there⟩
      | some messages =>
          simp only [inserted] at done
          cases done
          have rows := Table.insert_rows inserted
          refine ⟨⟨rfl, rfl, rfl, _, rows, ?_⟩, fun other again => ?_⟩
          · intro message member
            exact ⟨now, todo, due, read, List.mem_singleton.mp member⟩
          · rw [same other again]
            exact ⟨_, rows ▸ List.mem_append_right _ (List.mem_singleton_self _), rfl⟩

theorem deliver_all {rows : List Resource} {before after : Nat}
    (done : rows.foldlM (deliver worker now) (world, before) = .ok (next, after)) :
    Grown worker world next ∧
      ∀ todo ∈ rows, ∀ due, dueOf worker world now todo = .ok (some due) →
        Noted worker next todo.id due.dueAt := by
  induction rows generalizing world before with
  | nil =>
      cases done
      exact ⟨.refl _ _, by simp⟩
  | cons first rest ih =>
      rw [List.foldlM_cons, Program.except_bind_ok] at done
      obtain ⟨⟨middle, count⟩, one, later⟩ := done
      obtain ⟨grown, noted⟩ := deliver_ok one
      obtain ⟨grownLater, notedLater⟩ := ih later
      refine ⟨grown.trans grownLater, ?_⟩
      intro todo member due found
      rcases List.mem_cons.mp member with rfl | inRest
      · exact grownLater.noted (noted due found)
      · exact notedLater todo inRest due
          (dueOf_congr grown.store grown.details todo ▸ found)

theorem deliverDueTodos_ok {count : Nat}
    (done : deliverDueTodos worker now world = .ok (next, count)) :
    let rows := RoundRobin.batch Resource.id todoDeliveryBatchSize (todos world) world.cursor
    Grown worker { world with cursor := RoundRobin.next Resource.id rows world.cursor } next ∧
      ∀ todo ∈ rows, ∀ due, dueOf worker world now todo = .ok (some due) →
        Noted worker next todo.id due.dueAt :=
  deliver_all done

/-! Everything else -/

/-- What happens between two runs: messages of other kinds are added, contents are written by
`todo_put`, and nothing else writes the cursor. -/
structure Others (worker : Worker) (world next : World) : Prop where
  messages : ∃ more, next.messages.rows = world.messages.rows ++ more ∧
    ∀ message ∈ more, Plain worker message
  cursor : next.cursor = world.cursor
  written : Written worker next

inductive Reach (worker : Worker) (world : World) : World → Prop
  | start : Reach worker world world
  | run {middle next : World} {now count : Nat} (reached : Reach worker world middle)
      (ran : deliverDueTodos worker now middle = .ok (next, count)) : Reach worker world next
  | other {middle next : World} (reached : Reach worker world middle)
      (others : Others worker middle next) : Reach worker world next

/-- A world without reminders. -/
structure Initial (worker : Worker) (world : World) : Prop where
  plain : ∀ message ∈ world.messages.rows, Plain worker message
  written : Written worker world

/-- Every message is a reminder under its own id or has no reminder's id. -/
structure Sound (worker : Worker) (world : World) : Prop where
  named : ∀ message ∈ world.messages.rows, Plain worker message ∨ Genuine worker message
  written : Written worker world

theorem Sound.grown (sound : Sound worker world) (grown : Grown worker world next) :
    Sound worker next := by
  obtain ⟨more, rows, reminders⟩ := grown.messages
  constructor
  · intro message member
    rw [rows] at member
    rcases List.mem_append.mp member with old | added
    · exact sound.named message old
    · obtain ⟨now, todo, due, found, same⟩ := reminders message added
      obtain ⟨time, text⟩ := dueOf_written sound.written found
      exact .inr ⟨now, todo, due, time, same, text⟩
  · rw [Written, grown.details]
    exact sound.written

theorem Sound.others (sound : Sound worker world) (others : Others worker world next) :
    Sound worker next := by
  obtain ⟨more, rows, plain⟩ := others.messages
  refine ⟨fun message member => ?_, others.written⟩
  rw [rows] at member
  rcases List.mem_append.mp member with old | added
  · exact sound.named message old
  · exact .inl (plain message added)

theorem Sound.run {count : Nat} (sound : Sound worker world)
    (ran : deliverDueTodos worker now world = .ok (next, count)) : Sound worker next := by
  have moved (cursor : String) : Sound worker { world with cursor } :=
    ⟨sound.named, sound.written⟩
  exact (moved _).grown (deliverDueTodos_ok ran).1

theorem reach_sound (start : Initial worker world) (reached : Reach worker world next) :
    Sound worker next := by
  induction reached with
  | start => exact ⟨fun message member => .inl (start.plain message member), start.written⟩
  | run _ ran ih => exact ih.run ran
  | other _ others ih => exact ih.others others

/-- A message that reminds of a todo and of the instant that its due time denotes. -/
def Reminds (worker : Worker) (message : Message) (resource : String) (time : Nat) : Prop :=
  message.resource = some resource ∧
    ∃ notice ∈ message.notice, worker.parseTime notice.dueAt = .ok time

theorem Sound.once (sound : Sound worker world) {resource : String} {time : Nat}
    {left right : Message} (inLeft : left ∈ world.messages.rows)
    (inRight : right ∈ world.messages.rows) (leftReminds : Reminds worker left resource time)
    (rightReminds : Reminds worker right resource time) : left = right := by
  have named {message : Message} (member : message ∈ world.messages.rows)
      (reminds : Reminds worker message resource time) :
      message.id = worker.noticeId resource (worker.wire time) := by
    obtain ⟨about, notice, isNotice, parsed⟩ := reminds
    rcases sound.named message member with plain | ⟨now, todo, due, found, rfl, text⟩
    · rw [plain.1] at isNotice
      cases isNotice
    · obtain rfl := Option.some.inj about
      obtain rfl := Option.some.inj isNotice
      have same : found = time := by
        have read := worker.parseWire found
        rw [← text] at read
        exact Except.ok.inj (read.symm.trans parsed)
      rw [← same, ← text]
      rfl
  exact Table.eq_of_key_eq inLeft inRight
    ((named inLeft leftReminds).trans (named inRight rightReminds).symm)

/-- Where no two reminders share an id, a message under the id of one is that reminder. -/
theorem Sound.reminds (sound : Sound worker world)
    (apart : ∀ resource dueAt other text,
      worker.noticeId resource dueAt = worker.noticeId other text →
        resource = other ∧ dueAt = text)
    {resource dueAt : String} {time : Nat} (parsed : worker.parseTime dueAt = .ok time)
    (noted : Noted worker world resource dueAt) :
    ∃ message ∈ world.messages.rows, Reminds worker message resource time := by
  obtain ⟨message, member, same⟩ := noted
  rcases sound.named message member with plain | ⟨now, todo, due, found, rfl, text⟩
  · exact absurd same (plain.2 _ _)
  · obtain ⟨rfl, rfl⟩ := apart _ _ _ _ same
    exact ⟨_, member, rfl, _, rfl, parsed⟩

/-! The turns of a static set -/

/-- Between two runs the active todos stay, and so does what a run reads of them. -/
structure Static (worker : Worker) (world next : World) : Prop where
  todos : todos next = todos world
  due : ∀ now, ∀ todo ∈ Todos.todos world,
    dueOf worker next now todo = dueOf worker world now todo
  others : Others worker world next

/-- Runs one after the other, none before a given time. -/
inductive Rounds (worker : Worker) (start : Nat) : Nat → World → World → Prop
  | none {world : World} : Rounds worker start 0 world world
  | round {rounds now count : Nat} {world middle next last : World} (late : start ≤ now)
      (ran : deliverDueTodos worker now world = .ok (middle, count))
      (static : Static worker middle next) (later : Rounds worker start rounds next last) :
      Rounds worker start (rounds + 1) world last

theorem todos_ordered (world : World) :
    (todos world).Pairwise fun left right => left.id < right.id := by
  have sorted : (todos world).Pairwise fun left right => decide (left.id ≤ right.id) = true := by
    apply List.pairwise_mergeSort
    · intro first second third below above
      simp only [decide_eq_true_eq] at below above ⊢
      exact below.trans above
    · intro left right
      simpa using le_total left.id right.id
  have distinct : ((todos world).map Resource.id).Nodup := by
    have listed : (todos world).Perm _ := List.mergeSort_perm _ _
    have kept := (List.filter_sublist (p := fun row : Resource =>
      row.type == "todo" && row.state == .active) (l := world.store.resources.rows)).map Resource.id
    exact (listed.map Resource.id).nodup_iff.mpr (world.store.resources.unique.sublist kept)
  have apart : (todos world).Pairwise fun left right => left.id ≠ right.id :=
    List.pairwise_map.mp distinct
  refine (sorted.and apart).imp ?_
  rintro left right ⟨below, different⟩
  exact lt_of_le_of_ne (by simpa using below) different

theorem Others.noted {resource dueAt : String} (others : Others worker world next)
    (noted : Noted worker world resource dueAt) : Noted worker next resource dueAt := by
  obtain ⟨message, member, same⟩ := noted
  obtain ⟨more, rows, -⟩ := others.messages
  exact ⟨message, rows ▸ List.mem_append_left _ member, same⟩

theorem Rounds.kept {start rounds : Nat} (ran : Rounds worker start rounds world next)
    {resource dueAt : String} (noted : Noted worker world resource dueAt) :
    Noted worker next resource dueAt := by
  induction ran with
  | none => exact noted
  | round late ran static later ih =>
      exact ih (static.others.noted ((deliverDueTodos_ok ran).1.noted noted))

theorem Rounds.sound {start rounds : Nat} (ran : Rounds worker start rounds world next)
    (sound : Sound worker world) : Sound worker next := by
  induction ran with
  | none => exact sound
  | round late ran static later ih => exact ih ((sound.run ran).others static.others)

theorem Rounds.noted {start rounds : Nat} (ran : Rounds worker start rounds world next)
    {todo : Resource} {due : Due}
    (found : dueOf worker world start todo = .ok (some due))
    (member : todo ∈ (RoundRobin.turn Resource.id (todos world) world.cursor).take
      (rounds * todoDeliveryBatchSize)) : Noted worker next todo.id due.dueAt := by
  induction ran with
  | none => simp at member
  | @round rounds now count world middle next last late ran static later ih =>
      obtain ⟨grown, noted⟩ := deliverDueTodos_ok ran
      rcases RoundRobin.turn_step (todos_ordered world) member with here | behind
      · exact later.kept (static.others.noted (noted todo here due (dueOf_later late found)))
      · have listed : todo ∈ todos world :=
          (RoundRobin.turn_perm _ _).mem_iff.mp (List.mem_of_mem_take member)
        have same : todos middle = todos world := todos_congr grown.store
        have stays : dueOf worker next start todo = .ok (some due) := by
          rw [static.due start todo (same ▸ listed), dueOf_congr grown.store grown.details]
          exact found
        have cursor : next.cursor = _ := static.others.cursor.trans grown.cursor
        apply ih stays
        rw [static.todos, same, cursor]
        exact behind

/-- Every content that a run needs can be read. -/
def Readable (worker : Worker) (world : World) : Prop :=
  ∀ now, ∀ todo ∈ todos world, ∃ found, dueOf worker world now todo = .ok found

theorem deliver_returns {todo : Resource} {found : Option Due} {before : Nat}
    (read : dueOf worker world now todo = .ok found) :
    ∃ next after, deliver worker now (world, before) todo = .ok (next, after) := by
  simp only [deliver, Program.except_bind_ok]
  cases found with
  | none => exact ⟨world, before, none, read, rfl⟩
  | some due =>
      cases inserted : world.messages.insert (reminder worker now todo due) with
      | none => exact ⟨world, before, some due, read, by simp only [inserted]; rfl⟩
      | some messages => exact ⟨_, _, some due, read, by simp only [inserted]; rfl⟩

theorem deliver_all_returns {rows : List Resource} {before : Nat}
    (readable : ∀ todo ∈ rows, ∃ found, dueOf worker world now todo = .ok found) :
    ∃ next after, rows.foldlM (deliver worker now) (world, before) = .ok (next, after) := by
  induction rows generalizing world before with
  | nil => exact ⟨world, before, rfl⟩
  | cons first rest ih =>
      obtain ⟨found, read⟩ := readable first (List.mem_cons_self ..)
      obtain ⟨middle, count, one⟩ : ∃ middle count,
          deliver worker now (world, before) first = .ok (middle, count) := deliver_returns read
      have grown := (deliver_ok one).1
      have later : ∀ todo ∈ rest, ∃ found, dueOf worker middle now todo = .ok found := by
        intro todo member
        rw [dueOf_congr grown.store grown.details]
        exact readable todo (List.mem_cons_of_mem _ member)
      obtain ⟨next, after, done⟩ : ∃ next after,
          rest.foldlM (deliver worker now) (middle, count) = .ok (next, after) := ih later
      refine ⟨next, after, ?_⟩
      rw [List.foldlM_cons, Program.except_bind_ok]
      exact ⟨_, one, done⟩

theorem run_returns (readable : Readable worker world) (now : Nat) :
    ∃ next count, deliverDueTodos worker now world = .ok (next, count) := by
  apply deliver_all_returns
  intro todo member
  rw [RoundRobin.batch_eq] at member
  exact readable now todo ((RoundRobin.turn_perm _ _).mem_iff.mp (List.mem_of_mem_take member))

/-- Where nothing else happens, runs follow one another. -/
theorem rounds_exist (written : Written worker world) (readable : Readable worker world)
    (start rounds : Nat) : ∃ last, Rounds worker start rounds world last := by
  induction rounds generalizing world with
  | zero => exact ⟨world, .none⟩
  | succ rounds ih =>
      obtain ⟨next, count, ran⟩ := run_returns readable start
      have grown := (deliverDueTodos_ok ran).1
      have nextWritten : Written worker next := by
        rw [Written, grown.details]
        exact written
      have nextReadable : Readable worker next := by
        intro now todo member
        rw [todos_congr grown.store] at member
        rw [dueOf_congr grown.store grown.details]
        exact readable now todo member
      have static : Static worker next next :=
        ⟨rfl, fun _ _ _ => rfl, ⟨[], by simp, by simp⟩, rfl, nextWritten⟩
      obtain ⟨last, later⟩ := ih nextWritten nextReadable
      exact ⟨last, .round (Nat.le_refl _) ran static later⟩

/-- Over any runs at most one reminder is sent for a todo and a due time; and of the active
todos each that is due is reminded within one more run than they fill batches. -/
theorem reminders_once_and_fair (worker : Worker) {initial world : World}
    (start : Initial worker initial) (reached : Reach worker initial world) :
    (∀ resource time, ∀ left ∈ world.messages.rows, ∀ right ∈ world.messages.rows,
      Reminds worker left resource time → Reminds worker right resource time →
        left = right) ∧
    (Readable worker world → ∀ now,
      ∃ next count, deliverDueTodos worker now world = .ok (next, count)) ∧
    ∀ todo ∈ todos world, ∀ now due time, dueOf worker world now todo = .ok (some due) →
      worker.parseTime due.dueAt = .ok time →
      (∀ resource dueAt other text,
        worker.noticeId resource dueAt = worker.noticeId other text →
          resource = other ∧ dueAt = text) →
      ∀ last, Rounds worker now ((todos world).length ⌈/⌉ todoDeliveryBatchSize + 1) world last →
        ∃ message ∈ last.messages.rows, Reminds worker message todo.id time := by
  have sound := reach_sound start reached
  refine ⟨fun _ _ _ inLeft _ inRight => sound.once inLeft inRight, run_returns, ?_⟩
  intro todo member now due time found parsed apart last rounds
  have turn : (RoundRobin.turn Resource.id (todos world) world.cursor).Perm (todos world) :=
    RoundRobin.turn_perm _ _
  have enough : (RoundRobin.turn Resource.id (todos world) world.cursor).length ≤
      ((todos world).length ⌈/⌉ todoDeliveryBatchSize + 1) * todoDeliveryBatchSize := by
    rw [turn.length_eq, Nat.ceilDiv_eq_add_pred_div, todoDeliveryBatchSize]
    omega
  have noted : Noted worker last todo.id due.dueAt := by
    apply rounds.noted found
    rw [List.take_of_length_le enough]
    exact turn.mem_iff.mpr member
  exact (rounds.sound sound).reminds apart parsed noted

/-! One todo -/

/-- A pair of texts as one: a letter before each character of the first, and another one
before the second text. -/
def pairText (first second : String) : String :=
  String.ofList (first.toList.flatMap (fun char => ['a', char]) ++ 'b' :: second.toList)

theorem pairText_injective {first second other text : String}
    (same : pairText first second = pairText other text) : first = other ∧ second = text := by
  have lists (left right : List Char) {rest more : List Char}
      (equal : left.flatMap (fun char => ['a', char]) ++ 'b' :: rest =
        right.flatMap (fun char => ['a', char]) ++ 'b' :: more) :
      left = right ∧ rest = more := by
    induction left generalizing right with
    | nil =>
        cases right with
        | nil => exact ⟨rfl, (List.cons.inj equal).2⟩
        | cons char right => simp at equal
    | cons char left ih =>
        cases right with
        | nil => simp at equal
        | cons head right =>
            simp only [List.flatMap_cons, List.cons_append, List.nil_append, List.cons.injEq,
              true_and] at equal
            obtain ⟨rfl, later⟩ := equal
            obtain ⟨rfl, rest⟩ := ih right later
            exact ⟨rfl, rest⟩
  obtain ⟨left, right⟩ := lists _ _ (String.ofList_injective same)
  exact ⟨String.toList_injective left, String.toList_injective right⟩

/-- Instants are written as so many letters and one more. -/
def sampleWorker : Worker where
  app := sampleApp
  wire := fun time => String.ofList (List.replicate (time + 1) 'x')
  parseTime := fun text => .ok (text.length - 1)
  parseWire := fun time => by simp
  noticeId := pairText

def sampleFolder : Resource :=
  ⟨"f", "topic", 1, "todos", some "u", "u", "g", 0o700, 0, none, .active⟩

def sampleTodo : Resource :=
  ⟨"t", "todo", 1, "call", some "f", "u", "g", 0o600, 0, some "v", .active⟩

def sampleWorld : World where
  store := { Store.empty with resources := ⟨[sampleFolder, sampleTodo], by decide⟩ }
  details := fun _ _ => .ok { dueAt := some (sampleWorker.wire 0), status := "pending" }
  messages := Table.empty
  audit := []
  cursor := ""

theorem sample_due (now : Nat) : dueOf sampleWorker sampleWorld now sampleTodo =
    .ok (some { revision := "v", dueAt := sampleWorker.wire 0, status := "pending" }) := by
  refine dueOf_some.mpr ⟨"f", sampleFolder, _, 0, rfl, rfl, rfl, rfl, by decide, rfl, rfl,
    by decide, by decide, rfl, Nat.zero_le _, rfl⟩

theorem sample_written : Written sampleWorker sampleWorld := by
  rintro resource revision details ⟨⟩
  exact ⟨some (sampleWorker.wire 0), rfl⟩

theorem sample_todos {todo : Resource} : todo ∈ todos sampleWorld ↔ todo = sampleTodo := by
  have rows : (sampleWorld.store.resources.rows.filter fun row =>
      row.type == "todo" && row.state == .active) = [sampleTodo] := by decide
  rw [todos, rows, List.mergeSort_singleton, List.mem_singleton]

/-- The one todo is reminded in two runs. -/
theorem reminders_once_and_fair_sample :
    ∃ last : World, ∃ message ∈ last.messages.rows,
      Reminds sampleWorker message "t" 0 := by
  have readable : Readable sampleWorker sampleWorld := by
    intro now todo member
    obtain rfl := sample_todos.mp member
    exact ⟨_, sample_due now⟩
  obtain ⟨last, rounds⟩ := rounds_exist sample_written readable 0
    ((todos sampleWorld).length ⌈/⌉ todoDeliveryBatchSize + 1)
  have fair := (reminders_once_and_fair sampleWorker
    ⟨fun message member => absurd member List.not_mem_nil, sample_written⟩ .start).2.2
  exact ⟨last, fair sampleTodo (sample_todos.mpr rfl) 0 _ 0 (sample_due 0) rfl
    (fun _ _ _ _ same => pairText_injective same) last rounds⟩

end MsgServer.Todos
