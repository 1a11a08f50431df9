import Mathlib.Data.List.Pairwise
import MsgServer.Library.RoundRobin
import MsgServer.Transports.FlightInput

/-!
A batch of frames that is queued and drained. What a frame leaves in the queue is said once;
the entries keep the order and the aim of their frames, and an action stands in one entry.
The latest control joins them at the place of its own frame.
-/

namespace MsgServer.FlightInput

open Flight (Packet validInput)

variable {ρ β : Type}

/-! One frame -/

/-- A queued command: the frame itself with some of its actions. -/
inductive Narrowed : Command ρ → Command ρ → Prop
  | input {packet : Input ρ} {actions : List String} (some : actions.Sublist packet.actions) :
      Narrowed (.input (packet.withActions actions)) (.input packet)
  | region {index : Int} : Narrowed (.region index) (.region index)

/-- The last input among frames with their orders. -/
def inputOf (entry : Entry ρ) : Option (Nat × Input ρ) :=
  match entry.2 with
  | .input packet => some (entry.1, packet)
  | .region _ => none

def lastInput (entries : List (Entry ρ)) : Option (Nat × Input ρ) :=
  (entries.filterMap inputOf).getLast?

theorem lastInput_concat (entries : List (Entry ρ)) (entry : Entry ρ) :
    lastInput (entries ++ [entry]) = (inputOf entry).or (lastInput entries) := by
  rw [lastInput, List.filterMap_append, List.getLast?_append, lastInput]
  cases found : inputOf entry with
  | none => simp [found]
  | some packet => simp [found]

/-- The queue has no room for another command. -/
def Full (peer : Peer ρ) : Prop := maxPendingCommands ≤ peer.pending.length

/-- What a frame leaves: nothing new, an error from a full queue, or one more entry with the
actions that are not in the queue yet. -/
inductive Left (peer next : Peer ρ) (frame : Command ρ) : Prop
  | nothing (same : next.pending = peer.pending)
      (held : ∀ action ∈ frame.actions, action ∈ queuedActions peer)
  | busy (same : next.pending = peer.pending) (full : Full peer)
      (error : next.queue.getLast? = some (.error "input_busy"))
  | entry {queued : Command ρ} (room : ¬ Full peer)
      (added : next.pending = peer.pending ++ [(peer.arrivalOrder + 1, queued)])
      (narrowed : Narrowed queued frame)
      (fresh : queued.actions =
        frame.actions.filter fun action => action ∉ queuedActions peer)

theorem push_left {peer before : Peer ρ} {frame queued : Command ρ}
    (pending : before.pending = peer.pending) (narrowed : Narrowed queued frame)
    (fresh : queued.actions = frame.actions.filter fun action => action ∉ queuedActions peer) :
    Left peer (push before (peer.arrivalOrder + 1, queued)) frame := by
  rw [push, pending]
  split
  · rename_i full
    exact .busy pending full (List.getLast?_concat ..)
  · rename_i room
    exact .entry room rfl narrowed fresh

theorem push_latest (peer : Peer ρ) (entry : Entry ρ) :
    (push peer entry).latestControl = peer.latestControl ∧
      (push peer entry).arrivalOrder = peer.arrivalOrder := by
  rw [push]
  split
  · exact ⟨rfl, rfl⟩
  · exact ⟨rfl, rfl⟩

theorem queueControls_left (peer : Peer ρ) (frame : Command ρ) :
    Left peer (queueControls peer frame) frame := by
  cases frame with
  | region index => exact push_left rfl .region rfl
  | input packet =>
      rw [queueControls]
      split
      · rename_i none'
        refine .nothing rfl fun action member => ?_
        have out := List.filter_eq_nil_iff.mp none' action member
        exact not_not.mp fun absent => out (decide_eq_true absent)
      · exact push_left rfl (.input List.filter_sublist) rfl

theorem queueControls_latest (peer : Peer ρ) (frame : Command ρ) :
    (queueControls peer frame).arrivalOrder = peer.arrivalOrder + 1 ∧
      (queueControls peer frame).latestControl =
        ((inputOf (peer.arrivalOrder + 1, frame)).map fun last =>
          (last.1, last.2.withActions [])).or peer.latestControl := by
  cases frame with
  | region index =>
      have kept := push_latest { peer with arrivalOrder := peer.arrivalOrder + 1 }
        (peer.arrivalOrder + 1, .region index)
      exact ⟨kept.2, kept.1⟩
  | input packet =>
      rw [queueControls]
      split
      · exact ⟨rfl, rfl⟩
      · exact ⟨(push_latest _ _).2, (push_latest _ _).1⟩

/-! The queue of a batch -/

/-- The queue after some frames with their orders. -/
structure Queued (past : List (Entry ρ)) (peer : Peer ρ) : Prop where
  below : ∀ entry ∈ past, entry.1 ≤ peer.arrivalOrder
  ascending : peer.pending.Pairwise fun left right => left.1 < right.1
  kept : ∀ entry ∈ peer.pending, ∃ frame, (entry.1, frame) ∈ past ∧ Narrowed entry.2 frame
  once : (queuedActions peer).Nodup
  first : ∀ entry ∈ peer.pending, ∀ action ∈ entry.2.actions,
    ∀ other ∈ past, action ∈ other.2.actions → entry.1 ≤ other.1
  held : ∀ entry ∈ past, ∀ action ∈ entry.2.actions,
    action ∈ queuedActions peer ∨ Full peer
  latest : peer.latestControl =
    (lastInput past).map fun last => (last.1, last.2.withActions [])

theorem queued_empty {peer : Peer ρ} (empty : peer.pending = [])
    (bare : peer.latestControl = none) : Queued [] peer := by
  constructor
  · simp
  · simp [empty]
  · simp [empty]
  · simp [queuedActions, empty]
  · simp [empty]
  · simp
  · exact bare

theorem Queued.frame {past : List (Entry ρ)} {peer : Peer ρ} (queued : Queued past peer)
    {frame : Command ρ} (distinct : frame.actions.Nodup) :
    Queued (past ++ [(peer.arrivalOrder + 1, frame)]) (queueControls peer frame) := by
  obtain ⟨order, latest⟩ := queueControls_latest peer frame
  have left := queueControls_left peer frame
  generalize queueControls peer frame = next at order latest left
  have newest : next.latestControl =
      (lastInput (past ++ [(peer.arrivalOrder + 1, frame)])).map fun last =>
        (last.1, last.2.withActions []) := by
    rw [latest, queued.latest, lastInput_concat]
    cases inputOf (peer.arrivalOrder + 1, frame) <;> rfl
  have below : ∀ entry ∈ past ++ [(peer.arrivalOrder + 1, frame)],
      entry.1 ≤ next.arrivalOrder := by
    intro entry member
    rw [order]
    rcases List.mem_append.mp member with old | new
    · exact (queued.below entry old).trans (Nat.le_succ _)
    · rw [List.mem_singleton.mp new]
  -- With nothing new in the queue only the frame that was read has to be accounted for.
  have unchanged (same : next.pending = peer.pending)
      (held : ∀ action ∈ frame.actions, action ∈ queuedActions peer ∨ Full peer) :
      Queued (past ++ [(peer.arrivalOrder + 1, frame)]) next := by
    have actions : queuedActions next = queuedActions peer := by rw [queuedActions, same]; rfl
    have full : Full next ↔ Full peer := by rw [Full, same]; exact Iff.rfl
    refine ⟨below, same ▸ queued.ascending, ?_, actions ▸ queued.once, ?_, ?_, newest⟩
    · intro entry member
      obtain ⟨other, there, narrowed⟩ := queued.kept entry (same ▸ member)
      exact ⟨other, List.mem_append_left _ there, narrowed⟩
    · intro entry member action inside other there again
      rcases List.mem_append.mp there with old | new
      · exact queued.first entry (same ▸ member) action inside other old again
      · obtain ⟨source, origin, -⟩ := queued.kept entry (same ▸ member)
        rw [List.mem_singleton.mp new]
        exact (queued.below (entry.1, source) origin).trans (Nat.le_succ _)
    · intro entry member action inside
      rw [actions, full]
      rcases List.mem_append.mp member with old | new
      · exact queued.held entry old action inside
      · rw [List.mem_singleton.mp new] at inside
        exact held action inside
  cases left with
  | nothing same held => exact unchanged same fun action member => .inl (held action member)
  | busy same full error => exact unchanged same fun action member => .inr full
  | @entry added room shape narrowed fresh =>
      have actions : queuedActions next = queuedActions peer ++ added.actions := by
        rw [queuedActions, shape, List.flatMap_append, List.flatMap_singleton]
        rfl
      have newer : ∀ entry ∈ peer.pending, entry.1 < peer.arrivalOrder + 1 := by
        intro entry member
        obtain ⟨source, origin, -⟩ := queued.kept entry member
        exact Nat.lt_succ_of_le (queued.below (entry.1, source) origin)
      refine ⟨below, ?_, ?_, ?_, ?_, ?_, newest⟩
      · rw [shape]
        refine List.pairwise_append.mpr
          ⟨queued.ascending, List.pairwise_singleton _ _, fun entry member other last => ?_⟩
        rw [List.mem_singleton.mp last]
        exact newer entry member
      · intro entry member
        rw [shape] at member
        rcases List.mem_append.mp member with old | new
        · obtain ⟨other, there, same⟩ := queued.kept entry old
          exact ⟨other, List.mem_append_left _ there, same⟩
        · rw [List.mem_singleton.mp new]
          exact ⟨frame, List.mem_append_right _ (List.mem_singleton_self _), narrowed⟩
      · rw [actions, fresh]
        refine List.nodup_append.mpr ⟨queued.once, distinct.filter _, ?_⟩
        rintro action old other new rfl
        have out := (List.mem_filter.mp new).2
        simp [old] at out
      · intro entry member action inside other there again
        rw [shape] at member
        rcases List.mem_append.mp there with old | new
        · rcases List.mem_append.mp member with early | late
          · exact queued.first entry early action inside other old again
          · -- An action that a frame before had is in the queue, or the queue is full.
            rw [List.mem_singleton.mp late, fresh] at inside
            have out := (List.mem_filter.mp inside).2
            rcases queued.held other old action again with held | full
            · simp [held] at out
            · exact absurd full room
        · rw [List.mem_singleton.mp new]
          rcases List.mem_append.mp member with early | late
          · exact (newer entry early).le
          · rw [List.mem_singleton.mp late]
      · intro entry member action inside
        rw [actions, List.mem_append]
        rcases List.mem_append.mp member with old | new
        · rcases queued.held entry old action inside with held | full
          · exact .inl (.inl held)
          · exact absurd full room
        · rw [List.mem_singleton.mp new] at inside
          by_cases known : action ∈ queuedActions peer
          · exact .inl (.inl known)
          · rw [fresh]
            exact .inl (.inr (List.mem_filter.mpr ⟨inside, by simpa using known⟩))

/-- The frames with the orders they get. -/
def numbered (start : Nat) : List (Command ρ) → List (Entry ρ)
  | [] => []
  | frame :: rest => (start + 1, frame) :: numbered (start + 1) rest

def queueAll (peer : Peer ρ) (frames : List (Command ρ)) : Peer ρ :=
  frames.foldl queueControls peer

theorem Queued.frames {past : List (Entry ρ)} {peer : Peer ρ} {frames : List (Command ρ)}
    (queued : Queued past peer) (distinct : ∀ frame ∈ frames, frame.actions.Nodup) :
    Queued (past ++ numbered peer.arrivalOrder frames) (queueAll peer frames) := by
  induction frames generalizing past peer with
  | nil =>
      rw [numbered, List.append_nil]
      exact queued
  | cons frame rest ih =>
      have one := queued.frame (distinct frame (List.mem_cons_self ..))
      have later := ih one fun other member => distinct other (List.mem_cons_of_mem _ member)
      rw [(queueControls_latest peer frame).1, List.append_assoc] at later
      exact later

/-! The order of a batch -/

theorem insert_last {pending : List (Entry ρ)} (last : Entry ρ)
    (ascending : pending.Pairwise fun left right => left.1 < right.1) :
    (pending ++ [last]).insertionSort (fun left right => left.1 ≤ right.1) =
      pending.filter (fun entry => entry.1 ≤ last.1) ++
        last :: pending.filter fun entry => last.1 < entry.1 := by
  induction pending with
  | nil => rfl
  | cons head rest ih =>
      obtain ⟨above, later⟩ := List.pairwise_cons.mp ascending
      have sorted : (head :: rest).Pairwise fun left right => left.1 ≤ right.1 :=
        ascending.imp fun less => less.le
      by_cases low : head.1 ≤ last.1
      · have least : ∀ entry ∈ rest ++ [last], head.1 ≤ entry.1 := by
          intro entry member
          rcases List.mem_append.mp member with inRest | same
          · exact (above entry inRest).le
          · rw [List.mem_singleton.mp same]
            exact low
        rw [List.cons_append, List.insertionSort_cons_of_forall_rel _ least, ih later]
        simp [low, Nat.not_lt.mpr low]
      · -- All of the list stands behind the last item.
        have high : ∀ entry ∈ rest, last.1 < entry.1 := fun entry member =>
          (Nat.lt_of_not_le low).trans (above entry member)
        have none' : rest.filter (fun entry => entry.1 ≤ last.1) = [] := by
          apply List.filter_eq_nil_iff.mpr
          intro entry member
          simpa using high entry member
        have all : rest.filter (fun entry => last.1 < entry.1) = rest := by
          apply List.filter_eq_self.mpr
          intro entry member
          simpa using high entry member
        have front : rest.orderedInsert (fun left right => left.1 ≤ right.1) head =
            head :: rest := by
          have whole := List.Pairwise.insertionSort_eq sorted
          rwa [List.insertionSort_cons,
            List.Pairwise.insertionSort_eq (List.pairwise_cons.mp sorted).2] at whole
        rw [List.cons_append, List.insertionSort_cons, ih later, none', all, List.nil_append,
          List.orderedInsert_of_not_le (fun left right => left.1 ≤ right.1) rest low, front]
        simp [low, Nat.lt_of_not_le low, none', all]

/-! The world -/

variable {space : Space ρ β}

theorem commands_append (ship : Ship ρ β) (first rest : List (Entry ρ)) :
    commands space ship (first ++ rest) =
      ((commands space (commands space ship first).1 rest).1,
        (commands space ship first).2 ++
          (commands space (commands space ship first).1 rest).2) := by
  induction first generalizing ship with
  | nil => rfl
  | cons entry first ih => simp only [List.cons_append, commands, ih]

theorem commands_entries (space : Space ρ β) (ship : Ship ρ β) (entries : List (Entry ρ)) :
    (commands space ship entries).2.map Prod.fst = entries := by
  induction entries generalizing ship with
  | nil => rfl
  | cons entry rest ih => exact congrArg (entry :: ·) (ih _)

def Input.controls (packet : Input ρ) : ρ × ρ × ρ × Bool :=
  (packet.throttle, packet.strafe, packet.lift, packet.brake)

/-- The ship has the number and the aim of an input. -/
structure Aimed (ship : Ship ρ β) (packet : Input ρ) : Prop where
  ackSeq : ship.ackSeq = packet.seq
  yaw : ship.yaw = packet.yaw
  pitch : ship.pitch = packet.pitch

theorem input_accepted (space : Space ρ β) {ship : Ship ρ β} {packet : Input ρ} (active : ship.active = true)
    (valid : validInput packet.toPacket = true) (newer : ship.ackSeq < packet.seq) :
    (input space ship packet).2 = true ∧ (input space ship packet).1.active = true ∧
      Aimed (input space ship packet).1 packet ∧
      (input space ship packet).1.controls = packet.controls := by
  have open' : ¬ (¬ ship.active = true ∨ validInput packet.toPacket = false) := by
    simp [active, valid]
  rw [input, if_neg open', if_neg (Int.not_le.mpr newer)]
  dsimp only
  split
  · exact ⟨rfl, active, ⟨rfl, rfl, rfl⟩, rfl⟩
  · exact ⟨rfl, active, ⟨rfl, rfl, rfl⟩, rfl⟩

theorem input_stale {ship : Ship ρ β} {packet : Input ρ} (older : packet.seq ≤ ship.ackSeq) :
    input space ship packet = (ship, false) := by
  rw [input, if_pos older, ite_self]

theorem changeRegion_keeps (space : Space ρ β) (ship : Ship ρ β) (index : Int) :
    (changeRegion space ship index).1.active = ship.active ∧
      (changeRegion space ship index).1.ackSeq = ship.ackSeq ∧
      (changeRegion space ship index).1.yaw = ship.yaw ∧
      (changeRegion space ship index).1.pitch = ship.pitch := by
  rw [changeRegion]
  split
  · exact ⟨rfl, rfl, rfl, rfl⟩
  · split
    · exact ⟨rfl, rfl, rfl, rfl⟩
    · exact ⟨rfl, rfl, rfl, rfl⟩

/-- What commands with rising numbers make of a ship: every input is accepted, and the last
one gives the number and the aim. -/
structure Reached (space : Space ρ β) (ship : Ship ρ β) (entries : List (Entry ρ)) :
    Prop where
  active : (commands space ship entries).1.active = true
  accepted : ∀ answer ∈ (commands space ship entries).2, ∀ packet,
    answer.1.2 = .input packet → answer.2 = true
  resting : lastInput entries = none →
    (commands space ship entries).1.ackSeq = ship.ackSeq ∧
      (commands space ship entries).1.yaw = ship.yaw ∧
      (commands space ship entries).1.pitch = ship.pitch
  aimed : ∀ last ∈ lastInput entries, Aimed (commands space ship entries).1 last.2
  steered : ∀ order packet, entries.getLast? = some (order, .input packet) →
    (commands space ship entries).1.controls = packet.controls

/-- Inputs with rising numbers above the one that a ship acknowledges. -/
structure Rising (ship : Ship ρ β) (entries : List (Entry ρ)) : Prop where
  valid : ∀ input ∈ entries.filterMap inputOf, validInput input.2.toPacket = true
  above : ∀ input ∈ entries.filterMap inputOf, ship.ackSeq < input.2.seq
  rising : (entries.filterMap inputOf).Pairwise fun left right => left.2.seq < right.2.seq

theorem rising_reached {ship : Ship ρ β} {entries : List (Entry ρ)}
    (active : ship.active = true) (rising : Rising ship entries) :
    Reached space ship entries := by
  induction entries using List.reverseRecOn with
  | nil =>
      exact ⟨active, by simp [commands], fun _ => ⟨rfl, rfl, rfl⟩, by simp [lastInput], by simp⟩
  | append_singleton entries entry ih =>
      have shape : (entries ++ [entry]).filterMap inputOf =
          entries.filterMap inputOf ++ (inputOf entry).toList := by
        rw [List.filterMap_append]
        cases found : inputOf entry <;> simp [found]
      obtain ⟨valid, above, rises⟩ := rising
      rw [shape] at valid above rises
      obtain ⟨before, -, across⟩ := List.pairwise_append.mp rises
      have reached := ih
        ⟨fun input member => valid input (List.mem_append_left _ member),
          fun input member => above input (List.mem_append_left _ member), before⟩
      have split : commands space ship (entries ++ [entry]) = _ :=
        commands_append ship entries [entry]
      obtain ⟨order, frame⟩ := entry
      cases frame with
      | input packet =>
          have newer : (commands space ship entries).1.ackSeq < packet.seq := by
            cases found : lastInput entries with
            | none =>
                rw [(reached.resting found).1]
                exact above (order, packet) (List.mem_append_right _ (List.mem_singleton_self _))
            | some last =>
                rw [(reached.aimed last found).ackSeq]
                exact across last (List.mem_of_getLast? found) (order, packet)
                  (List.mem_singleton_self _)
          have good := valid (order, packet) (List.mem_append_right _ (List.mem_singleton_self _))
          obtain ⟨taken, stays, aimed, controls⟩ := input_accepted space
            reached.active good newer
          constructor
          · rw [split]
            exact stays
          · intro answer member other same
            rw [split] at member
            rcases List.mem_append.mp member with old | new
            · exact reached.accepted answer old other same
            · rw [List.mem_singleton.mp new]
              exact taken
          · intro none'
            rw [lastInput_concat] at none'
            cases none'
          · intro last isLast
            rw [lastInput_concat] at isLast
            obtain rfl := Option.some.inj isLast
            rw [split]
            exact aimed
          · intro other packet' isLast
            rw [List.getLast?_concat] at isLast
            cases isLast
            rw [split]
            exact controls
      | region index =>
          obtain ⟨stays, ackSeq, yaw, pitch⟩ := changeRegion_keeps space
            (commands space ship entries).1 index
          constructor
          · rw [split]
            exact stays.trans reached.active
          · intro answer member other same
            rw [split] at member
            rcases List.mem_append.mp member with old | new
            · exact reached.accepted answer old other same
            · rw [List.mem_singleton.mp new] at same
              cases same
          · intro none'
            rw [lastInput_concat] at none'
            rw [split]
            have before := reached.resting none'
            exact ⟨ackSeq.trans before.1, yaw.trans before.2.1, pitch.trans before.2.2⟩
          · intro last isLast
            rw [lastInput_concat] at isLast
            have before := reached.aimed last isLast
            rw [split]
            exact ⟨ackSeq.trans before.ackSeq, yaw.trans before.yaw, pitch.trans before.pitch⟩
          · intro other packet' isLast
            rw [List.getLast?_concat] at isLast
            cases isLast

/-! The batch -/

/-- An entry that stands for one of the frames. -/
def Drawn (past : List (Entry ρ)) (entry : Entry ρ) : Prop :=
  ∃ frame, (entry.1, frame) ∈ past ∧ Narrowed entry.2 frame

/-- What the frames of a batch are promised to be: their orders rise, and so do the numbers of
the inputs. -/
structure Frames (ship : Ship ρ β) (past : List (Entry ρ)) : Prop where
  ascending : past.Pairwise fun left right => left.1 < right.1
  rising : Rising ship past

section

variable {ship : Ship ρ β} {past : List (Entry ρ)} {peer : Peer ρ}

theorem mem_inputs {order : Nat} {packet : Input ρ} {entries : List (Entry ρ)} :
    (order, packet) ∈ entries.filterMap inputOf ↔ (order, Command.input packet) ∈ entries := by
  rw [List.mem_filterMap]
  constructor
  · rintro ⟨⟨other, frame⟩, member, found⟩
    cases frame with
    | input packet' =>
        cases found
        exact member
    | region index => cases found
  · intro member
    exact ⟨_, member, rfl⟩

theorem inputs_ascending {entries : List (Entry ρ)}
    (ascending : entries.Pairwise fun left right => left.1 < right.1) :
    (entries.filterMap inputOf).Pairwise fun left right => left.1 < right.1 := by
  refine ascending.filterMap inputOf ?_
  rintro ⟨low, left⟩ ⟨high, right⟩ less first isFirst second isSecond
  cases left <;> cases isFirst
  cases right <;> cases isSecond
  exact less

theorem Frames.unique (frames : Frames ship past) {order : Nat} {left right : Command ρ}
    (inLeft : (order, left) ∈ past) (inRight : (order, right) ∈ past) : left = right := by
  have apart := frames.ascending.imp fun less => Nat.ne_of_lt less
  by_contra different
  have other : ((order, left) : Entry ρ) ≠ (order, right) := fun same =>
    different (Prod.mk.inj same).2
  have symmetric : Std.Symm fun left right : Entry ρ => left.1 ≠ right.1 :=
    ⟨fun _ _ => Ne.symm⟩
  exact apart.forall inLeft inRight other rfl

/-- The last input has the highest order of them. -/
theorem Frames.last_most (frames : Frames ship past) {order other : Nat}
    {input packet : Input ρ} (isLast : lastInput past = some (order, input))
    (member : (other, Command.input packet) ∈ past) : other ≤ order := by
  obtain ⟨front, shape⟩ := List.getLast?_eq_some_iff.mp isLast
  have listed := mem_inputs.mpr member
  have ascending := inputs_ascending frames.ascending
  rw [shape] at listed ascending
  rcases List.mem_append.mp listed with early | last
  · exact ((List.pairwise_append.mp ascending).2.2 _ early _ (List.mem_singleton_self _)).le
  · cases List.mem_singleton.mp last
    exact Nat.le_refl _

theorem Frames.seq_lt (frames : Frames ship past) {low high : Nat} {left right : Input ρ}
    (inLeft : (low, Command.input left) ∈ past) (inRight : (high, Command.input right) ∈ past)
    (less : low < high) : left.seq < right.seq := by
  have both : (past.filterMap inputOf).Pairwise fun left right =>
      left.1 < right.1 ∧ left.2.seq < right.2.seq :=
    (inputs_ascending frames.ascending).and frames.rising.rising
  have symmetric : Std.Symm fun left right : Nat × Input ρ =>
      (left.1 < right.1 → left.2.seq < right.2.seq) ∧
        (right.1 < left.1 → right.2.seq < left.2.seq) :=
    ⟨fun _ _ => And.symm⟩
  have related := both.imp (S := fun left right =>
      (left.1 < right.1 → left.2.seq < right.2.seq) ∧
        (right.1 < left.1 → right.2.seq < left.2.seq))
    fun order => ⟨fun _ => order.2, fun back => absurd back (Nat.lt_asymm order.1)⟩
  have different : ((low, left) : Nat × Input ρ) ≠ (high, right) := fun same =>
    Nat.ne_of_lt less (Prod.mk.inj same).1
  exact (related.forall (mem_inputs.mpr inLeft) (mem_inputs.mpr inRight) different).1 less

/-- A queued input stands for an input frame of its order. -/
theorem drawn_input {order : Nat} {packet : Input ρ}
    (drawn : Drawn past (order, .input packet)) :
    ∃ frame actions, (order, Command.input frame) ∈ past ∧
      List.Sublist actions frame.actions ∧ packet = frame.withActions actions := by
  obtain ⟨frame, member, narrowed⟩ := drawn
  cases narrowed with
  | input some => exact ⟨_, _, member, some, rfl⟩

theorem valid_withActions {packet : Input ρ} {actions : List String}
    (some : actions.Sublist packet.actions) (valid : validInput packet.toPacket = true) :
    validInput (packet.withActions actions).toPacket = true := by
  unfold validInput at valid ⊢
  simp only [Bool.and_eq_true, decide_eq_true_iff, List.all_eq_true] at valid ⊢
  obtain ⟨⟨⟨head, short⟩, distinct⟩, known⟩ := valid
  exact ⟨⟨⟨head, some.length_le.trans short⟩, distinct.sublist some⟩,
    fun action member => known action (some.mem member)⟩

theorem rising_drawn (frames : Frames ship past) {entries : List (Entry ρ)}
    (ascending : entries.Pairwise fun left right => left.1 < right.1)
    (drawn : ∀ entry ∈ entries, Drawn past entry) : Rising ship entries := by
  have source {input : Nat × Input ρ} (member : input ∈ entries.filterMap inputOf) :
      ∃ frame actions, (input.1, Command.input frame) ∈ past ∧
        List.Sublist actions frame.actions ∧ input.2 = frame.withActions actions :=
    drawn_input (drawn _ (mem_inputs.mp member))
  constructor
  · intro input member
    obtain ⟨frame, actions, origin, some, same⟩ := source member
    rw [same]
    exact valid_withActions some (frames.rising.valid _ (mem_inputs.mpr origin))
  · intro input member
    obtain ⟨frame, actions, origin, -, same⟩ := source member
    rw [same]
    exact frames.rising.above _ (mem_inputs.mpr origin)
  · refine (inputs_ascending ascending).imp_of_mem fun {left right} inLeft inRight less => ?_
    obtain ⟨first, _, firstOrigin, -, firstSame⟩ := source inLeft
    obtain ⟨second, _, secondOrigin, -, secondSame⟩ := source inRight
    rw [firstSame, secondSame]
    have rises : first.seq < second.seq := frames.seq_lt firstOrigin secondOrigin less
    exact rises

/-- The actions of the inputs that the world took. -/
def applied (answers : List (Entry ρ × Bool)) : List String :=
  answers.flatMap fun answer => if answer.2 then answer.1.2.actions else []

theorem applied_reached {entries : List (Entry ρ)} (reached : Reached space ship entries) :
    applied (commands space ship entries).2 = entries.flatMap fun entry => entry.2.actions := by
  have listed := commands_entries space ship entries
  have each : ∀ answer ∈ (commands space ship entries).2,
      (if answer.2 then answer.1.2.actions else []) = answer.1.2.actions := by
    rintro ⟨⟨order, frame⟩, answer⟩ member
    cases frame with
    | region index => exact ite_self _
    | input packet =>
        have yes : answer = true := reached.accepted _ member packet rfl
        simp [yes]
  calc
    applied (commands space ship entries).2 =
        (commands space ship entries).2.flatMap fun answer => answer.1.2.actions :=
      List.flatMap_congr each
    _ = ((commands space ship entries).2.map Prod.fst).flatMap fun entry => entry.2.actions := by
      rw [List.flatMap_map]
    _ = entries.flatMap fun entry => entry.2.actions := by rw [listed]

/-- What the world makes of a batch. -/
structure Batch (space : Space ρ β) (ship : Ship ρ β) (past : List (Entry ρ))
    (actions : List String) (last : Ship ρ β) (answers : List (Entry ρ × Bool)) : Prop where
  ordered : answers.Pairwise fun left right => left.1.1 ≤ right.1.1
  received : ∀ answer ∈ answers, Drawn past answer.1
  rejected : ∀ order packet, ((order, .input packet), false) ∈ answers →
    ∃ input, lastInput past = some (order, input) ∧ packet = input.withActions [] ∧
      ∃ queued, ((order, .input queued), true) ∈ answers
  current : ∀ order input, lastInput past = some (order, input) → Aimed last input ∧
    ((∀ entry ∈ past, entry.1 ≤ order) → last.controls = input.controls)
  once : applied answers = actions

/-- The latest control as an entry. -/
def control (order : Nat) (packet : Input ρ) : Entry ρ := (order, .input (packet.withActions []))

theorem control_drawn {order : Nat} {packet : Input ρ}
    (isLast : lastInput past = some (order, packet)) : Drawn past (control order packet) :=
  ⟨_, mem_inputs.mp (List.mem_of_getLast? isLast), .input (List.nil_sublist _)⟩

theorem drained_shape (queued : Queued past peer) :
    (lastInput past = none → drained peer = peer.pending) ∧
    ∀ order packet, lastInput past = some (order, packet) →
      drained peer = peer.pending.filter (fun entry => entry.1 ≤ order) ++
        control order packet :: peer.pending.filter fun entry => order < entry.1 := by
  constructor
  · intro none'
    rw [drained, queued.latest, none']
    simp only [Option.map_none, Option.toList_none, List.append_nil]
    exact List.Pairwise.insertionSort_eq (queued.ascending.imp fun less => less.le)
  · intro order packet isLast
    rw [drained, queued.latest, isLast]
    exact insert_last (control order packet) queued.ascending

theorem drained_drawn (queued : Queued past peer) :
    ∀ entry ∈ drained peer, Drawn past entry := by
  intro entry member
  rw [drained, List.mem_insertionSort, List.mem_append] at member
  rcases member with pending | latest
  · exact queued.kept entry pending
  · rw [queued.latest] at latest
    cases found : lastInput past with
    | none => simp [found] at latest
    | some last =>
        have same : entry = control last.1 last.2 := by simpa [found, control] using latest
        rw [same]
        exact control_drawn found

theorem drained_ordered (peer : Peer ρ) :
    (drained peer).Pairwise fun left right => left.1 ≤ right.1 := by
  have total : Std.Total fun left right : Entry ρ => left.1 ≤ right.1 :=
    ⟨fun left right => Nat.le_total left.1 right.1⟩
  have trans : IsTrans (Entry ρ) fun left right => left.1 ≤ right.1 :=
    ⟨fun _ _ _ => Nat.le_trans⟩
  exact List.pairwise_insertionSort _ _

/-- Behind the last input there are changes of the region only. -/
theorem inputs_behind (frames : Frames ship past) {order : Nat} {input : Input ρ}
    (isLast : lastInput past = some (order, input)) {entries : List (Entry ρ)}
    (drawn : ∀ entry ∈ entries, Drawn past entry) (behind : ∀ entry ∈ entries, order < entry.1) :
    entries.filterMap inputOf = [] := by
  apply List.eq_nil_iff_forall_not_mem.mpr
  rintro ⟨other, packet⟩ member
  have entry := mem_inputs.mp member
  obtain ⟨frame, actions, origin, -⟩ := drawn_input (drawn _ entry)
  exact Nat.not_le.mpr (behind _ entry) (frames.last_most isLast origin)

/-- What the world has made of a batch once the latest control is through. -/
structure Through (space : Space ρ β) (ship : Ship ρ β) (entries : List (Entry ρ)) (order : Nat)
    (input : Input ρ) (last : Ship ρ β) (answers : List (Entry ρ × Bool)) : Prop where
  active : last.active = true
  aimed : Aimed last input
  controls : last.controls = input.controls
  applied : applied answers = entries.flatMap fun entry => entry.2.actions
  rejected : ∀ other packet, ((other, .input packet), false) ∈ answers →
    other = order ∧ packet = input.withActions [] ∧
      ∃ queued, ((order, .input queued), true) ∈ answers

/-- The last input is not in the queue: its control is the newest input. -/
theorem through_control (active : ship.active = true) (frames : Frames ship past) {order : Nat}
    {input : Input ρ} (isLast : lastInput past = some (order, input))
    {entries : List (Entry ρ)} (ascending : entries.Pairwise fun left right => left.1 < right.1)
    (drawn : ∀ entry ∈ entries, Drawn past entry) (before : ∀ entry ∈ entries, entry.1 < order) :
    Through space ship entries order input
      (commands space ship (entries ++ [control order input])).1
      (commands space ship (entries ++ [control order input])).2 := by
  have ordered : (entries ++ [control order input]).Pairwise fun left right =>
      left.1 < right.1 := by
    refine List.pairwise_append.mpr ⟨ascending, List.pairwise_singleton _ _, ?_⟩
    intro entry member other last
    rw [List.mem_singleton.mp last]
    exact before entry member
  have allDrawn : ∀ entry ∈ entries ++ [control order input], Drawn past entry := by
    intro entry member
    rcases List.mem_append.mp member with early | last
    · exact drawn entry early
    · rw [List.mem_singleton.mp last]
      exact control_drawn isLast
  have reached : Reached space ship (entries ++ [control order input]) :=
    rising_reached active (rising_drawn frames ordered allDrawn)
  have newest := reached.aimed (order, input.withActions []) (lastInput_concat _ _)
  refine ⟨reached.active, ⟨newest.ackSeq, newest.yaw, newest.pitch⟩,
    reached.steered order (input.withActions []) (List.getLast?_concat ..), ?_, ?_⟩
  · rw [applied_reached reached, List.flatMap_append]
    exact List.append_nil _
  · intro other packet member
    cases reached.accepted _ member packet rfl

/-- The last input is in the queue: its control comes behind it and is refused. -/
theorem through_repeated (active : ship.active = true) (frames : Frames ship past) {order : Nat}
    {input : Input ρ} (isLast : lastInput past = some (order, input))
    {entries : List (Entry ρ)} {entry : Entry ρ} (here : entry.1 = order)
    (ascending : (entries ++ [entry]).Pairwise fun left right => left.1 < right.1)
    (drawn : ∀ other ∈ entries ++ [entry], Drawn past other) :
    Through space ship (entries ++ [entry]) order input
      (commands space ship (entries ++ [entry] ++ [control order input])).1
      (commands space ship (entries ++ [entry] ++ [control order input])).2 := by
  obtain ⟨place, frame⟩ := entry
  obtain rfl : place = order := here
  have member : ((place, frame) : Entry ρ) ∈ entries ++ [(place, frame)] :=
    List.mem_append_right _ (List.mem_singleton_self _)
  obtain ⟨source, origin, narrowed⟩ := drawn _ member
  obtain rfl : source = .input input :=
    frames.unique origin (mem_inputs.mp (List.mem_of_getLast? isLast))
  cases narrowed with
  | @input _ actions some =>
      have reached : Reached space ship (entries ++ [(place, .input (input.withActions actions))]) :=
        rising_reached active (rising_drawn frames ascending drawn)
      have newest := reached.aimed (place, input.withActions actions) (lastInput_concat _ _)
      have stale : FlightInput.input space (commands space ship _).1 (input.withActions []) = (_, false) :=
        input_stale (Int.le_of_eq newest.ackSeq.symm)
      have taken : ((place, Command.input (input.withActions actions)), true) ∈
          (commands space ship (entries ++ [(place, .input (input.withActions actions))])).2 := by
        have listed := commands_entries space ship
          (entries ++ [(place, Command.input (input.withActions actions))])
        rw [← listed] at member
        obtain ⟨answer, inside, same⟩ := List.mem_map.mp member
        have yes := reached.accepted answer inside _ (congrArg Prod.snd same)
        obtain ⟨entry, accepted⟩ := answer
        cases same
        cases yes
        exact inside
      have shape : commands space ship
          (entries ++ [(place, .input (input.withActions actions))] ++ [control place input]) =
          ((commands space ship
              (entries ++ [(place, .input (input.withActions actions))])).1,
            (commands space ship
              (entries ++ [(place, .input (input.withActions actions))])).2 ++
              [(control place input, false)]) := by
        rw [commands_append]
        simp only [commands, command, control, stale]
      rw [shape]
      refine ⟨reached.active, ⟨newest.ackSeq, newest.yaw, newest.pitch⟩,
        reached.steered place (input.withActions actions) (List.getLast?_concat ..), ?_, ?_⟩
      · rw [applied, List.flatMap_append, ← applied, applied_reached reached]
        exact List.append_nil _
      · intro other packet rejected
        rcases List.mem_append.mp rejected with early | last
        · cases reached.accepted _ early packet rfl
        · cases List.mem_singleton.mp last
          exact ⟨rfl, rfl, _, List.mem_append_left _ taken⟩

theorem through_last (space : Space ρ β) (active : ship.active = true) (frames : Frames ship past)
    (queued : Queued past peer) {order : Nat} {input : Input ρ}
    (isLast : lastInput past = some (order, input)) :
    let entries := peer.pending.filter fun entry => entry.1 ≤ order
    Through space ship entries order input
      (commands space ship (entries ++ [control order input])).1
      (commands space ship (entries ++ [control order input])).2 := by
  intro entries
  have ascending : entries.Pairwise fun left right => left.1 < right.1 :=
    queued.ascending.filter _
  have drawn : ∀ entry ∈ entries, Drawn past entry := fun entry member =>
    queued.kept entry (List.mem_of_mem_filter member)
  have below : ∀ entry ∈ entries, entry.1 ≤ order := fun entry member =>
    of_decide_eq_true (List.mem_filter.mp member).2
  by_cases repeated : ∃ entry ∈ entries, entry.1 = order
  · obtain ⟨entry, member, here⟩ := repeated
    obtain ⟨front, back, shape⟩ := List.append_of_mem member
    -- Nothing stands behind the entry of the highest order.
    have none' : back = [] := by
      apply List.eq_nil_iff_forall_not_mem.mpr
      intro other behind
      rw [shape] at ascending below
      have more := (List.pairwise_cons.mp (List.pairwise_append.mp ascending).2.1).1 other behind
      have most := below other (List.mem_append_right _ (List.mem_cons_of_mem _ behind))
      omega
    rw [none'] at shape
    rw [shape] at ascending drawn ⊢
    exact through_repeated active frames isLast here ascending drawn
  · refine through_control active frames isLast ascending drawn fun entry member => ?_
    exact Nat.lt_of_le_of_ne (below entry member) fun same => repeated ⟨entry, member, same⟩

theorem drain_batch (space : Space ρ β) (active : ship.active = true) (frames : Frames ship past)
    (queued : Queued past peer) :
    Batch space ship past (queuedActions peer) (commands space ship (drained peer)).1
      (commands space ship (drained peer)).2 := by
  have listed := commands_entries space ship (drained peer)
  have ordered : (commands space ship (drained peer)).2.Pairwise fun left right =>
      left.1.1 ≤ right.1.1 := by
    have sorted := drained_ordered peer
    rwa [← listed, List.pairwise_map] at sorted
  have received : ∀ answer ∈ (commands space ship (drained peer)).2, Drawn past answer.1 := by
    intro answer member
    apply drained_drawn queued
    rw [← listed]
    exact List.mem_map_of_mem member
  obtain ⟨without, withLast⟩ := drained_shape queued
  cases found : lastInput past with
  | none =>
      rw [without found] at ordered received ⊢
      have reached : Reached space ship peer.pending :=
        rising_reached active (rising_drawn frames queued.ascending queued.kept)
      refine ⟨ordered, received, ?_, ?_, applied_reached reached⟩
      · intro order packet member
        cases reached.accepted _ member packet rfl
      · intro order input isLast
        rw [found] at isLast
        cases isLast
  | some last =>
      obtain ⟨order, input⟩ := last
      have through := through_last space active frames queued found
      have behindDrawn : ∀ entry ∈ peer.pending.filter (fun entry => order < entry.1),
          Drawn past entry := fun entry member =>
        queued.kept entry (List.mem_of_mem_filter member)
      have later : ∀ entry ∈ peer.pending.filter (fun entry => order < entry.1),
          order < entry.1 := fun entry member =>
        of_decide_eq_true (List.mem_filter.mp member).2
      have regions := inputs_behind frames found behindDrawn later
      have actions : queuedActions peer = _ := congrArg
        (List.flatMap fun entry : Entry ρ => entry.2.actions)
        (Library.RoundRobin.ordered_split queued.ascending order)
      rw [List.flatMap_append] at actions
      have shape := withLast order input found
      rw [List.append_cons] at shape
      rw [shape, commands_append] at ordered received ⊢
      rw [actions]
      generalize peer.pending.filter (fun entry => entry.1 ≤ order) = front at *
      generalize peer.pending.filter (fun entry => order < entry.1) = back at *
      have reached : Reached space
          (commands space ship (front ++ [control order input])).1 back :=
        rising_reached through.active ⟨by simp [regions], by simp [regions], by simp [regions]⟩
      have rests := reached.resting (by simp [lastInput, regions])
      refine ⟨ordered, received, ?_, ?_, ?_⟩
      · intro place packet member
        rcases List.mem_append.mp member with early | late
        · obtain ⟨rfl, same, other, taken⟩ := through.rejected place packet early
          exact ⟨input, found, same, other, List.mem_append_left _ taken⟩
        · cases reached.accepted _ late packet rfl
      · intro place packet isLast
        rw [found] at isLast
        cases isLast
        refine ⟨⟨rests.1.trans through.aimed.ackSeq, rests.2.1.trans through.aimed.yaw,
          rests.2.2.trans through.aimed.pitch⟩, fun most => ?_⟩
        have none' : back = [] := by
          apply List.eq_nil_iff_forall_not_mem.mpr
          intro entry member
          obtain ⟨frame, origin, -⟩ := behindDrawn entry member
          exact Nat.not_le.mpr (later entry member) (most (entry.1, frame) origin)
        rw [none']
        exact through.controls
      · rw [applied, List.flatMap_append, ← applied, ← applied, through.applied,
          applied_reached reached]

end

/-! The frames of a batch -/

def Command.packet : Command ρ → Option (Input ρ)
  | .input packet => some packet
  | .region _ => none

theorem numbered_ascending (start : Nat) (frames : List (Command ρ)) :
    (numbered start frames).Pairwise (fun left right => left.1 < right.1) ∧
      ∀ entry ∈ numbered start frames, start < entry.1 := by
  induction frames generalizing start with
  | nil => exact ⟨List.Pairwise.nil, by simp [numbered]⟩
  | cons frame rest ih =>
      obtain ⟨ascending, above⟩ := ih (start + 1)
      refine ⟨List.pairwise_cons.mpr ⟨above, ascending⟩, fun entry member => ?_⟩
      rcases List.mem_cons.mp member with rfl | inRest
      · exact Nat.lt_succ_self start
      · exact Nat.lt_of_succ_lt (above entry inRest)

theorem numbered_inputs (start : Nat) (frames : List (Command ρ)) :
    ((numbered start frames).filterMap inputOf).map Prod.snd =
      frames.filterMap Command.packet := by
  induction frames generalizing start with
  | nil => rfl
  | cons frame rest ih =>
      cases frame with
      | input packet => exact congrArg (packet :: ·) (ih _)
      | region index => exact ih _

theorem queueControls_grows (peer : Peer ρ) (frame : Command ρ) :
    peer.pending <+: (queueControls peer frame).pending := by
  cases queueControls_left peer frame with
  | nothing same => exact ⟨[], by rw [same, List.append_nil]⟩
  | busy same => exact ⟨[], by rw [same, List.append_nil]⟩
  | entry room added => exact ⟨_, added.symm⟩

theorem queueAll_grows (peer : Peer ρ) (frames : List (Command ρ)) :
    peer.pending <+: (queueAll peer frames).pending := by
  induction frames generalizing peer with
  | nil => exact List.prefix_refl _
  | cons frame rest ih => exact (queueControls_grows peer frame).trans (ih _)

theorem queuedActions_kept {peer next : Peer ρ} (grown : peer.pending <+: next.pending)
    {action : String} (held : action ∈ queuedActions peer) : action ∈ queuedActions next := by
  obtain ⟨entry, member, inside⟩ := List.mem_flatMap.mp held
  exact List.mem_flatMap.mpr ⟨entry, grown.subset member, inside⟩

/-- What becomes of the frames of a batch. -/
structure Delivered (space : Space ρ β) (ship : Ship ρ β) (peer : Peer ρ)
    (frames : List (Command ρ)) (last : Ship ρ β) (answers : List (Entry ρ × Bool)) :
    Prop where
  /-- The commands come in the order of their frames. -/
  ordered : answers.Pairwise fun left right => left.1.1 ≤ right.1.1
  /-- Each is its frame with some of the actions. -/
  received : ∀ answer ∈ answers, Drawn (numbered peer.arrivalOrder frames) answer.1
  /-- Only the control that repeats the number of the last input is refused. -/
  rejected : ∀ order packet, ((order, .input packet), false) ∈ answers →
    ∃ input, lastInput (numbered peer.arrivalOrder frames) = some (order, input) ∧
      packet = input.withActions [] ∧ ∃ queued, ((order, .input queued), true) ∈ answers
  /-- The ship has the number and the aim of the last input, and its controls where no frame
  comes behind it. -/
  current : ∀ order input,
    lastInput (numbered peer.arrivalOrder frames) = some (order, input) →
      Aimed last input ∧
        ((∀ entry ∈ numbered peer.arrivalOrder frames, entry.1 ≤ order) →
          last.controls = input.controls)
  /-- No action is applied twice. -/
  once : (applied answers).Nodup
  /-- An action comes with the first frame that has it. -/
  aim : ∀ answer ∈ answers, ∀ action ∈ answer.1.2.actions,
    ∀ other ∈ numbered peer.arrivalOrder frames, action ∈ other.2.actions →
      answer.1.1 ≤ other.1
  /-- An action that is not applied met a full queue, which answered with an error. -/
  lost : ∀ before frame after, frames = before ++ frame :: after →
    ∀ action ∈ frame.actions, action ∉ applied answers →
      Full (queueAll peer before) ∧
        (queueAll peer (before ++ [frame])).queue.getLast? = some (.error "input_busy")

/-- Frames whose inputs have rising numbers, queued at an empty queue and drained later. -/
theorem inputs_delivered (space : Space ρ β) (ship : Ship ρ β) (peer : Peer ρ)
    (frames : List (Command ρ)) (active : ship.active = true) (empty : peer.pending = [])
    (bare : peer.latestControl = none)
    (valid : ∀ packet ∈ frames.filterMap Command.packet, validInput packet.toPacket = true)
    (newer : ∀ packet ∈ frames.filterMap Command.packet, ship.ackSeq < packet.seq)
    (rising : (frames.filterMap Command.packet).Pairwise fun left right => left.seq < right.seq) :
    ∃ answers, Delivered space ship peer frames
        (drainInputs space ship (queueAll peer frames)).1 answers ∧
      commands space ship (drained (queueAll peer frames)) =
        ((drainInputs space ship (queueAll peer frames)).1, answers) := by
  have distinct : ∀ frame ∈ frames, frame.actions.Nodup := by
    intro frame member
    cases frame with
    | region index => exact List.nodup_nil
    | input packet =>
        have good := valid packet (List.mem_filterMap.mpr ⟨_, member, rfl⟩)
        unfold validInput at good
        simp only [Bool.and_eq_true, decide_eq_true_iff] at good
        exact good.1.2
  have batchFrames : Frames ship (numbered peer.arrivalOrder frames) := by
    rw [← numbered_inputs peer.arrivalOrder, List.forall_mem_map] at valid newer
    rw [← numbered_inputs peer.arrivalOrder, List.pairwise_map] at rising
    exact ⟨(numbered_ascending _ _).1, valid, newer, rising⟩
  have queued : Queued (numbered peer.arrivalOrder frames) (queueAll peer frames) :=
    (queued_empty empty bare).frames distinct
  have batch := drain_batch space active batchFrames queued
  refine ⟨_, ⟨batch.ordered, batch.received, batch.rejected, batch.current,
    batch.once ▸ queued.once, ?_, ?_⟩, rfl⟩
  · intro answer member action inside
    have entry : answer.1 ∈ drained (queueAll peer frames) := by
      rw [← commands_entries space ship (drained (queueAll peer frames))]
      exact List.mem_map_of_mem member
    rw [drained, List.mem_insertionSort, List.mem_append] at entry
    rcases entry with pending | latest
    · exact queued.first answer.1 pending action inside
    · rw [queued.latest] at latest
      cases found : lastInput (numbered peer.arrivalOrder frames) with
      | none => simp [found] at latest
      | some last =>
          have same : answer.1 = control last.1 last.2 := by simpa [found, control] using latest
          rw [same] at inside
          exact absurd inside List.not_mem_nil
  · intro before frame after shape action inside missing
    rw [batch.once] at missing
    have later : queueAll peer frames = queueAll (queueAll peer (before ++ [frame])) after := by
      rw [shape, List.append_cons, queueAll, List.foldl_append]
      rfl
    have grown := queueAll_grows (queueAll peer (before ++ [frame])) after
    rw [← later] at grown
    have step : queueAll peer (before ++ [frame]) = queueControls (queueAll peer before) frame :=
      List.foldl_concat ..
    have absent : action ∉ queuedActions (queueControls (queueAll peer before) frame) :=
      fun held => missing (queuedActions_kept (step ▸ grown) held)
    rw [step]
    cases queueControls_left (queueAll peer before) frame with
    | nothing same held =>
        exact absurd (queuedActions_kept (queueControls_grows _ _) (held action inside)) absent
    | busy same full error => exact ⟨full, error⟩
    | @entry command room added narrowed fresh =>
        by_cases known : action ∈ queuedActions (queueAll peer before)
        · exact absurd (queuedActions_kept (queueControls_grows _ _) known) absent
        · have here : action ∈ command.actions := by
            rw [fresh]
            exact List.mem_filter.mpr ⟨inside, by simpa using known⟩
          have last : ((queueAll peer before).arrivalOrder + 1, command) ∈
              (queueControls (queueAll peer before) frame).pending := by
            rw [added]
            exact List.mem_append_right _ (List.mem_singleton_self _)
          exact absurd (List.mem_flatMap.mpr ⟨_, last, here⟩) absent

/-! A held action -/

def sampleSpace : Space Int Unit where
  zero := 0
  alive := fun _ => true
  act := fun _ _ body _ => body
  jump := fun _ _ => none

def sampleShip : Ship Int Unit := ⟨true, -1, 0, 0, (0, 0, 0, false), ()⟩

def samplePeer : Peer Int := ⟨[], [], none, -1, 0⟩

def held (seq yaw : Int) : Command Int :=
  .input { v := 1, type := "input", seq, inRange := true, actions := ["laser"],
           throttle := 1, strafe := 0, lift := 0, yaw, pitch := 0, brake := false }

theorem inputs_delivered_sample :
    ∃ answers, Delivered sampleSpace sampleShip samplePeer [held 0 1, held 1 2]
        (drainInputs sampleSpace sampleShip (queueAll samplePeer [held 0 1, held 1 2])).1
        answers ∧
      commands sampleSpace sampleShip
          (drained (queueAll samplePeer [held 0 1, held 1 2])) =
        ((drainInputs sampleSpace sampleShip
          (queueAll samplePeer [held 0 1, held 1 2])).1, answers) :=
  inputs_delivered sampleSpace sampleShip samplePeer [held 0 1, held 1 2] rfl rfl rfl
    (by decide) (by decide) (by decide)

end MsgServer.FlightInput
