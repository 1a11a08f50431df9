import Mathlib.Data.Rat.Floor
import MsgServer.Library.Run
import MsgServer.Transports.Collectibles

/-!
Runs of a field of pickups. Each call is a chain of releases and claims; every link changes
one taken bit and the revision by one, and the bitmap, the respawn times and the heap agree
after each of them as long as no glyph is claimed at the instant whose respawn time is zero.
-/

namespace MsgServer.Collectibles

open Library

variable {α : Type} [Field α] [LinearOrder α] [IsStrictOrderedRing α] [FloorRing α]

def CollectibleField.isTaken (field : CollectibleField α) (glyph : Nat) : Bool :=
  (field.taken.getD (glyph / 8) 0).getLsbD (glyph % 8)

inductive Call (α : Type) where
  | collect (start stop : Point α) (now : α) (maximum : Int)
  | advance (now : α)

def Call.now : Call α → α
  | .collect _ _ now _ => now
  | .advance now => now

/-- What a call leaves; a step that is not legal raises before it changes anything. -/
def Call.apply (call : Call α) (field : CollectibleField α) : CollectibleField α :=
  match call with
  | .advance now => refresh field now
  | .collect start stop now maximum =>
      match Collectibles.collect field start stop now maximum with
      | .ok (next, _) => next
      | .error _ => field

/-- The glyphs that a call claims. -/
def Call.claims (call : Call α) (field : CollectibleField α) : List Nat :=
  match call with
  | .advance _ => []
  | .collect start stop now maximum =>
      match Collectibles.collect field start stop now maximum with
      | .ok (_, claimed) => claimed
      | .error _ => []

/-! One bit of the mask -/

theorem getLsbD_set (byte : BitVec 8) (glyph place : Nat) (small : place < 8) :
    (byte ||| bit glyph).getLsbD place = (byte.getLsbD place || decide (place = glyph % 8)) := by
  have low : glyph % 8 < 8 := Nat.mod_lt _ (by omega)
  rw [BitVec.getLsbD_or, bit, BitVec.getLsbD_shiftLeft, BitVec.getLsbD_one]
  by_cases same : place = glyph % 8
  · simp [same, low]
  · by_cases less : place < glyph % 8
    · simp [same, less]
    · have later : ¬ place - glyph % 8 = 0 := by omega
      simp [same, later]

theorem getLsbD_clear (byte : BitVec 8) (glyph place : Nat) (small : place < 8) :
    (byte &&& ~~~ bit glyph).getLsbD place =
      (byte.getLsbD place && !decide (place = glyph % 8)) := by
  have low : glyph % 8 < 8 := Nat.mod_lt _ (by omega)
  rw [BitVec.getLsbD_and, BitVec.getLsbD_not, bit, BitVec.getLsbD_shiftLeft, BitVec.getLsbD_one]
  by_cases same : place = glyph % 8
  · simp [same, low]
  · by_cases less : place < glyph % 8
    · simp [same, less, small]
    · have later : ¬ place - glyph % 8 = 0 := by omega
      simp [same, later, small]

/-- A byte of the mask changed, as seen by the bit of a glyph. -/
theorem getD_modify {mask : List (BitVec 8)} {place : Nat} (here : place < mask.length)
    (change : BitVec 8 → BitVec 8) (other : Nat) :
    (mask.modify place change).getD other 0 =
      if place = other then change (mask.getD other 0) else mask.getD other 0 := by
  rw [List.getD_eq_getElem?_getD, List.getD_eq_getElem?_getD, List.getElem?_modify]
  by_cases same : place = other
  · subst same
    simp [here]
  · simp [same]

/-! The invariant -/

/-- The entries of the heap for one glyph. -/
def CollectibleField.entries (field : CollectibleField α) (glyph : Nat) : List (α ×ₗ Nat) :=
  field.respawns.filter fun entry => (ofLex entry).2 = glyph

/-- The three representations of one field agree. -/
structure Sound (field : CollectibleField α) : Prop where
  dues : field.due.length = field.positions.length
  mask : field.taken.length = (field.positions.length + 7) / 8
  bits : ∀ glyph < field.positions.length, field.isTaken glyph = true ↔ field.dueAt glyph ≠ 0
  heap : ∀ glyph < field.positions.length, field.entries glyph =
    if field.dueAt glyph = 0 then [] else [toLex (field.dueAt glyph, glyph)]
  range : ∀ entry ∈ field.respawns, (ofLex entry).2 < field.positions.length

theorem getD_replicate {β : Type} (count place : Nat) (value : β) :
    (List.replicate count value).getD place value = value := by
  rw [List.getD_eq_getElem?_getD, List.getElem?_replicate]
  split <;> rfl

theorem init_due (positions : List (Point α)) (glyph : Nat) :
    (CollectibleField.init positions).dueAt glyph = 0 := getD_replicate _ _ _

theorem init_taken (positions : List (Point α)) (glyph : Nat) :
    (CollectibleField.init positions).isTaken glyph = false := by
  have byte : (CollectibleField.init positions).taken.getD (glyph / 8) 0 = 0 :=
    getD_replicate _ _ _
  rw [CollectibleField.isTaken, byte]
  simp

theorem init_sound (positions : List (Point α)) : Sound (.init positions : CollectibleField α) where
  dues := List.length_replicate
  mask := List.length_replicate
  bits glyph _ := by simp [init_taken, init_due]
  heap glyph _ := by
    rw [if_pos (init_due positions glyph)]
    rfl
  range entry member := by simp [CollectibleField.init] at member

/-- One link of a call changes one bit and the revision. -/
structure Flip (before : CollectibleField α) (glyph : Nat) (after : CollectibleField α) :
    Prop where
  toggled : after.isTaken glyph = !before.isTaken glyph
  others : ∀ other, other ≠ glyph → after.isTaken other = before.isTaken other
  counted : after.revision = before.revision + 1

/-! The assignments of a release and of a claim -/

theorem dueAt_set (field : CollectibleField α) {glyph : Nat} (here : glyph < field.due.length)
    (value : α) (other : Nat) :
    (field.due.set glyph value).getD other 0 = if glyph = other then value else field.dueAt other := by
  rw [List.getD_eq_getElem?_getD, List.getElem?_set, CollectibleField.dueAt,
    List.getD_eq_getElem?_getD]
  by_cases same : glyph = other
  · simp [same, same ▸ here]
  · simp [same]

/-- Two glyphs with one byte and one place in it are one glyph. -/
theorem same_glyph {glyph other : Nat} (byte : glyph / 8 = other / 8)
    (place : other % 8 = glyph % 8) : other = glyph := by
  have first := Nat.div_add_mod glyph 8
  have second := Nat.div_add_mod other 8
  omega

theorem claim_entries (field : CollectibleField α) (glyph : Nat) (now : α) (other : Nat) :
    ((claim now field glyph).entries other).Perm
      (if glyph = other then toLex (now + respawnSeconds, glyph) :: field.entries other
        else field.entries other) := by
  have order := List.perm_orderedInsert (· ≤ ·) (toLex (now + respawnSeconds, glyph))
    field.respawns
  have filtered := order.filter fun entry => decide ((ofLex entry).2 = other)
  by_cases same : glyph = other
  · simpa [CollectibleField.entries, claim, same] using filtered
  · simpa [CollectibleField.entries, claim, same] using filtered

section Links

variable {field : CollectibleField α} (sound : Sound field) {glyph : Nat}
  (inside : glyph < field.positions.length)

include sound inside

theorem byte_inside : glyph / 8 < field.taken.length := by
  rw [sound.mask]
  omega

theorem release_taken (other : Nat) :
    (release field glyph).isTaken other = (field.isTaken other && !decide (other = glyph)) := by
  have byte := byte_inside sound inside
  unfold release CollectibleField.isTaken
  dsimp only
  rw [getD_modify byte]
  by_cases here : glyph / 8 = other / 8
  · rw [if_pos here, getLsbD_clear _ _ _ (Nat.mod_lt _ (by omega))]
    by_cases place : other % 8 = glyph % 8
    · simp [same_glyph here place]
    · have differ : other ≠ glyph := fun same => place (same ▸ rfl)
      simp [place, differ]
  · have differ : other ≠ glyph := fun same => here (same ▸ rfl)
    simp [here, differ]

theorem claim_taken (now : α) (other : Nat) :
    (claim now field glyph).isTaken other = (field.isTaken other || decide (other = glyph)) := by
  have byte := byte_inside sound inside
  unfold claim CollectibleField.isTaken
  dsimp only
  rw [getD_modify byte]
  by_cases here : glyph / 8 = other / 8
  · rw [if_pos here, getLsbD_set _ _ _ (Nat.mod_lt _ (by omega))]
    by_cases place : other % 8 = glyph % 8
    · simp [same_glyph here place]
    · have differ : other ≠ glyph := fun same => place (same ▸ rfl)
      simp [place, differ]
  · have differ : other ≠ glyph := fun same => here (same ▸ rfl)
    simp [here, differ]

theorem claim_due (now : α) (other : Nat) :
    (claim now field glyph).dueAt other =
      if glyph = other then now + respawnSeconds else field.dueAt other :=
  dueAt_set field (by rw [sound.dues]; exact inside) _ other

theorem claim_flip (now : α) (free : field.dueAt glyph = 0) :
    Flip field glyph (claim now field glyph) where
  toggled := by
    have clear : field.isTaken glyph ≠ true := fun set => (sound.bits glyph inside).mp set free
    rw [claim_taken sound inside]
    simp [clear]
  others other differ := by
    rw [claim_taken sound inside]
    simp [differ]
  counted := rfl

theorem claim_sound (now : α) (free : field.dueAt glyph = 0) (told : now + respawnSeconds ≠ 0) :
    Sound (claim now field glyph) where
  dues := (List.length_set).trans sound.dues
  mask := (List.length_modify _ _ _).trans sound.mask
  bits other within := by
    rw [claim_taken sound inside, claim_due sound inside]
    by_cases same : glyph = other
    · simp [same, told]
    · have rest := sound.bits other within
      simp [same, Ne.symm same, rest]
  heap other within := by
    have entries := claim_entries field glyph now other
    rw [claim_due sound inside]
    by_cases same : glyph = other
    · subst same
      rw [if_pos rfl, sound.heap glyph inside, if_pos free] at entries
      simpa [told] using List.perm_singleton.mp entries
    · rw [if_neg same, sound.heap other within] at entries
      rw [if_neg same]
      by_cases zero : field.dueAt other = 0
      · simpa [zero] using entries
      · simpa [zero] using entries
  range entry member := by
    rcases List.mem_orderedInsert _ |>.mp member with rfl | old
    · exact inside
    · exact sound.range entry old

end Links

/-! The head of the heap -/

section Head

variable {field : CollectibleField α} (sound : Sound field) {entry : α ×ₗ Nat}
  {rest : List (α ×ₗ Nat)} (head : field.respawns = entry :: rest)

include sound head

theorem head_inside : (ofLex entry).2 < field.positions.length :=
  sound.range entry (by simp [head])

/-- The head is the only entry of its glyph, and it carries its respawn time. -/
theorem head_entry : field.dueAt (ofLex entry).2 ≠ 0 ∧
    field.dueAt (ofLex entry).2 = (ofLex entry).1 ∧
    rest.filter (fun other => (ofLex other).2 = (ofLex entry).2) = [] := by
  have entries := sound.heap _ (head_inside sound head)
  rw [CollectibleField.entries, head, List.filter_cons_of_pos (by simp)] at entries
  by_cases zero : field.dueAt (ofLex entry).2 = 0
  · simp [zero] at entries
  · rw [if_neg zero, List.cons.injEq] at entries
    exact ⟨zero, (congrArg (fun other => (ofLex other).1) entries.1).symm, entries.2⟩

theorem expire_eq :
    expire field entry rest = release { field with respawns := rest } (ofLex entry).2 := by
  unfold expire
  exact if_pos (head_entry sound head).2.1

/-- Nothing but the heap of the popped field differs from the field. -/
theorem popped_sound (other : Nat) (within : other < field.positions.length)
    (differ : (ofLex entry).2 ≠ other) :
    ({ field with respawns := rest } : CollectibleField α).entries other =
      if field.dueAt other = 0 then [] else [toLex (field.dueAt other, other)] := by
  have entries := sound.heap other within
  rwa [CollectibleField.entries, head, List.filter_cons_of_neg (by simpa using differ)] at entries

theorem expire_due (other : Nat) : (expire field entry rest).dueAt other =
    if (ofLex entry).2 = other then 0 else field.dueAt other := by
  rw [expire_eq sound head]
  exact dueAt_set field (by rw [sound.dues]; exact head_inside sound head) 0 other

theorem expire_taken (other : Nat) : (expire field entry rest).isTaken other =
    (field.isTaken other && !decide (other = (ofLex entry).2)) := by
  rw [expire_eq sound head]
  exact release_taken sound (head_inside sound head) other

theorem expire_flip : Flip field (ofLex entry).2 (expire field entry rest) where
  toggled := by
    have set : field.isTaken (ofLex entry).2 = true :=
      (sound.bits _ (head_inside sound head)).mpr (head_entry sound head).1
    rw [expire_taken sound head, set]
    simp
  others other differ := by
    rw [expire_taken sound head]
    simp [differ]
  counted := by
    rw [expire_eq sound head]
    rfl

theorem expire_sound : Sound (expire field entry rest) := by
  have due := expire_due sound head
  have taken := expire_taken sound head
  rw [expire_eq sound head] at due taken ⊢
  constructor
  case dues => exact (List.length_set).trans sound.dues
  case mask => exact (List.length_modify _ _ _).trans sound.mask
  case bits =>
    intro other within
    rw [due, taken]
    by_cases same : (ofLex entry).2 = other
    · simp [same]
    · have bits := sound.bits other within
      simp [same, Ne.symm same, bits]
  case heap =>
    intro other within
    rw [due]
    by_cases same : (ofLex entry).2 = other
    · rw [if_pos same, if_pos rfl]
      exact same ▸ (head_entry sound head).2.2
    · rw [if_neg same]
      exact popped_sound sound head other within same
  case range =>
    intro other member
    exact sound.range other (by rw [head]; exact List.mem_cons_of_mem _ member)

end Head

/-! Chains of links -/

/-- One assignment of a call: the head of the heap released, or a glyph claimed. -/
inductive Link : CollectibleField α → Nat → CollectibleField α → Prop
  | release {field : CollectibleField α} {entry : α ×ₗ Nat} {rest : List (α ×ₗ Nat)}
      (head : field.respawns = entry :: rest) :
      Link field (ofLex entry).2 (expire field entry rest)
  | claim (field : CollectibleField α) (glyph : Nat) (now : α) :
      Link field glyph (claim now field glyph)

/-- The assignments between two states, each of which changes one bit. -/
inductive Chain : CollectibleField α → List Nat → CollectibleField α → Prop
  | done (field : CollectibleField α) : Chain field [] field
  | link {before middle after : CollectibleField α} {glyph : Nat} {glyphs : List Nat}
      (link : Link before glyph middle) (flip : Flip before glyph middle)
      (rest : Chain middle glyphs after) : Chain before (glyph :: glyphs) after

theorem Chain.append {before middle after : CollectibleField α} {first rest : List Nat}
    (start : Chain before first middle) (finish : Chain middle rest after) :
    Chain before (first ++ rest) after := by
  induction start with
  | done field => exact finish
  | link link flip _ ih => exact .link link flip (ih finish)

theorem Chain.revision {before after : CollectibleField α} {glyphs : List Nat}
    (chain : Chain before glyphs after) : after.revision = before.revision + glyphs.length := by
  induction chain with
  | done field => rfl
  | link _ flip _ ih =>
      rw [ih, flip.counted, List.length_cons]
      omega

/-- What a refresh does: a chain of releases after which the field is sound, and a respawn
time is only taken back once it has come. -/
theorem drain_sound (now : α) (entries : List (α ×ₗ Nat)) :
    ∀ {field : CollectibleField α}, Sound field → field.respawns = entries →
      (∃ glyphs, Chain field glyphs (drain now entries field)) ∧ Sound (drain now entries field) ∧
        (drain now entries field).positions = field.positions ∧
        ∀ glyph, (drain now entries field).dueAt glyph = field.dueAt glyph ∨
          (drain now entries field).dueAt glyph = 0 ∧ field.dueAt glyph ≤ now := by
  induction entries with
  | nil =>
      intro field sound _
      exact ⟨⟨[], .done field⟩, sound, rfl, fun glyph => .inl rfl⟩
  | cons entry rest ih =>
      intro field sound head
      rw [drain]
      split
      · rename_i come
        have popped : (expire field entry rest).respawns = rest := by
          rw [expire_eq sound head]
          rfl
        obtain ⟨⟨glyphs, chain⟩, after, same, dues⟩ := ih (expire_sound sound head) popped
        refine ⟨⟨_, .link (.release head) (expire_flip sound head) chain⟩, after, ?_, ?_⟩
        · rw [same, expire_eq sound head]
          rfl
        · intro glyph
          have due := expire_due sound head glyph
          by_cases mine : (ofLex entry).2 = glyph
          · rw [if_pos mine] at due
            have early : field.dueAt glyph ≤ now := by
              rw [← mine, (head_entry sound head).2.1]
              exact come
            rcases dues glyph with keep | gone
            · exact .inr ⟨keep.trans due, early⟩
            · exact .inr ⟨gone.1, early⟩
          · rw [if_neg mine] at due
            rw [← due]
            exact dues glyph
      · exact ⟨⟨[], .done field⟩, sound, rfl, fun glyph => .inl rfl⟩

theorem claimAll_sound (now : α) (glyphs : List Nat) (told : glyphs ≠ [] → now + respawnSeconds ≠ 0) :
    ∀ {field : CollectibleField α}, Sound field → glyphs.Nodup →
      (∀ glyph ∈ glyphs, glyph < field.positions.length ∧ field.dueAt glyph = 0) →
      Chain field glyphs (claimAll now field glyphs) ∧ Sound (claimAll now field glyphs) ∧
        (claimAll now field glyphs).positions = field.positions ∧
        ∀ glyph, (claimAll now field glyphs).dueAt glyph =
          if glyph ∈ glyphs then now + respawnSeconds else field.dueAt glyph := by
  induction glyphs with
  | nil =>
      intro field sound _ _
      exact ⟨.done field, sound, rfl, fun glyph => by simp [claimAll]⟩
  | cons glyph rest ih =>
      intro field sound once free
      obtain ⟨fresh, once⟩ := List.nodup_cons.mp once
      obtain ⟨inside, zero⟩ := free glyph (by simp)
      have told := told (by simp)
      have after := claim_sound sound inside now zero told
      have due := claim_due sound inside now
      have others : ∀ other ∈ rest, other < (claim now field glyph).positions.length ∧
          (claim now field glyph).dueAt other = 0 := by
        intro other member
        have differ : glyph ≠ other := fun same => fresh (same ▸ member)
        rw [due, if_neg differ]
        exact free other (List.mem_cons_of_mem _ member)
      obtain ⟨chain, done, same, dues⟩ := ih (fun _ => told) after once others
      refine ⟨.link (.claim field glyph now) (claim_flip sound inside now zero) chain, done,
        same, ?_⟩
      intro other
      change (claimAll now (claim now field glyph) rest).dueAt other = _
      rw [dues, due]
      by_cases mine : glyph = other
      · simp [mine]
      · simp [mine, Ne.symm mine]

/-! What one call does -/

theorem nearby_map (field : CollectibleField α) (start stop : Point α) (glyphs : List Nat) :
    ((nearby field start stop glyphs).map fun entry => (ofLex entry).2).Sublist
      (glyphs.filter fun glyph => field.dueAt glyph = 0) := by
  unfold nearby
  refine (List.filter_sublist.map _).trans ?_
  rw [List.map_map]
  rw [show (fun entry : α ×ₗ Nat => (ofLex entry).2) ∘ (fun glyph =>
    toLex (segmentDistanceSquared (field.position glyph) start stop, glyph)) = id from rfl, List.map_id]

/-- The claimed glyphs are distinct glyphs of the field that were there. -/
theorem chosen_free (field : CollectibleField α) (start stop : Point α) (maximum : Nat) :
    (chosen (nearby field start stop (candidates field start stop)) maximum).Nodup ∧
      ∀ glyph ∈ chosen (nearby field start stop (candidates field start stop)) maximum,
        glyph < field.positions.length ∧ field.dueAt glyph = 0 := by
  rw [chosen_perm (nearby_perm field start stop)]
  have order := (List.perm_insertionSort (· ≤ ·)
    (nearby field start stop (List.range field.positions.length))).map
      fun entry : α ×ₗ Nat => (ofLex entry).2
  have part : (chosen (nearby field start stop (List.range field.positions.length))
      maximum).Sublist (((nearby field start stop (List.range field.positions.length)).insertionSort
        (· ≤ ·)).map fun entry => (ofLex entry).2) := (List.take_sublist _ _).map _
  have low := nearby_map field start stop (List.range field.positions.length)
  constructor
  · have once := (List.nodup_range.filter _).sublist low
    exact (order.nodup_iff.mpr once).sublist part
  · intro glyph member
    have free := low.subset (order.mem_iff.mp (part.subset member))
    simpa using free

/-- What a call leaves of a sound field. -/
structure Called (call : Call α) (before after : CollectibleField α) (claims : List Nat) :
    Prop where
  chain : ∃ glyphs, Chain before glyphs after
  sound : Sound after
  positions : after.positions = before.positions
  once : claims.Nodup
  free : ∀ glyph ∈ claims, before.dueAt glyph = 0 ∨ before.dueAt glyph ≤ call.now
  claimed : ∀ glyph ∈ claims, after.dueAt glyph = call.now + respawnSeconds
  others : ∀ glyph ∉ claims, after.dueAt glyph = before.dueAt glyph ∨
    after.dueAt glyph = 0 ∧ before.dueAt glyph ≤ call.now

theorem call_called (call : Call α) {field : CollectibleField α} (sound : Sound field)
    (told : call.claims field ≠ [] → call.now + respawnSeconds ≠ 0) :
    Called call field (call.apply field) (call.claims field) := by
  cases call with
  | advance now =>
      obtain ⟨chain, after, same, dues⟩ := drain_sound now field.respawns sound rfl
      exact ⟨chain, after, same, .nil, by simp [Call.claims], by simp [Call.claims],
        fun glyph _ => dues glyph⟩
  | collect start stop now maximum =>
      by_cases legal : Legal start stop maximum
      · obtain ⟨⟨glyphs, chain⟩, after, same, dues⟩ := drain_sound now field.respawns sound rfl
        change Chain field glyphs (refresh field now) at chain
        change Sound (refresh field now) at after
        change (refresh field now).positions = _ at same
        change ∀ glyph, (refresh field now).dueAt glyph = _ ∨
          (refresh field now).dueAt glyph = 0 ∧ _ at dues
        obtain ⟨once, free⟩ := chosen_free (refresh field now) start stop maximum.toNat
        have claims : (Call.collect start stop now maximum).claims field =
            chosen (nearby (refresh field now) start stop
              (candidates (refresh field now) start stop)) maximum.toNat := by
          simp [Call.claims, collect, require_true _ legal, Program.except_ok_bind]
        have next : (Call.collect start stop now maximum).apply field =
            claimAll now (refresh field now)
              ((Call.collect start stop now maximum).claims field) := by
          rw [claims]
          simp [Call.apply, collect, require_true _ legal, Program.except_ok_bind]
        rw [← claims] at once free
        obtain ⟨more, done, kept, final⟩ := claimAll_sound now _ told after once free
        rw [next]
        refine ⟨⟨_, chain.append more⟩, done, kept.trans same, once, ?_, ?_, ?_⟩
        · intro glyph member
          rcases dues glyph with keep | gone
          · exact .inl (keep.symm.trans (free glyph member).2)
          · exact .inr gone.2
        · intro glyph member
          rw [final, if_pos member]
          rfl
        · intro glyph absent
          rw [final, if_neg absent]
          exact dues glyph
      · have refused : collect field start stop now maximum =
            .error { code := "invalid_collection_step" } := by
          simp [collect, require, Program.ensure, legal, Program.except_error_bind]
        have kept : (Call.collect start stop now maximum).apply field = field := by
          simp [Call.apply, refused]
        have nothing : (Call.collect start stop now maximum).claims field = [] := by
          simp [Call.claims, refused]
        rw [kept, nothing]
        exact ⟨⟨[], .done field⟩, sound, rfl, .nil, by simp, by simp, fun glyph _ => .inl rfl⟩

/-! Runs -/

def runCalls (calls : List (Call α)) (field : CollectibleField α) : CollectibleField α :=
  Run.run Call.apply calls field

/-- Every claim of a run with its instant. -/
def claimsOf : List (Call α) → CollectibleField α → List (Nat × α)
  | [], _ => []
  | call :: rest, field =>
      (call.claims field).map (fun glyph => (glyph, call.now)) ++ claimsOf rest (call.apply field)

/-- No glyph is claimed at the instant whose respawn time is the mark of an available one. -/
def NeverZero : List (Call α) → CollectibleField α → Prop
  | [], _ => True
  | call :: rest, field =>
      (call.claims field ≠ [] → call.now + respawnSeconds ≠ 0) ∧
        NeverZero rest (call.apply field)

theorem run_sound {calls : List (Call α)} {field : CollectibleField α} (sound : Sound field)
    (never : NeverZero calls field) :
    Sound (runCalls calls field) ∧ (runCalls calls field).positions = field.positions ∧
      ∃ glyphs, Chain field glyphs (runCalls calls field) := by
  induction calls generalizing field with
  | nil => exact ⟨sound, rfl, [], .done field⟩
  | cons call rest ih =>
      have called := call_called call sound never.1
      obtain ⟨after, same, glyphs, chain⟩ := ih called.sound never.2
      obtain ⟨first, start⟩ := called.chain
      exact ⟨after, same.trans called.positions, first ++ glyphs, start.append chain⟩

/-- The instant of a claim is the instant of a call. -/
theorem claims_times (calls : List (Call α)) (field : CollectibleField α) :
    ∀ claim ∈ claimsOf calls field, ∃ call ∈ calls, claim.2 = call.now := by
  induction calls generalizing field with
  | nil => simp [claimsOf]
  | cons call rest ih =>
      intro claim member
      rcases List.mem_append.mp member with now | later
      · obtain ⟨glyph, _, rfl⟩ := List.mem_map.mp now
        exact ⟨call, by simp, rfl⟩
      · obtain ⟨next, inRest, same⟩ := ih (call.apply field) claim later
        exact ⟨next, List.mem_cons_of_mem _ inRest, same⟩

/-- The claims of a run on a clock that does not run back: each of them waits for the respawn
time that the field holds, and for that of every earlier claim of its glyph. -/
theorem claims_apart {calls : List (Call α)} {field : CollectibleField α} (sound : Sound field)
    (never : NeverZero calls field)
    (clock : calls.Pairwise fun first second => first.now ≤ second.now) :
    (∀ claim ∈ claimsOf calls field, field.dueAt claim.1 = 0 ∨ field.dueAt claim.1 ≤ claim.2) ∧
      (claimsOf calls field).Pairwise fun first second =>
        first.1 = second.1 → first.2 + respawnSeconds ≤ second.2 := by
  induction calls generalizing field with
  | nil => exact ⟨by simp [claimsOf], .nil⟩
  | cons call rest ih =>
      have called := call_called call sound never.1
      obtain ⟨later, ordered⟩ := List.pairwise_cons.mp clock
      obtain ⟨waits, apart⟩ := ih called.sound never.2 ordered
      have times : ∀ claim ∈ claimsOf rest (call.apply field), call.now ≤ claim.2 := by
        intro claim member
        obtain ⟨next, inRest, same⟩ := claims_times rest (call.apply field) claim member
        rw [same]
        exact later next inRest
      refine ⟨?_, List.pairwise_append.mpr ⟨?_, apart, ?_⟩⟩
      · intro claim member
        rcases List.mem_append.mp member with now | rest
        · obtain ⟨glyph, mine, rfl⟩ := List.mem_map.mp now
          exact called.free glyph mine
        · by_cases mine : claim.1 ∈ call.claims field
          · rcases called.free _ mine with zero | due
            · exact .inl zero
            · exact .inr (due.trans (times claim rest))
          · rcases called.others _ mine with keep | gone
            · rw [← keep]
              exact waits claim rest
            · exact .inr (gone.2.trans (times claim rest))
      · refine List.pairwise_map.mpr (called.once.imp fun differ same => ?_)
        exact absurd same differ
      · intro first firstIn second secondIn same
        obtain ⟨glyph, mine, rfl⟩ := List.mem_map.mp firstIn
        have due := called.claimed glyph mine
        have told : call.now + respawnSeconds ≠ 0 := never.1 (List.ne_nil_of_mem mine)
        rcases waits second secondIn with zero | come
        · rw [← same, due] at zero
          exact absurd zero told
        · rwa [← same, due] at come

/-- Over any run that never claims at the instant of the mark, the taken bit, the respawn time
and the heap of every glyph agree; the run is a chain of assignments that each change one bit
and count one revision; and on a clock that does not run back a glyph is claimed again only
when its respawn time has come. -/
theorem bookkeeping (positions : List (Point α)) (calls : List (Call α))
    (never : NeverZero calls (.init positions)) :
    (∀ glyph < positions.length,
      ((runCalls calls (.init positions)).isTaken glyph = true ↔
        (runCalls calls (.init positions)).dueAt glyph ≠ 0) ∧
      ((runCalls calls (.init positions)).isTaken glyph = true ↔
        ((runCalls calls (.init positions)).entries glyph).length = 1) ∧
      ((runCalls calls (.init positions)).isTaken glyph = false ↔
        (runCalls calls (.init positions)).entries glyph = [])) ∧
    (∃ glyphs, Chain (.init positions) glyphs (runCalls calls (.init positions)) ∧
      (runCalls calls (.init positions)).revision = glyphs.length) ∧
    ((calls.Pairwise fun first second => first.now ≤ second.now) →
      (claimsOf calls (.init positions)).Pairwise fun first second =>
        first.1 = second.1 → first.2 + respawnSeconds ≤ second.2) := by
  have start := init_sound positions
  obtain ⟨sound, same, glyphs, chain⟩ := run_sound start never
  refine ⟨fun glyph inside => ?_, ⟨glyphs, chain, ?_⟩, fun clock =>
    (claims_apart start never clock).2⟩
  · have within : glyph < (runCalls calls (.init positions)).positions.length := by
      rw [same]
      exact inside
    have bits := sound.bits glyph within
    have heap := sound.heap glyph within
    refine ⟨bits, ?_, ?_⟩
    · rw [heap, bits]
      split <;> simp_all
    · rw [heap, ← Bool.not_eq_true, bits]
      split <;> simp_all
  · rw [chain.revision]
    exact Nat.zero_add _

/-- At that instant the three representations part. -/
theorem bookkeeping_fails :
    let field := runCalls [.collect 0 0 (-45) 32] (.init [(0 : Point ℚ)])
    field.isTaken 0 = true ∧ field.dueAt 0 = 0 ∧ (field.entries 0).length = 1 := by
  decide +kernel

theorem bookkeeping_first :
    (runCalls [.collect 0 0 0 32, .advance 45] (.init [(0 : Point ℚ)])).isTaken 0 = false ↔
      (runCalls [.collect 0 0 0 32, .advance 45] (.init [(0 : Point ℚ)])).entries 0 = [] :=
  ((bookkeeping [(0 : Point ℚ)] [.collect 0 0 0 32, .advance 45]
    ⟨fun _ => by norm_num [Call.now, respawnSeconds],
      fun _ => by norm_num [Call.now, respawnSeconds], trivial⟩).1 0 (by simp)).2.2

end MsgServer.Collectibles
