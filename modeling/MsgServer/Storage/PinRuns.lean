import Mathlib.Data.List.Induction
import MsgServer.Storage.Pins

/-!
Runs of the pins. As long as no content that a lease holds is put under the other kind of
media type, a pin stands where the index looks for it and nowhere else. Such a put leaves the
pin of every lease that holds the content behind where nothing looks for it any more.
-/

namespace MsgServer.Pins

open Library Contents

variable {hash : Hash} {nameOf : String → String} {leases : String → Prop}

/-! Single operations -/

theorem entryOf_ok {world : World} {digest : String} {entry : Contents.Entry} :
    entryOf world digest = .ok entry ↔
      isDigest digest = true ∧ world.store.index digest = some entry := by
  simp only [entryOf, Program.except_bind_ok, require_ok, exists_const, requireRow_ok]

theorem pinned_stored {world : World} {digest : String} {entry : Contents.Entry}
    (valid : isDigest digest = true) (stored : world.store.index digest = some entry)
    (lease : String) :
    pinned nameOf world digest lease =
      .ok (if isGit entry then (world.refs (nameOf lease) digest).isSome
        else world.files (nameOf lease) digest) := by
  have found := entryOf_ok.mpr ⟨valid, stored⟩
  rw [pinned, found]
  cases entry <;> rfl

/-- A put sets the entry of its digest alone, to the kind of the media type. -/
theorem put_index {store next : Store} {data : Bytes} {mediaType expected : String} {blob : BlobRef}
    (done : put hash store data mediaType expected = .ok (blob, next)) :
    ∃ entry, isGit entry = isText mediaType ∧ ∀ other, next.index other =
      if other = hash.digest data then some entry else store.index other := by
  simp only [put, Program.except_bind_ok, require_ok, exists_const] at done
  obtain ⟨-, done⟩ := done
  split at done
  · next text =>
      cases done
      exact ⟨.git data data.length, by rw [text]; rfl, fun other => rfl⟩
  · next binary =>
      have kind : isGit (.binary data.length) = isText mediaType := by
        rw [Bool.not_eq_true] at binary
        rw [binary]
        rfl
      split at done
      · simp only [Program.except_bind_ok, require_ok, exists_const] at done
        cases done.2
        exact ⟨.binary data.length, kind, fun other => rfl⟩
      · cases done
        exact ⟨.binary data.length, kind, fun other => rfl⟩

theorem putBytes_ok {world next : World} {data : Bytes} {mediaType : String}
    {expected : Option String} (done : putBytes hash world data mediaType expected = .ok next) :
    ∃ blob store, put hash world.store data mediaType (expected.getD (hash.digest data)) =
      .ok (blob, store) ∧ next = { world with store } := by
  simp only [putBytes, Program.except_bind_ok, Program.except_pure, Except.ok.injEq,
    Prod.exists] at done
  obtain ⟨blob, store, put, rfl⟩ := done
  exact ⟨blob, store, put, rfl⟩

/-- A pin and an unpin set the place of the kind of the entry. -/
def World.place (world : World) (entry : Contents.Entry) (name digest : String) (present : Bool) :
    World :=
  match entry with
  | .git object _ => world.setRef name digest (if present then some object else none)
  | .binary _ => world.setFile name digest present

theorem pin_ok {world next : World} {digest lease : String}
    (done : pin nameOf world digest lease = .ok next) :
    ∃ entry, isDigest digest = true ∧ world.store.index digest = some entry ∧
      next = world.place entry (nameOf lease) digest true := by
  simp only [pin, Program.except_bind_ok, entryOf_ok] at done
  obtain ⟨entry, ⟨valid, stored⟩, done⟩ := done
  refine ⟨entry, valid, stored, ?_⟩
  cases entry <;> exact (Except.ok.inj done).symm

theorem unpin_ok {world next : World} {digest lease : String}
    (done : unpin nameOf world digest lease = .ok next) :
    ∃ entry, isDigest digest = true ∧ world.store.index digest = some entry ∧
      next = world.place entry (nameOf lease) digest false := by
  simp only [unpin, Program.except_bind_ok, entryOf_ok] at done
  obtain ⟨entry, ⟨valid, stored⟩, done⟩ := done
  refine ⟨entry, valid, stored, ?_⟩
  cases entry <;> exact (Except.ok.inj done).symm

section

variable (world : World) (entry : Contents.Entry) (name digest : String) (present : Bool)

@[simp] theorem place_store : (world.place entry name digest present).store = world.store := by
  cases entry <;> rfl

theorem place_refs (other key : String) :
    ((world.place entry name digest present).refs other key).isSome =
      if isGit entry = true ∧ other = name ∧ key = digest then present
      else (world.refs other key).isSome := by
  cases entry with
  | git object size =>
      simp only [World.place, World.setRef, isGit, true_and]
      split
      · cases present <;> rfl
      · rfl
  | binary size => simp [World.place, World.setFile, isGit]

theorem place_files (other key : String) :
    (world.place entry name digest present).files other key =
      if isGit entry = false ∧ other = name ∧ key = digest then present
      else world.files other key := by
  cases entry with
  | git object size => simp [World.place, World.setRef, isGit]
  | binary size => simp only [World.place, World.setFile, isGit, true_and]

end

theorem last_cons (event : Event) (events : List Event) (digest lease : String) :
    last (event :: events) digest lease =
      if event.digest = digest ∧ event.lease = lease then some event.pins
      else last events digest lease := by
  rw [last, List.find?_cons]
  by_cases same : event.digest = digest ∧ event.lease = lease
  · simp [same]
  · simp [same, last]

/-! The invariant -/

def kind (world : World) (digest : String) : Option Bool :=
  (world.store.index digest).map isGit

structure Inv (hash : Hash) (nameOf : String → String) (leases : String → Prop)
    (state : State) : Prop where
  sound : Sound hash state.world.store
  keeps : ∀ data ∈ state.world.store.seen, Keeps hash state.world.store data
  stored : ∀ digest lease, leases lease → last state.events digest lease ≠ none →
    kind state.world digest ≠ none
  refs : ∀ digest lease, leases lease →
    ((state.world.refs (nameOf lease) digest).isSome = true ↔
      last state.events digest lease = some true ∧ kind state.world digest = some true)
  files : ∀ digest lease, leases lease →
    (state.world.files (nameOf lease) digest = true ↔
      last state.events digest lease = some true ∧ kind state.world digest = some false)

theorem inv_first : Inv hash nameOf leases State.first where
  sound := sound_empty
  keeps := by simp [State.first, World.empty, Store.empty]
  stored := by simp [State.first, last]
  refs := by simp [State.first, World.empty, last]
  files := by simp [State.first, World.empty, last]

theorem Inv.pinned_iff {state : State} (inv : Inv hash nameOf leases state)
    {digest lease : String} (used : leases lease) {entry : Contents.Entry}
    (stored : state.world.store.index digest = some entry) :
    pinned nameOf state.world digest lease = .ok true ↔
      last state.events digest lease = some true := by
  obtain ⟨data, -, rfl, -⟩ := inv.sound.entries digest entry stored
  rw [pinned_stored (hash.wellFormed data) stored, Except.ok.injEq]
  have known : kind state.world (hash.digest data) = some (isGit entry) := by
    rw [kind, stored, Option.map_some]
  cases git : isGit entry with
  | true =>
      rw [if_pos rfl, inv.refs _ _ used, known, git]
      simp
  | false =>
      rw [if_neg (by decide), inv.files _ _ used, known, git]
      simp

theorem Inv.coherent {state : State} (inv : Inv hash nameOf leases state)
    (distinct : Distinct hash state.world.store.seen) : Coherent hash nameOf leases state where
  pinned := fun _ _ _ used stored => inv.pinned_iff used stored
  cleared := by
    intro digest lease used unpinned
    have refs := inv.refs digest lease used
    have files := inv.files digest lease used
    rw [unpinned] at refs files
    constructor
    · rw [← Option.not_isSome_iff_eq_none, refs]
      simp
    · rw [← Bool.not_eq_true, files]
      simp
  read := fun data seen mediaType => read_kept inv.sound (inv.keeps data seen) distinct mediaType

/-- A pin or an unpin where the entry says. -/
theorem Inv.place {state : State} (inv : Inv hash nameOf leases state)
    (named : ∀ one other, leases one → leases other → nameOf one = nameOf other → one = other)
    {digest lease : String} (used : leases lease) {entry : Contents.Entry}
    (stored : state.world.store.index digest = some entry) (present : Bool) :
    Inv hash nameOf leases
      { world := state.world.place entry (nameOf lease) digest present
        events := { digest, lease, pins := present } :: state.events } := by
  have kinds (key : String) :
      kind (state.world.place entry (nameOf lease) digest present) key = kind state.world key := by
    rw [kind, place_store, kind]
  have known : kind state.world digest = some (isGit entry) := by
    rw [kind, stored, Option.map_some]
  -- a name stands for one lease
  have same (other : String) (key : String) (otherUsed : leases other) :
      nameOf other = nameOf lease ∧ key = digest ↔ digest = key ∧ lease = other := by
    constructor
    · rintro ⟨names, rfl⟩
      exact ⟨rfl, (named other lease otherUsed used names).symm⟩
    · rintro ⟨rfl, rfl⟩
      exact ⟨rfl, rfl⟩
  constructor
  · rw [place_store]
    exact inv.sound
  · rw [place_store]
    exact inv.keeps
  · intro key other otherUsed some
    rw [kinds]
    rw [last_cons] at some
    by_cases here : digest = key ∧ lease = other
    · rw [← here.1, known]
      exact Option.some_ne_none _
    · rw [if_neg here] at some
      exact inv.stored key other otherUsed some
  · intro key other otherUsed
    rw [place_refs, last_cons, kinds]
    simp only [same other key otherUsed]
    by_cases here : digest = key ∧ lease = other
    · obtain ⟨rfl, rfl⟩ := here
      have old := inv.refs digest lease used
      rw [known] at old ⊢
      cases git : isGit entry with
      | true => simp
      | false =>
          rw [git] at old
          simpa using old
    · simp only [if_neg here, if_neg fun both : isGit entry = true ∧ _ => here both.2]
      exact inv.refs key other otherUsed
  · intro key other otherUsed
    rw [place_files, last_cons, kinds]
    simp only [same other key otherUsed]
    by_cases here : digest = key ∧ lease = other
    · obtain ⟨rfl, rfl⟩ := here
      have old := inv.files digest lease used
      rw [known] at old ⊢
      cases git : isGit entry with
      | false => simp
      | true =>
          rw [git] at old
          simpa using old
    · simp only [if_neg here, if_neg fun both : isGit entry = false ∧ _ => here both.2]
      exact inv.files key other otherUsed

/-- What a put makes of the kinds. -/
theorem put_kind {world : World} {store : Store} {data : Bytes} {mediaType expected : String}
    {blob : BlobRef} (done : put hash world.store data mediaType expected = .ok (blob, store))
    (key : String) :
    kind { world with store } key =
      if key = hash.digest data then some (isText mediaType) else kind world key := by
  obtain ⟨entry, git, index⟩ := put_index done
  rw [kind, index key]
  split
  · rw [Option.map_some, git]
  · rfl

/-- A put that does not change the kind of what a lease holds. -/
theorem Inv.put {state : State} (inv : Inv hash nameOf leases state) {data : Bytes}
    {mediaType : String} {expected : Option String} {store : Store} {blob : BlobRef}
    (done : Contents.put hash state.world.store data mediaType
      (expected.getD (hash.digest data)) = .ok (blob, store))
    (keeps : ¬ Switches hash nameOf leases state.world (.put data mediaType expected)) :
    Inv hash nameOf leases
      { world := { state.world with store }, events := state.events } := by
  have kinds := put_kind done
  have expects := (put_ok done).1
  -- where the kind changes nothing is held
  have idle (lease : String) (used : leases lease)
      (other : kind state.world (hash.digest data) ≠ some (isText mediaType)) :
      last state.events (hash.digest data) lease ≠ some true := by
    intro held
    have stored := inv.stored _ _ used (by rw [held]; exact Option.some_ne_none _)
    cases found : state.world.store.index (hash.digest data) with
    | none => exact stored (by rw [kind, found]; rfl)
    | some entry =>
        rw [kind, found, Option.map_some] at other
        exact keeps ⟨expects, entry, found, fun same => other (congrArg some same),
          lease, used, (inv.pinned_iff used found).mpr held⟩
  have moves {here : Prop} {key lease : String} (used : leases lease) (git : Bool)
      (old : here ↔ last state.events key lease = some true ∧ kind state.world key = some git) :
      here ↔ last state.events key lease = some true ∧
        kind { state.world with store } key = some git := by
    rw [old, kinds]
    split
    · next same =>
        subst same
        by_cases stays : kind state.world (hash.digest data) = some (isText mediaType)
        · rw [stays]
        · have none := idle lease used stays
          exact iff_of_false (fun both => none both.1) (fun both => none both.1)
    · rfl
  constructor
  · exact put_sound inv.sound done
  · intro other seen
    rw [(put_ok done).2.2.1] at seen
    obtain rfl | old := List.mem_cons.mp seen
    · exact put_keeps done
    · exact (inv.keeps other old).put done
  · intro key lease used some
    rw [kinds]
    split
    · exact Option.some_ne_none _
    · exact inv.stored key lease used some
  · intro key lease used
    exact moves used true (inv.refs key lease used)
  · intro key lease used
    exact moves used false (inv.files key lease used)

/-! Runs -/

/-- The byte strings that the operations put. -/
def puts (ops : List Op) : List Bytes := ops.filterMap fun op =>
  match op with
  | .put data _ _ => some data
  | .pin _ _ => none
  | .unpin _ _ => none

theorem runs_append (ops : List Op) (op : Op) :
    runs hash nameOf (ops ++ [op]) = (runs hash nameOf ops).step hash nameOf op := by
  rw [runs, List.foldl_append]
  rfl

/-- What a step does, by the operation that was done. -/
theorem step_cases (hash : Hash) (nameOf : String → String) (state : State) (op : Op) :
    state.step hash nameOf op = state ∨
    (∃ data mediaType expected blob store, op = .put data mediaType expected ∧
      put hash state.world.store data mediaType (expected.getD (hash.digest data)) =
        .ok (blob, store) ∧
      state.step hash nameOf op = ⟨{ state.world with store }, state.events⟩) ∨
    ∃ digest lease present entry, op.event = some ⟨digest, lease, present⟩ ∧
      state.world.store.index digest = some entry ∧
      state.step hash nameOf op = ⟨state.world.place entry (nameOf lease) digest present,
        ⟨digest, lease, present⟩ :: state.events⟩ := by
  rw [State.step]
  cases done : op.run hash nameOf state.world with
  | error failure => exact .inl rfl
  | ok next =>
      right
      cases op with
      | put data mediaType expected =>
          obtain ⟨blob, store, put, rfl⟩ := putBytes_ok done
          exact .inl ⟨data, mediaType, expected, blob, store, rfl, put, rfl⟩
      | pin digest lease =>
          obtain ⟨entry, -, stored, rfl⟩ := pin_ok done
          exact .inr ⟨digest, lease, true, entry, rfl, stored, rfl⟩
      | unpin digest lease =>
          obtain ⟨entry, -, stored, rfl⟩ := unpin_ok done
          exact .inr ⟨digest, lease, false, entry, rfl, stored, rfl⟩

theorem seen_puts (ops : List Op) :
    ∀ data ∈ (runs hash nameOf ops).world.store.seen, data ∈ puts ops := by
  induction ops using List.reverseRecOn with
  | nil => exact fun data member => absurd member List.not_mem_nil
  | append_singleton ops op ih =>
      have earlier : ∀ data ∈ (runs hash nameOf ops).world.store.seen, data ∈ puts (ops ++ [op]) := by
        intro data member
        rw [puts, List.filterMap_append]
        exact List.mem_append_left _ (ih data member)
      rw [runs_append]
      obtain same | ⟨data, mediaType, expected, blob, store, rfl, done, same⟩ |
        ⟨digest, lease, present, entry, -, -, same⟩ := step_cases hash nameOf (runs hash nameOf ops) op
      · rw [same]
        exact earlier
      · rw [same]
        intro other member
        rw [(put_ok done).2.2.1] at member
        obtain rfl | old := List.mem_cons.mp member
        · rw [puts, List.filterMap_append]
          exact List.mem_append_right _ List.mem_cons_self
        · exact earlier other old
      · rw [same, place_store]
        exact earlier

/-- Every pin and unpin is of a lease in use. -/
def Uses (leases : String → Prop) (ops : List Op) : Prop :=
  ∀ op ∈ ops, ∀ event ∈ op.event, leases event.lease

theorem Inv.step {state : State} (inv : Inv hash nameOf leases state)
    (named : ∀ one other, leases one → leases other → nameOf one = nameOf other → one = other)
    {op : Op} (uses : ∀ event ∈ op.event, leases event.lease)
    (keeps : ¬ Switches hash nameOf leases state.world op) :
    Inv hash nameOf leases (state.step hash nameOf op) := by
  obtain same | ⟨data, mediaType, expected, blob, store, rfl, done, same⟩ |
    ⟨digest, lease, present, entry, event, stored, same⟩ :=
      step_cases hash nameOf state op
  · rw [same]
    exact inv
  · rw [same]
    exact inv.put done keeps
  · rw [same]
    exact inv.place named (uses _ event) stored present

/-- After a put that does change the kind the promise is broken. -/
theorem Inv.broken {state : State} (inv : Inv hash nameOf leases state) {op : Op}
    (switches : Switches hash nameOf leases state.world op)
    (distinct : ∀ data ∈ puts [op], Distinct hash (data :: state.world.store.seen)) :
    ¬ Coherent hash nameOf leases (state.step hash nameOf op) := by
  intro coherent
  cases op with
  | pin => exact switches
  | unpin => exact switches
  | put data mediaType expected =>
      obtain ⟨expects, entry, stored, other, lease, used, held⟩ := switches
      obtain ⟨blob, store, done⟩ : ∃ blob store, Contents.put hash state.world.store data mediaType
          (expected.getD (hash.digest data)) = .ok (blob, store) :=
        put_total inv.sound expects (distinct data List.mem_cons_self)
      have next : State.step hash nameOf state (.put data mediaType expected) =
          ⟨{ state.world with store }, state.events⟩ := by
        rw [State.step, Op.run, putBytes, done]
        rfl
      rw [next] at coherent
      -- the pin stands where the index looked before
      have pins := (inv.pinned_iff used stored).mp held
      have known : kind state.world (hash.digest data) = some (isGit entry) := by
        rw [kind, stored, Option.map_some]
      have refs := inv.refs (hash.digest data) lease used
      have files := inv.files (hash.digest data) lease used
      rw [pins, known] at refs files
      obtain ⟨found, git, index⟩ := put_index done
      have moved : store.index (hash.digest data) = some found := by
        rw [index, if_pos rfl]
      have seen := (coherent.pinned (hash.digest data) lease found used moved).mpr pins
      rw [pinned_stored (hash.wellFormed data) moved, git, Except.ok.injEq] at seen
      cases text : isText mediaType with
      | true =>
          rw [text, if_pos rfl, refs] at seen
          exact other (by rw [text]; exact Option.some.inj seen.2)
      | false =>
          rw [text, if_neg (by decide), files] at seen
          exact other (by rw [text]; exact Option.some.inj seen.2)

theorem puts_front {ops front back : List Op} (shape : ops = front ++ back) :
    ∀ data ∈ puts front, data ∈ puts ops := by
  intro data member
  rw [shape, puts, List.filterMap_append]
  exact List.mem_append_left _ member

theorem inv_runs
    (named : ∀ one other, leases one → leases other → nameOf one = nameOf other → one = other)
    {ops : List Op} (uses : Uses leases ops)
    (keeps : ∀ front op back, ops = front ++ op :: back →
      ¬ Switches hash nameOf leases (runs hash nameOf front).world op) :
    Inv hash nameOf leases (runs hash nameOf ops) := by
  induction ops using List.reverseRecOn with
  | nil => exact inv_first
  | append_singleton ops op ih =>
      have inv := ih (fun other member => uses other (List.mem_append_left _ member))
        fun front other back shape => keeps front other (back ++ [op]) (by rw [shape]; simp)
      rw [runs_append]
      exact inv.step named (uses op (List.mem_append_right _ List.mem_cons_self))
        (keeps ops op [] rfl)

/-- The promise holds after every operation of a run if and only if no operation puts content
that a lease holds under the other kind of media type. -/
theorem pins_coherent (hash : Hash) (nameOf : String → String) (leases : String → Prop)
    (named : ∀ one other, leases one → leases other → nameOf one = nameOf other → one = other)
    (ops : List Op) (uses : Uses leases ops) (distinct : Distinct hash (puts ops)) :
    (∀ front back, ops = front ++ back →
        Coherent hash nameOf leases (runs hash nameOf front)) ↔
      ∀ front op back, ops = front ++ op :: back →
        ¬ Switches hash nameOf leases (runs hash nameOf front).world op := by
  have apart (front back : List Op) (shape : ops = front ++ back) :
      Distinct hash (runs hash nameOf front).world.store.seen := by
    intro left inLeft right inRight same
    exact distinct left (puts_front shape left (seen_puts front left inLeft)) right
      (puts_front shape right (seen_puts front right inRight)) same
  have used (front back : List Op) (shape : ops = front ++ back) : Uses leases front := by
    intro op member
    exact uses op (by rw [shape]; exact List.mem_append_left _ member)
  constructor
  · intro coherent front
    induction count : front.length using Nat.strongRecOn generalizing front with
    | ind count ih =>
        subst count
        intro op back shape switches
        -- no earlier operation switches, so the invariant still stands
        have inv : Inv hash nameOf leases (runs hash nameOf front) := by
          apply inv_runs named (used front (op :: back) shape)
          intro before earlier after inside
          have shorter : before.length < front.length := by
            rw [inside, List.length_append, List.length_cons]
            omega
          exact ih before.length shorter before rfl earlier (after ++ op :: back)
            (by rw [shape, inside]; simp)
        apply inv.broken switches
        · intro data member left inLeft right inRight same
          have known : ∀ other ∈ data :: (runs hash nameOf front).world.store.seen,
              other ∈ puts ops := by
            intro other inside
            obtain rfl | old := List.mem_cons.mp inside
            · have parts : ops = [] ++ front ++ ([op] ++ back) := shape
              rw [parts, puts, List.filterMap_append]
              apply List.mem_append_right
              rw [List.filterMap_append]
              exact List.mem_append_left _ member
            · exact puts_front shape other (seen_puts front other old)
          exact distinct left (known left inLeft) right (known right inRight) same
        · rw [← runs_append]
          exact coherent (front ++ [op]) back (by rw [shape]; simp)
  · intro keeps front back shape
    apply Inv.coherent _ (apart front back shape)
    apply inv_runs named (used front back shape)
    intro before op after inside
    exact keeps before op (after ++ back) (by rw [shape, inside]; simp)

/-! One chunk that is sealed as a text -/

def chunkDigest : String :=
  "sha256:4bf5122f344554c53bde2ebb8cd2b7e3d1600ad631c385a5d7cce23c7785459a"

def chunkName (data : Bytes) : String :=
  if data = [1] then chunkDigest
  else "sha256:0000000000000000000000000000000000000000000000000000000000000000"

theorem chunkName_digest (data : Bytes) : isDigest (chunkName data) = true := by
  unfold chunkName isDigest
  split
  · -- a long literal is read in pieces
    have spelled : chunkDigest =
        "sha256:4bf5122f344554c53bde" ++ "2ebb8cd2b7e3d1600ad631c385" ++ "a5d7cce23c7785459a" := rfl
    rw [spelled, String.toList_append, String.toList_append]
    decide +kernel
  · have spelled : "sha256:0000000000000000000000000000000000000000000000000000000000000000" =
        String.ofList ("sha256:".toList ++ List.replicate 64 '0') := rfl
    rw [spelled, String.toList_ofList]
    decide +kernel

/-- The digests that the run meets. -/
def chunkHash : Hash := ⟨chunkName, chunkName_digest⟩

def leaseName (lease : String) : String :=
  if lease = "t:0" then "6f88c0768004e760868e007c0fbca7178d0b7842f9e48eb8a3afcd935e6891cb"
  else lease

def chunkOps : List Op :=
  [.put [1] "application/octet-stream" (some chunkDigest), .pin chunkDigest "t:0"]

def sealText : Op := .put [1] "text/markdown" none

theorem pins_coherent_chunk :
    (∀ front back, chunkOps = front ++ back →
        Coherent chunkHash leaseName (fun lease => lease = "t:0")
          (runs chunkHash leaseName front)) ↔
      ∀ front op back, chunkOps = front ++ op :: back →
        ¬ Switches chunkHash leaseName (fun lease => lease = "t:0")
          (runs chunkHash leaseName front).world op := by
  apply pins_coherent
  · rintro one other rfl rfl -
    rfl
  · simp [Uses, chunkOps, Op.event]
  · simp [Distinct, puts, chunkOps]

/-- The pinned chunk is no longer pinned when the same bytes are put as a text, and unpinning
it leaves its file. -/
theorem pin_lost :
    let sealing := runs chunkHash leaseName (chunkOps ++ [sealText])
    let cleaned := runs chunkHash leaseName (chunkOps ++ [sealText, .unpin chunkDigest "t:0"])
    last sealing.events chunkDigest "t:0" = some true ∧
      pinned leaseName sealing.world chunkDigest "t:0" = .ok false ∧
      last cleaned.events chunkDigest "t:0" = some false ∧
      cleaned.world.files (leaseName "t:0") chunkDigest = true := by
  decide +kernel

end MsgServer.Pins
