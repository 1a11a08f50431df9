import MsgServer.Plugins.Watches

/-!
Which messages an event leaves behind. `Sent` is what the loop reaches, `Matching` what the
watches ask for; they differ where a reference fails before a match is reached.
-/

namespace MsgServer.Watches

open Library Session Authorization

variable {world : World} {event : Event} {watch : Watch}

/-- The messages of the event for one recipient about one resource. -/
def copies (event : Event) (inbox : Inbox) (recipient resource : String) : Nat :=
  inbox.countP (addressed event.id recipient resource)

/-- One message of each wanted kind is there afterwards, and no other was added. -/
structure Notified (event : Event) (wanted : String → String → Prop) (inbox next : Inbox) :
    Prop where
  once : ∀ recipient resource, wanted recipient resource →
    copies event next recipient resource = max 1 (copies event inbox recipient resource)
  others : ∀ recipient resource, ¬ wanted recipient resource →
    copies event next recipient resource = copies event inbox recipient resource

theorem Notified.refl (inbox : Inbox) : Notified event (fun _ _ => False) inbox inbox where
  once _ _ none := none.elim
  others _ _ _ := rfl

theorem Notified.trans {first second : String → String → Prop} {inbox middle next : Inbox}
    (head : Notified event first inbox middle) (tail : Notified event second middle next) :
    Notified event (fun recipient resource => first recipient resource ∨ second recipient resource)
      inbox next := by
  constructor
  · intro recipient resource wanted
    by_cases early : first recipient resource
    · have one := head.once recipient resource early
      by_cases late : second recipient resource
      · rw [tail.once recipient resource late, one]
        omega
      · rw [tail.others recipient resource late, one]
    · rw [tail.once recipient resource (wanted.resolve_left early),
        head.others recipient resource early]
  · intro recipient resource unwanted
    rw [tail.others recipient resource fun late => unwanted (Or.inr late),
      head.others recipient resource fun early => unwanted (Or.inl early)]

theorem Notified.congr {first second : String → String → Prop} {inbox next : Inbox}
    (notified : Notified event first inbox next)
    (same : ∀ recipient resource, first recipient resource ↔ second recipient resource) :
    Notified event second inbox next where
  once recipient resource wanted := notified.once _ _ ((same recipient resource).mpr wanted)
  others recipient resource unwanted :=
    notified.others _ _ fun wanted => unwanted ((same recipient resource).mp wanted)

/-! One message. -/

theorem addressed_message (recipient resource id : String) :
    addressed event.id recipient resource (message event watch id) = true ↔
      recipient = watch.subject ∧ resource = id := by
  simp only [addressed, message, Bool.and_eq_true, beq_iff_eq, true_and]
  exact and_congr eq_comm eq_comm

theorem deliver_notified (id : String) (inbox : Inbox) :
    Notified event (fun recipient resource => recipient = watch.subject ∧ resource = id) inbox
      (deliver event watch id inbox) := by
  unfold deliver
  by_cases there : inbox.any (addressed event.id watch.subject id) = true
  · rw [if_pos there]
    constructor
    · rintro _ resource ⟨rfl, rfl⟩
      have positive : 0 < copies event inbox watch.subject resource :=
        List.countP_pos_iff.mpr (List.any_eq_true.mp there)
      omega
    · intro _ _ _
      rfl
  · rw [if_neg there]
    constructor
    · rintro _ resource ⟨rfl, rfl⟩
      have none : copies event inbox watch.subject resource = 0 := by
        rw [copies, List.countP_eq_zero]
        intro stored inside hit
        exact there (List.any_eq_true.mpr ⟨stored, inside, hit⟩)
      have mine : addressed event.id watch.subject resource (message event watch resource) = true :=
        (addressed_message watch.subject resource resource).mpr ⟨rfl, rfl⟩
      rw [none, copies, List.countP_append, ← copies, none]
      simp [mine]
    · intro recipient resource other
      have foreign : addressed event.id recipient resource (message event watch id) = false := by
        rw [Bool.eq_false_iff]
        exact fun mine => other ((addressed_message recipient resource id).mp mine)
      simp [copies, List.countP_append, foreign]

/-! One watch. -/

/-- The references notified before the first that fails. -/
def hits (world : World) (watch : Watch) (admission : Admission) : List ResourceRef → List String
  | [] => []
  | ref :: rest =>
      match handled world watch admission ref with
      | .error _ => []
      | .ok true => ref.id :: hits world watch admission rest
      | .ok false => hits world watch admission rest

/-- What a program leaves behind, whether it ends or fails. -/
def Leaves (body : Tx Unit) (inbox next : Inbox) : Prop :=
  body inbox = .ok () next ∨ ∃ failure, body inbox = .error failure next

theorem notifyAll_leaves (admission : Admission) (refs : List ResourceRef) (inbox : Inbox) :
    ∃ next, Leaves (notifyAll world event watch admission refs) inbox next ∧
      Notified event (fun recipient resource => recipient = watch.subject ∧
        resource ∈ hits world watch admission refs) inbox next := by
  induction refs generalizing inbox with
  | nil =>
      refine ⟨inbox, Or.inl rfl, (Notified.refl inbox).congr ?_⟩
      simp [hits]
  | cons ref rest ih =>
      cases turn : handled world watch admission ref with
      | error failure =>
          refine ⟨inbox, Or.inr ⟨failure, ?_⟩, (Notified.refl inbox).congr ?_⟩
          · simp [notifyAll, turn]
          · simp [hits, turn]
      | ok hit =>
          obtain ⟨next, left, notified⟩ := ih (deliverIf event watch ref hit inbox)
          refine ⟨next, ?_, ?_⟩
          · rcases left with ended | ⟨failure, failed⟩
            · exact Or.inl (by simp [notifyAll, turn, ended])
            · exact Or.inr ⟨failure, by simp [notifyAll, turn, failed]⟩
          · cases hit with
            | false =>
                refine notified.congr ?_
                simp [hits, turn]
            | true =>
                refine ((deliver_notified ref.id inbox).trans notified).congr ?_
                intro recipient resource
                simp only [hits, turn, List.mem_cons]
                tauto

/-- A reference is notified if it matches and none before it fails. -/
def Reached (world : World) (watch : Watch) (admission : Admission) (refs : List ResourceRef)
    (id : String) : Prop :=
  ∃ before ref after, refs = before ++ ref :: after ∧ ref.id = id ∧
    handled world watch admission ref = .ok true ∧
    ∀ earlier ∈ before, ∃ hit, handled world watch admission earlier = .ok hit

theorem mem_hits (admission : Admission) (refs : List ResourceRef) (id : String) :
    id ∈ hits world watch admission refs ↔ Reached world watch admission refs id := by
  induction refs with
  | nil => simp [hits, Reached]
  | cons first rest ih =>
      constructor
      · intro inside
        cases turn : handled world watch admission first with
        | error failure => simp [hits, turn] at inside
        | ok hit =>
            have later : Reached world watch admission rest id →
                Reached world watch admission (first :: rest) id := by
              rintro ⟨before, ref, after, rfl, own, matched, clear⟩
              refine ⟨first :: before, ref, after, rfl, own, matched, ?_⟩
              intro earlier isEarlier
              rcases List.mem_cons.mp isEarlier with rfl | isEarlier
              · exact ⟨hit, turn⟩
              · exact clear earlier isEarlier
            cases hit with
            | false =>
                simp only [hits, turn] at inside
                exact later (ih.mp inside)
            | true =>
                simp only [hits, turn, List.mem_cons] at inside
                rcases inside with rfl | inside
                · exact ⟨[], first, rest, rfl, rfl, turn, by simp⟩
                · exact later (ih.mp inside)
      · rintro ⟨before, ref, after, shape, own, matched, clear⟩
        cases before with
        | nil =>
            cases shape
            simp [hits, matched, own]
        | cons head before =>
            cases shape
            obtain ⟨hit, turn⟩ := clear first List.mem_cons_self
            have inside : id ∈ hits world watch admission (before ++ ref :: after) :=
              ih.mpr ⟨before, ref, after, rfl, own, matched,
                fun earlier isEarlier => clear earlier (List.mem_cons_of_mem _ isEarlier)⟩
            cases hit with
            | false => simpa [hits, turn] using inside
            | true => simp [hits, turn, inside]

/-- The watch may deliver, and its loop comes to the reference. -/
def Reaches (world : World) (event : Event) (watch : Watch) (id : String) : Prop :=
  ∃ admission, admitted world watch = .ok admission ∧
    Reached world watch admission event.resources id

theorem notifyWatch_leaves (inbox : Inbox) :
    ∃ next, Leaves (notifyWatch world event watch) inbox next ∧
      Notified event (fun recipient resource => recipient = watch.subject ∧
        Reaches world event watch resource) inbox next := by
  cases entry : admitted world watch with
  | error failure =>
      refine ⟨inbox, Or.inr ⟨failure, by simp [notifyWatch, entry]⟩,
        (Notified.refl inbox).congr ?_⟩
      simp [Reaches, entry]
  | ok admission =>
      obtain ⟨next, left, notified⟩ :
          ∃ next, Leaves (notifyAll world event watch admission event.resources) inbox next ∧
            Notified event (fun recipient resource => recipient = watch.subject ∧
              resource ∈ hits world watch admission event.resources) inbox next :=
        notifyAll_leaves admission event.resources inbox
      refine ⟨next, ?_, notified.congr ?_⟩
      · rcases left with ended | ⟨failure, failed⟩
        · exact Or.inl (by simp [notifyWatch, entry, ended])
        · exact Or.inr ⟨failure, by simp [notifyWatch, entry, failed]⟩
      · simp [Reaches, entry, mem_hits]

/-! All the watches. -/

/-- The watch is stored under the id, and is active, unexpired and about this kind of event. -/
def Stored (world : World) (event : Event) (id : String) (watch : Watch) : Prop :=
  world.records id = .ok watch ∧ due world event watch = true

/-- What the loops reach. -/
def Sent (world : World) (event : Event) (ids : List String) (recipient resource : String) : Prop :=
  ∃ id ∈ ids, ∃ watch, Stored world event id watch ∧ watch.subject = recipient ∧
    Reaches world event watch resource

theorem recover_leaves {body : Tx Unit} {inbox next middle : Inbox}
    (left : Leaves body inbox middle)
    (done : Program.recover body (fun _ => pure ()) inbox = .ok () next) : next = middle := by
  rcases left with ended | ⟨failure, failed⟩
  · simp only [Program.recover_ok, ended] at done
    rcases done with same | ⟨_, _, impossible, -⟩
    · cases same
      rfl
    · cases impossible
  · simp only [Program.recover_ok, failed] at done
    rcases done with impossible | ⟨_, _, same, ended⟩
    · cases impossible
    · cases same
      cases ended
      rfl

theorem enqueueRecord_notified {id : String} {inbox next : Inbox}
    (done : enqueueRecord world event (world.records id) inbox = .ok () next) :
    Notified event (Sent world event [id]) inbox next := by
  have nothing : (∀ watch, ¬ Stored world event id watch) → next = inbox →
      Notified event (Sent world event [id]) inbox next := by
    rintro absent rfl
    refine (Notified.refl next).congr ?_
    intro recipient resource
    constructor
    · exact False.elim
    · rintro ⟨other, isId, watch, stored, -⟩
      exact absent watch (List.mem_singleton.mp isId ▸ stored)
  cases found : world.records id with
  | error failure =>
      rw [found, enqueueRecord] at done
      refine nothing (by simp [Stored, found]) ?_
      split at done
      · cases done
        rfl
      · cases done
  | ok watch =>
      rw [found, enqueueRecord] at done
      by_cases live : due world event watch = true
      · rw [if_pos live] at done
        obtain ⟨middle, left, notified⟩ :
            ∃ next, Leaves (notifyWatch world event watch) inbox next ∧
              Notified event (fun recipient resource => recipient = watch.subject ∧
                Reaches world event watch resource) inbox next :=
          notifyWatch_leaves inbox
        cases recover_leaves left done
        refine notified.congr ?_
        intro recipient resource
        constructor
        · rintro ⟨rfl, reaches⟩
          exact ⟨id, List.mem_singleton_self id, watch, ⟨found, live⟩, rfl, reaches⟩
        · rintro ⟨other, isId, stored, ⟨same, -⟩, own, reaches⟩
          cases List.mem_singleton.mp isId
          rw [found] at same
          cases same
          exact ⟨own.symm, reaches⟩
      · rw [if_neg live] at done
        refine nothing ?_ ?_
        · rintro other ⟨same, isDue⟩
          rw [found] at same
          cases same
          exact live isDue
        · cases done
          rfl

theorem enqueueAll_notified (ids : List String) {inbox next : Inbox}
    (done : enqueueAll world event ids inbox = .ok () next) :
    Notified event (Sent world event ids) inbox next := by
  induction ids generalizing inbox with
  | nil =>
      cases done
      refine (Notified.refl next).congr ?_
      simp [Sent]
  | cons id rest ih =>
      simp only [enqueueAll, Program.bind_ok] at done
      obtain ⟨_, middle, first, later⟩ := done
      refine ((enqueueRecord_notified first).trans (ih later)).congr ?_
      intro recipient resource
      simp [Sent]

/-! The event. -/

def Watching (world : World) (event : Event) (watch : Watch) : Prop :=
  ∃ id ∈ watchIds world, Stored world event id watch

/-- The watch may deliver, and a reference of the event is in its scope and readable. -/
def Matches (world : World) (event : Event) (watch : Watch) (id : String) : Prop :=
  ∃ admission, admitted world watch = .ok admission ∧
    ∃ ref ∈ event.resources, ref.id = id ∧ handled world watch admission ref = .ok true

def Matching (world : World) (event : Event) (recipient resource : String) : Prop :=
  ∃ watch, Watching world event watch ∧ watch.subject = recipient ∧
    Matches world event watch resource

/-- Some watch of the recipient comes to the reference before one of its references fails. -/
def Reaching (world : World) (event : Event) (recipient resource : String) : Prop :=
  ∃ watch, Watching world event watch ∧ watch.subject = recipient ∧
    Reaches world event watch resource

theorem reaches_matches {id : String} (reaches : Reaches world event watch id) :
    Matches world event watch id := by
  obtain ⟨admission, entry, before, ref, after, shape, own, matched, -⟩ := reaches
  exact ⟨admission, entry, ref, by simp [shape], own, matched⟩

theorem checkRead_live {principal : Principal} {operation id : String}
    (passed : checkRead world principal operation id = .ok ()) :
    quarantineActive world.store = false := by
  simp only [checkRead, requireAccess, Program.except_bind_ok] at passed
  obtain ⟨_, ⟨_, -, _, live, -⟩, -⟩ := passed
  exact (require_ok _ _ _).mp live

theorem admitted_live {admission : Admission} (entry : admitted world watch = .ok admission) :
    quarantineActive world.store = false := by
  simp only [admitted, Program.except_bind_ok] at entry
  obtain ⟨_, -, _, -, _, readable, -⟩ := entry
  exact checkRead_live readable

theorem watching_known (watching : Watching world event watch) : event.type ∈ queryEventTypes := by
  obtain ⟨_, -, -, live⟩ := watching
  simp only [due, Bool.and_eq_true, decide_eq_true_eq] at live
  exact watch.known _ live.1.2

theorem enqueue_notified {inbox next : Inbox} (done : enqueue world event inbox = .ok () next) :
    Notified event (Reaching world event) inbox next := by
  unfold enqueue at done
  by_cases quiet : quarantineActive world.store = true ∨ event.type ∉ queryEventTypes
  · rw [if_pos quiet] at done
    cases done
    refine (Notified.refl inbox).congr ?_
    intro recipient resource
    constructor
    · exact False.elim
    · rintro ⟨watch, watching, -, admission, entry, -⟩
      rcases quiet with quarantined | unknown
      · rw [admitted_live entry] at quarantined
        cases quarantined
      · exact unknown (watching_known watching)
  · rw [if_neg quiet] at done
    refine (enqueueAll_notified _ done).congr ?_
    intro recipient resource
    constructor
    · rintro ⟨id, inside, watch, stored, own, reaches⟩
      exact ⟨watch, ⟨id, inside, stored⟩, own, reaches⟩
    · rintro ⟨watch, ⟨id, inside, stored⟩, own, reaches⟩
      exact ⟨id, inside, watch, stored, own, reaches⟩

/-- Every readable match has its one message, and nothing else has, exactly when each match is
there already or comes, for some watch of the same subject, before a reference that fails. -/
theorem watch_delivery {inbox next : Inbox} (done : enqueue world event inbox = .ok () next) :
    Notified event (Matching world event) inbox next ↔
      ∀ watch id, Watching world event watch → Matches world event watch id →
        0 < copies event inbox watch.subject id ∨ Reaching world event watch.subject id := by
  have code := enqueue_notified done
  constructor
  · intro complete watch id watching matched
    by_cases reaching : Reaching world event watch.subject id
    · exact Or.inr reaching
    · left
      have wanted := complete.once watch.subject id ⟨watch, watching, rfl, matched⟩
      rw [code.others watch.subject id reaching] at wanted
      omega
  · intro unhindered
    constructor
    · rintro recipient resource ⟨watch, watching, rfl, matched⟩
      by_cases reaching : Reaching world event watch.subject resource
      · exact code.once _ _ reaching
      · have there := (unhindered watch resource watching matched).resolve_right reaching
        rw [code.others _ _ reaching]
        omega
    · intro recipient resource unmatched
      apply code.others
      rintro ⟨watch, watching, own, reaches⟩
      exact unmatched ⟨watch, watching, own, reaches_matches reaches⟩

/-! Ann watches a topic in which the first of two references is a draft of bob. -/

def sampleNode (id type : String) (parent : Option String) (owner : String) (mode : Nat) :
    Resource :=
  ⟨id, type, 1, id, parent, owner, "g_public", mode, 0, none, .active⟩

def sampleOperation : String := "communication.watch_create@1"

def samplePrincipal : Principal :=
  ⟨some "u_ann", some "u_ann", some "k_ann", .signature, [],
    [⟨"communication.basic", 1, ⟨"r_root", true⟩, [sampleOperation], []⟩]⟩

def sampleStore : Store :=
  { Store.empty with
    resources :=
      ⟨[sampleNode "r_root" "root" none "u_root" 0o755,
        sampleNode "u_ann" "user" (some "r_root") "u_ann" 0o755,
        sampleNode "t_news" "topic" (some "r_root") "u_bob" 0o755,
        sampleNode "p_draft" "post" (some "t_news") "u_bob" 0o700,
        sampleNode "p_hello" "post" (some "t_news") "u_bob" 0o755,
        sampleNode "w_news" "watch" (some "u_ann") "u_ann" 0o600], by decide⟩
    subjects := ⟨[⟨"u_ann", .registered, 0, false⟩], List.nodup_singleton "u_ann"⟩
    credentials :=
      ⟨[⟨"k_ann", "u_ann", .signingKey, "ann", samplePrincipal.ceiling, 0, none, none⟩],
        by decide⟩ }

def sampleWatch : Watch where
  subject := "u_ann"
  target := "t_news"
  queryRef := none
  queryBinding := none
  eventTypes := ["content.archive"]
  known := by decide
  expiresAt := none
  active := true
  legacy := false
  principal := samplePrincipal
  operation := sampleOperation

def sampleWorld : World where
  app := sampleApp
  store := sampleStore
  clock := 10
  records := fun _ => .ok sampleWatch
  registered := fun _ => true
  contract := fun _ _ => .error { code := "not_found" }
  predicates := fun _ => .error { code := "not_found" }

def sampleEvent : Event where
  id := "e_1"
  type := "content.archive"
  subject := some "u_bob"
  time := 10
  resources := [⟨"p_draft", none⟩, ⟨"p_hello", none⟩]

theorem sample_enqueued : enqueue sampleWorld sampleEvent [] = .ok () [] := by
  rfl

theorem watch_delivery_sample :
    Notified sampleEvent (Matching sampleWorld sampleEvent) [] [] ↔
      ∀ watch id, Watching sampleWorld sampleEvent watch → Matches sampleWorld sampleEvent watch id →
        0 < copies sampleEvent [] watch.subject id ∨
          Reaching sampleWorld sampleEvent watch.subject id :=
  watch_delivery sample_enqueued

/-- The draft cannot be read, and so the post after it, which can, is not notified. -/
theorem draft_hides_post :
    enqueue sampleWorld sampleEvent [] = .ok () [] ∧
      Matching sampleWorld sampleEvent "u_ann" "p_hello" ∧
      ¬ Notified sampleEvent (Matching sampleWorld sampleEvent) [] [] := by
  have readable : (admitted sampleWorld sampleWatch >>= fun admission =>
      handled sampleWorld sampleWatch admission ⟨"p_hello", none⟩) = .ok true := by
    decide +kernel
  obtain ⟨admission, entry, matched⟩ := (Program.except_bind_ok _ _ _).mp readable
  have matching : Matching sampleWorld sampleEvent "u_ann" "p_hello" :=
    ⟨sampleWatch, ⟨"w_news", by decide +kernel, rfl, by decide +kernel⟩, rfl, admission, entry,
      ⟨"p_hello", none⟩, by simp [sampleEvent], rfl, matched⟩
  refine ⟨sample_enqueued, matching, ?_⟩
  intro notified
  have one := notified.once "u_ann" "p_hello" matching
  simp [copies] at one

end MsgServer.Watches
