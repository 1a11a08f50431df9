import Mathlib.Data.List.Basic
import Mathlib.Data.List.Infix

/-!
Reading a growing log page by page. Entries carry strictly increasing sequence numbers; a
page examines the entries above its start in order, until its loop stops, and ends at the
last one examined. Pages that follow each other tile the log, whatever was appended between
them.
-/

namespace Library.Feed

variable {ε σ α β δ : Type}

abbrev Log (α : Type) := List (Nat × α)

def Increasing (log : Log α) : Prop := log.Pairwise fun first later => first.1 < later.1

def after (position : Nat) (log : Log α) : Log α :=
  log.filter fun entry => position < entry.1

def between (low high : Nat) (log : Log α) : Log α :=
  log.filter fun entry => low < entry.1 ∧ entry.1 ≤ high

theorem mem_between {low high : Nat} {log : Log α} {entry : Nat × α} :
    entry ∈ between low high log ↔ entry ∈ log ∧ low < entry.1 ∧ entry.1 ≤ high := by
  simp [between]

theorem between_increasing {low high : Nat} {log : Log α} (increasing : Increasing log) :
    Increasing (between low high log) :=
  increasing.filter _

theorem between_split {low mid high : Nat} {log : Log α} (increasing : Increasing log)
    (first : low ≤ mid) (second : mid ≤ high) :
    between low high log = between low mid log ++ between mid high log := by
  induction log with
  | nil => rfl
  | cons entry rest ih =>
      obtain ⟨before, later⟩ := List.pairwise_cons.mp increasing
      have rests := ih later
      by_cases early : entry.1 ≤ mid
      · have skipped : between mid high (entry :: rest) = between mid high rest := by
          rw [between, List.filter_cons_of_neg (by simp; omega)]
          rfl
        by_cases above : low < entry.1
        · have kept : between low high (entry :: rest) = entry :: between low high rest := by
            rw [between, List.filter_cons_of_pos (by simp; omega)]
            rfl
          have taken : between low mid (entry :: rest) = entry :: between low mid rest := by
            rw [between, List.filter_cons_of_pos (by simp; omega)]
            rfl
          rw [skipped, kept, taken, rests]
          rfl
        · have kept : between low high (entry :: rest) = between low high rest := by
            rw [between, List.filter_cons_of_neg (by simp; omega)]
            rfl
          have taken : between low mid (entry :: rest) = between low mid rest := by
            rw [between, List.filter_cons_of_neg (by simp; omega)]
            rfl
          rw [skipped, kept, taken, rests]
      · -- Everything from here on is above the middle.
        have none : between low mid (entry :: rest) = [] := by
          apply List.filter_eq_nil_iff.mpr
          intro other inside
          rcases List.mem_cons.mp inside with rfl | further
          · simp
            omega
          · have := before other further
            simp
            omega
        have same : between low high (entry :: rest) = between mid high (entry :: rest) := by
          apply List.filter_congr
          intro other inside
          have above : mid < other.1 := by
            rcases List.mem_cons.mp inside with rfl | further
            · omega
            · have := before other further
              omega
          have below : low < other.1 := by omega
          simp [above, below]
        rw [none, same, List.nil_append]

theorem between_same (position : Nat) (log : Log α) : between position position log = [] := by
  apply List.filter_eq_nil_iff.mpr
  intro entry _
  simp

/-- What is appended is above everything a page has reached. -/
theorem between_grow {low high : Nat} {log more : Log α} (increasing : Increasing (log ++ more))
    (reached : high = low ∨ ∃ entry ∈ log, entry.1 = high) :
    between low high (log ++ more) = between low high log := by
  rcases reached with rfl | ⟨entry, inside, rfl⟩
  · rw [between_same, between_same]
  · rw [between, List.filter_append]
    have none : more.filter (fun other => decide (low < other.1 ∧ other.1 ≤ entry.1)) = [] := by
      apply List.filter_eq_nil_iff.mpr
      intro other further
      have := (List.pairwise_append.mp increasing).2.2 entry inside other further
      simp
      omega
    rw [none, List.append_nil]
    rfl

section Scan

/-- What a loop makes of one entry: it leaves the entry for a later page, or it takes it and
stops or goes on. -/
inductive Turn (σ : Type) where
  | defer
  | last (state : σ)
  | more (state : σ)

def scan (turn : Nat × α → σ → Except ε (Turn σ)) : Log α → Nat → σ → Except ε (Nat × σ)
  | [], position, state => .ok (position, state)
  | entry :: rest, position, state =>
      match turn entry state with
      | .error failure => .error failure
      | .ok .defer => .ok (position, state)
      | .ok (.last next) => .ok (entry.1, next)
      | .ok (.more next) => scan turn rest entry.1 next

variable {turn : Nat × α → σ → Except ε (Turn σ)}

/-- The entries that a loop took, in order. -/
inductive Examined (turn : Nat × α → σ → Except ε (Turn σ)) : σ → Log α → σ → Prop where
  | none (state : σ) : Examined turn state [] state
  | entry {state next final : σ} {item : Nat × α} {rest : Log α}
      (taken : turn item state = .ok (.last next) ∨ turn item state = .ok (.more next))
      (later : Examined turn next rest final) : Examined turn state (item :: rest) final

/-- What every taken entry keeps, the whole loop keeps. -/
theorem Examined.keeps {Inv : σ → Prop} {state final : σ} {examined : Log α}
    (turns : Examined turn state examined final)
    (kept : ∀ entry state next, Inv state →
      (turn entry state = .ok (.last next) ∨ turn entry state = .ok (.more next)) → Inv next)
    (holds : Inv state) : Inv final := by
  induction turns with
  | none state => exact holds
  | entry taken later ih => exact ih (kept _ _ _ holds taken)

/-- Where a page ends that examined these entries. -/
def reach (position : Nat) : Log α → Nat
  | [] => position
  | entry :: rest => reach entry.1 rest

theorem scan_examined {rows : Log α} {position stop : Nat} {state final : σ}
    (done : scan turn rows position state = .ok (stop, final)) :
    ∃ examined, examined <+: rows ∧ Examined turn state examined final ∧
      stop = reach position examined := by
  induction rows generalizing position state with
  | nil =>
      cases done
      exact ⟨[], List.nil_prefix, .none _, rfl⟩
  | cons entry rest ih =>
      rw [scan] at done
      split at done
      · cases done
      · cases done
        exact ⟨[], List.nil_prefix, .none _, rfl⟩
      · next next taken =>
          cases done
          exact ⟨[entry], ⟨rest, rfl⟩, .entry (Or.inl taken) (.none _), rfl⟩
      · next next taken =>
          obtain ⟨examined, inside, turns, ends⟩ := ih done
          exact ⟨entry :: examined, List.cons_prefix_cons.mpr ⟨rfl, inside⟩,
            .entry (Or.inr taken) turns, ends⟩

theorem reach_cases (position : Nat) (examined : Log α) :
    reach position examined = position ∨ ∃ entry ∈ examined, entry.1 = reach position examined := by
  induction examined generalizing position with
  | nil => exact Or.inl rfl
  | cons entry rest ih =>
      refine Or.inr ?_
      rcases ih entry.1 with same | ⟨last, inside, ends⟩
      · exact ⟨entry, List.mem_cons_self, same.symm⟩
      · exact ⟨last, List.mem_cons_of_mem _ inside, ends⟩

theorem reach_above {position : Nat} {examined : Log α} (increasing : Increasing examined)
    (above : ∀ entry ∈ examined, position < entry.1) :
    position ≤ reach position examined ∧
      ∀ entry ∈ examined, entry.1 ≤ reach position examined := by
  induction examined generalizing position with
  | nil => exact ⟨Nat.le_refl _, fun _ inside => by cases inside⟩
  | cons entry rest ih =>
      obtain ⟨before, later⟩ := List.pairwise_cons.mp increasing
      have start := above entry List.mem_cons_self
      have tail := ih later before
      refine ⟨?_, ?_⟩
      · have := tail.1
        show position ≤ reach entry.1 rest
        omega
      · intro other inside
        rcases List.mem_cons.mp inside with rfl | further
        · exact tail.1
        · exact tail.2 other further

/-- The first entries above a position are those up to where they reach. -/
theorem examined_between {position : Nat} {log examined : Log α} (increasing : Increasing log)
    (first : examined <+: after position log) :
    examined = between position (reach position examined) log := by
  obtain ⟨rest, whole⟩ := first
  have ordered : Increasing (examined ++ rest) := whole ▸ increasing.filter _
  obtain ⟨early, _, apart⟩ := List.pairwise_append.mp ordered
  have above : ∀ entry ∈ examined ++ rest, position < entry.1 := by
    intro entry inside
    rw [whole] at inside
    simpa using (List.mem_filter.mp inside).2
  have within := reach_above early fun entry inside =>
    above entry (List.mem_append_left _ inside)
  have split : between position (reach position examined) log =
      (after position log).filter fun entry => decide (entry.1 ≤ reach position examined) := by
    rw [after, List.filter_filter, between]
    apply List.filter_congr
    intro entry _
    rw [Bool.decide_and, Bool.and_comm]
  rw [split, ← whole, List.filter_append, List.filter_eq_self.mpr, List.filter_eq_nil_iff.mpr,
    List.append_nil]
  · intro entry further
    rcases reach_cases position examined with same | ⟨last, inside, ends⟩
    · have := above entry (List.mem_append_right _ further)
      simp
      omega
    · have := apart last inside entry further
      simp
      omega
  · intro entry inside
    simpa using within.2 entry inside

end Scan

section Pages

/-- One page: what it was read from, the positions it goes from and to, and its items. -/
structure Page (δ β : Type) where
  source : δ
  start : Nat
  stop : Nat
  items : List β

/-- The pages follow each other from one position to another. -/
def Chained : Nat → List (Page δ β) → Nat → Prop
  | start, [], stop => stop = start
  | start, page :: rest, stop => page.start = start ∧ Chained page.stop rest stop

theorem chained_concat {start mid : Nat} {pages : List (Page δ β)} {page : Page δ β}
    (chained : Chained start pages mid) (next : page.start = mid) :
    Chained start (pages ++ [page]) page.stop := by
  induction pages generalizing start with
  | nil =>
      cases chained
      exact ⟨next, rfl⟩
  | cons first rest ih => exact ⟨chained.1, ih chained.2⟩

/-- What is shown of an entry that was examined. -/
def shown (verdict : Except ε (List β)) : List β :=
  match verdict with
  | .ok found => found
  | .error _ => []

/-- A page examined everything between its ends, and shows what it found, in order. -/
structure Faithful (verdict : δ → Nat × α → Except ε (List β)) (log : Log α)
    (page : Page δ β) : Prop where
  ordered : page.start ≤ page.stop
  reached : page.stop = page.start ∨ ∃ entry ∈ log, entry.1 = page.stop
  examined : ∀ entry ∈ between page.start page.stop log,
    ∃ found, verdict page.source entry = .ok found
  items : page.items =
    (between page.start page.stop log).flatMap fun entry => shown (verdict page.source entry)

variable {verdict : δ → Nat × α → Except ε (List β)} {log : Log α}

theorem Faithful.grow {page : Page δ β} {more : Log α} (faithful : Faithful verdict log page)
    (increasing : Increasing (log ++ more)) : Faithful verdict (log ++ more) page := by
  have same := between_grow increasing faithful.reached
  refine ⟨faithful.ordered, ?_, ?_, ?_⟩
  · rcases faithful.reached with still | ⟨entry, inside, ends⟩
    · exact Or.inl still
    · exact Or.inr ⟨entry, List.mem_append_left _ inside, ends⟩
  · rw [same]
    exact faithful.examined
  · rw [same]
    exact faithful.items

theorem chained_ordered {start stop : Nat} {pages : List (Page δ β)}
    (chained : Chained start pages stop) (ordered : ∀ page ∈ pages, page.start ≤ page.stop) :
    start ≤ stop := by
  induction pages generalizing start with
  | nil =>
      cases chained
      exact Nat.le_refl _
  | cons first rest ih =>
      have here := ordered first List.mem_cons_self
      have later := ih chained.2 fun page inside => ordered page (List.mem_cons_of_mem _ inside)
      rw [chained.1] at here
      omega

/-- Pages that follow each other show what there is between their ends, once and in order,
as long as the verdict on an entry does not depend on the page. -/
theorem chained_items {start stop : Nat} {pages : List (Page δ β)}
    (increasing : Increasing log) (chained : Chained start pages stop)
    (faithful : ∀ page ∈ pages, Faithful verdict log page) (wanted : Nat × α → List β)
    (steady : ∀ page ∈ pages, ∀ entry ∈ between page.start page.stop log,
      shown (verdict page.source entry) = wanted entry) :
    pages.flatMap Page.items = (between start stop log).flatMap wanted := by
  induction pages generalizing start with
  | nil =>
      cases chained
      rw [between_same]
      rfl
  | cons page rest ih =>
      obtain ⟨rfl, follows⟩ := chained
      have here := faithful page List.mem_cons_self
      have later : ∀ other ∈ rest, Faithful verdict log other :=
        fun other inside => faithful other (List.mem_cons_of_mem _ inside)
      have ordered := chained_ordered follows fun other inside => (later other inside).ordered
      have tail := ih follows later
        fun other inside => steady other (List.mem_cons_of_mem _ inside)
      have mine : page.items = (between page.start page.stop log).flatMap wanted := by
        rw [here.items]
        exact List.flatMap_congr (steady page List.mem_cons_self)
      rw [List.flatMap_cons, tail, mine, between_split increasing here.ordered ordered,
        List.flatMap_append]

/-- Where an entry shows at most one item under its own number, so do the pages. -/
theorem Faithful.keys {key : β → Nat} {page : Page δ β} (faithful : Faithful verdict log page)
    (single : ∀ source entry found, verdict source entry = .ok found →
      (found.map key).Sublist [entry.1]) :
    (page.items.map key).Sublist ((between page.start page.stop log).map Prod.fst) := by
  have each : ∀ entries : Log α,
      (∀ entry ∈ entries, ∃ found, verdict page.source entry = .ok found) →
        ((entries.flatMap fun entry => shown (verdict page.source entry)).map key).Sublist
          (entries.map Prod.fst) := by
    intro entries
    induction entries with
    | nil =>
        intro _
        exact List.Sublist.refl _
    | cons entry rest ih =>
        intro examined
        obtain ⟨found, asked⟩ := examined entry List.mem_cons_self
        have tail := ih fun other inside => examined other (List.mem_cons_of_mem _ inside)
        rw [List.flatMap_cons, List.map_append, asked]
        exact (single page.source entry found asked).append tail
  rw [faithful.items]
  exact each _ faithful.examined

theorem chained_keys {key : β → Nat} {start stop : Nat} {pages : List (Page δ β)}
    (increasing : Increasing log) (chained : Chained start pages stop)
    (faithful : ∀ page ∈ pages, Faithful verdict log page)
    (single : ∀ source entry found, verdict source entry = .ok found →
      (found.map key).Sublist [entry.1]) :
    ((pages.flatMap Page.items).map key).Sublist ((between start stop log).map Prod.fst) := by
  induction pages generalizing start with
  | nil => exact List.nil_sublist _
  | cons page rest ih =>
      obtain ⟨rfl, follows⟩ := chained
      have here := faithful page List.mem_cons_self
      have later : ∀ other ∈ rest, Faithful verdict log other :=
        fun other inside => faithful other (List.mem_cons_of_mem _ inside)
      have ordered := chained_ordered follows fun other inside => (later other inside).ordered
      rw [List.flatMap_cons, List.map_append, between_split increasing here.ordered ordered,
        List.map_append]
      exact (here.keys single).append (ih follows later)

theorem increasing_keys (increasing : Increasing log) : (log.map Prod.fst).Pairwise (· < ·) :=
  List.pairwise_map.mpr increasing

section Mapped

variable {γ : Type} {label : β → γ}

/-- A page of which each item is shown by its label. -/
def Page.map (label : β → γ) (page : Page δ β) : Page δ γ :=
  ⟨page.source, page.start, page.stop, page.items.map label⟩

theorem chained_map {start stop : Nat} {pages : List (Page δ β)}
    (chained : Chained start pages stop) : Chained start (pages.map (Page.map label)) stop := by
  induction pages generalizing start with
  | nil => exact chained
  | cons page rest ih => exact ⟨chained.1, ih chained.2⟩

theorem Faithful.map {page : Page δ β} (faithful : Faithful verdict log page) :
    Faithful (fun source entry => (verdict source entry).map (List.map label)) log
      (page.map label) := by
  refine ⟨faithful.ordered, faithful.reached, ?_, ?_⟩
  · intro entry within
    obtain ⟨found, asked⟩ := faithful.examined entry within
    exact ⟨found.map label, congrArg (Except.map (List.map label)) asked⟩
  · show page.items.map label = _
    rw [faithful.items, List.map_flatMap]
    apply List.flatMap_congr
    intro entry within
    obtain ⟨found, asked⟩ := faithful.examined entry within
    show (shown (verdict page.source entry)).map label =
      shown ((verdict page.source entry).map (List.map label))
    rw [asked]
    rfl

theorem flatMap_chosen (wants : α → Bool) (entries : Log α) :
    (entries.flatMap fun entry => if wants entry.2 then [entry.1] else []) =
      (entries.filter fun entry => wants entry.2).map Prod.fst := by
  induction entries with
  | nil => rfl
  | cons entry rest ih =>
      rw [List.flatMap_cons, ih, List.filter_cons]
      by_cases wanted : wants entry.2 = true
      · rw [if_pos wanted, if_pos wanted]
        rfl
      · rw [if_neg wanted, if_neg wanted]
        rfl

/-- Where every page wants the same entries, the pages show exactly those, once and in order. -/
theorem chained_wanted {key : β → Nat} {start stop : Nat} {pages : List (Page δ β)}
    (increasing : Increasing log) (chained : Chained start pages stop)
    (faithful : ∀ page ∈ pages, Faithful verdict log page) (wants : α → Bool)
    (steady : ∀ page ∈ pages, ∀ entry found, verdict page.source entry = .ok found →
      found.map key = if wants entry.2 then [entry.1] else []) :
    (pages.flatMap Page.items).map key =
      ((between start stop log).filter fun entry => wants entry.2).map Prod.fst := by
  have mapped : Chained start (pages.map (Page.map key)) stop := chained_map chained
  have labelled : ∀ page ∈ pages.map (Page.map key), Faithful
      (fun source entry => (verdict source entry).map (List.map key)) log page := by
    intro page inside
    obtain ⟨first, listed, rfl⟩ := List.mem_map.mp inside
    exact (faithful first listed).map
  have all := chained_items increasing mapped labelled
    (fun entry => if wants entry.2 then [entry.1] else []) fun page inside entry within => by
      obtain ⟨first, listed, rfl⟩ := List.mem_map.mp inside
      obtain ⟨found, asked⟩ := (faithful first listed).examined entry within
      show shown ((verdict first.source entry).map (List.map key)) = _
      rw [asked]
      exact steady first listed entry found asked
  rw [← flatMap_chosen, ← all, List.flatMap_map, List.map_flatMap]
  rfl

end Mapped

section Collecting

variable {turn : Nat × α → σ → Except ε (Turn σ)} {out : σ → List β} {source : δ}

/-- A loop that adds to its output what the verdict finds in each entry it takes. -/
def Collects (turn : Nat × α → σ → Except ε (Turn σ)) (out : σ → List β)
    (verdict : Nat × α → Except ε (List β)) : Prop :=
  ∀ entry state next, (turn entry state = .ok (.last next) ∨ turn entry state = .ok (.more next)) →
    ∃ found, verdict entry = .ok found ∧ out next = out state ++ found

theorem Examined.collects (collecting : Collects turn out (verdict source)) {state final : σ}
    {examined : Log α} (turns : Examined turn state examined final) :
    (∀ entry ∈ examined, ∃ found, verdict source entry = .ok found) ∧
      out final = out state ++ examined.flatMap fun entry => shown (verdict source entry) := by
  induction turns with
  | none state =>
      refine ⟨?_, ?_⟩
      · intro entry inside
        cases inside
      · rw [List.flatMap_nil, List.append_nil]
  | @entry state next final item rest taken later ih =>
      obtain ⟨found, asked, grown⟩ := collecting item state next taken
      refine ⟨?_, ?_⟩
      · intro other inside
        rcases List.mem_cons.mp inside with rfl | further
        · exact ⟨found, asked⟩
        · exact ih.1 other further
      · rw [ih.2, grown, List.flatMap_cons, asked, List.append_assoc]
        rfl

/-- A collecting loop over the first rows above a position adds a faithful page to its output. -/
theorem scan_shows (out : σ → List β) (collecting : Collects turn out (verdict source)) {rows : Log α}
    {position stop : Nat} {state final : σ} (increasing : Increasing log)
    (first : rows <+: after position log)
    (done : scan turn rows position state = .ok (stop, final)) :
    ∃ items, out final = out state ++ items ∧
      Faithful verdict log ⟨source, position, stop, items⟩ := by
  obtain ⟨examined, inside, turns, rfl⟩ := scan_examined done
  have found := turns.collects collecting
  have above := inside.trans first
  have exactly := examined_between increasing above
  have members : ∀ entry ∈ examined, entry ∈ log ∧ position < entry.1 := by
    intro entry listed
    have kept := List.mem_filter.mp (above.subset listed)
    exact ⟨kept.1, by simpa using kept.2⟩
  refine ⟨_, found.2, ?_, ?_, ?_, ?_⟩
  · show position ≤ reach position examined
    rcases reach_cases position examined with same | ⟨entry, listed, ends⟩
    · omega
    · have := (members entry listed).2
      omega
  · rcases reach_cases position examined with same | ⟨entry, listed, ends⟩
    · exact Or.inl same
    · exact Or.inr ⟨entry, (members entry listed).1, ends⟩
  · rw [← exactly]
    exact found.1
  · rw [← exactly]

theorem scan_faithful (out : σ → List β) (collecting : Collects turn out (verdict source)) {rows : Log α}
    {position stop : Nat} {state final : σ} (increasing : Increasing log)
    (first : rows <+: after position log) (empty : out state = [])
    (done : scan turn rows position state = .ok (stop, final)) :
    Faithful verdict log ⟨source, position, stop, out final⟩ := by
  obtain ⟨items, grown, faithful⟩ := scan_shows out collecting increasing first done
  rw [grown, empty, List.nil_append]
  exact faithful

/-- A bounded window of the entries above a position begins with the first of them. -/
theorem between_first {position high : Nat} (increasing : Increasing log) :
    between position high log <+: after position log := by
  induction log with
  | nil => exact List.nil_prefix
  | cons entry rest ih =>
      obtain ⟨before, later⟩ := List.pairwise_cons.mp increasing
      by_cases above : position < entry.1
      · rw [after, List.filter_cons_of_pos (by simpa using above)]
        by_cases within : entry.1 ≤ high
        · rw [between, List.filter_cons_of_pos (by simp; omega)]
          exact List.cons_prefix_cons.mpr ⟨rfl, ih later⟩
        · have none : between position high (entry :: rest) = [] := by
            apply List.filter_eq_nil_iff.mpr
            intro other inside
            rcases List.mem_cons.mp inside with rfl | further
            · simp
              omega
            · have := before other further
              simp
              omega
          rw [none]
          exact List.nil_prefix
      · rw [after, List.filter_cons_of_neg (by simpa using above), between,
          List.filter_cons_of_neg (by simp; omega)]
        exact ih later

end Collecting

end Pages

end Library.Feed
