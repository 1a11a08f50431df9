import MsgServer.Plugins.SegmentScanner

/-!
Reading a whole text in segments: nothing is lost, every segment but that of an empty text
holds something, and the replay from the beginning finds the position of every segment
again. What the scanner hands on is right as long as no segment begins inside a fence mark.
-/

namespace MsgServer.Segments

open Library Codec

variable {maxBytes : Nat}

/-! One segment -/

theorem budget_spec (used : Nat) (text : Text) (inside : used ≤ maxBytes) :
    budget maxBytes used text <+: text ∧ used + size (budget maxBytes used text) ≤ maxBytes := by
  induction text generalizing used with
  | nil => exact ⟨List.prefix_rfl, inside⟩
  | cons char rest ih =>
      rw [budget]
      by_cases full : used + char.utf8Size > maxBytes
      · rw [if_pos full]
        exact ⟨List.nil_prefix, inside⟩
      · obtain ⟨begins, small⟩ := ih (used + char.utf8Size) (Nat.le_of_not_lt full)
        rw [if_neg full, size_cons, ← Nat.add_assoc]
        exact ⟨(List.prefix_cons_inj char).mpr begins, small⟩

theorem budget_ne_nil {text : Text} (large : 4 ≤ maxBytes) (filled : text ≠ []) :
    budget maxBytes 0 text ≠ [] := by
  cases text with
  | nil => exact absurd rfl filled
  | cons char rest =>
      have four := char.utf8Size_le_four
      rw [budget, if_neg (by omega)]
      exact List.cons_ne_nil _ _

/-- The window holds the whole rest or more whole characters than a segment takes. -/
theorem window_decodes (rest : Text) (maxBytes : Nat) :
    ∃ front, front <+: rest ∧
      decodeWindow ((utf8 rest).take (maxBytes + 4)) = .ok front ∧
      (rest ≠ [] → front ≠ []) := by
  obtain ⟨front, back, part, rfl, taken, cut⟩ := take_utf8 rest (maxBytes + 4)
  rw [taken]
  refine ⟨front, List.prefix_append _ _, ?_, ?_⟩
  · obtain ⟨rfl, -⟩ | ⟨char, more, -, -, begins, short, -⟩ := cut
    · rw [List.append_nil]
      exact decodeWindow_utf8 front
    · exact decodeWindow_part begins short
  · rintro filled rfl
    rw [size_nil] at cut
    obtain ⟨-, rfl | stop⟩ | ⟨char, more, -, -, -, short, stop⟩ := cut
    · exact filled rfl
    · omega
    · have four := char.utf8Size_le_four
      omega

/-- A segment that is read behind `before`, where `rest` is left. -/
structure Follows (before rest : Text) (maxBytes : Nat) (state : Bool × Bool)
    (segment : Segment) : Prop where
  begins : segment.text <+: rest
  byteEnd : segment.byteEnd = size before + size segment.text
  small : size segment.text ≤ maxBytes
  filled : rest ≠ [] → segment.text ≠ []
  state : (segment.fence, segment.lineStart) = scanText state segment.text

theorem cut_spec {contentSize offset : Nat} {text : Text} (state : Bool × Bool)
    {charEnd : Nat} {fence lineStart continued : Bool}
    (done : cut contentSize offset text
      ((splitlines text).foldl Scan.line (Scan.first state.1 state.2)) =
        (charEnd, fence, lineStart, continued)) :
    (text ≠ [] → text.take charEnd ≠ []) ∧
      (fence, lineStart) = scanText state (text.take charEnd) := by
  have behind := behind_lines state (splitlines text)
  generalize (splitlines text).foldl Scan.line (Scan.first state.1 state.2) = scan at done behind
  have forced : (text ≠ [] → text.take text.length ≠ []) ∧
      scan.state = scanText state (text.take text.length) := by
    rw [List.take_length]
    exact ⟨id, by rw [behind.known, scanText_lines]⟩
  rw [cut] at done
  cases chosen : scan.candidate with
  | none =>
      rw [chosen] at done
      obtain ⟨rfl, rfl, rfl, rfl⟩ := done
      exact forced
  | some candidate =>
      obtain ⟨place, open', start⟩ := candidate
      rw [chosen] at done
      by_cases positive : place > 0
      · simp only [if_pos positive, Prod.mk.injEq] at done
        obtain ⟨rfl, rfl, rfl, rfl⟩ := done
        obtain ⟨front, back, lines, same⟩ := behind.candidate _ chosen
        obtain ⟨rfl, known⟩ := Prod.mk.inj same
        -- the candidate stands behind whole lines
        have taken : text.take front.flatten.length = front.flatten := by
          rw [← flatten_splitlines text, lines, List.flatten_append, List.take_left]
        rw [taken]
        refine ⟨fun _ => List.ne_nil_of_length_pos positive, ?_⟩
        rw [known, scanText_lines, splitlines_front lines]
      · simp only [if_neg positive, Prod.mk.injEq] at done
        obtain ⟨rfl, rfl, rfl, rfl⟩ := done
        exact forced

theorem markdownSegment_spec (before rest : Text) (large : 4 ≤ maxBytes) (fence lineStart : Bool) :
    ∃ segment,
      markdownSegment (utf8 (before ++ rest)) (size before) maxBytes fence lineStart = .ok segment ∧
      Follows before rest maxBytes (fence, lineStart) segment := by
  have length : (utf8 (before ++ rest)).length = size before + size rest := by
    rw [utf8_append, List.length_append]
    rfl
  have window : ((utf8 (before ++ rest)).drop (size before)).take
      (min (utf8 (before ++ rest)).length (size before + maxBytes + 4) - size before) =
        (utf8 rest).take (maxBytes + 4) := by
    have behind : (utf8 (before ++ rest)).drop (size before) = utf8 rest := by
      rw [utf8_append, size, List.drop_left]
    have stop : min (utf8 (before ++ rest)).length (size before + maxBytes + 4) - size before =
        min (maxBytes + 4) (utf8 rest).length := by
      rw [length, size, size]
      omega
    rw [behind, stop, ← List.take_eq_take_min]
  have inside : size before ≤ (utf8 (before ++ rest)).length := by
    rw [length]
    exact Nat.le_add_right _ _
  obtain ⟨front, begins, decoded, some⟩ := window_decodes rest maxBytes
  obtain ⟨shorter, small⟩ := budget_spec 0 front (Nat.zero_le maxBytes)
  have taken : rest ≠ [] → budget maxBytes 0 front ≠ [] :=
    fun filled => budget_ne_nil large (some filled)
  generalize shape : budget maxBytes 0 front = text at shorter small taken
  have left : text ≠ [] ∨ size before = (utf8 (before ++ rest)).length := by
    by_cases filled : rest = []
    · right
      rw [length, filled, size_nil, Nat.add_zero]
    · exact .inl (taken filled)
  cases done : cut (utf8 (before ++ rest)).length (size before) text
      ((splitlines text).foldl Scan.line (Scan.first fence lineStart)) with
  | mk charEnd others =>
      obtain ⟨fence', lineStart', continued⟩ := others
      obtain ⟨filled, known⟩ := cut_spec (fence, lineStart) done
      have progress : size before + size (text.take charEnd) > size before ∨
          size before = (utf8 (before ++ rest)).length := by
        apply left.imp_left
        intro some
        have more := length_le_size (text.take charEnd)
        have positive := List.length_pos_iff.mpr (filled some)
        omega
      refine ⟨⟨size before + size (text.take charEnd), text.take charEnd, fence', lineStart',
        continued⟩, ?_, ?_⟩
      · simp only [markdownSegment, require_true _ inside, Program.except_ok_bind, window, decoded,
          shape, require_true _ left, done, require_true _ progress]
        rfl
      · constructor
        · exact (List.take_prefix _ _).trans (shorter.trans begins)
        · rfl
        · have whole := size_append (text.take charEnd) (text.drop charEnd)
          rw [List.take_append_drop] at whole
          show size (text.take charEnd) ≤ maxBytes
          omega
        · exact fun more => filled (taken more)
        · exact known

/-! All segments -/

abbrev Step := Position × Segment

def texts (steps : List Step) : Text := (steps.map fun step => step.2.text).flatten

/-- A reading of a text from behind `before` to the end. -/
inductive Run (text : Text) (maxBytes : Nat) : Text → Position → List Step → Prop
  | last {before : Text} {position : Position} {segment : Segment}
      (whole : text = before ++ segment.text) (offset : position.offset = size before)
      (filled : text ≠ [] → segment.text ≠ [])
      (read : readAt (utf8 text) maxBytes position = .ok segment)
      (follows : Follows before segment.text maxBytes (position.fence, position.lineStart) segment) :
      Run text maxBytes before position [(position, segment)]
  | next {before rest : Text} {position : Position} {segment : Segment} {steps : List Step}
      (whole : text = before ++ rest) (offset : position.offset = size before)
      (filled : text ≠ [] → rest ≠ [])
      (read : readAt (utf8 text) maxBytes position = .ok segment)
      (follows : Follows before rest maxBytes (position.fence, position.lineStart) segment)
      (tail : Run text maxBytes (before ++ segment.text) segment.position steps) :
      Run text maxBytes before position ((position, segment) :: steps)

/-- Every reading ends at the end of the content, after a turn for each character at most. -/
theorem readOn_run (text before rest : Text) (whole : text = before ++ rest)
    (filled : text ≠ [] → rest ≠ []) (large : 4 ≤ maxBytes) (position : Position)
    (offset : position.offset = size before) :
    ∃ steps, Run text maxBytes before position steps ∧
      ∀ turns, rest.length < turns → readOn (utf8 text) maxBytes turns position = .ok steps := by
  induction count : rest.length using Nat.strong_induction_on
    generalizing before rest position with
  | _ count ih =>
      subst count
      obtain ⟨segment, done, follows⟩ := markdownSegment_spec before rest large
        position.fence position.lineStart
      have read : readAt (utf8 text) maxBytes position = .ok segment := by
        rw [readAt, offset, whole, done]
      obtain ⟨back, taken⟩ := follows.begins
      have length : (utf8 text).length = size before + size rest := by
        rw [whole, ← size, size_append]
      have parts : size rest = size segment.text + size back := by
        rw [← taken, size_append]
      have stop := follows.byteEnd
      by_cases more : back = []
      · subst more
        rw [List.append_nil] at taken
        rw [size_nil] at parts
        refine ⟨[(position, segment)], ?_, ?_⟩
        · exact Run.last (by rw [whole, taken]) offset (by rw [taken]; exact filled) read
            (by rw [taken]; exact follows)
        · intro turns enough
          cases turns with
          | zero => exact absurd enough (Nat.not_lt_zero _)
          | succ turns =>
              have last : ¬ segment.byteEnd < (utf8 text).length := by omega
              rw [readOn, read, Program.except_ok_bind, if_neg last]
              rfl
      · have few := length_le_size back
        have positive := List.length_pos_iff.mpr more
        have left : rest ≠ [] := by
          rw [← taken]
          exact List.append_ne_nil_of_right_ne_nil _ more
        have some := List.length_pos_iff.mpr (follows.filled left)
        have lengths : rest.length = segment.text.length + back.length := by
          rw [← taken, List.length_append]
        obtain ⟨steps, run, reads⟩ := ih back.length (by omega) (before ++ segment.text) back
          (by rw [whole, ← taken, List.append_assoc]) (fun _ => more) segment.position
          (by rw [size_append]; exact stop) rfl
        refine ⟨(position, segment) :: steps, ?_, ?_⟩
        · exact Run.next whole offset filled read follows run
        · intro turns enough
          cases turns with
          | zero => exact absurd enough (Nat.not_lt_zero _)
          | succ turns =>
              have inside : segment.byteEnd < (utf8 text).length := by omega
              rw [readOn, read, Program.except_ok_bind, if_pos inside, reads turns (by omega)]
              rfl

namespace Run

variable {text before : Text} {position : Position} {steps : List Step}

theorem texts_eq (run : Run text maxBytes before position steps) :
    before ++ texts steps = text := by
  induction run with
  | last whole => rw [whole]; simp [texts]
  | next whole offset filled read follows tail ih =>
      rw [← ih]
      simp [texts]

theorem starts (run : Run text maxBytes before position steps) :
    position.offset = size before ∧ ∃ segment rest, steps = (position, segment) :: rest := by
  cases run with
  | last whole offset => exact ⟨offset, _, _, rfl⟩
  | next whole offset => exact ⟨offset, _, _, rfl⟩

/-- The reading from one of its steps on. -/
theorem drop (run : Run text maxBytes before position steps) {front back : List Step}
    {here : Position} {segment : Segment} (shape : steps = front ++ (here, segment) :: back) :
    Run text maxBytes (before ++ texts front) here ((here, segment) :: back) := by
  induction run generalizing front with
  | @last before position only whole offset filled read follows =>
      cases front with
      | nil =>
          obtain ⟨same, rfl⟩ := List.cons.inj shape
          obtain ⟨rfl, rfl⟩ := Prod.mk.inj same
          rw [texts, List.map_nil, List.flatten_nil, List.append_nil]
          exact Run.last whole offset filled read follows
      | cons step front =>
          have tail := (List.cons.inj shape).2
          exact absurd tail.symm (List.append_ne_nil_of_right_ne_nil _ (List.cons_ne_nil _ _))
  | @next before rest position first steps whole offset filled read follows tail ih =>
      cases front with
      | nil =>
          obtain ⟨same, rfl⟩ := List.cons.inj shape
          obtain ⟨rfl, rfl⟩ := Prod.mk.inj same
          rw [texts, List.map_nil, List.flatten_nil, List.append_nil]
          exact Run.next whole offset filled read follows tail
      | cons step front =>
          obtain ⟨rfl, later⟩ := List.cons.inj shape
          have run := ih later
          rw [List.append_assoc] at run
          exact run

/-- What is known of the first segment of a reading. -/
theorem first {segment : Segment} {back : List Step}
    (run : Run text maxBytes before position ((position, segment) :: back)) :
    readAt (utf8 text) maxBytes position = .ok segment ∧
      (text ≠ [] → segment.text ≠ []) ∧ ∃ rest, text = before ++ rest ∧
        Follows before rest maxBytes (position.fence, position.lineStart) segment := by
  cases run with
  | last whole offset filled read follows => exact ⟨read, filled, _, whole, follows⟩
  | next whole offset filled read follows =>
      exact ⟨read, fun some => follows.filled (filled some), _, whole, follows⟩

theorem ends (run : Run text maxBytes before position steps) :
    steps.getLast?.map (fun step => step.2.byteEnd) = some (size text) := by
  induction run with
  | last whole offset filled read follows =>
      rw [List.getLast?_singleton, Option.map_some, follows.byteEnd, whole, size_append]
  | next whole offset filled read follows tail ih =>
      obtain ⟨-, segment, rest, rfl⟩ := tail.starts
      rw [List.getLast?_cons_cons]
      exact ih

/-- Where a segment of the reading ends. -/
theorem byteEnd (run : Run text maxBytes before position steps) {front back : List Step}
    {here : Position} {segment : Segment} (shape : steps = front ++ (here, segment) :: back) :
    segment.byteEnd = size before + size (texts front) + size segment.text := by
  obtain ⟨-, -, rest, -, follows⟩ := (run.drop shape).first
  rw [follows.byteEnd, size_append]

/-- The replay from a position of the reading to the end of one of the later segments. -/
theorem replay (filled : text ≠ []) (run : Run text maxBytes before position steps)
    {front back : List Step} {here : Position} {segment : Segment}
    (shape : steps = front ++ (here, segment) :: back) (previous : Option Position)
    {turns : Nat} (enough : front.length < turns) :
    Segments.replay (utf8 text) maxBytes segment.byteEnd turns position previous =
      .ok (segment.position, some here) := by
  induction front generalizing before position steps previous turns with
  | nil =>
      subst shape
      obtain ⟨offset, first, rest, same⟩ := run.starts
      obtain ⟨rfl, -⟩ := Prod.mk.inj (List.cons.inj same).1
      obtain ⟨read, some, rest, whole, follows⟩ := Run.first run
      have positive := List.length_pos_iff.mpr (some filled)
      have few := length_le_size segment.text
      have stop := follows.byteEnd
      have less : here.offset < segment.byteEnd := by omega
      cases turns with
      | zero => exact absurd enough (Nat.not_lt_zero _)
      | succ turns =>
          rw [Segments.replay, if_pos less, read, Program.except_ok_bind,
            require_true _ (Nat.le_refl _), Program.except_ok_bind]
          cases turns with
          | zero => rfl
          | succ turns =>
              have done : ¬ segment.position.offset < segment.byteEnd := Nat.lt_irrefl _
              rw [Segments.replay, if_neg done]
  | cons step front ih =>
      have target := run.byteEnd shape
      cases run with
      | last =>
          have tail := (List.cons.inj shape).2
          exact absurd tail.symm (List.append_ne_nil_of_right_ne_nil _ (List.cons_ne_nil _ _))
      | @next _ rest _ first others whole offset some read follows tail =>
          obtain ⟨rfl, later⟩ := List.cons.inj shape
          have positive := List.length_pos_iff.mpr (follows.filled (some filled))
          have few := length_le_size first.text
          have stop := follows.byteEnd
          have past := tail.byteEnd later
          rw [size_append] at past
          have less : position.offset < segment.byteEnd := by omega
          have reached : first.byteEnd ≤ segment.byteEnd := by omega
          cases turns with
          | zero => exact absurd enough (Nat.not_lt_zero _)
          | succ turns =>
              rw [Segments.replay, if_pos less, read, Program.except_ok_bind,
                require_true _ reached, Program.except_ok_bind]
              exact ih tail later _ (Nat.lt_of_succ_lt_succ enough)

theorem front_length (filled : text ≠ []) (run : Run text maxBytes before position steps)
    {front back : List Step} {here : Position} {segment : Segment}
    (shape : steps = front ++ (here, segment) :: back) :
    size before + front.length < segment.byteEnd := by
  induction front generalizing before position steps with
  | nil =>
      obtain ⟨-, some, -⟩ := (run.drop shape).first
      have positive := List.length_pos_iff.mpr (some filled)
      have few := length_le_size segment.text
      have stop := run.byteEnd shape
      rw [List.length_nil]
      omega
  | cons step front ih =>
      cases run with
      | last =>
          have tail := (List.cons.inj shape).2
          exact absurd tail.symm (List.append_ne_nil_of_right_ne_nil _ (List.cons_ne_nil _ _))
      | @next _ rest _ first others whole offset some read follows tail =>
          have positive := List.length_pos_iff.mpr (follows.filled (some filled))
          have few := length_le_size first.text
          have more := ih tail (List.cons.inj shape).2
          rw [size_append] at more
          rw [List.length_cons]
          omega

/-- The replay finds the position that a segment was read from. -/
theorem previous (filled : text ≠ []) (run : Run text maxBytes [] Position.first steps)
    {front back : List Step} {here : Position} {segment : Segment}
    (shape : steps = front ++ (here, segment) :: back) :
    previousSegment (utf8 text) segment.byteEnd maxBytes = .ok here := by
  have turns := run.front_length filled shape
  rw [size_nil, Nat.zero_add] at turns
  rw [previousSegment, run.replay filled shape none turns, Program.except_ok_bind]
  have same : segment.position.offset = segment.byteEnd := rfl
  dsimp only
  rw [require_true _ same, Program.except_ok_bind]
  rfl

end Run

/-- Reading from the beginning ends at the end of the content whatever the text is. No cut
falls inside a character, the segments together are the text, each is small enough and holds
something, and the replay from its end finds the position it was read from. -/
theorem reading_lossless (text : Text) (maxBytes : Nat) (large : 32 ≤ maxBytes) :
    ∃ steps, (∀ turns, text.length < turns →
        readOn (utf8 text) maxBytes turns Position.first = .ok steps) ∧
      texts steps = text ∧
      steps.getLast?.map (fun step => step.2.byteEnd) = some (utf8 text).length ∧
      ∀ front here segment back, steps = front ++ (here, segment) :: back →
        readAt (utf8 text) maxBytes here = .ok segment ∧
        here.offset = (utf8 (texts front)).length ∧
        segment.byteEnd = (utf8 (texts (front ++ [(here, segment)]))).length ∧
        (utf8 segment.text).length ≤ maxBytes ∧
        (text ≠ [] → segment.text ≠ [] ∧
          previousSegment (utf8 text) segment.byteEnd maxBytes = .ok here) := by
  have four : 4 ≤ maxBytes := by omega
  obtain ⟨steps, run, reads⟩ := readOn_run text [] text rfl id four Position.first rfl
  refine ⟨steps, reads, run.texts_eq, run.ends, ?_⟩
  intro front here segment back shape
  have tail := run.drop shape
  obtain ⟨read, filled, rest, -, follows⟩ := tail.first
  refine ⟨read, ?_, ?_, follows.small, fun some => ⟨filled some, run.previous some shape⟩⟩
  · rw [tail.starts.1, List.nil_append]
    rfl
  · rw [follows.byteEnd, List.nil_append, ← size, texts, texts, List.map_append,
      List.flatten_append, size_append]
    simp

theorem reading_lossless_long :
    ∃ steps, (∀ turns, 40 < turns →
        readOn (utf8 (List.replicate 40 'ü')) 32 turns Position.first = .ok steps) ∧
      texts steps = List.replicate 40 'ü' := by
  obtain ⟨steps, reads, whole, -⟩ := reading_lossless (List.replicate 40 'ü') 32
    (by decide)
  rw [List.length_replicate] at reads
  exact ⟨steps, reads, whole⟩

/-! The state that is handed on -/

theorem splits_nil {first : Text} : ¬ Splits first [] := by
  rintro ⟨before, part, -, -, -, short, marked⟩
  rw [List.append_nil, short] at marked
  exact absurd marked (by decide)

theorem Splits.more {first second : Text} (splits : Splits first second) (more : Text) :
    Splits first (second ++ more) := by
  obtain ⟨before, part, whole, filled, start, short, marked⟩ := splits
  refine ⟨before, part, whole, filled, start, short, ?_⟩
  rw [← List.append_assoc]
  exact opens_append marked more

/-- A mark that a cut hides is whole behind what follows, or the next cut hides it too. -/
theorem Splits.later {first second third : Text} (splits : Splits first (second ++ third)) :
    Splits first second ∨ Splits (first ++ second) third := by
  obtain ⟨before, part, whole, filled, start, short, marked⟩ := splits
  cases here : opens (part ++ second) with
  | true => exact .inl ⟨before, part, whole, filled, start, short, here⟩
  | false =>
      rw [← List.append_assoc] at marked
      refine .inr ⟨before, part ++ second, ?_, ?_, start, here, marked⟩
      · rw [whole, List.append_assoc]
      · exact List.append_ne_nil_of_left_ne_nil filled _

def Segment.state (segment : Segment) : Bool × Bool := (segment.fence, segment.lineStart)

/-- Every segment is scanned from what the one before handed on. -/
def Carries : Bool × Bool → List Step → Prop
  | _, [] => True
  | state, (_, segment) :: rest =>
      segment.state = scanText state segment.text ∧ Carries segment.state rest

theorem Run.carries {text before : Text} {position : Position} {steps : List Step}
    (run : Run text maxBytes before position steps) :
    Carries (position.fence, position.lineStart) steps := by
  induction run with
  | last whole offset filled read follows => exact ⟨follows.state, trivial⟩
  | next whole offset filled read follows tail ih => exact ⟨follows.state, ih⟩

theorem Carries.front {state : Bool × Bool} {done later : List Step}
    (carries : Carries state (done ++ later)) : Carries state done := by
  induction done generalizing state with
  | nil => trivial
  | cons step done ih => exact ⟨carries.1, ih carries.2⟩

/-- Each segment hands on what one scan of everything up to its end gives. -/
def Agree (before : Text) (steps : List Step) : Prop :=
  ∀ front step back, steps = front ++ step :: back →
    step.2.state = scanText (false, true) (before ++ texts (front ++ [step]))

/-- No cut hides a mark. -/
def Clear (before : Text) (steps : List Step) : Prop :=
  ∀ front back, steps = front ++ back → ¬ Splits (before ++ texts front) (texts back)

@[simp] theorem texts_nil : texts [] = [] := rfl

@[simp] theorem texts_cons (step : Step) (steps : List Step) :
    texts (step :: steps) = step.2.text ++ texts steps := rfl

theorem agree_cons {before : Text} {step : Step} {steps : List Step} :
    Agree before (step :: steps) ↔
      step.2.state = scanText (false, true) (before ++ step.2.text) ∧
        Agree (before ++ step.2.text) steps := by
  constructor
  · intro agree
    constructor
    · have first := agree [] step steps rfl
      rw [List.nil_append, texts_cons, texts_nil, List.append_nil] at first
      exact first
    · intro front other back shape
      have later := agree (step :: front) other back (by rw [shape, List.cons_append])
      rw [List.cons_append, texts_cons, ← List.append_assoc] at later
      exact later
  · rintro ⟨first, later⟩ front other back shape
    cases front with
    | nil =>
        obtain ⟨rfl, -⟩ := List.cons.inj shape
        rw [List.nil_append, texts_cons, texts_nil, List.append_nil]
        exact first
    | cons head front =>
        obtain ⟨rfl, others⟩ := List.cons.inj shape
        rw [List.cons_append, texts_cons, ← List.append_assoc]
        exact later front other back others

theorem clear_cons {before : Text} {step : Step} {steps : List Step} :
    Clear before (step :: steps) ↔
      ¬ Splits before (step.2.text ++ texts steps) ∧ Clear (before ++ step.2.text) steps := by
  constructor
  · intro clear
    constructor
    · have first := clear [] (step :: steps) rfl
      rw [texts_nil, List.append_nil, texts_cons] at first
      exact first
    · intro front back shape
      have later := clear (step :: front) back (by rw [shape, List.cons_append])
      rw [texts_cons, ← List.append_assoc] at later
      exact later
  · rintro ⟨first, later⟩ front back shape
    cases front with
    | nil =>
        rw [List.nil_append] at shape
        rw [← shape, texts_nil, List.append_nil, texts_cons]
        exact first
    | cons head front =>
        obtain ⟨rfl, others⟩ := List.cons.inj shape
        rw [texts_cons, ← List.append_assoc]
        exact later front back others

/-- Scanning segment by segment is right at every boundary if and only if no cut hides a
mark. -/
theorem agree_iff_clear {before : Text} {steps : List Step}
    (carries : Carries (scanText (false, true) before) steps) :
    Agree before steps ↔ Clear before steps := by
  induction steps generalizing before with
  | nil =>
      apply iff_of_true
      · intro front step back shape
        exact absurd shape.symm (List.append_ne_nil_of_right_ne_nil _ (List.cons_ne_nil _ _))
      · intro front back shape
        obtain ⟨-, rfl⟩ := List.append_eq_nil_iff.mp shape.symm
        exact splits_nil
  | cons step steps ih =>
      have handed := carries.1
      have same := scanText_append before step.2.text
      rw [← handed] at same
      rw [agree_cons, clear_cons]
      constructor
      · rintro ⟨first, later⟩
        have clear := (ih (by rw [← first]; exact carries.2)).mp later
        refine ⟨?_, clear⟩
        intro splits
        obtain here | next := splits.later
        · exact same.mp first here
        · have none := clear [] steps rfl
          rw [texts_nil, List.append_nil] at none
          exact none next
      · rintro ⟨first, later⟩
        have agrees := same.mpr fun splits => first (splits.more _)
        exact ⟨agrees, (ih (by rw [← agrees]; exact carries.2)).mpr later⟩

/-- The offset stands between the start of a line and the third mark of its fence. -/
def InsideMark (text : Text) (offset : Nat) : Prop :=
  ∃ first second, text = first ++ second ∧ size first = offset ∧ Splits first second

theorem cut_unique {first second first' second' : Text}
    (same : first ++ second = first' ++ second') (sizes : size first = size first') :
    first = first' ∧ second = second' := by
  induction first generalizing first' with
  | nil =>
      cases first' with
      | nil => exact ⟨rfl, same⟩
      | cons char rest =>
          have positive := char.utf8Size_pos
          rw [size_nil, size_cons] at sizes
          omega
  | cons char rest ih =>
      cases first' with
      | nil =>
          have positive := char.utf8Size_pos
          rw [size_nil, size_cons] at sizes
          omega
      | cons other rest' =>
          obtain ⟨rfl, tails⟩ := List.cons.inj same
          rw [size_cons, size_cons, Nat.add_right_inj] at sizes
          obtain ⟨rfl, rfl⟩ := ih tails sizes
          exact ⟨rfl, rfl⟩

theorem insideMark_append {first second : Text} :
    InsideMark (first ++ second) (size first) ↔ Splits first second := by
  constructor
  · rintro ⟨first', second', same, sizes, splits⟩
    obtain ⟨rfl, rfl⟩ := cut_unique same sizes.symm
    exact splits
  · exact fun splits => ⟨first, second, rfl, rfl, splits⟩

theorem texts_append (first second : List Step) :
    texts (first ++ second) = texts first ++ texts second := by
  rw [texts, texts, texts, List.map_append, List.flatten_append]

theorem Run.clear {text : Text} {position : Position} {steps done later : List Step}
    (run : Run text maxBytes [] position steps) (shape : steps = done ++ later) :
    Clear [] done ↔ ∀ step ∈ done, ¬ InsideMark (texts done) step.1.offset := by
  have offset (front back : List Step) (step : Step) (cut : done = front ++ step :: back) :
      step.1.offset = size (texts front) := by
    have whole : steps = front ++ (step.1, step.2) :: (back ++ later) := by
      rw [shape, cut, List.append_assoc]
      rfl
    exact (run.drop whole).starts.1
  constructor
  · intro clear step member
    obtain ⟨front, back, rfl⟩ := List.append_of_mem member
    rw [texts_append, offset front back step rfl, insideMark_append]
    exact clear front (step :: back) rfl
  · rintro outside front back rfl
    cases back with
    | nil => exact splits_nil
    | cons step back =>
        have here := outside step (List.mem_append_right _ List.mem_cons_self)
        rw [texts_append, offset front back step rfl, insideMark_append] at here
        exact here

/-- The scanner state that a reading hands on is that of one scan of the content, at every
boundary up to any of them, if and only if none of the segments read so far begins inside a
fence mark. -/
theorem fence_carried (text : Text) (maxBytes : Nat) (large : 32 ≤ maxBytes) :
    ∃ steps, (∀ turns, text.length < turns →
        readOn (utf8 text) maxBytes turns Position.first = .ok steps) ∧
      texts steps = text ∧
      ∀ done later, steps = done ++ later →
        ((∀ front step back, done = front ++ step :: back →
            (step.2.fence, step.2.lineStart) =
              scanText (false, true) (texts (front ++ [step]))) ↔
          ∀ step ∈ done, ¬ InsideMark (texts done) step.1.offset) := by
  have four : 4 ≤ maxBytes := by omega
  obtain ⟨steps, run, reads⟩ := readOn_run text [] text rfl id four Position.first rfl
  refine ⟨steps, reads, run.texts_eq, ?_⟩
  intro done later shape
  have carries := run.carries
  rw [shape] at carries
  have handed : Carries (scanText (false, true) []) done := carries.front
  rw [← run.clear shape]
  exact agree_iff_clear handed

theorem fence_carried_prose :
    ∃ steps, readOn (utf8 (List.replicate 40 'ü')) 32 41 Position.first = .ok steps ∧
      texts steps = List.replicate 40 'ü' := by
  obtain ⟨steps, reads, whole, -⟩ := fence_carried (List.replicate 40 'ü') 32 (by decide)
  exact ⟨steps, reads 41 (by decide), whole⟩

/-- A fence of code behind thirty blanks, as in a deep list. -/
def indentedFence : Text :=
  List.replicate 30 ' ' ++ ['`', '`', '`', '\n', 'x', '\n', '`', '`', '`', '\n'] ++
    List.replicate 40 'y'

/-- The first segment ends behind two of the three marks: the second one hands on an open
fence where the fence is closed. -/
theorem fence_hidden :
    ∃ front step back, readOn (utf8 indentedFence) 32 81 Position.first =
        .ok (front ++ step :: back) ∧ back ≠ [] ∧
      (step.2.fence, step.2.lineStart) ≠ scanText (false, true) (texts (front ++ [step])) := by
  refine ⟨[(Position.first, ⟨32, List.replicate 30 ' ' ++ ['`', '`'], false, false, true⟩)],
    (⟨32, false, false, true⟩, ⟨64, ['`', '\n', 'x', '\n', '`', '`', '`', '\n'] ++
      List.replicate 24 'y', true, false, true⟩),
    [(⟨64, true, false, true⟩, ⟨80, List.replicate 16 'y', true, false, false⟩)], ?_, ?_, ?_⟩
  · decide +kernel
  · exact List.cons_ne_nil _ _
  · decide +kernel

end MsgServer.Segments
