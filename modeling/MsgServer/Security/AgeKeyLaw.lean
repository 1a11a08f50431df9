import Mathlib.Data.List.Induction
import MsgServer.Library.Radix
import MsgServer.Security.AgeKeys

/-!
The key texts of security/age_keys.py are a checked bijection. The regrouping loop keeps the
number that its digits write, so padding is a multiplication; the checksum register is linear
and loses no bit, so the six check symbols are determined and one changed symbol shows.
-/

namespace MsgServer.AgeKeys

open Library Library.Members Library.Radix

/-! The register -/

theorem bit_xor (left right index : Nat) :
    ((left ^^^ right) >>> index) &&& 1 = ((left >>> index) &&& 1) ^^^ ((right >>> index) &&& 1) := by
  rw [Nat.shiftRight_xor_distrib, Nat.and_xor_distrib_right]

theorem mixed_xor (left right index : Nat) (rest : List Nat) :
    mixed (left ^^^ right) index rest = mixed left index rest ^^^ mixed right index rest := by
  induction rest generalizing index with
  | nil => exact (Nat.xor_self 0).symm
  | cons generator rest ih =>
      have first : (left >>> index) &&& 1 = 0 ∨ (left >>> index) &&& 1 = 1 := by
        rw [Nat.and_one_is_mod]
        omega
      have second : (right >>> index) &&& 1 = 0 ∨ (right >>> index) &&& 1 = 1 := by
        rw [Nat.and_one_is_mod]
        omega
      rw [mixed, mixed, mixed, ih, bit_xor]
      generalize mixed left (index + 1) rest = here
      generalize mixed right (index + 1) rest = there
      -- The generator is added once, cancelled, or absent, as the two bits say.
      rcases first with zero | one <;> rcases second with none | some
      · simp [zero, none]
      · simp [zero, some, ← Nat.xor_assoc, Nat.xor_comm here]
      · simp [one, none, Nat.xor_assoc]
      · have cancel : generator ^^^ here ^^^ (generator ^^^ there) = here ^^^ there := by
          rw [Nat.xor_comm generator here, Nat.xor_assoc, ← Nat.xor_assoc generator,
            Nat.xor_self, Nat.zero_xor]
        simp [one, some, cancel]

theorem mixed_bounded : ∀ top < 32, mixed top 0 generators < 2 ^ 30 := by decide

/-- The low five bits of the generators tell the tops apart. -/
theorem mixed_low : ∀ top < 32, mixed top 0 generators % 32 = 0 → top = 0 := by decide

theorem shift_eq (check : Nat) :
    shift check = check % 2 ^ 25 * 32 ^^^ mixed (check / 2 ^ 25) 0 generators := by
  rw [shift, show (0x1FFFFFF : Nat) = 2 ^ 25 - 1 from rfl, Nat.and_two_pow_sub_one_eq_mod,
    Nat.shiftLeft_eq, Nat.shiftRight_eq_div_pow]

theorem shift_linear : Register.Linear 30 shift where
  xor left right := by
    rw [shift, Nat.and_xor_distrib_right, Nat.shiftLeft_xor_distrib, Nat.shiftRight_xor_distrib,
      mixed_xor, shift, shift]
    generalize (left &&& 0x1FFFFFF) <<< 5 = a
    generalize (right &&& 0x1FFFFFF) <<< 5 = b
    generalize mixed (left >>> 25) 0 generators = c
    rw [Nat.xor_assoc, Nat.xor_assoc, ← Nat.xor_assoc b, Nat.xor_comm b c, Nat.xor_assoc c]
  bounded state small := by
    rw [shift_eq]
    exact Nat.xor_lt_two_pow (by omega) (mixed_bounded _ (by omega))
  faithful state small zero := by
    rw [shift_eq] at zero
    have same := Register.xor_eq_zero zero
    have top := mixed_low (state / 2 ^ 25) (by omega) (by omega)
    rw [top, show mixed 0 0 generators = 0 from rfl] at same
    omega

/-- A state with room for one more symbol takes it as a digit. -/
theorem shift_symbol {state value : Nat} (room : state < 2 ^ 25) (small : value < 32) :
    shift state ^^^ value = state * 32 + value := by
  have plain : shift state = state * 32 := by
    rw [shift_eq, Nat.mod_eq_of_lt room, Nat.div_eq_of_lt room,
      show mixed 0 0 generators = 0 from rfl, Nat.xor_zero]
  have high : (state * 32 ^^^ value) / 2 ^ 5 = state := by
    rw [Nat.xor_div_two_pow, Nat.div_eq_of_lt small, Nat.xor_zero]
    omega
  have low : (state * 32 ^^^ value) % 2 ^ 5 = value := by
    rw [Nat.xor_mod_two_pow, Nat.mod_eq_of_lt small, show state * 32 % 2 ^ 5 = 0 by omega,
      Nat.zero_xor]
  rw [plain]
  omega

theorem feed_symbols (values : List Nat) (few : values.length ≤ 6)
    (small : ∀ value ∈ values, value < 32) : Register.feed shift 0 values = number 32 values := by
  induction values using List.reverseRecOn with
  | nil => rfl
  | append_singleton values last ih =>
      rw [List.length_append, List.length_singleton] at few
      have early : ∀ value ∈ values, value < 32 := fun value member => small value (by simp [member])
      have room : number 32 values < 2 ^ 25 := by
        have bound := number_lt (by omega) early
        have power : (32 : Nat) ^ values.length ≤ 32 ^ 5 := Nat.pow_le_pow_right (by omega) (by omega)
        omega
      rw [Register.feed_append, ih (by omega) early, Register.feed_cons,
        shift_symbol room (small last (by simp)), number_concat]
      rfl

/-- The checksum is right for exactly one list of six symbols. -/
theorem polymod_check (values tail : List Nat) (six : tail.length = 6)
    (small : ∀ value ∈ tail, value < 32) :
    polymod (values ++ tail) = polymod (values ++ [0, 0, 0, 0, 0, 0]) ^^^ number 32 tail := by
  rw [polymod, polymod, Register.feed_append, Register.feed_append,
    Register.feed_zero_xor shift_linear _ tail, six, feed_symbols tail (by omega) small]
  rfl

theorem feed_bounded {values : List Nat} (small : ∀ value ∈ values, value < 2 ^ 30) {state : Nat}
    (bounded : state < 2 ^ 30) : Register.feed shift state values < 2 ^ 30 := by
  induction values generalizing state with
  | nil => exact bounded
  | cons value rest ih =>
      apply ih fun other member => small other (List.mem_cons_of_mem _ member)
      exact Nat.xor_lt_two_pow (shift_linear.bounded state bounded) (small value (by simp))

/-- The six symbols of a checksum. -/
def checkSymbols (checksum : Nat) : List Nat :=
  (List.range 6).map fun index => (checksum >>> (5 * (5 - index))) &&& 31

theorem checkSymbols_small (checksum : Nat) : ∀ value ∈ checkSymbols checksum, value < 32 := by
  intro value member
  obtain ⟨index, _, rfl⟩ := List.mem_map.mp member
  exact Nat.lt_of_le_of_lt Nat.and_le_right (by omega)

theorem number_checkSymbols {checksum : Nat} (small : checksum < 2 ^ 30) :
    number 32 (checkSymbols checksum) = checksum := by
  have five : ∀ value : Nat, value &&& 31 = value % 32 := fun value =>
    Nat.and_two_pow_sub_one_eq_mod value 5
  simp only [checkSymbols, List.range, List.range.loop, List.map_cons, List.map_nil, five,
    Nat.shiftRight_eq_div_pow, number, List.reverse_cons, List.reverse_nil, List.nil_append,
    List.cons_append, Nat.ofDigits_cons, Nat.ofDigits_nil]
  omega

/-! The regrouping loop -/

/-- After these values the accumulator writes them, and the result with the bits that wait
writes the accumulator. -/
structure Carried (fromBits toBits : Nat) (data : List Nat) (state : Regroup) : Prop where
  accumulator : state.accumulator = number (2 ^ fromBits) data
  count : fromBits * data.length = toBits * state.result.length + state.bits
  bits : state.bits < toBits
  value : state.accumulator / 2 ^ state.bits = number (2 ^ toBits) state.result
  small : ∀ digit ∈ state.result, digit < 2 ^ toBits

theorem flush_carries {toBits accumulator : Nat} (positive : 0 < toBits) (turns : Nat) :
    ∀ {bits : Nat} {result : List Nat}, bits ≤ turns →
      accumulator / 2 ^ bits = number (2 ^ toBits) result →
      (∀ digit ∈ result, digit < 2 ^ toBits) →
      (flush toBits accumulator turns bits result).1 < toBits ∧
        toBits * result.length + bits =
          toBits * (flush toBits accumulator turns bits result).2.length +
            (flush toBits accumulator turns bits result).1 ∧
        accumulator / 2 ^ (flush toBits accumulator turns bits result).1 =
          number (2 ^ toBits) (flush toBits accumulator turns bits result).2 ∧
        ∀ digit ∈ (flush toBits accumulator turns bits result).2, digit < 2 ^ toBits := by
  induction turns with
  | zero =>
      intro bits result few value small
      obtain rfl : bits = 0 := by omega
      exact ⟨positive, rfl, value, small⟩
  | succ turns ih =>
      intro bits result few value small
      rw [flush]
      split
      · rename_i enough
        have mask : 1 <<< toBits - 1 = 2 ^ toBits - 1 := by rw [Nat.shiftLeft_eq, Nat.one_mul]
        have digit : (accumulator >>> (bits - toBits)) &&& (1 <<< toBits - 1) =
            accumulator / 2 ^ (bits - toBits) % 2 ^ toBits := by
          rw [mask, Nat.and_two_pow_sub_one_eq_mod, Nat.shiftRight_eq_div_pow]
        rw [digit]
        -- The digit is what the bits that it takes add to the digits before it.
        have upper : accumulator / 2 ^ (bits - toBits) / 2 ^ toBits = accumulator / 2 ^ bits := by
          rw [Nat.div_div_eq_div_mul, ← Nat.pow_add, Nat.sub_add_cancel enough]
        have next : accumulator / 2 ^ (bits - toBits) = number (2 ^ toBits)
            (result ++ [accumulator / 2 ^ (bits - toBits) % 2 ^ toBits]) := by
          rw [number_concat, ← value, ← upper]
          exact (Nat.div_add_mod' _ _).symm
        have bound : ∀ digit ∈ result ++ [accumulator / 2 ^ (bits - toBits) % 2 ^ toBits],
            digit < 2 ^ toBits := by
          intro other member
          rcases List.mem_append.mp member with old | new
          · exact small other old
          · rw [List.mem_singleton.mp new]
            exact Nat.mod_lt _ (Nat.two_pow_pos toBits)
        obtain ⟨less, count, rest⟩ := ih (Nat.sub_le_of_le_add (by omega)) next bound
        refine ⟨less, ?_, rest⟩
        rw [← count, List.length_append, List.length_singleton, Nat.mul_add, Nat.mul_one]
        omega
      · rename_i short
        exact ⟨by omega, rfl, value, small⟩

theorem take_carries {fromBits toBits : Nat} (positive : 0 < toBits) {data : List Nat}
    {state : Regroup} (carried : Carried fromBits toBits data state) {value : Nat}
    (small : value < 2 ^ fromBits) :
    Carried fromBits toBits (data ++ [value]) (take fromBits toBits state value) := by
  have joined : (state.accumulator <<< fromBits) ||| value =
      state.accumulator * 2 ^ fromBits + value := by
    rw [← Nat.shiftLeft_add_eq_or_of_lt small, Nat.shiftLeft_eq]
  have same : (state.accumulator * 2 ^ fromBits + value) / 2 ^ (state.bits + fromBits) =
      number (2 ^ toBits) state.result := by
    rw [← carried.value, Nat.add_comm state.bits, Nat.pow_add, ← Nat.div_div_eq_div_mul]
    congr 1
    rw [Nat.mul_comm, Nat.mul_add_div (Nat.two_pow_pos fromBits), Nat.div_eq_of_lt small,
      Nat.add_zero]
  obtain ⟨less, count, digits, bound⟩ := flush_carries positive (state.bits + fromBits)
    (Nat.le_refl _) same carried.small
  unfold take
  rw [joined]
  constructor
  · rw [number_concat, ← carried.accumulator]
  · have before := carried.count
    rw [List.length_append, List.length_singleton, Nat.mul_add, Nat.mul_one, before, ← count]
    omega
  · exact less
  · exact digits
  · exact bound

theorem regroup_carries {fromBits toBits : Nat} (positive : 0 < toBits) (data : List Nat) :
    ∀ {before : List Nat} {state : Regroup}, Carried fromBits toBits before state →
      (∀ value ∈ data, value < 2 ^ fromBits) →
      ∃ after, regroup fromBits toBits data state = .ok after ∧
        Carried fromBits toBits (before ++ data) after := by
  induction data with
  | nil =>
      intro before state carried _
      exact ⟨state, rfl, by simpa using carried⟩
  | cons value rest ih =>
      intro before state carried small
      have here : value < 2 ^ fromBits := small value (by simp)
      obtain ⟨after, done, all⟩ := ih (take_carries positive carried here)
        fun other member => small other (List.mem_cons_of_mem _ member)
      refine ⟨after, ?_, by simpa using all⟩
      rw [regroup, require_true _ (by rw [Nat.shiftLeft_eq, Nat.one_mul]; exact here)]
      exact done

theorem carried_start (fromBits : Nat) {toBits : Nat} (positive : 0 < toBits) :
    Carried fromBits toBits [] { accumulator := 0, bits := 0, result := [] } where
  accumulator := rfl
  count := by simp
  bits := positive
  value := by simp
  small := by simp

/-- Thirty-two bytes and four zero bits are fifty-two symbols. -/
theorem convert_pad {data : List Nat} (length : data.length = 32)
    (small : ∀ value ∈ data, value < 256) :
    ∃ values, convert data 8 5 true = .ok values ∧ values.length = 52 ∧
      (∀ value ∈ values, value < 32) ∧ number 32 values = number 256 data * 16 := by
  obtain ⟨state, done, carried⟩ := regroup_carries (by omega : 0 < 5) data
    (carried_start 8 (by omega)) small
  rw [List.nil_append] at carried
  have count := carried.count
  have less := carried.bits
  have one : state.bits = 1 := by omega
  have value := carried.value
  have accumulator := carried.accumulator
  rw [one] at value count
  have last : state.accumulator <<< 4 &&& 31 = state.accumulator * 16 % 32 := by
    rw [Nat.shiftLeft_eq]
    exact Nat.and_two_pow_sub_one_eq_mod _ 5
  refine ⟨state.result ++ [state.accumulator * 16 % 32], ?_, ?_, ?_, ?_⟩
  · simp [convert, done, last, one, Program.except_ok_bind]
  · rw [List.length_append, List.length_singleton]
    omega
  · intro digit member
    rcases List.mem_append.mp member with old | new
    · exact carried.small digit old
    · rw [List.mem_singleton.mp new]
      omega
  · have number : number 32 state.result = state.accumulator / 2 := value.symm
    rw [number_concat, number, show Radix.number 256 data = state.accumulator from accumulator.symm]
    omega

/-- Back again: the symbols are accepted when their last four bits are zero. -/
theorem convert_plain {data : List Nat} (length : data.length = 52)
    (small : ∀ value ∈ data, value < 32) :
    ∃ raw, raw.length = 32 ∧ (∀ value ∈ raw, value < 256) ∧
      number 256 raw = number 32 data / 16 ∧
      convert data 5 8 false =
        if number 32 data % 16 = 0 then .ok raw else .error { code := "invalid_age_key" } := by
  obtain ⟨state, done, carried⟩ := regroup_carries (by omega : 0 < 8) data
    (carried_start 5 (by omega)) small
  rw [List.nil_append] at carried
  have count := carried.count
  have less := carried.bits
  have four : state.bits = 4 := by omega
  have value := carried.value
  have accumulator : state.accumulator = number 32 data := carried.accumulator
  rw [four] at value count
  have last : state.accumulator <<< 4 &&& 255 = number 32 data * 16 % 256 := by
    rw [Nat.shiftLeft_eq, accumulator]
    exact Nat.and_two_pow_sub_one_eq_mod _ 8
  refine ⟨state.result, by omega, carried.small, ?_, ?_⟩
  · rw [← accumulator]
    exact value.symm
  · by_cases zero : number 32 data % 16 = 0
    · have flat : number 32 data * 16 % 256 = 0 := by omega
      simp [convert, done, last, four, Program.except_ok_bind, flat, zero]
    · have rough : number 32 data * 16 % 256 ≠ 0 := by omega
      simp [convert, done, last, four, Program.except_ok_bind, rough, zero, require,
        Program.ensure]

/-! Symbols -/

theorem symbol_index {value : Nat} (small : value < 32) : alphabet.idxOf (symbol value) = value := by
  have all : ∀ value < 32, alphabet.idxOf (symbol value) = value := by decide
  exact all value small

theorem symbol_mem (value : Nat) (small : value < 32) : symbol value ∈ alphabet := by
  have all : ∀ value < 32, symbol value ∈ alphabet := by decide
  exact all value small

theorem index_symbol {char : Char} (member : char ∈ alphabet) :
    alphabet.idxOf char < 32 ∧ symbol (alphabet.idxOf char) = char := by
  have all : ∀ char ∈ alphabet, alphabet.idxOf char < 32 ∧ symbol (alphabet.idxOf char) = char := by
    decide
  exact all char member

theorem lower_alphabet : ∀ char ∈ alphabet, char.toLower = char := by decide

theorem index_inj {first second : Char} (firstIn : first ∈ alphabet) (secondIn : second ∈ alphabet)
    (same : alphabet.idxOf first = alphabet.idxOf second) : first = second := by
  rw [← (index_symbol firstIn).2, ← (index_symbol secondIn).2, same]

theorem lower_hrp (use : Use) : (use.hrp ++ ['1']).map Char.toLower = use.hrp ++ ['1'] := by
  cases use <;> decide

theorem hrpExpand_small (use : Use) : ∀ value ∈ hrpExpand use.hrp, value < 2 ^ 30 := by
  cases use <;> decide

/-! What the two functions do -/

/-- The symbols of a payload: fifty-two of its bits and six of the checksum. -/
structure Written (use : Use) (payload : List UInt8) (values : List Nat) : Prop where
  length : values.length = 52
  small : ∀ value ∈ values, value < 32
  value : number 32 values = number 256 (payload.map UInt8.toNat) * 16
  encoded : encode use.hrp payload = .ok (use.hrp ++ '1' :: (values ++ checkSymbols (polymod
    (hrpExpand use.hrp ++ values ++ [0, 0, 0, 0, 0, 0]) ^^^ 1)).map symbol)

theorem encode_written (use : Use) {payload : List UInt8} (length : payload.length = 32) :
    ∃ values, Written use payload values := by
  have bytes : ∀ value ∈ payload.map UInt8.toNat, value < 256 := by
    intro value member
    obtain ⟨byte, _, rfl⟩ := List.mem_map.mp member
    exact byte.toNat_lt
  obtain ⟨values, done, count, small, value⟩ := convert_pad (by simpa using length) bytes
  refine ⟨values, count, small, value, ?_⟩
  simp only [encode, done, Program.except_ok_bind, Program.except_pure, checkSymbols]

/-- The checksum that `encode` appends is the one that `decode` asks for. -/
theorem check_right (use : Use) {values tail : List Nat} (small : ∀ value ∈ values, value < 32)
    (six : tail.length = 6) (tailSmall : ∀ value ∈ tail, value < 32) :
    polymod (hrpExpand use.hrp ++ (values ++ tail)) = 1 ↔
      tail = checkSymbols (polymod (hrpExpand use.hrp ++ values ++ [0, 0, 0, 0, 0, 0]) ^^^ 1) := by
  rw [← List.append_assoc, polymod_check _ _ six tailSmall]
  have bounded : polymod (hrpExpand use.hrp ++ values ++ [0, 0, 0, 0, 0, 0]) < 2 ^ 30 := by
    apply feed_bounded _ (by omega)
    intro value member
    rcases List.mem_append.mp member with early | zero
    · rcases List.mem_append.mp early with head | body
      · exact hrpExpand_small use value head
      · exact Nat.lt_trans (small value body) (by omega)
    · rw [List.eq_of_mem_replicate (n := 6) zero]
      omega
  generalize polymod (hrpExpand use.hrp ++ values ++ [0, 0, 0, 0, 0, 0]) = state at *
  have checksum : state ^^^ 1 < 2 ^ 30 := Nat.xor_lt_two_pow bounded (by omega)
  constructor
  · intro right
    apply number_inj (by omega : 1 < 32) _ tailSmall (checkSymbols_small _)
    · rw [number_checkSymbols checksum, ← right, ← Nat.xor_assoc, Nat.xor_self, Nat.zero_xor]
    · rw [six]
      rfl
  · rintro rfl
    rw [number_checkSymbols checksum, ← Nat.xor_assoc, Nat.xor_self, Nat.zero_xor]

theorem mapped_index {numbers : List Nat} (small : ∀ value ∈ numbers, value < 32) :
    (numbers.map symbol).map (fun char => alphabet.idxOf char) = numbers := by
  rw [List.map_map]
  exact (List.map_congr_left fun value member => symbol_index (small value member)).trans
    (List.map_id numbers)

theorem mapped_symbol {characters : Text} (known : ∀ char ∈ characters, char ∈ alphabet) :
    (characters.map fun char => alphabet.idxOf char).map symbol = characters := by
  rw [List.map_map]
  exact (List.map_congr_left fun char member => (index_symbol (known char member)).2).trans
    (List.map_id characters)

/-- What `decode` makes of fifty-eight symbols behind the prefix. -/
theorem decode_symbols (use : Use) {numbers : List Nat} (length : numbers.length = 58)
    (small : ∀ value ∈ numbers, value < 32) :
    ∃ raw : List UInt8, raw.length = 32 ∧
      number 256 (raw.map UInt8.toNat) = number 32 (numbers.take 52) / 16 ∧
      decode (use.hrp ++ '1' :: numbers.map symbol) use.hrp =
        if polymod (hrpExpand use.hrp ++ numbers) = 1 then
          if number 32 (numbers.take 52) % 16 = 0 then .ok raw
          else .error { code := "invalid_age_key" }
        else .error { code := "invalid_age_recipient" } := by
  have front : ∀ value ∈ numbers.take 52, value < 32 := fun value member =>
    small value (List.mem_of_mem_take member)
  obtain ⟨raw, count, bytes, value, done⟩ := convert_plain (by simp [length]) front
  have back : (raw.map UInt8.ofNat).map UInt8.toNat = raw := by
    rw [List.map_map]
    refine (List.map_congr_left fun value member => ?_).trans (List.map_id raw)
    exact UInt8.toNat_ofNat_of_lt' (bytes value member)
  refine ⟨raw.map UInt8.ofNat, by simpa using count, by rw [back, value], ?_⟩
  have whole : use.hrp ++ '1' :: numbers.map symbol =
      (use.hrp ++ ['1']) ++ numbers.map symbol := by simp
  have known : ∀ char ∈ numbers.map symbol, char ∈ alphabet := by
    intro char member
    obtain ⟨value, inNumbers, rfl⟩ := List.mem_map.mp member
    exact symbol_mem value (small value inNumbers)
  have lowered : (use.hrp ++ '1' :: numbers.map symbol).map Char.toLower =
      use.hrp ++ '1' :: numbers.map symbol := by
    rw [whole, List.map_append, lower_hrp]
    congr 1
    exact (List.map_congr_left fun char member => lower_alphabet char (known char member)).trans
      (List.map_id _)
  have started : (use.hrp ++ ['1']).isPrefixOf (use.hrp ++ '1' :: numbers.map symbol) = true := by
    rw [whole, List.isPrefixOf_iff_prefix]
    exact List.prefix_append _ _
  have dropped : (use.hrp ++ '1' :: numbers.map symbol).drop (use.hrp.length + 1) =
      numbers.map symbol := by
    rw [whole]
    exact List.drop_left' (by simp)
  unfold decode
  rw [require_true _ ⟨lowered, started⟩, Program.except_ok_bind, dropped]
  dsimp only
  rw [require_true _ ⟨by simpa using length, known⟩, Program.except_ok_bind, mapped_index small,
    length]
  by_cases right : polymod (hrpExpand use.hrp ++ numbers) = 1
  · rw [if_pos right, require_true _ right, Program.except_ok_bind, done]
    by_cases zero : number 32 (numbers.take 52) % 16 = 0
    · rw [if_pos zero, if_pos zero, Program.except_ok_bind, require_true _ count,
        Program.except_ok_bind, Program.except_pure]
    · rw [if_neg zero, if_neg zero, Program.except_error_bind]
  · rw [if_neg right]
    simp [require, Program.ensure, right, Program.except_error_bind]

/-- A text that `decode` accepts is the prefix and fifty-eight symbols. -/
theorem decode_shape {use : Use} {text : Text} {payload : List UInt8}
    (done : decode text use.hrp = .ok payload) :
    ∃ numbers : List Nat, numbers.length = 58 ∧ (∀ value ∈ numbers, value < 32) ∧
      text = use.hrp ++ '1' :: numbers.map symbol := by
  simp only [decode, Program.except_bind_ok, require_ok, exists_const] at done
  obtain ⟨⟨_, started⟩, ⟨length, known⟩, _⟩ := done
  obtain ⟨rest, rfl⟩ := List.isPrefixOf_iff_prefix.mp started
  have dropped : (use.hrp ++ ['1'] ++ rest).drop (use.hrp.length + 1) = rest :=
    List.drop_left' (by simp)
  rw [dropped] at length known
  refine ⟨rest.map fun char => alphabet.idxOf char, by simpa using length, ?_, ?_⟩
  · intro value member
    obtain ⟨char, inRest, rfl⟩ := List.mem_map.mp member
    exact (index_symbol (known char inRest)).1
  · rw [mapped_symbol known]
    simp

/-- The payload that `decode` returns is the one whose encoding it read. -/
theorem decode_canonical {use : Use} {text : Text} {payload : List UInt8}
    (done : decode text use.hrp = .ok payload) : encode use.hrp payload = .ok text := by
  obtain ⟨numbers, length, small, rfl⟩ := decode_shape done
  obtain ⟨raw, count, value, result⟩ := decode_symbols use length small
  rw [result] at done
  by_cases right : polymod (hrpExpand use.hrp ++ numbers) = 1
  · by_cases zero : number 32 (numbers.take 52) % 16 = 0
    · rw [if_pos right, if_pos zero] at done
      obtain rfl := Except.ok.inj done
      obtain ⟨values, written⟩ := encode_written use count
      have front : ∀ value ∈ numbers.take 52, value < 32 := fun value member =>
        small value (List.mem_of_mem_take member)
      -- The zero padding leaves one list of symbols for the payload.
      have same : values = numbers.take 52 := by
        apply number_inj (by omega : 1 < 32) _ written.small front
        · rw [written.value, value]
          omega
        · rw [written.length]
          simp [length]
      have tail : numbers.drop 52 = checkSymbols
          (polymod (hrpExpand use.hrp ++ values ++ [0, 0, 0, 0, 0, 0]) ^^^ 1) := by
        apply (check_right use written.small (by simp [length])
          fun value member => small value (List.mem_of_mem_drop member)).mp
        rw [same, List.take_append_drop]
        exact right
      rw [written.encoded, ← tail, same, List.take_append_drop]
    · rw [if_pos right, if_neg zero] at done
      cases done
  · rw [if_neg right] at done
    cases done

theorem decode_encode {use : Use} {payload : List UInt8} (length : payload.length = 32) :
    ∃ text, encode use.hrp payload = .ok text ∧ decode text use.hrp = .ok payload := by
  obtain ⟨values, written⟩ := encode_written use length
  refine ⟨_, written.encoded, ?_⟩
  have check : (checkSymbols (polymod (hrpExpand use.hrp ++ values ++ [0, 0, 0, 0, 0, 0]) ^^^
      1)).length = 6 := rfl
  have all : ∀ value ∈ values ++ checkSymbols (polymod (hrpExpand use.hrp ++ values ++
      [0, 0, 0, 0, 0, 0]) ^^^ 1), value < 32 := by
    intro value member
    rcases List.mem_append.mp member with body | tail
    · exact written.small value body
    · exact checkSymbols_small _ value tail
  obtain ⟨raw, count, value, result⟩ := decode_symbols use
    (by rw [List.length_append, written.length, check]) all
  have front : (values ++ checkSymbols (polymod (hrpExpand use.hrp ++ values ++
      [0, 0, 0, 0, 0, 0]) ^^^ 1)).take 52 = values := List.take_left' written.length
  rw [front, written.value] at value
  rw [result, if_pos ((check_right use written.small check (checkSymbols_small _)).mpr rfl),
    front, written.value, if_pos (Nat.mul_mod_left _ _)]
  rw [Nat.mul_div_cancel _ (by omega)] at value
  have bytes : ∀ data : List UInt8, ∀ value ∈ data.map UInt8.toNat, value < 256 := by
    intro data value member
    obtain ⟨byte, _, rfl⟩ := List.mem_map.mp member
    exact byte.toNat_lt
  have same : raw.map UInt8.toNat = payload.map UInt8.toNat :=
    number_inj (by omega) (by simp [count, length]) (bytes raw) (bytes payload) value
  have injective : Function.Injective UInt8.toNat := fun _ _ equal => UInt8.toNat_inj.mp equal
  rw [injective.list_map same]

/-- One changed character behind the separator is refused. -/
theorem changed_refused {use : Use} {payload : List UInt8} {before after : Text} {old new : Char}
    (encoded : encode use.hrp payload = .ok (use.hrp ++ '1' :: (before ++ old :: after)))
    (length : payload.length = 32) (differ : new ≠ old) (other : List UInt8) :
    decode (use.hrp ++ '1' :: (before ++ new :: after)) use.hrp ≠ .ok other := by
  intro accepted
  have round : ∃ text, encode use.hrp payload = .ok text ∧ decode text use.hrp = .ok payload :=
    decode_encode length
  obtain ⟨text, again, first⟩ := round
  obtain rfl := Except.ok.inj (encoded.symm.trans again)
  -- Both texts are symbols with a right checksum, and the symbols differ in one place.
  have right : ∀ {body : Text} {found : List UInt8},
      decode (use.hrp ++ '1' :: body) use.hrp = .ok found →
        (∀ char ∈ body, char ∈ alphabet) ∧
          polymod (hrpExpand use.hrp ++ body.map fun char => alphabet.idxOf char) = 1 := by
    intro body found done
    simp only [decode, Program.except_bind_ok, require_ok, exists_const] at done
    obtain ⟨_, ⟨_, known⟩, sum, _⟩ := done
    have dropped : (use.hrp ++ '1' :: body).drop (use.hrp.length + 1) = body := by
      rw [show use.hrp ++ '1' :: body = (use.hrp ++ ['1']) ++ body by simp]
      exact List.drop_left' (by simp)
    rw [dropped] at known sum
    exact ⟨known, sum⟩
  obtain ⟨oldKnown, oldSum⟩ := right first
  obtain ⟨newKnown, newSum⟩ := right accepted
  have oldIn := oldKnown old (by simp)
  have newIn := newKnown new (by simp)
  have apart : alphabet.idxOf old ≠ alphabet.idxOf new := fun same =>
    differ (index_inj newIn oldIn same.symm)
  have changed := Register.feed_changed shift_linear 1
    (hrpExpand use.hrp ++ before.map fun char => alphabet.idxOf char)
    (after.map fun char => alphabet.idxOf char)
    (Nat.lt_trans (index_symbol oldIn).1 (by omega))
    (Nat.lt_trans (index_symbol newIn).1 (by omega)) apart
  apply changed
  rw [polymod] at oldSum newSum
  rw [List.append_assoc, List.append_assoc]
  simpa [List.map_append] using oldSum.trans newSum.symm

/-- The text encoding of a key is a checked bijection for both uses: what is encoded comes
back, what is accepted is the encoding of its payload, and one changed character behind the
separator is never accepted. -/
theorem checked_bijection (use : Use) (payload : {bytes : List UInt8 // bytes.length = 32}) :
    (∃ text, encode use.hrp payload.val = .ok text ∧ decode text use.hrp = .ok payload.val) ∧
      (∀ text found, decode text use.hrp = .ok found →
        found.length = 32 ∧ encode use.hrp found = .ok text) ∧
      ∀ before after old new,
        encode use.hrp payload.val = .ok (use.hrp ++ '1' :: (before ++ old :: after)) →
        new ≠ old →
        ∃ failure, decode (use.hrp ++ '1' :: (before ++ new :: after)) use.hrp = .error failure := by
  refine ⟨decode_encode payload.property, fun text found done => ⟨?_, decode_canonical done⟩,
    fun before after old new encoded differ => ?_⟩
  · simp only [decode, Program.except_bind_ok, require_ok, exists_const, Program.except_pure,
      Except.ok.injEq] at done
    obtain ⟨_, _, _, raw, _, length, rfl⟩ := done
    simpa using length
  · cases refused : decode (use.hrp ++ '1' :: (before ++ new :: after)) use.hrp with
    | error failure => exact ⟨failure, rfl⟩
    | ok other => exact absurd refused (changed_refused encoded payload.property differ other)

end MsgServer.AgeKeys
