import DspChip.Proofs.Instruction.Operands
/-! Sums and differences in closed form. The exact result is fitted to the target by its policy, and
stored through its bus. -/

namespace DspChip

def Combination.sum? (current source : Int) : Combination → Option Int
  | add => some (current + source)
  | sub => some (current - source)
  | and | or | xor => none

theorem Combination.load_of_sum? {how : Combination} {current source : Word} {result : Int}
    (sum : how.sum? current.toInt source.toInt = some result) (target : String)
    (file : RegisterFile) : how.load target current source file = file.settle target result := by
  cases how with
  | add | sub =>
    cases sum
    rfl
  | and | or | xor => cases sum

theorem Word.toInt_nearest (n : Int) :
    (nearest n).toInt = max (-2 ^ 63) (min n (2 ^ 63 - 1)) := by
  have least : Int64.minValue.toInt = -2 ^ 63 := rfl
  have most : Int64.maxValue.toInt = 2 ^ 63 - 1 := rfl
  rw [nearest, least, most, Int64.toInt_ofInt_of_le (by omega) (by omega)]

namespace Register

variable {r : Register}

theorem settle_of_wrap (wraps : r.overflow = .wrap) (result : Int) :
    r.settle result = .ok (Int64.ofInt result) := by
  rw [settle, wraps]

theorem toInt_ofInt_of_within {number : Int} (nonneg : 0 ≤ number) (within : number ≤ 2 ^ r.bits - 1) :
    (Int64.ofInt number).toInt = number := by
  have word : (2 ^ r.bits : Int) ≤ 2 ^ 63 := pow_le_pow_right₀ (by decide) r.bits_le
  exact Int64.toInt_ofInt_of_le (by omega) (by omega)

theorem settle_of_saturate (saturates : r.overflow = .saturate) (result : Int) :
    ∃ value : Word, r.settle result = .ok value ∧
      value.toInt = max 0 (min result (2 ^ r.bits - 1)) := by
  have positive := r.two_pow_bits_pos
  refine ⟨Int64.ofInt (max 0 (min result (2 ^ r.bits - 1))), ?_, ?_⟩
  · rw [settle, saturates, toInt_bitMask]
  · exact r.toInt_ofInt_of_within (by omega) (by omega)

theorem settle_of_reject (rejects : r.overflow = .reject) {result : Int} (nonneg : 0 ≤ result)
    (within : result ≤ 2 ^ r.bits - 1) : r.settle result = .ok (Int64.ofInt result) := by
  simp only [settle, rejects, toInt_bitMask]
  rw [if_pos ⟨nonneg, within⟩]

theorem settle_of_outside (rejects : r.overflow = .reject) {result : Int}
    (outside : result < 0 ∨ 2 ^ r.bits - 1 < result) :
    r.settle result = .error (.registerOverflow r.name (Word.nearest result) 0) := by
  simp only [settle, rejects, toInt_bitMask]
  rw [if_neg (by omega)]

end Register

namespace Primitive

variable {primitive : Primitive} {how : Combination} {file : RegisterFile} {target : String}
  {d : Register} {source : Operand} {number result : Int} {amount : Option Int32}

theorem perform_sum (operation : primitive.operation = .combine how)
    (found : file.find? target = some d) (readable : d.access.Allows .read)
    (writable : d.access.Allows .write) (supplies : source.Supplies file 0 number)
    (sum : how.sum? (d.value.toInt % 2 ^ d.busWidth)
      (Word.shift (Int64.ofInt number) (clampAmount (primitive.exactAmount amount))).toInt =
        some result) :
    let action := primitive.perform (primitive.operandsFor target source amount)
    match d.settle result with
    | .ok value => action.Stores file d (value.toInt % 2 ^ d.busWidth)
    | .error fault => action file = .error fault file := by
  intro action
  obtain ⟨supplied, read, rfl⟩ := supplies.load (le_refl 0)
  rw [Int64.ofInt_toInt] at sum
  generalize count : clampAmount (primitive.exactAmount amount) = places at sum
  have told := effect_operandsFor (congrArg Operation.transfer? operation) target source amount
  rw [count] at told
  have current := RegisterFile.fetch_eq found readable 0
  have exact : how.sum? (d.read 0).toInt (supplied.shift places).toInt = some result := by
    rwa [Register.toInt_read, exactShift_zero]
  have settled : file.settle target result = d.settle result := by
    have got := RegisterFile.get_eq_ok_iff.mpr found
    simp only [RegisterFile.settle, got, bind, Except.bind]
  have unshifted : clampAmount 0 = 0 := rfl
  rw [unshifted] at read
  cases outcome : d.settle result with
  | error fault =>
    apply perform_of_load_error told rfl
    simp only [Effect.load, read, current, Combination.load_of_sum? exact, settled, outcome, bind,
      Except.bind]
  | ok value =>
    have loaded : (Effect.combine how target source places).load file = .ok (value, 0) := by
      simp only [Effect.load, read, current, Combination.load_of_sum? exact, settled, outcome, bind,
        Except.bind, pure, Except.pure]
    exact (perform_fits told rfl found writable loaded).stores_latched

/-- A sum of two words is far from the ends of the 128-bit range. -/
theorem sum_bounds {current source : Word} (sum : how.sum? current.toInt source.toInt = some result) :
    -2 ^ 127 ≤ result ∧ result < 2 ^ 127 := by
  have currentLeast := current.le_toInt
  have currentMost := current.toInt_lt
  have sourceLeast := source.le_toInt
  have sourceMost := source.toInt_lt
  cases how with
  | add | sub =>
    cases sum
    omega
  | and | or | xor => cases sum

/-- Addition and subtraction in closed form. The exact result is cut to the bus where the target
wraps, stopped at the ends of its range first where it saturates, and refused where it rejects what
lies outside. Source and target may be one register. -/
theorem sum_closed_form (primitive : Primitive) (how : Combination)
    (operation : primitive.operation = .combine how) (file : RegisterFile) (target : String)
    (d : Register) (found : file.find? target = some d) (readable : d.access.Allows .read)
    (writable : d.access.Allows .write) (source : Operand) (number : Int)
    (supplies : source.Supplies file 0 number) (amount : Option Int32) (result : Int)
    (sum : how.sum? (d.value.toInt % 2 ^ d.busWidth)
      (Word.shift (Int64.ofInt number) (clampAmount (primitive.exactAmount amount))).toInt =
        some result) :
    let action := primitive.perform (primitive.operandsFor target source amount)
    (Int64.ofInt number).toInt = number ∧ (-2 ^ 127 ≤ result ∧ result < 2 ^ 127) ∧
      match d.overflow with
      | .wrap => action.Stores file d (result % 2 ^ d.busWidth)
      | .saturate => action.Stores file d (max 0 (min result (2 ^ d.bits - 1)) % 2 ^ d.busWidth)
      | .reject =>
        if result < 0 ∨ 2 ^ d.bits - 1 < result then
          ∃ nearest : Word, nearest.toInt = max (-2 ^ 63) (min result (2 ^ 63 - 1)) ∧
            action file = .error (.registerOverflow d.name nearest 0) file
        else action.Stores file d (result % 2 ^ d.busWidth) := by
  intro action
  have performed := perform_sum operation found readable writable supplies sum
  obtain ⟨supplied, _, held⟩ := supplies.load (le_refl 0)
  refine ⟨by rw [← held, Int64.ofInt_toInt], ?_, ?_⟩
  · rw [← exactShift_zero d.value.toInt, ← Register.toInt_read] at sum
    exact sum_bounds sum
  cases policy : d.overflow with
  | wrap =>
    rw [Register.settle_of_wrap policy] at performed
    have bus : d.busWidth ≤ 64 := d.busWidth_le_bits.trans (d.bits_le.trans (by decide))
    exact Word.toInt_ofInt_emod result bus ▸ performed
  | saturate =>
    obtain ⟨value, settled, stopped⟩ := Register.settle_of_saturate policy result
    rw [settled] at performed
    exact stopped ▸ performed
  | reject =>
    by_cases outside : result < 0 ∨ 2 ^ d.bits - 1 < result
    · rw [Register.settle_of_outside policy outside] at performed
      simp only [if_pos outside]
      exact ⟨_, Word.toInt_nearest result, performed⟩
    · simp only [if_neg outside]
      rw [Register.settle_of_reject policy (by omega) (by omega)] at performed
      have whole : (Int64.ofInt result).toInt = result := d.toInt_ofInt_of_within (by omega) (by omega)
      simp only [whole] at performed
      exact performed

theorem sum_closed_form_doubled :
    let d := Register.byte .reject 200
    let file := RegisterFile.single d
    let adder : Primitive := { operation := .combine .add, order := .sourceFirst, amount := -1 }
    let sum := Combination.add.sum? (d.value.toInt % 2 ^ 8)
      (Word.shift (Int64.ofInt 200) (clampAmount (adder.exactAmount (some 2)))).toInt
    file.find? "A" = some d ∧ d.access.Allows .read ∧ d.access.Allows .write ∧
      (Operand.register "A").Supplies file 0 200 ∧ sum = some 600 ∧
      ∃ nearest : Word, nearest.toInt = 600 ∧
        adder.perform [.register "A", .immediate 2, .register "A"] file =
          .error (.registerOverflow "Accumulator" nearest 0) file := by
  intro d file adder sum
  have found : file.find? "A" = some d := RegisterFile.find?_single (by decide)
  have readable : d.access.Allows .read := by decide
  have writable : d.access.Allows .write := by decide
  have supplies : (Operand.register "A").Supplies file 0 200 := .of_register found readable
  have summed : sum = some 600 := by decide +kernel
  have operands : adder.operandsFor "A" (.register "A") (some 2) =
      [.register "A", .immediate 2, .register "A"] := by decide
  have closed := sum_closed_form adder .add rfl file "A" d found readable writable (.register "A") 200
    supplies (some 2) 600 summed
  simp only [operands, d] at closed
  obtain ⟨_, _, nearest, told, refused⟩ := closed
  exact ⟨found, readable, writable, supplies, summed, nearest, told, refused⟩

/-- Overflow of a sum is judged on the exact result, as long as a word holds the shifted source,
which is always so where it is shifted to the right. The bus is as wide as the target here, so that
nothing is cut. -/
theorem sum_exact_of_fits (primitive : Primitive) (how : Combination)
    (operation : primitive.operation = .combine how) (file : RegisterFile) (target : String)
    (d : Register) (found : file.find? target = some d) (readable : d.access.Allows .read)
    (writable : d.access.Allows .write) (whole : d.busWidth = d.bits) (source : Operand) (number : Int)
    (supplies : source.Supplies file 0 number) (amount : Option Int32) (total : Int)
    (sum : how.sum? d.value.toInt (exactShift number (primitive.exactAmount amount)) = some total)
    (fits : 0 < primitive.exactAmount amount →
      -2 ^ 63 ≤ exactShift number (primitive.exactAmount amount) ∧
        exactShift number (primitive.exactAmount amount) < 2 ^ 63) :
    let action := primitive.perform (primitive.operandsFor target source amount)
    (d.overflow = .saturate →
      action.Stores file d (max 0 (min total (2 ^ d.bits - 1))) ∧
        (how = .add → 0 ≤ number → d.value.toInt ≤ max 0 (min total (2 ^ d.bits - 1)))) ∧
    (d.overflow = .reject →
      if total < 0 ∨ 2 ^ d.bits - 1 < total then
        ∃ nearest : Word, nearest.toInt = max (-2 ^ 63) (min total (2 ^ 63 - 1)) ∧
          action file = .error (.registerOverflow d.name nearest 0) file
      else action.Stores file d total) := by
  intro action
  have shifted : (Word.shift (Int64.ofInt number) (clampAmount (primitive.exactAmount amount))).toInt =
      exactShift number (primitive.exactAmount amount) := by
    obtain ⟨supplied, _, rfl⟩ := supplies.load (le_refl 0)
    rw [Word.shift_clampAmount, Int64.ofInt_toInt]
    by_cases left : 0 < primitive.exactAmount amount
    · exact Word.toInt_shift_of_fits (fits left).1 (fits left).2
    · exact Word.toInt_shift_of_nonpos supplied (Int.not_lt.mp left)
  have performed := perform_sum operation found readable writable supplies
    (by rwa [shifted, d.toInt_value_emod whole])
  have kept {value : Int} (nonneg : 0 ≤ value) (within : value ≤ 2 ^ d.bits - 1) :
      value % 2 ^ d.busWidth = value := by
    rw [whole]
    exact Int.emod_eq_of_lt nonneg (Int.lt_of_le_sub_one within)
  have positive := d.two_pow_bits_pos
  constructor
  · intro saturates
    obtain ⟨value, settled, stopped⟩ := Register.settle_of_saturate saturates total
    simp only [settled, stopped] at performed
    rw [kept (by omega) (by omega)] at performed
    refine ⟨performed, ?_⟩
    rintro rfl nonneg
    have more := exactShift_nonneg nonneg (primitive.exactAmount amount)
    have within := d.toInt_value_le
    obtain rfl := Option.some.inj sum
    omega
  · intro rejects
    by_cases outside : total < 0 ∨ 2 ^ d.bits - 1 < total
    · rw [Register.settle_of_outside rejects outside] at performed
      rw [if_pos outside]
      exact ⟨_, Word.toInt_nearest total, performed⟩
    · rw [if_neg outside]
      rw [Register.settle_of_reject rejects (by omega) (by omega)] at performed
      have word := d.toInt_ofInt_of_within (Int.not_lt.mp fun below => outside (.inl below))
        (Int.not_lt.mp fun beyond => outside (.inr beyond))
      simp only [word] at performed
      rwa [kept (by omega) (by omega)] at performed

/-- The largest single bit that a word holds, added to a register that saturates. -/
theorem sum_exact_of_fits_highest_bit :
    let d := Register.byte .saturate 200
    let file := RegisterFile.single d
    let adder : Primitive := { operation := .combine .add }
    let places := adder.exactAmount (some 62)
    file.find? "A" = some d ∧ d.access.Allows .read ∧ d.access.Allows .write ∧ d.busWidth = d.bits ∧
      (Operand.immediate 1).Supplies file 0 1 ∧
      Combination.add.sum? d.value.toInt (exactShift 1 places) = some (200 + 2 ^ 62) ∧
      (0 < places → -2 ^ 63 ≤ exactShift 1 places ∧ exactShift 1 places < 2 ^ 63) ∧
      d.overflow = .saturate ∧
      Action.Stores (adder.perform [.register "A", .immediate 1, .immediate 62]) file d 255 := by
  intro d file adder places
  have found : file.find? "A" = some d := RegisterFile.find?_single (by decide)
  have readable : d.access.Allows .read := by decide
  have writable : d.access.Allows .write := by decide
  have counted : places = 62 := by decide
  have shifted : exactShift 1 places = 2 ^ 62 := by
    rw [counted, exactShift_of_nonneg 1 (by decide)]
    decide
  have sum : Combination.add.sum? d.value.toInt (exactShift 1 places) = some (200 + 2 ^ 62) := by
    rw [shifted]
    rfl
  have fits : 0 < places → -2 ^ 63 ≤ exactShift 1 places ∧ exactShift 1 places < 2 ^ 63 := by
    rw [shifted]
    decide
  have operands : adder.operandsFor "A" (.immediate 1) (some 62) =
      [.register "A", .immediate 1, .immediate 62] := by decide
  have supplies : (Operand.immediate 1).Supplies file 0 1 := .of_immediate file 1
  have closed := sum_exact_of_fits adder .add rfl file "A" d found readable writable rfl (.immediate 1) 1
    supplies (some 62) (200 + 2 ^ 62) sum fits
  rw [operands] at closed
  exact ⟨found, readable, writable, rfl, supplies, sum, fits, rfl, (closed.1 rfl).1⟩

/-- Where the shifted source leaves the word, overflow is not seen: a register that saturates falls
to zero when one, shifted by 63 places, is added to it. -/
theorem sum_not_exact_beyond_word :
    let d := Register.byte .saturate 5
    let file := RegisterFile.single d
    let adder : Primitive := { operation := .combine .add }
    let action := adder.perform [.register "A", .immediate 1, .immediate 63]
    file.find? "A" = some d ∧ d.access.Allows .read ∧ d.access.Allows .write ∧ d.busWidth = d.bits ∧
      (Operand.immediate 1).Supplies file 0 1 ∧
      Combination.add.sum? d.value.toInt (exactShift 1 (adder.exactAmount (some 63))) =
        some (5 + 2 ^ 63) ∧
      action.Stores file d 0 ∧ ¬ action.Stores file d (max 0 (min (5 + 2 ^ 63) (2 ^ d.bits - 1))) := by
  intro d file adder action
  have found : file.find? "A" = some d := RegisterFile.find?_single (by decide)
  have supplies : (Operand.immediate 1).Supplies file 0 1 := .of_immediate file 1
  have places : adder.exactAmount (some 63) = 63 := by decide
  have shifted : exactShift 1 63 = 2 ^ 63 := by
    rw [exactShift_of_nonneg 1 (by decide)]
    decide
  have operands : adder.operandsFor "A" (.immediate 1) (some 63) =
      [.register "A", .immediate 1, .immediate 63] := by decide
  have stores : action.Stores file d 0 := by
    -- in a word the shifted source is the least number
    have performed := @perform_sum adder .add file "A" d (.immediate 1) 1 (5 - 2 ^ 63) (some 63) rfl found
      (by decide) (by decide) supplies (by decide +kernel)
    have settled : d.settle (5 - 2 ^ 63) = .ok 0 := by decide +kernel
    simp only [settled, operands] at performed
    exact performed
  refine ⟨found, by decide, by decide, rfl, supplies, ?_, stores, ?_⟩
  · rw [places, shifted]
    rfl
  · intro exact
    have same := stores.unique exact
    have largest : max (0 : Int) (min (5 + 2 ^ 63) (2 ^ d.bits - 1)) = 255 := by decide
    rw [largest] at same
    cases same

end Primitive

end DspChip
