import DspChip.Proofs.Register.Write
/-! Fitting exact numbers to a register. A write makes of the number that it offers what the policy
tells, and a store on behalf of an instruction puts that into the file or fails. -/

namespace DspChip

namespace Register

/-- What a register makes of a number that is not negative: the low bits where it wraps, its largest
value where it saturates, and nothing where it rejects a number that is too large. -/
def fit (r : Register) (exact : Int) : Option Int :=
  match r.overflow with
  | .wrap => some (exact % 2 ^ r.bits)
  | .saturate => some (min exact (2 ^ r.bits - 1))
  | .reject => if 2 ^ r.bits - 1 < exact then none else some exact

variable {r : Register} {exact fitted : Int}

theorem two_pow_bits_pos (r : Register) : (0 : Int) < 2 ^ r.bits := Int.pow_pos (by decide)

theorem toInt_value_nonneg (r : Register) : 0 ≤ r.value.toInt := r.represents_frame.nonneg

theorem toInt_value_le (r : Register) : r.value.toInt ≤ 2 ^ r.bits - 1 :=
  r.toInt_bitMask ▸ r.represents_frame.le_bitMask

theorem toInt_value_emod (whole : r.busWidth = r.bits) :
    r.value.toInt % 2 ^ r.busWidth = r.value.toInt := by
  rw [whole]
  exact Int.emod_eq_of_lt r.toInt_value_nonneg (Int.lt_of_le_sub_one r.toInt_value_le)

theorem fit_of_le (nonneg : 0 ≤ exact) (fits : exact ≤ 2 ^ r.bits - 1) : r.fit exact = some exact := by
  unfold fit
  split
  · rw [Int.emod_eq_of_lt nonneg (Int.lt_of_le_sub_one fits)]
  · rw [min_eq_left fits]
  · rw [if_neg (Int.not_lt.mpr fits)]

/-- Numbers that are too large differ in their low bits only. -/
theorem fit_congr {other : Int} (beyond : 2 ^ r.bits - 1 < exact) (also : 2 ^ r.bits - 1 < other)
    (low : exact % 2 ^ r.bits = other % 2 ^ r.bits) : r.fit exact = r.fit other := by
  unfold fit
  split
  · rw [low]
  · rw [min_eq_right beyond.le, min_eq_right also.le]
  · rw [if_pos beyond, if_pos also]

theorem bounds_of_fit (nonneg : 0 ≤ exact) (made : r.fit exact = some fitted) :
    0 ≤ fitted ∧ fitted < 2 ^ r.bits := by
  have positive := r.two_pow_bits_pos
  unfold fit at made
  split at made
  · cases made
    exact ⟨Int.emod_nonneg _ positive.ne', Int.emod_lt_of_pos _ positive⟩
  · cases made
    omega
  · split at made
    · cases made
    · cases made
      omega

theorem exists_fit (accepts : r.overflow ≠ .reject) (exact : Int) : ∃ x, r.fit exact = some x := by
  unfold fit
  split
  · exact ⟨_, rfl⟩
  · exact ⟨_, rfl⟩
  · rename_i rejects
    exact absurd rejects accepts

/-- Fitting after each of two shifts in one direction is fitting after both. -/
theorem fit_bind_fit {first second : Int} (nonneg : 0 ≤ exact) (fits : exact ≤ 2 ^ r.bits - 1)
    (alike : (0 ≤ first ∧ 0 ≤ second) ∨ (first ≤ 0 ∧ second ≤ 0)) :
    ((r.fit (exactShift exact first)).bind fun x => r.fit (exactShift x second)) =
      r.fit (exactShift exact (first + second)) := by
  rw [← exactShift_exactShift exact alike]
  have shifted := exactShift_nonneg nonneg first
  rcases alike with ⟨_, left⟩ | ⟨right, _⟩
  · generalize exactShift exact first = number at shifted
    have positive := r.two_pow_bits_pos
    have places : (1 : Int) ≤ 2 ^ second.toNat := one_le_pow₀ (by decide)
    have grows {n : Int} (nonneg : 0 ≤ n) : n ≤ n * 2 ^ second.toNat :=
      le_mul_of_one_le_right nonneg places
    by_cases within : number ≤ 2 ^ r.bits - 1
    · rw [fit_of_le shifted within, Option.bind_some]
    · -- what the first shift lost the second does not bring back
      have full := grows (n := 2 ^ r.bits - 1) (by omega)
      have larger := grows shifted
      simp only [exactShift_of_nonneg _ left]
      unfold fit
      split
      · exact congrArg some ((Int.mod_modEq number _).mul_right _)
      · rw [min_eq_right (by omega), Option.bind_some, min_eq_right (by omega),
          min_eq_right (by omega)]
      · rw [if_pos (by omega), if_pos (by omega), Option.bind_none]
  · have smaller := exactShift_le_self nonneg right
    rw [fit_of_le shifted (by omega), Option.bind_some]

theorem fit_offered_zero (r : Register) (input : Word) :
    r.fit (r.offered input 0) = some (input.toInt % 2 ^ r.busWidth) := by
  rw [offered, exactShift_zero, ← toInt_latch]
  exact fit_of_le (r.toInt_latch_nonneg input) (Int.le_sub_one_of_lt (r.toInt_latch_lt input))

/-- Stopping the amount at the ends of its range does not show in what is stored. -/
theorem fit_offered_clampAmount (r : Register) (input : Word) (amount : Int) :
    r.fit (r.offered input (clampAmount amount)) = r.fit (r.offered input amount) := by
  have nonneg := r.toInt_latch_nonneg input
  have width := r.bits_le
  rw [offered_eq, offered_eq]
  generalize r.latch input = v at nonneg
  rcases clampAmount_cases amount with same | ⟨far, stopped⟩ | ⟨far, stopped⟩
  · rw [same]
  · rcases Int.lt_or_eq_of_le nonneg with positive | empty
    · -- both amounts carry the lowest bit beyond the width
      have above := le_exactShift_of_pos positive (show ((r.bits : Nat) : Int) ≤ amount by omega)
      have also := le_exactShift_of_pos positive
        (show ((r.bits : Nat) : Int) ≤ clampAmount amount by omega)
      have bound : r.bits ≤ 64 := by omega
      apply fit_congr (by omega) (by omega)
      rw [← Word.toInt_shift_emod v _ bound, ← Word.toInt_shift_emod v _ bound,
        Word.shift_clampAmount]
    · rw [← empty, exactShift_of_nonneg 0 (by omega), exactShift_of_nonneg 0 (by omega),
        Int.zero_mul, Int.zero_mul]
  · rw [← Word.toInt_shift_of_nonpos v (by omega), ← Word.toInt_shift_of_nonpos v (by omega),
      Word.shift_clampAmount]

theorem toInt_put_ofInt (nonneg : 0 ≤ exact) (below : exact < 2 ^ r.bits) :
    (r.put (Int64.ofInt exact)).value.toInt = exact := by
  have word : (2 ^ r.bits : Int) ≤ 2 ^ 63 := pow_le_pow_right₀ (by decide) r.bits_le
  rw [toInt_put, Int64.toInt_ofInt_of_le (by omega) (by omega), Int.emod_eq_of_lt nonneg below]

theorem eq_put_ofInt {written : Register} (shape : written.toShape = r.toShape)
    (holds : written.value.toInt = exact) : written = r.put (Int64.ofInt exact) := by
  rw [← holds, Int64.ofInt_toInt, put_value_of_toShape_eq shape]

theorem tryWrite_eq_fit (r : Register) (input : Word) (amount : Int) :
    r.tryWrite input amount =
      match r.fit (r.offered input amount) with
      | some x => .ok (r.put (Int64.ofInt x))
      | none => .error (.registerOverflow r.name input amount) := by
  have shape := r.toShape_write input amount
  have kept {exact : Int} (stored : (r.write input amount).value.toInt = exact) :
      r.write input amount = r.put (Int64.ofInt exact) :=
    eq_put_ofInt shape stored
  rw [tryWrite_eq]
  cases policy : r.overflow with
  | wrap =>
    rw [if_neg (by simp), fit, policy]
    exact congrArg Except.ok (kept (r.toInt_write_of_ne input amount (by simp [policy])))
  | saturate =>
    rw [if_neg (by simp), fit, policy]
    exact congrArg Except.ok (kept (r.toInt_write_of_saturate input amount policy))
  | reject =>
    rw [fit, policy]
    by_cases beyond : 2 ^ r.bits - 1 < r.offered input amount
    · simp only [beyond, and_true, if_true]
    · have stored := r.toInt_write_of_ne input amount (by simp [policy])
      rw [r.offered_emod input amount (Int.not_lt.mp beyond)] at stored
      simp only [beyond, and_false, if_false]
      exact congrArg Except.ok (kept stored)

end Register

def Register.byte (overflow : Overflow) (value : Word)
    (within : value &&& Word.mask 8 = value := by decide) : Register where
  name := "Accumulator"
  shortName := "A"
  bits := 8
  busWidth := 8
  overflow := overflow
  value := value
  within := within
  one_le_busWidth := Nat.succ_pos 7
  busWidth_le_bits := le_rfl
  bits_le := Nat.le_add_right 8 55

namespace RegisterFile

variable {file : RegisterFile} {ident : String} {r : Register}

theorem put_value_put (found : file.find? ident = some r) (contents : Word) :
    file.put ident (r.put contents).value = file.put ident contents := by
  obtain ⟨front, back, split, others⟩ := exists_split_of_find? found
  have answers := answers_of_find?_eq_some found
  apply eq_of_registers
  rw [registers_put_of_split _ split answers others, registers_put_of_split _ split answers others,
    Register.put_value_of_toShape_eq (r.toShape_put contents)]

theorem store_eq_fit (found : file.find? ident = some r) (allowed : r.access.Allows .write)
    (value : Word) (amount : Int) :
    file.store ident value amount =
      match r.fit (r.offered value amount) with
      | some x => .ok (file.put ident (Int64.ofInt x))
      | none => .error (.registerOverflow r.name value amount) := by
  have claimed := claim_eq_ok_iff.mpr ⟨found, allowed⟩
  simp only [store, claimed, r.tryWrite_eq_fit, bind, Except.bind]
  cases r.fit (r.offered value amount) with
  | none => rfl
  | some x => exact congrArg Except.ok (put_value_put found _)

def Replaces (file : RegisterFile) (r written : Register) (next : RegisterFile) : Prop :=
  ∃ front back, file.registers = front ++ r :: back ∧ next.registers = front ++ written :: back ∧
    written.toShape = r.toShape

theorem replaces_put (found : file.find? ident = some r) (contents : Word) :
    file.Replaces r (r.put contents) (file.put ident contents) := by
  obtain ⟨front, back, split, others⟩ := exists_split_of_find? found
  exact ⟨front, back, split,
    registers_put_of_split contents split (answers_of_find?_eq_some found) others, rfl⟩

theorem Replaces.shape {written : Register} {next : RegisterFile} (replaces : file.Replaces r written next) :
    written.toShape = r.toShape := by
  obtain ⟨_, _, _, _, same⟩ := replaces
  exact same

theorem eq_of_splits {front back front' back' : List Register} (split : file.registers = front ++ r :: back)
    (split' : file.registers = front' ++ r :: back') : front = front' ∧ back = back' := by
  have once := not_answers_of_split split r.answers_name
  have inFront : r ∉ front := fun member => once r (List.mem_append_left back member) r.answers_name
  have inBack : r ∉ back := fun member => once r (List.mem_append_right front member) r.answers_name
  obtain ⟨same, -, also⟩ :=
    (List.append_cons_inj_of_notMem inFront inBack).mp (split.symm.trans split')
  exact ⟨same, also⟩

theorem Replaces.unique {written other : Register} {next : RegisterFile}
    (replaces : file.Replaces r written next) (also : file.Replaces r other next) : written = other := by
  obtain ⟨front, back, split, left, _⟩ := replaces
  obtain ⟨front', back', split', left', _⟩ := also
  obtain ⟨rfl, rfl⟩ := eq_of_splits split split'
  exact (List.cons.inj (List.append_cancel_left (left.symm.trans left'))).1

def single (r : Register) : RegisterFile := ⟨[r], List.pairwise_singleton _ _⟩

theorem find?_single (answers : r.Answers ident) : (single r).find? ident = some r :=
  find?_eq_some_of_answers List.mem_cons_self answers

end RegisterFile

namespace Action

def Stores (action : Action Unit) (file : RegisterFile) (r : Register) (number : Int) : Prop :=
  ∃ next written, action file = .ok () next ∧ file.Replaces r written next ∧
    written.value.toInt = number

/-- The action stores what a register makes of an exact number, or fails with a fault and leaves the
file as it is. -/
def Fits (action : Action Unit) (file : RegisterFile) (r : Register) (exact : Int) (fault : Fault) :
    Prop :=
  match r.fit exact with
  | some x => action.Stores file r x
  | none => action file = .error fault file

theorem Stores.unique {action : Action Unit} {file : RegisterFile} {r : Register} {number other : Int}
    (stores : action.Stores file r number) (also : action.Stores file r other) : number = other := by
  obtain ⟨next, written, done, replaces, holds⟩ := stores
  obtain ⟨next', written', done', replaces', holds'⟩ := also
  cases done.symm.trans done'
  rw [← holds, ← holds', replaces.unique replaces']

variable {action : Action Unit} {next : RegisterFile → Except Fault RegisterFile}
  {file : RegisterFile} {ident : String} {r : Register} {exact : Int} {fault : Fault}

theorem stores_change (found : file.find? ident = some r) (nonneg : 0 ≤ exact)
    (below : exact < 2 ^ r.bits) (left : next file = .ok (file.put ident (Int64.ofInt exact))) :
    (change next).Stores file r exact := by
  refine ⟨_, _, ?_, RegisterFile.replaces_put found _, Register.toInt_put_ofInt nonneg below⟩
  rw [change, left]

theorem fits_change (found : file.find? ident = some r) (allowed : r.access.Allows .write)
    {value : Word} {amount : Int} (left : next file = file.store ident value amount) :
    (change next).Fits file r (r.offered value amount) (.registerOverflow r.name value amount) := by
  rw [RegisterFile.store_eq_fit found allowed] at left
  unfold Fits
  cases made : r.fit (r.offered value amount) with
  | none =>
    rw [made] at left
    rw [change, left]
  | some x =>
    rw [made] at left
    obtain ⟨nonneg, below⟩ := Register.bounds_of_fit (r.offered_nonneg value amount) made
    exact stores_change found nonneg below left

theorem Fits.congr {other : Int} (fits : action.Fits file r exact fault)
    (same : r.fit exact = r.fit other) : action.Fits file r other fault := by
  rwa [Fits, same] at fits

theorem Fits.stores_latched {value : Word} (fits : action.Fits file r (r.offered value 0) fault) :
    action.Stores file r (value.toInt % 2 ^ r.busWidth) := by
  rwa [Fits, Register.fit_offered_zero] at fits

end Action

/-! Contents as two's complement numbers. -/

namespace Register

def twosComplement (r : Register) : Int := (BitVec.ofInt r.bits r.value.toInt).toInt

theorem twosComplement_eq_bmod (r : Register) :
    r.twosComplement = r.value.toInt.bmod (2 ^ r.bits) :=
  BitVec.toInt_ofInt _

theorem two_pow_bits_eq (r : Register) : (2 ^ r.bits : Int) = 2 * 2 ^ (r.bits - 1) := by
  rw [← pow_succ', Nat.sub_add_cancel (r.one_le_busWidth.trans r.busWidth_le_bits)]

theorem twosComplement_eq (r : Register) :
    r.twosComplement =
      if 2 * r.value.toInt < 2 ^ r.bits then r.value.toInt else r.value.toInt - 2 ^ r.bits := by
  have nonneg := r.toInt_value_nonneg
  have within := r.toInt_value_le
  have even := r.two_pow_bits_eq
  rw [twosComplement_eq_bmod, Int.bmod_def]
  push_cast
  rw [Int.emod_eq_of_lt nonneg (by omega)]
  split
  · rw [if_pos (by omega)]
  · rw [if_neg (by omega)]

theorem le_twosComplement (r : Register) : -2 ^ (r.bits - 1) ≤ r.twosComplement :=
  BitVec.le_toInt _

theorem twosComplement_lt (r : Register) : r.twosComplement < 2 ^ (r.bits - 1) :=
  BitVec.toInt_lt

/-- Shifting the highest bit of the register to that of a word and back spreads it over the bits
above. -/
theorem toInt_signed (r : Register) : r.signed.toInt = r.twosComplement := by
  have width := r.bits_le
  have wide := r.one_le_busWidth.trans r.busWidth_le_bits
  have spare : ((64 : Int) - r.bits).toNat = 64 - r.bits := by omega
  have back : (-((r.bits : Int) - 64)).toNat = 64 - r.bits := by omega
  have positive : (0 : Int) < 2 ^ (64 - r.bits) := by positivity
  have full : (2 ^ r.bits : Int) * 2 ^ (64 - r.bits) = 2 ^ 64 := by
    rw [← pow_add, Nat.add_sub_cancel' (by omega)]
  have half : (2 ^ (r.bits - 1) : Int) * 2 ^ (64 - r.bits) = 2 ^ 63 := by
    rw [← pow_add, show r.bits - 1 + (64 - r.bits) = 63 by omega]
  have raised : (r.value.shift (64 - r.bits)).toInt = r.twosComplement * 2 ^ (64 - r.bits) := by
    have above := Int.mul_le_mul_of_nonneg_right r.le_twosComplement positive.le
    have below := Int.mul_lt_mul_of_pos_right r.twosComplement_lt positive
    rw [Int.neg_mul, half] at above
    rw [half] at below
    have word : (r.twosComplement * 2 ^ (64 - r.bits)).bmod (2 ^ 64) =
        r.twosComplement * 2 ^ (64 - r.bits) := Int.bmod_eq_of_le (by omega) (by omega)
    rw [Word.toInt_shift, exactShift_of_nonneg _ (by omega), spare, ← word]
    rw [r.twosComplement_eq]
    split
    · rfl
    · rw [Int.sub_mul, full]
      exact (Int.sub_bmod_right _ (2 ^ 64)).symm
  rw [signed, Word.toInt_shift_of_nonpos _ (by omega), exactShift_of_nonpos _ (by omega), back, raised]
  exact Int.mul_ediv_cancel _ positive.ne'

theorem twosComplement_put {r : Register} {number : Int} (least : -2 ^ (r.bits - 1) ≤ number)
    (most : number < 2 ^ (r.bits - 1)) :
    (r.put (Int64.ofInt (number % 2 ^ r.bits))).twosComplement = number := by
  have positive := r.two_pow_bits_pos
  have even := r.two_pow_bits_eq
  have holds := r.toInt_put_ofInt (Int.emod_nonneg number positive.ne')
    (Int.emod_lt_of_pos number positive)
  rw [twosComplement_eq_bmod, holds, toShape_put]
  have low : (number % 2 ^ r.bits).bmod (2 ^ r.bits) = number.bmod (2 ^ r.bits) := by
    exact_mod_cast Int.emod_bmod number (2 ^ r.bits)
  rw [low]
  apply Int.bmod_eq_of_le
  · push_cast
    omega
  · push_cast
    omega

end Register

end DspChip
