import DspChip.Number
import Mathlib.Data.Int.ModEq
import Mathlib.Data.Rat.Floor
/-! Masks and shifts of words, as exact numbers. -/

namespace DspChip

/-! Masks. Up to 63 low bits make a positive word, and cutting a word to them is division with a
remainder that is never negative. -/

namespace Word

variable {bits : Nat}

theorem two_pow_le (bound : bits ≤ 63) : 2 ^ bits ≤ 2 ^ 63 :=
  Nat.pow_le_pow_right Nat.two_pos bound

theorem toNat_toBitVec_mask (bound : bits ≤ 63) : (mask bits).toBitVec.toNat = 2 ^ bits - 1 := by
  have small := two_pow_le bound
  rw [mask, Int64.toBitVec_ofNat', Nat.one_shiftLeft, BitVec.toNat_ofNat]
  exact Nat.mod_eq_of_lt (by omega)

theorem toInt_mask (bound : bits ≤ 63) : (mask bits).toInt = 2 ^ bits - 1 := by
  have small := two_pow_le bound
  have positive := Nat.two_pow_pos bits
  have exact := Int64.toInt_ofNat_of_lt (n := 1 <<< bits - 1) (by rw [Nat.one_shiftLeft]; omega)
  rw [mask, exact, Nat.one_shiftLeft]
  push_cast [positive]
  rfl

theorem toNat_and_mask (v : Word) (bound : bits ≤ 63) :
    (v &&& mask bits).toBitVec.toNat = v.toBitVec.toNat % 2 ^ bits := by
  rw [Int64.toBitVec_and, BitVec.toNat_and, toNat_toBitVec_mask bound,
    Nat.and_two_pow_sub_one_eq_mod]

/-- A word and its pattern leave the same remainder. -/
theorem toInt_emod_two_pow (v : Word) (bound : bits ≤ 64) :
    v.toInt % 2 ^ bits = v.toBitVec.toNat % 2 ^ bits := by
  have divides : (2 ^ bits : Int) ∣ ↑(2 ^ 64 : Nat) := by
    rw [Nat.cast_pow]
    exact pow_dvd_pow 2 bound
  rw [← Int64.toInt_toBitVec, BitVec.toInt_eq_toNat_bmod, ← Int.emod_emod_of_dvd _ divides,
    Int.bmod_emod, Int.emod_emod_of_dvd _ divides]

theorem toInt_ofInt_emod (n : Int) (bound : bits ≤ 64) :
    (Int64.ofInt n).toInt % 2 ^ bits = n % 2 ^ bits := by
  have divides : (2 ^ bits : Int) ∣ ((2 ^ 64 : Nat) : Int) := by
    rw [Nat.cast_pow]
    exact pow_dvd_pow 2 bound
  calc
    (Int64.ofInt n).toInt % 2 ^ bits = n.bmod (2 ^ 64) % ((2 ^ 64 : Nat) : Int) % 2 ^ bits := by
      rw [Int64.toInt_ofInt, Int.emod_emod_of_dvd _ divides]
      rfl
    _ = n % 2 ^ bits := by rw [Int.bmod_emod, Int.emod_emod_of_dvd _ divides]

theorem toInt_and_mask (v : Word) (bound : bits ≤ 63) :
    (v &&& mask bits).toInt = v.toInt % 2 ^ bits := by
  have small := two_pow_le bound
  have below := Nat.mod_lt v.toBitVec.toNat (Nat.two_pow_pos bits)
  have positive : 2 * (v &&& mask bits).toBitVec.toNat < 2 ^ 64 := by
    rw [toNat_and_mask v bound]
    omega
  rw [← Int64.toInt_toBitVec, BitVec.toInt_eq_toNat_of_lt positive, toNat_and_mask v bound,
    toInt_emod_two_pow v (by omega)]
  norm_cast

theorem toInt_and_mask_nonneg (v : Word) (bound : bits ≤ 63) : 0 ≤ (v &&& mask bits).toInt := by
  rw [toInt_and_mask v bound]
  exact Int.emod_nonneg _ (Int.pow_pos (by decide)).ne'

theorem toInt_and_mask_le (v : Word) (bound : bits ≤ 63) :
    (v &&& mask bits).toInt ≤ (mask bits).toInt := by
  rw [toInt_and_mask v bound, toInt_mask bound]
  exact Int.le_sub_one_of_lt (Int.emod_lt_of_pos _ (Int.pow_pos (by decide)))

end Word

/-! Shifts. A shifted word agrees with the exact shift of its value in all the bits that it keeps: a
right shift rounds down, and a left shift only loses bits at the top. -/

/-- The exact value of a number shifted to the left, or by a negative amount to the right. -/
def exactShift (n amount : Int) : Int := ⌊(n : ℚ) * 2 ^ amount⌋

theorem exactShift_of_nonneg (n : Int) {amount : Int} (left : 0 ≤ amount) :
    exactShift n amount = n * 2 ^ amount.toNat := by
  obtain ⟨places, rfl⟩ := Int.eq_ofNat_of_zero_le left
  have whole : (n : ℚ) * 2 ^ (places : Int) = ((n * 2 ^ places : Int) : ℚ) := by
    rw [zpow_natCast]
    push_cast
    rfl
  rw [exactShift, whole, Int.floor_intCast, Int.toNat_natCast]

theorem exactShift_of_nonpos (n : Int) {amount : Int} (right : amount ≤ 0) :
    exactShift n amount = n / 2 ^ (-amount).toNat := by
  obtain ⟨places, same⟩ := Int.eq_ofNat_of_zero_le (Int.neg_nonneg.mpr right)
  obtain rfl : amount = -(places : Int) := by omega
  have quotient : (n : ℚ) * 2 ^ (-(places : Int)) = (n : ℚ) / ((2 ^ places : Nat) : ℚ) := by
    rw [zpow_neg, zpow_natCast, ← div_eq_mul_inv]
    push_cast
    rfl
  rw [exactShift, quotient, Rat.floor_intCast_div_natCast, Int.neg_neg, Int.toNat_natCast]
  push_cast
  rfl

theorem exactShift_nonneg {n : Int} (nonneg : 0 ≤ n) (amount : Int) : 0 ≤ exactShift n amount := by
  apply Int.floor_nonneg.mpr
  exact mul_nonneg (Int.cast_nonneg nonneg) (zpow_nonneg (by decide) amount)

theorem exactShift_le_self {n amount : Int} (nonneg : 0 ≤ n) (right : amount ≤ 0) :
    exactShift n amount ≤ n := by
  rw [exactShift_of_nonpos n right]
  exact Int.ediv_le_self _ nonneg

theorem le_exactShift_of_pos {n amount : Int} {places : Nat} (positive : 0 < n)
    (far : places ≤ amount) : 2 ^ places ≤ exactShift n amount := by
  rw [exactShift_of_nonneg n (by omega)]
  calc
    (2 ^ places : Int) ≤ 2 ^ amount.toNat := pow_le_pow_right₀ (by decide) (by omega)
    _ ≤ n * 2 ^ amount.toNat := le_mul_of_one_le_left (by positivity) positive

namespace Word

variable {amount : Int} {bits : Nat}

theorem toNat_places (nonneg : 0 ≤ amount) (small : amount < 64) :
    ((Int64.ofInt amount).toBitVec.smod 64).toNat = amount.toNat := by
  have exact : ((Int64.ofInt amount).toBitVec.smod 64).toInt = amount := by
    rw [BitVec.toInt_smod, Int64.toInt_toBitVec,
      Int64.toInt_ofInt_of_le (by omega) (by omega)]
    exact Int.fmod_eq_of_lt nonneg small
  rw [BitVec.toInt_eq_toNat_cond] at exact
  split at exact <;> omega

/-- Of a word that is divided by a large power of two, only the sign is left. -/
theorem toInt_ediv_of_far (v : Word) {places : Nat} (far : 63 ≤ places) :
    v.toInt / 2 ^ places = if v.toInt < 0 then -1 else 0 := by
  have large : (2 ^ 63 : Int) ≤ 2 ^ places := by exact_mod_cast Nat.pow_le_pow_right Nat.two_pos far
  have below := v.toInt_lt
  have above := v.le_toInt
  split
  · rename_i negative
    exact Int.ediv_eq_neg_one_of_neg_of_le negative (by omega)
  · rename_i nonneg
    exact Int.ediv_eq_zero_of_lt (by omega) (by omega)

/-- A right shift rounds down, however far it goes. -/
theorem toInt_shift_of_neg (v : Word) (right : amount < 0) :
    (v.shift amount).toInt = exactShift v.toInt amount := by
  rw [exactShift_of_nonpos v.toInt right.le, shift, if_neg (by omega), if_neg (by omega),
    ← Int64.toInt_toBitVec, Int64.toBitVec_shiftRight, BitVec.toInt_sshiftRight',
    toNat_places (by omega) (by omega), Int.shiftRight_eq_div_pow, Int64.toInt_toBitVec]
  push_cast
  by_cases far : 63 ≤ -amount
  · rw [toInt_ediv_of_far v (by omega), toInt_ediv_of_far v (by omega)]
  · rw [min_eq_left (by omega)]

/-- A left shift loses bits at the top only. -/
theorem toInt_shift_emod_of_nonneg (v : Word) (left : 0 ≤ amount) (bound : bits ≤ 64) :
    (v.shift amount).toInt % 2 ^ bits = exactShift v.toInt amount % 2 ^ bits := by
  rw [exactShift_of_nonneg v.toInt left]
  by_cases far : 64 ≤ amount
  · have divides : (2 ^ bits : Int) ∣ v.toInt * 2 ^ amount.toNat :=
      Dvd.dvd.mul_left (pow_dvd_pow 2 (by omega)) v.toInt
    rw [shift, if_pos far, Int.emod_eq_zero_of_dvd divides]
    exact Int.zero_emod _
  · have word : (2 ^ bits : Int) ∣ ((2 ^ 64 : Nat) : Int) := by
      rw [Nat.cast_pow]
      exact pow_dvd_pow 2 bound
    rw [shift, if_neg far, if_pos left, toInt_emod_two_pow _ bound, Int64.toBitVec_shiftLeft,
      BitVec.shiftLeft_eq', BitVec.toNat_shiftLeft, toNat_places left (by omega), Nat.shiftLeft_eq,
      Int.natCast_emod, Int.emod_emod_of_dvd _ word, Nat.cast_mul, Nat.cast_pow]
    exact (Int.ModEq.symm (toInt_emod_two_pow v bound)).mul_right _

theorem toInt_shift_emod (v : Word) (amount : Int) (bound : bits ≤ 64) :
    (v.shift amount).toInt % 2 ^ bits = exactShift v.toInt amount % 2 ^ bits := by
  by_cases left : 0 ≤ amount
  · exact toInt_shift_emod_of_nonneg v left bound
  · rw [toInt_shift_of_neg v (Int.lt_of_not_ge left)]

end Word

/-! Shift amounts. Shifts in one direction add up, a machine shift is the exact one cut to 64 bits,
and stopping an amount at the ends of the 32-bit range changes no shifted word. -/

theorem exactShift_exactShift (n : Int) {first second : Int}
    (alike : (0 ≤ first ∧ 0 ≤ second) ∨ (first ≤ 0 ∧ second ≤ 0)) :
    exactShift (exactShift n first) second = exactShift n (first + second) := by
  rcases alike with ⟨left, further⟩ | ⟨right, further⟩
  · rw [exactShift_of_nonneg n left, exactShift_of_nonneg _ further,
      exactShift_of_nonneg n (by omega), Int.toNat_add left further, pow_add, mul_assoc]
  · have places : (-(first + second)).toNat = (-first).toNat + (-second).toNat := by omega
    rw [exactShift_of_nonpos n right, exactShift_of_nonpos _ further,
      exactShift_of_nonpos n (by omega), places, pow_add, Int.ediv_ediv_of_nonneg (by positivity)]

theorem exactShift_bounds {n amount least most : Int} (right : amount ≤ 0) (above : least ≤ n)
    (below : n ≤ most) (negative : least ≤ 0) (nonneg : 0 ≤ most) :
    least ≤ exactShift n amount ∧ exactShift n amount ≤ most := by
  rw [exactShift_of_nonpos n right]
  have positive : (0 : Int) < 2 ^ (-amount).toNat := by positivity
  constructor
  · apply (Int.le_ediv_iff_mul_le positive).mpr
    exact (mul_le_of_one_le_right negative positive).trans above
  · exact (Int.ediv_le_ediv positive below).trans (Int.ediv_le_self _ nonneg)

@[simp] theorem exactShift_zero (n : Int) : exactShift n 0 = n := by
  rw [exactShift_of_nonneg n (le_refl 0)]
  simp

section Clamp

variable {amount : Int}

theorem clampAmount_neg_iff : clampAmount amount < 0 ↔ amount < 0 := by
  change max (-2147483648) (min amount 2147483647) < 0 ↔ amount < 0
  omega

/-- An amount changes by being stopped only if it is far beyond the 64 places of a word. -/
theorem clampAmount_cases (amount : Int) :
    clampAmount amount = amount ∨ (64 ≤ amount ∧ 64 ≤ clampAmount amount) ∨
      (amount ≤ -64 ∧ clampAmount amount ≤ -64) := by
  have told : clampAmount amount = max (-2147483648) (min amount 2147483647) := rfl
  omega

theorem min_clampAmount_zero (amount : Int) : min (clampAmount amount) 0 = clampAmount (min amount 0) := by
  change min (max (-2147483648) (min amount 2147483647)) 0 =
    max (-2147483648) (min (min amount 0) 2147483647)
  omega

theorem max_clampAmount_zero (amount : Int) : max (clampAmount amount) 0 = clampAmount (max amount 0) := by
  change max (max (-2147483648) (min amount 2147483647)) 0 =
    max (-2147483648) (min (max amount 0) 2147483647)
  omega

theorem clampAmount_clampAmount (amount : Int) : clampAmount (clampAmount amount) = clampAmount amount := by
  change max (-2147483648) (min (max (-2147483648) (min amount 2147483647)) 2147483647) =
    max (-2147483648) (min amount 2147483647)
  omega

theorem toInt_ofInt_clampAmount (amount : Int) :
    (Int32.ofInt (clampAmount amount)).toInt = clampAmount amount := by
  have told : clampAmount amount = max (-2147483648) (min amount 2147483647) := rfl
  exact Int32.toInt_ofInt_of_le (by omega) (by omega)

end Clamp

namespace Word

/-- A machine shift keeps the low 64 bits of the exact one, and reads them as a signed number. -/
theorem toInt_shift (v : Word) (amount : Int) :
    (v.shift amount).toInt = (exactShift v.toInt amount).bmod (2 ^ 64) := by
  have low := toInt_shift_emod v amount (le_refl 64)
  calc
    (v.shift amount).toInt = (v.shift amount).toInt.bmod (2 ^ 64) := (Int64.toInt_bmod _).symm
    _ = ((v.shift amount).toInt % ((2 ^ 64 : Nat) : Int)).bmod (2 ^ 64) := (Int.emod_bmod _ _).symm
    _ = (exactShift v.toInt amount % ((2 ^ 64 : Nat) : Int)).bmod (2 ^ 64) := by
      rw [Nat.cast_pow]
      exact congrArg (Int.bmod · (2 ^ 64)) low
    _ = (exactShift v.toInt amount).bmod (2 ^ 64) := Int.emod_bmod _ _

theorem toInt_shift_of_fits {v : Word} {amount : Int} (least : -2 ^ 63 ≤ exactShift v.toInt amount)
    (most : exactShift v.toInt amount < 2 ^ 63) :
    (v.shift amount).toInt = exactShift v.toInt amount := by
  rw [toInt_shift, Int.bmod_eq_of_le (by omega) (by omega)]

theorem toInt_shift_of_nonpos (v : Word) {amount : Int} (right : amount ≤ 0) :
    (v.shift amount).toInt = exactShift v.toInt amount := by
  rcases Int.lt_or_eq_of_le right with negative | rfl
  · exact toInt_shift_of_neg v negative
  · apply toInt_shift_of_fits
    · rw [exactShift_zero]
      exact v.le_toInt
    · rw [exactShift_zero]
      exact v.toInt_lt

theorem shift_clampAmount (v : Word) (amount : Int) :
    v.shift (clampAmount amount) = v.shift amount := by
  rcases clampAmount_cases amount with same | ⟨far, stopped⟩ | ⟨far, stopped⟩
  · rw [same]
  · rw [shift, shift, if_pos far, if_pos stopped]
  · have places : min (-clampAmount amount) 63 = min (-amount) 63 := by omega
    rw [shift, shift, if_neg (by omega), if_neg (by omega), if_neg (by omega), if_neg (by omega),
      places]

end Word

end DspChip
