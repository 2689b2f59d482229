import DspChip.Proofs.Register.Representation
/-! What a write stores and a read shows, in exact numbers. The word is cut to the bus and shifted
without any bound; what then goes past the width of the register goes by its policy. -/

namespace DspChip.Register

section Offered

variable (r : Register) (input : Word) (amount : Int)

/-- The exact number that a write offers to the register: what the bus lets through, shifted. -/
def offered : Int := exactShift (input.toInt % 2 ^ r.busWidth) amount

theorem toInt_latch : (r.latch input).toInt = input.toInt % 2 ^ r.busWidth :=
  Word.toInt_and_mask input (r.busWidth_le_bits.trans r.bits_le)

theorem toInt_put : (r.put input).value.toInt = input.toInt % 2 ^ r.bits :=
  Word.toInt_and_mask input r.bits_le

theorem offered_eq : r.offered input amount = exactShift (r.latch input).toInt amount := by
  rw [toInt_latch, offered]

theorem toInt_latch_nonneg : 0 ≤ (r.latch input).toInt :=
  Word.toInt_and_mask_nonneg input (r.busWidth_le_bits.trans r.bits_le)

theorem toInt_latch_lt : (r.latch input).toInt < 2 ^ r.bits := by
  rw [toInt_latch]
  calc
    _ < (2 ^ r.busWidth : Int) := Int.emod_lt_of_pos _ (Int.pow_pos (by decide))
    _ ≤ 2 ^ r.bits := pow_le_pow_right₀ (by decide) r.busWidth_le_bits

theorem offered_nonneg : 0 ≤ r.offered input amount := by
  rw [offered_eq]
  exact exactShift_nonneg (r.toInt_latch_nonneg input) amount

/-- Overflow is told exactly, also where bits leave the word. -/
theorem overflows_iff :
    r.Overflows (r.latch input) amount ↔ 2 ^ r.bits - 1 < r.offered input amount := by
  have nonneg := r.toInt_latch_nonneg input
  have small := r.toInt_latch_lt input
  rw [offered_eq, Overflows]
  generalize r.latch input = latched at nonneg small
  by_cases right : amount ≤ 0
  · -- a right shift makes the number no greater
    have bounded := exactShift_le_self nonneg right
    constructor
    · intro ⟨left, _⟩
      exact absurd right (Int.not_le.mpr left)
    · intro beyond
      omega
  have left : 0 < amount := Int.not_le.mp right
  by_cases empty : latched = 0
  · have fits : exactShift latched.toInt amount = 0 := by
      rw [exactShift_of_nonneg _ left.le, empty]
      exact Int.zero_mul _
    have full : (0 : Int) < 2 ^ r.bits := Int.pow_pos (by decide)
    constructor
    · intro ⟨_, other, _⟩
      exact absurd empty other
    · intro beyond
      omega
  by_cases far : 64 ≤ amount
  · -- the lowest bit alone leaves the word
    have positive : 0 < latched.toInt :=
      lt_of_le_of_ne nonneg fun zero => empty (Int64.toInt_inj.mp zero.symm)
    have above : 2 ^ r.bits ≤ exactShift latched.toInt amount := by
      apply le_exactShift_of_pos positive
      have width := r.bits_le
      omega
    constructor
    · intro _
      omega
    · intro _
      exact ⟨left, empty, Or.inl far⟩
  · rw [exactShift_of_nonneg _ left.le, toInt_bitMask, Int.shiftLeft_eq]
    constructor
    · intro ⟨_, _, beyond⟩
      exact beyond.resolve_left far
    · intro beyond
      exact ⟨left, empty, Or.inr beyond⟩

theorem offered_emod (fits : r.offered input amount ≤ 2 ^ r.bits - 1) :
    r.offered input amount % 2 ^ r.bits = r.offered input amount :=
  Int.emod_eq_of_lt (r.offered_nonneg input amount) (Int.lt_of_le_sub_one fits)

theorem toInt_put_shift :
    (r.put ((r.latch input).shift amount)).value.toInt = r.offered input amount % 2 ^ r.bits := by
  rw [toInt_put, offered_eq]
  exact Word.toInt_shift_emod (r.latch input) amount (r.bits_le.trans (by decide))

theorem toInt_write_of_ne (other : r.overflow ≠ .saturate) :
    (r.write input amount).value.toInt = r.offered input amount % 2 ^ r.bits := by
  rw [write, if_neg fun both => other both.1, toInt_put_shift]

theorem toInt_write_of_saturate (saturates : r.overflow = .saturate) :
    (r.write input amount).value.toInt = min (r.offered input amount) (2 ^ r.bits - 1) := by
  rw [write]
  simp only [saturates, true_and, overflows_iff]
  split
  · rename_i beyond
    have full : (0 : Int) < 2 ^ r.bits := Int.pow_pos (by decide)
    rw [min_eq_right beyond.le, toInt_put, toInt_bitMask]
    exact Int.emod_eq_of_lt (by omega) (by omega)
  · rename_i fits
    rw [toInt_put_shift, offered_emod _ _ _ (Int.not_lt.mp fits), min_eq_left (Int.not_lt.mp fits)]

theorem tryWrite_eq :
    r.tryWrite input amount =
      if r.overflow = .reject ∧ 2 ^ r.bits - 1 < r.offered input amount then
        .error (.registerOverflow r.name input amount)
      else .ok (r.write input amount) := by
  simp only [tryWrite, overflows_iff]

end Offered

theorem store_of_overflow {r : Register} {input : Word} {amount : Int} {file : RegisterFile}
    {ident : String} (found : file.find? ident = some r) (allowed : r.access.Allows .write)
    (fails : r.tryWrite input amount = .error (.registerOverflow r.name input amount)) :
    Action.store ident input amount file =
      .error (.registerOverflow r.name input amount) file := by
  have claimed := RegisterFile.claim_eq_ok_iff.mpr ⟨found, allowed⟩
  simp only [Action.store, Action.change, RegisterFile.store, claimed, fails, bind, Except.bind]

/-- Writes in closed form. A write stores the exact number that it offers, cut to the width of the
register or, where the register saturates, at its largest value. A write that may fail does so only
where the register rejects overflow and the number does not fit; the registers then stay as they
are. Otherwise it stores what a plain write stores, which is the number itself where the register
rejects overflow. -/
theorem write_closed_form (r : Register) (input : Word) (amount : Int) :
    let exact := exactShift (input.toInt % 2 ^ r.busWidth) amount
    let written := r.write input amount
    let tried := r.tryWrite input amount
    written.toShape = r.toShape ∧
      match r.overflow with
      | .wrap => written.value.toInt = exact % 2 ^ r.bits ∧ tried = .ok written
      | .saturate => written.value.toInt = min exact (2 ^ r.bits - 1) ∧ tried = .ok written
      | .reject =>
        written.value.toInt = exact % 2 ^ r.bits ∧
          if 2 ^ r.bits - 1 < exact then
            tried = .error (.registerOverflow r.name input amount) ∧
              ∀ (file : RegisterFile) (ident : String), file.find? ident = some r →
                r.access.Allows .write → Action.store ident input amount file =
                  .error (.registerOverflow r.name input amount) file
          else tried = .ok written ∧ written.value.toInt = exact := by
  intro exact written tried
  refine ⟨r.toShape_write input amount, ?_⟩
  have outcome := r.tryWrite_eq input amount
  cases policy : r.overflow with
  | wrap =>
    rw [if_neg (by simp [policy])] at outcome
    exact ⟨r.toInt_write_of_ne input amount (by simp [policy]), outcome⟩
  | saturate =>
    rw [if_neg (by simp [policy])] at outcome
    exact ⟨r.toInt_write_of_saturate input amount policy, outcome⟩
  | reject =>
    have stored := r.toInt_write_of_ne input amount (by simp [policy])
    refine ⟨stored, ?_⟩
    split
    · rename_i beyond
      rw [if_pos ⟨policy, beyond⟩] at outcome
      exact ⟨outcome, fun file ident found allowed => store_of_overflow found allowed outcome⟩
    · rename_i fits
      rw [if_neg fun both => fits both.2] at outcome
      exact ⟨outcome, stored.trans (r.offered_emod input amount (Int.not_lt.mp fits))⟩

/-! Fields of a register that is wider than its bus. A shift moves the field that the bus shows, and
what was written to a field is read back from it by the opposite shift. -/

/-- A read shows the low bits of the exact shift, also where a left shift runs out of the word. -/
theorem toInt_read (r : Register) (amount : Int) :
    (r.read amount).toInt = exactShift r.value.toInt amount % 2 ^ r.busWidth := by
  have width := r.busWidth_le_bits.trans r.bits_le
  rw [read, busMask, Word.toInt_and_mask _ width, Word.toInt_shift_emod _ _ (width.trans (by decide))]

variable {r : Register} {input : Word} {amount : Int} {places : Nat}

theorem toInt_write_of_le (fits : r.offered input amount ≤ 2 ^ r.bits - 1) :
    (r.write input amount).value.toInt = r.offered input amount := by
  by_cases saturates : r.overflow = .saturate
  · rw [toInt_write_of_saturate _ _ _ saturates, min_eq_left fits]
  · rw [toInt_write_of_ne _ _ _ saturates, offered_emod _ _ _ fits]

theorem tryWrite_of_le (fits : r.offered input amount ≤ 2 ^ r.bits - 1) :
    r.tryWrite input amount = .ok (r.write input amount) := by
  rw [tryWrite_eq, if_neg fun both => Int.not_lt.mpr fits both.2]

theorem offered_natCast (r : Register) (input : Word) (places : Nat) :
    r.offered input places = input.toInt % 2 ^ r.busWidth * 2 ^ places := by
  rw [offered, exactShift_of_nonneg _ (Int.natCast_nonneg places), Int.toNat_natCast]

theorem offered_le_of_field (within : places + r.busWidth ≤ r.bits) (input : Word) :
    r.offered input places ≤ 2 ^ r.bits - 1 := by
  have bus : (0 : Int) < 2 ^ r.busWidth := by positivity
  have below := Int.emod_lt_of_pos input.toInt bus
  apply Int.le_sub_one_of_lt
  rw [offered_natCast]
  calc
    _ < (2 ^ r.busWidth * 2 ^ places : Int) := Int.mul_lt_mul_of_pos_right below (by positivity)
    _ = 2 ^ (places + r.busWidth) := by rw [← pow_add, Nat.add_comm]
    _ ≤ 2 ^ r.bits := pow_le_pow_right₀ (by decide) within

theorem toInt_read_of_field {written : Register} (bus : written.busWidth = r.busWidth)
    (holds : written.value.toInt = r.offered input places) :
    (written.read (-places)).toInt = input.toInt % 2 ^ r.busWidth := by
  have positive : (0 : Int) < 2 ^ places := by positivity
  rw [toInt_read, bus, holds, offered_natCast, exactShift_of_nonpos _ (by omega), Int.neg_neg,
    Int.toNat_natCast, Int.mul_ediv_cancel _ positive.ne', Int.emod_emod]

/-- Reads in closed form, and windows. A read shows the contents times a power of two, rounded down
and cut to the bus. What is written to a field that lies within the register is stored whole under
any policy, so that a write that may fail does not, and the opposite shift reads back what the bus
let through. -/
theorem read_undoes_write (r : Register) :
    (∀ amount : Int, (r.read amount).toInt = ⌊(r.value.toInt : ℚ) * 2 ^ amount⌋ % 2 ^ r.busWidth) ∧
    ∀ (input : Word) (places : Nat), places + r.busWidth ≤ r.bits →
      r.tryWrite input places = .ok (r.write input places) ∧
      (r.write input places).value.toInt = input.toInt % 2 ^ r.busWidth * 2 ^ places ∧
      ((r.write input places).read (-places)).toInt = input.toInt % 2 ^ r.busWidth := by
  refine ⟨r.toInt_read, fun input places within => ?_⟩
  have fits := offered_le_of_field within input
  have holds := toInt_write_of_le fits
  have bus : (r.write input places).busWidth = r.busWidth :=
    congrArg Shape.busWidth (r.toShape_write input places)
  exact ⟨tryWrite_of_le fits, holds.trans (r.offered_natCast input places), toInt_read_of_field bus holds⟩

theorem read_undoes_write_highest_field :
    let r : Register := {
      name := "Accumulator", shortName := "ACC", bits := 40, busWidth := 16, overflow := .reject
      value := 0x123456789A
      one_le_busWidth := by decide
      busWidth_le_bits := by decide
      bits_le := by decide
      within := by decide }
    24 + r.busWidth ≤ r.bits ∧ r.tryWrite (-1) 24 = .ok (r.write (-1) 24) ∧
      ((r.write (-1) 24).read (-24)).toInt = 0xFFFF ∧ (r.read (-20)).toInt = 0x2345 := by
  intro r
  have within : 24 + r.busWidth ≤ r.bits := by decide
  obtain ⟨shows, windows⟩ := read_undoes_write r
  obtain ⟨tried, -, undone⟩ := windows (-1) 24 within
  have full : (-1 : Word).toInt % 2 ^ r.busWidth = 0xFFFF := by decide
  have shifted : exactShift r.value.toInt (-20) % 2 ^ r.busWidth = 0x2345 := by
    rw [exactShift_of_nonpos _ (by decide)]
    decide
  exact ⟨within, tried, undone.trans full, (shows (-20)).trans shifted⟩

end DspChip.Register
