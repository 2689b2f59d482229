import DspChip.Proofs.Instruction.Bits
import DspChip.Proofs.Instruction.Shift
/-! Instructions on plain registers, which show all of their bits, wrap and grant every right. What
they store is exact but for the bits that the target has no room for. -/

namespace DspChip

/-- The bus shows all of the register, which wraps and grants every right. -/
structure Register.IsPlain (r : Register) : Prop where
  whole : r.busWidth = r.bits
  wraps : r.overflow = .wrap
  full : r.access = .full

namespace Register.IsPlain

variable {r : Register}

theorem allows (plain : r.IsPlain) (right : Right) : r.access.Allows right := by
  rw [plain.full]
  cases right <;> decide

theorem congr {written : Register} (plain : r.IsPlain) (shape : written.toShape = r.toShape) :
    written.IsPlain := by
  constructor
  · rw [shape]
    exact plain.whole
  · rw [shape]
    exact plain.wraps
  · rw [shape]
    exact plain.full

end Register.IsPlain

theorem Action.Fits.stores_low {action : Action Unit} {file : RegisterFile} {r : Register} {exact : Int}
    {fault : Fault} (fits : action.Fits file r exact fault) (wraps : r.overflow = .wrap) :
    action.Stores file r (exact % 2 ^ r.bits) := by
  rwa [Fits, Register.fit, wraps] at fits

namespace Primitive

variable {primitive : Primitive} {file : RegisterFile} {target source : String} {d s : Register}

/-- Shifted to the right as it is read, or to the left as it is written, a number differs from the
exact shift in no bit that the target keeps. -/
theorem offered_moved (plain : d.IsPlain) (also : s.IsPlain) {value : Word} {places : Int}
    (read : value.toInt = exactShift s.value.toInt (min places 0) % 2 ^ s.busWidth) :
    d.offered value (max places 0) % 2 ^ d.bits = exactShift s.value.toInt places % 2 ^ d.bits := by
  have nonneg := s.toInt_value_nonneg
  have below := s.toInt_value_le
  rw [Register.offered, plain.whole, read, also.whole]
  rcases Int.le_total places 0 with right | left
  · -- nothing is cut at the source, since a right shift makes no number larger
    have shifted := exactShift_nonneg nonneg places
    have smaller := exactShift_le_self nonneg right
    rw [min_eq_left right, max_eq_right right, exactShift_zero, Int.emod_emod,
      Int.emod_eq_of_lt shifted (by omega)]
  · rw [min_eq_right left, max_eq_left left, exactShift_zero,
      Int.emod_eq_of_lt nonneg (Int.lt_of_le_sub_one below), exactShift_of_nonneg _ left,
      exactShift_of_nonneg _ left]
    exact (Int.mod_modEq s.value.toInt _).mul_right _

theorem move_stores_plain (operation : primitive.operation = .move) (found : file.find? target = some d)
    (plain : d.IsPlain) (given : file.find? source = some s) (also : s.IsPlain)
    (amount : Option Int32) :
    (primitive.perform (primitive.operandsFor target (.register source) amount)).Stores file d
      (exactShift s.value.toInt (primitive.exactAmount amount) % 2 ^ d.bits) := by
  have told := effect_operandsFor (congrArg Operation.transfer? operation) target (.register source) amount
  generalize primitive.exactAmount amount = places at told ⊢
  have supplies : (Operand.register source).Supplies file (min places 0) _ :=
    .register given (also.allows .read)
  obtain ⟨value, read, holds⟩ := supplies.load (min_le_right _ _)
  have loaded : (Effect.move target (.register source) (clampAmount places)).load file =
      .ok (value, clampAmount (max places 0)) := by
    simp only [Effect.load, min_clampAmount_zero, max_clampAmount_zero, read, bind, Except.bind, pure,
      Except.pure]
  have fits := (perform_fits told rfl found (plain.allows .write) loaded).congr
    (d.fit_offered_clampAmount value (max places 0))
  rw [← offered_moved plain also holds]
  exact fits.stores_low plain.wraps

theorem toNat_sourceBits_zero (d : Register) (number : Int) :
    ((sourceBits d.busWidth number 0).toNat : Int) = number % 2 ^ d.busWidth := by
  have unshifted : clampAmount 0 = 0 := rfl
  rw [sourceBits, unshifted, Word.toNat_setWidth _ d.busWidth_le, Word.toInt_shift_emod _ _ d.busWidth_le,
    exactShift_zero, Word.toInt_ofInt_emod _ d.busWidth_le]

theorem or_stores_plain (operation : primitive.operation = .combine .or)
    (unshifted : primitive.amount = 0) (found : file.find? target = some d) (plain : d.IsPlain)
    (given : file.find? source = some s) (also : s.IsPlain) :
    (primitive.perform (primitive.operandsFor target (.register source) none)).Stores file d
      (d.value.toInt.toNat ||| s.value.toInt.toNat % 2 ^ d.bits : Nat) := by
  have supplies : (Operand.register source).Supplies file 0 _ := .of_register given (also.allows .read)
  have stores := combine_stores_bits operation found (plain.allows .read) (plain.allows .write)
    (fun carries => absurd carries (by decide)) supplies none
  have current : d.shown.toNat = d.value.toInt.toNat := by
    rw [← Int.toNat_natCast d.shown.toNat, d.toNat_shown, d.toInt_value_emod plain.whole]
  have places : primitive.exactAmount none = 0 := by
    rw [exactAmount, unshifted]
    rfl
  have taken : (sourceBits d.busWidth (s.value.toInt % 2 ^ s.busWidth) 0).toNat =
      s.value.toInt.toNat % 2 ^ d.bits := by
    obtain ⟨n, same⟩ := Int.eq_ofNat_of_zero_le s.toInt_value_nonneg
    have bits := toNat_sourceBits_zero d n
    rw [s.toInt_value_emod also.whole, same, Int.toNat_natCast, ← plain.whole]
    exact_mod_cast bits
  rw [places] at stores
  rw [← current, ← taken, ← BitVec.toNat_or]
  exact stores

theorem shift_stores {fill : Fill} (operation : primitive.operation = .shift fill)
    (found : file.find? target = some d) (plain : d.IsPlain) (amount : Int32) {number : Int}
    (made : d.shifted fill (primitive.exactAmount (some amount)) = some number) :
    (primitive.perform [.register target, .ofAmount amount]).Stores file d number := by
  obtain ⟨nonneg, below⟩ := Register.bounds_of_shifted made
  have done := (perform_shift_eq_ok_iff operation found (plain.allows .read) (plain.allows .write)
    amount).mpr ⟨number, made, rfl⟩
  exact ⟨_, _, done, RegisterFile.replaces_put found _, Register.toInt_put_ofInt nonneg below⟩

end Primitive

end DspChip
