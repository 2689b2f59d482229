import DspChip.Proofs.Instruction.Operands
import DspChip.Proofs.Register.Patch
/-! Shifts in closed form. A logical shift fits the exact number to its target; an arithmetic shift
to the right divides the two's complement number and never overflows. Shifts in one direction add
up. -/

namespace DspChip

namespace Register

def shifted (r : Register) (fill : Fill) (amount : Int) : Option Int :=
  if fill = .sign ∧ amount < 0 then some (exactShift r.twosComplement amount % 2 ^ r.busWidth)
  else r.fit (exactShift (r.value.toInt % 2 ^ r.busWidth) amount)

variable {r : Register} {fill : Fill} {amount number : Int}

theorem bounds_of_shifted (made : r.shifted fill amount = some number) :
    0 ≤ number ∧ number < 2 ^ r.bits := by
  have bus : (0 : Int) < 2 ^ r.busWidth := by positivity
  unfold shifted at made
  split at made
  · cases made
    have narrow : (2 ^ r.busWidth : Int) ≤ 2 ^ r.bits := pow_le_pow_right₀ (by decide) r.busWidth_le_bits
    have below := Int.emod_lt_of_pos (exactShift r.twosComplement amount) bus
    exact ⟨Int.emod_nonneg _ bus.ne', below.trans_le narrow⟩
  · exact bounds_of_fit (exactShift_nonneg (Int.emod_nonneg _ bus.ne') amount) made

theorem exists_shifted (accepts : r.overflow ≠ .reject) (fill : Fill) (amount : Int) :
    ∃ x, r.shifted fill amount = some x := by
  unfold shifted
  split
  · exact ⟨_, rfl⟩
  · exact exists_fit accepts _

/-- An arithmetic shift to the right divides the two's complement number, if the bus shows all of
it. -/
theorem twosComplement_of_shifted (whole : r.busWidth = r.bits) (right : amount ≤ 0) :
    (r.put (Int64.ofInt (exactShift r.twosComplement amount % 2 ^ r.busWidth))).twosComplement =
      exactShift r.twosComplement amount := by
  have half : (0 : Int) < 2 ^ (r.bits - 1) := by positivity
  have bounds := exactShift_bounds right r.le_twosComplement (Int.le_sub_one_of_lt r.twosComplement_lt)
    (by omega) (by omega)
  rw [whole]
  exact twosComplement_put bounds.1 (Int.lt_of_le_sub_one bounds.2)

theorem shifted_zero (whole : r.busWidth = r.bits) (fill : Fill) :
    r.shifted fill 0 = some r.value.toInt := by
  rw [shifted, if_neg fun both => absurd both.2 (lt_irrefl 0), exactShift_zero,
    r.toInt_value_emod whole, fit_of_le r.toInt_value_nonneg r.toInt_value_le]

theorem shifted_put (whole : r.busWidth = r.bits) (nonneg : 0 ≤ number) (below : number < 2 ^ r.bits)
    (logical : ¬ (fill = .sign ∧ amount < 0)) :
    (r.put (Int64.ofInt number)).shifted fill amount = r.fit (exactShift number amount) := by
  have shown := (r.put (Int64.ofInt number)).toInt_value_emod whole
  rw [shifted, if_neg logical, shown, toInt_put_ofInt nonneg below]
  rfl

/-- One shift after another in its direction is both at once, if the bus shows all of the register.
-/
theorem shifted_bind_shifted (whole : r.busWidth = r.bits) {first second : Int}
    (alike : (0 ≤ first ∧ 0 ≤ second) ∨ (first ≤ 0 ∧ second ≤ 0)) :
    ((r.shifted fill first).bind fun x => (r.put (Int64.ofInt x)).shifted fill second) =
      r.shifted fill (first + second) := by
  by_cases still : first = 0
  · rw [still, shifted_zero whole, Option.bind_some, Int64.ofInt_toInt, put_value, Int.zero_add]
  by_cases arithmetic : fill = .sign ∧ first < 0
  · have made : r.shifted fill first = some (exactShift r.twosComplement first % 2 ^ r.busWidth) :=
      if_pos arithmetic
    obtain ⟨nonneg, below⟩ := bounds_of_shifted made
    rw [made, Option.bind_some]
    by_cases ends : second = 0
    · rw [ends, shifted_zero (by exact whole), toInt_put_ofInt nonneg below, Int.add_zero, made]
    · rw [shifted, if_pos ⟨arithmetic.1, by omega⟩, twosComplement_of_shifted whole arithmetic.2.le,
        toShape_put, exactShift_exactShift _ alike, shifted, if_pos ⟨arithmetic.1, by omega⟩]
  · have logical : ¬ (fill = .sign ∧ second < 0) := fun both => arithmetic ⟨both.1, by omega⟩
    have total : ¬ (fill = .sign ∧ first + second < 0) := fun both => arithmetic ⟨both.1, by omega⟩
    rw [shifted, if_neg arithmetic, shifted, if_neg total, r.toInt_value_emod whole,
      ← fit_bind_fit r.toInt_value_nonneg r.toInt_value_le alike]
    cases made : r.fit (exactShift r.value.toInt first) with
    | none => rfl
    | some x =>
      obtain ⟨nonneg, below⟩ := bounds_of_fit (exactShift_nonneg r.toInt_value_nonneg first) made
      rw [Option.bind_some, Option.bind_some, shifted_put whole nonneg below logical]

theorem fit_offered_read (r : Register) (amount : Int) :
    r.fit (r.offered (r.read 0) (clampAmount amount)) =
      r.fit (exactShift (r.value.toInt % 2 ^ r.busWidth) amount) := by
  rw [fit_offered_clampAmount, offered, toInt_read, exactShift_zero, Int.emod_emod]

theorem fit_offered_signed (r : Register) (right : amount ≤ 0) :
    r.fit (r.offered (r.signed.shift amount) 0) =
      some (exactShift r.twosComplement amount % 2 ^ r.busWidth) := by
  rw [fit_offered_zero, Word.toInt_shift_of_nonpos _ right, toInt_signed]

end Register

namespace Primitive

variable {primitive : Primitive} {fill : Fill} {file next : RegisterFile} {target : String} {d : Register}
  {places : Int}

theorem effect_shift (operation : primitive.operation = .shift fill) (target : String) (amount : Int32) :
    primitive.effect [.register target, .ofAmount amount] =
      .ok (.shift fill target (clampAmount (primitive.exactAmount (some amount)))) := by
  simp only [effect, operation, Operand.asAmount_ofAmount]
  rfl

/-- A logical shift, and one to the left, takes what the bus shows and shifts it on its way to the
target. -/
theorem load_shift_of_logical (found : file.find? target = some d) (readable : d.access.Allows .read)
    (logical : ¬ (fill = .sign ∧ places < 0)) :
    (Effect.shift fill target (clampAmount places)).load file = .ok (d.read 0, clampAmount places) := by
  have sign : ¬ (fill = .sign ∧ clampAmount places < 0) :=
    fun both => logical ⟨both.1, clampAmount_neg_iff.mp both.2⟩
  simp only [Effect.load, if_neg sign, RegisterFile.fetch_eq found readable, bind, Except.bind, pure,
    Except.pure]

/-- An arithmetic shift to the right shifts all of the contents before they go to the target. -/
theorem load_shift_of_arithmetic (found : file.find? target = some d) (readable : d.access.Allows .read)
    (arithmetic : fill = .sign ∧ places < 0) :
    (Effect.shift fill target (clampAmount places)).load file = .ok (d.signed.shift places, 0) := by
  have claimed := RegisterFile.claim_eq_ok_iff.mpr ⟨found, readable⟩
  have sign : fill = .sign ∧ clampAmount places < 0 :=
    ⟨arithmetic.1, clampAmount_neg_iff.mpr arithmetic.2⟩
  simp only [Effect.load, if_pos sign, RegisterFile.fetchSigned, claimed, Word.shift_clampAmount, bind,
    Except.bind, pure, Except.pure]

theorem perform_shift_eq_ok_iff (operation : primitive.operation = .shift fill)
    (found : file.find? target = some d) (readable : d.access.Allows .read)
    (writable : d.access.Allows .write) (amount : Int32) :
    primitive.perform [.register target, .ofAmount amount] file = .ok () next ↔
      ∃ x, d.shifted fill (primitive.exactAmount (some amount)) = some x ∧
        file.put target (Int64.ofInt x) = next := by
  rw [perform_eq_change, Action.change_eq_ok_iff]
  simp only [outcome, effect_shift operation]
  generalize primitive.exactAmount (some amount) = places
  have stored (value : Word) (count : Int) :
      file.store target value count = .ok next ↔
        ∃ x, d.fit (d.offered value count) = some x ∧ file.put target (Int64.ofInt x) = next := by
    rw [RegisterFile.store_eq_fit found writable]
    cases d.fit (d.offered value count) <;> simp
  by_cases arithmetic : fill = .sign ∧ places < 0
  · rw [Register.shifted, if_pos arithmetic, ← d.fit_offered_signed arithmetic.2.le, ← stored]
    simp only [Effect.outcome, Effect.target?, load_shift_of_arithmetic found readable arithmetic, bind,
      Except.bind]
  · rw [Register.shifted, if_neg arithmetic, ← d.fit_offered_read, ← stored]
    simp only [Effect.outcome, Effect.target?, load_shift_of_logical found readable arithmetic, bind,
      Except.bind]

theorem perform_shift_bind_eq_ok_iff {second both : Primitive}
    (operation : primitive.operation = .shift fill) (again : second.operation = .shift fill)
    (once : both.operation = .shift fill) (found : file.find? target = some d)
    (readable : d.access.Allows .read) (writable : d.access.Allows .write)
    (whole : d.busWidth = d.bits) {amount further total : Int32}
    (sum : both.exactAmount (some total) =
      primitive.exactAmount (some amount) + second.exactAmount (some further))
    (alike : (0 ≤ primitive.exactAmount (some amount) ∧ 0 ≤ second.exactAmount (some further)) ∨
      (primitive.exactAmount (some amount) ≤ 0 ∧ second.exactAmount (some further) ≤ 0)) :
    (do
      primitive.perform [.register target, .ofAmount amount]
      second.perform [.register target, .ofAmount further]) file = .ok () next ↔
    both.perform [.register target, .ofAmount total] file = .ok () next := by
  rw [perform_shift_eq_ok_iff once found readable writable, sum,
    ← Register.shifted_bind_shifted whole alike, Action.bind_eq_ok_iff]
  simp only [Option.bind_eq_some_iff]
  constructor
  · rintro ⟨middle, stepped, stepped'⟩
    obtain ⟨x, made, rfl⟩ :=
      (perform_shift_eq_ok_iff operation found readable writable amount).mp stepped
    have held := RegisterFile.find?_put found (Int64.ofInt x)
    obtain ⟨y, made', rfl⟩ :=
      (perform_shift_eq_ok_iff again held readable writable further).mp stepped'
    exact ⟨y, ⟨x, made, made'⟩, (RegisterFile.put_put file target _ _).symm⟩
  · rintro ⟨y, ⟨x, made, made'⟩, rfl⟩
    have held := RegisterFile.find?_put found (Int64.ofInt x)
    exact ⟨_, (perform_shift_eq_ok_iff operation found readable writable amount).mpr ⟨x, made, rfl⟩,
      (perform_shift_eq_ok_iff again held readable writable further).mpr
        ⟨y, made', RegisterFile.put_put file target _ _⟩⟩

/-- Shifts in closed form. A logical shift, and one to the left, fits the exact number to the
register; an arithmetic one to the right never fails and divides the two's complement number,
rounding down. Where the bus shows all of the register, two shifts in one direction are one shift by
both amounts, success included. -/
theorem shift_closed_form (primitive : Primitive) (fill : Fill)
    (operation : primitive.operation = .shift fill) (file : RegisterFile) (target : String)
    (d : Register) (found : file.find? target = some d) (readable : d.access.Allows .read)
    (writable : d.access.Allows .write) (amount : Int32) :
    let places := primitive.exactAmount (some amount)
    let action := primitive.perform [.register target, .ofAmount amount]
    (fill = .zero ∨ 0 ≤ places → ∃ value : Word, value.toInt = d.value.toInt % 2 ^ d.busWidth ∧
      action.Fits file d (exactShift (d.value.toInt % 2 ^ d.busWidth) places)
        (.registerOverflow d.name value (clampAmount places))) ∧
    (fill = .sign → places < 0 → d.signed.toInt = d.twosComplement ∧
      ∃ next written, action file = .ok () next ∧ file.Replaces d written next ∧
        written.value.toInt = d.signed.toInt / 2 ^ (-places).toNat % 2 ^ d.busWidth ∧
        (d.busWidth = d.bits → written.signed.toInt = d.signed.toInt / 2 ^ (-places).toNat)) ∧
    (d.busWidth = d.bits → ∀ (second both : Primitive) (further total : Int32),
      second.operation = .shift fill → both.operation = .shift fill →
      both.exactAmount (some total) = places + second.exactAmount (some further) →
      (0 ≤ places ∧ 0 ≤ second.exactAmount (some further)) ∨
        (places ≤ 0 ∧ second.exactAmount (some further) ≤ 0) →
      let single := both.perform [.register target, .ofAmount total]
      (∀ next, (do action; second.perform [.register target, .ofAmount further]) file = .ok () next ↔
        single file = .ok () next) ∧
      (d.overflow ≠ .reject → ∃ next, single file = .ok () next)) := by
  intro places action
  refine ⟨fun logical => ?_, fun signed right => ?_,
    fun whole second both further total again once sum alike => ⟨fun next => ?_, fun accepts => ?_⟩⟩
  · have unsigned : ¬ (fill = .sign ∧ places < 0) := by
      rintro ⟨rfl, right⟩
      rcases logical with filled | left
      · cases filled
      · omega
    have fits := perform_fits (effect_shift operation target amount) rfl found writable
      (load_shift_of_logical found readable unsigned)
    refine ⟨d.read 0, ?_, fits.congr (d.fit_offered_read places)⟩
    rw [Register.toInt_read, exactShift_zero]
  · have fits := perform_fits (effect_shift operation target amount) rfl found writable
      (load_shift_of_arithmetic found readable ⟨signed, right⟩)
    obtain ⟨next, written, done, replaces, holds⟩ := fits.stores_latched
    rw [Word.toInt_shift_of_nonpos _ right.le] at holds
    refine ⟨d.toInt_signed, next, written, done, replaces, ?_, fun whole => ?_⟩
    · rwa [← exactShift_of_nonpos _ right.le]
    · obtain rfl := Register.eq_put_ofInt replaces.shape holds
      rw [Register.toInt_signed, d.toInt_signed, Register.twosComplement_of_shifted whole right.le,
        exactShift_of_nonpos _ right.le]
  · exact perform_shift_bind_eq_ok_iff operation again once found readable writable whole sum alike
  · obtain ⟨x, made⟩ := d.exists_shifted accepts fill (both.exactAmount (some total))
    exact ⟨_, (perform_shift_eq_ok_iff once found readable writable total).mpr ⟨x, made, rfl⟩⟩

/-- A negative number of eight bits: divided by a shift to the right, at once or in two steps, and
refused where a shift to the left carries it beyond the width. -/
theorem shift_closed_form_negative :
    let d := Register.byte .reject 0x90
    let file := RegisterFile.single d
    let halver : Primitive := { operation := .shift .sign, amount := -1 }
    let doubler : Primitive := { operation := .shift .zero, amount := 1 }
    let operands (amount : Word) : List Operand := [.register "A", .immediate amount]
    file.find? "A" = some d ∧ d.access.Allows .read ∧ d.access.Allows .write ∧ d.busWidth = d.bits ∧
      (∃ next written, halver.perform (operands (-2)) file = .ok () next ∧
        file.Replaces d written next ∧ written.value.toInt = 242 ∧ written.signed.toInt = -14) ∧
      (∀ next, (do halver.perform (operands (-2)); halver.perform (operands (-3))) file = .ok () next ↔
        halver.perform (operands (-6)) file = .ok () next) ∧
      ∃ value : Word, value.toInt = 144 ∧
        doubler.perform (operands 0) file = .error (.registerOverflow "Accumulator" value 1) file := by
  intro d file halver doubler operands
  have found : file.find? "A" = some d := RegisterFile.find?_single (by decide)
  have readable : d.access.Allows .read := by decide
  have writable : d.access.Allows .write := by decide
  obtain ⟨-, arithmetic, composed⟩ :=
    shift_closed_form halver .sign rfl file "A" d found readable writable (-2)
  obtain ⟨logical, -⟩ := shift_closed_form doubler .zero rfl file "A" d found readable writable 0
  obtain ⟨_, next, written, done, replaces, holds, divided⟩ := arithmetic rfl (by decide)
  have negative : d.signed.toInt = -112 := by decide +kernel
  have quotient : (-112 : Int) / 2 ^ (-halver.exactAmount (some (-2))).toNat = -14 := by decide
  have stored : (-14 : Int) % 2 ^ d.busWidth = 242 := by decide
  rw [negative, quotient] at holds divided
  rw [stored] at holds
  have total : halver.exactAmount (some (-6)) =
      halver.exactAmount (some (-2)) + halver.exactAmount (some (-3)) := by decide
  obtain ⟨steps, -⟩ := composed rfl halver halver (-3) (-6) rfl rfl total (.inr (by decide))
  obtain ⟨value, told, refused⟩ := logical (.inl rfl)
  have doubled : exactShift (d.value.toInt % 2 ^ d.busWidth) (doubler.exactAmount (some 0)) = 288 := by
    rw [exactShift_of_nonneg _ (by decide)]
    decide
  have beyond : d.fit 288 = none := by decide
  rw [doubled] at refused
  simp only [Action.Fits, beyond] at refused
  exact ⟨found, readable, writable, rfl, ⟨next, written, done, replaces, holds, divided rfl⟩, steps,
    value, told, refused⟩

end Primitive

end DspChip
