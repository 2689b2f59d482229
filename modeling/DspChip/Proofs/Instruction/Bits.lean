import DspChip.Proofs.Instruction.Operands
/-! What instructions do to the bits that a bus shows. Logic, and sums of a register that wraps, act
on these bits alone, so that an instruction is undone by its inverse whatever else the word holds.
-/

namespace DspChip

def Register.shown (r : Register) : BitVec r.busWidth := r.value.toBitVec.setWidth r.busWidth

def Combination.Carries (how : Combination) : Prop := how = .add ∨ how = .sub

instance (how : Combination) : Decidable how.Carries := inferInstanceAs (Decidable (_ ∨ _))

namespace Combination

variable {width : Nat}

def bits (first second : BitVec width) : Combination → BitVec width
  | add => first + second
  | sub => first - second
  | and => first &&& second
  | or => first ||| second
  | xor => first ^^^ second

theorem setWidth_bits (how : Combination) (first second : BitVec 64) (bound : width ≤ 64) :
    (how.bits first second).setWidth width = how.bits (first.setWidth width) (second.setWidth width) := by
  cases how with
  | add => exact BitVec.setWidth_add first second bound
  | sub =>
    simp only [bits, BitVec.sub_eq_add_neg, BitVec.setWidth_add _ _ bound, BitVec.setWidth_neg_of_le bound]
  | and => exact BitVec.setWidth_and
  | or => exact BitVec.setWidth_or
  | xor => exact BitVec.setWidth_xor

/-- A target that wraps, or that nothing can carry beyond, is given the bits of the combined words.
-/
theorem load_eq_bits {how : Combination} {file : RegisterFile} {target : String} {d : Register}
    (found : file.find? target = some d) (plain : how.Carries → d.overflow = .wrap)
    (current source : Word) :
    how.load target current source file =
      .ok (Int64.ofBitVec (how.bits current.toBitVec source.toBitVec)) := by
  have settled (wraps : d.overflow = .wrap) (result : Int) :
      file.settle target result = .ok (Int64.ofInt result) := by
    have got := RegisterFile.get_eq_ok_iff.mpr found
    simp only [RegisterFile.settle, got, bind, Except.bind]
    rw [Register.settle, wraps]
  cases how with
  | add =>
    rw [load, settled (plain (.inl rfl)), Int64.ofInt_add, Int64.ofInt_toInt, Int64.ofInt_toInt]
    rfl
  | sub =>
    rw [load, settled (plain (.inr rfl)), Int64.ofInt_sub, Int64.ofInt_toInt, Int64.ofInt_toInt]
    rfl
  | and | or | xor => rfl

end Combination

def Alteration.bits {width : Nat} (pattern : BitVec width) : Alteration → BitVec width
  | neg => -pattern
  | not => ~~~pattern
  | clear => .ofNat width 0

theorem Alteration.setWidth_bits {width : Nat} (how : Alteration) (pattern : BitVec 64)
    (bound : width ≤ 64) : (how.bits pattern).setWidth width = how.bits (pattern.setWidth width) := by
  cases how with
  | neg => exact BitVec.setWidth_neg_of_le bound
  | not => exact BitVec.setWidth_not bound
  | clear => exact BitVec.setWidth_zero ..

theorem Word.toNat_setWidth {width : Nat} (v : Word) (bound : width ≤ 64) :
    ((v.toBitVec.setWidth width).toNat : Int) = v.toInt % 2 ^ width := by
  rw [BitVec.toNat_setWidth, toInt_emod_two_pow v bound]
  push_cast
  rfl

namespace Register

variable (r : Register)

theorem busWidth_le (r : Register) : r.busWidth ≤ 64 :=
  r.busWidth_le_bits.trans (r.bits_le.trans (by decide))

theorem toNat_shown : (r.shown.toNat : Int) = r.value.toInt % 2 ^ r.busWidth :=
  Word.toNat_setWidth r.value r.busWidth_le

theorem setWidth_read : (r.read 0).toBitVec.setWidth r.busWidth = r.shown := by
  apply BitVec.eq_of_toNat_eq
  have read := Word.toNat_setWidth (r.read 0) r.busWidth_le
  rw [toInt_read, exactShift_zero, Int.emod_emod] at read
  exact_mod_cast read.trans r.toNat_shown.symm

theorem shown_put (pattern : BitVec r.busWidth) :
    (r.put (Int64.ofInt pattern.toNat)).shown = pattern := by
  apply BitVec.eq_of_toNat_eq
  have within : (2 ^ r.busWidth : Int) ≤ 2 ^ r.bits := pow_le_pow_right₀ (by decide) r.busWidth_le_bits
  have small : (pattern.toNat : Int) < 2 ^ r.busWidth := by exact_mod_cast pattern.isLt
  have shown := (r.put (Int64.ofInt pattern.toNat)).toNat_shown
  rw [toInt_put_ofInt (by omega) (by omega)] at shown
  have kept : (pattern.toNat : Int) % 2 ^ r.busWidth = pattern.toNat := Int.emod_eq_of_lt (by omega) small
  exact_mod_cast shown.trans kept

end Register

namespace Primitive

variable {primitive first second : Primitive} {how back : Combination} {file : RegisterFile}
  {target : String} {d : Register} {source : Operand} {number : Int} {amount further : Option Int32}

theorem stores_bits {operands : List Operand} {effect : Effect}
    (told : primitive.effect operands = .ok effect) (goal : effect.target? = some target)
    (found : file.find? target = some d) (writable : d.access.Allows .write) (pattern : BitVec 64)
    (loaded : effect.load file = .ok (Int64.ofBitVec pattern, 0)) :
    (primitive.perform operands).Stores file d (pattern.setWidth d.busWidth).toNat := by
  have stores := (perform_fits told goal found writable loaded).stores_latched
  rwa [← Word.toNat_setWidth _ d.busWidth_le] at stores

def sourceBits (width : Nat) (number : Int) (places : Int) : BitVec width :=
  (Word.shift (Int64.ofInt number) (clampAmount places)).toBitVec.setWidth width

theorem combine_stores_bits (operation : primitive.operation = .combine how)
    (found : file.find? target = some d) (readable : d.access.Allows .read)
    (writable : d.access.Allows .write) (plain : how.Carries → d.overflow = .wrap)
    (supplies : source.Supplies file 0 number) (amount : Option Int32) :
    (primitive.perform (primitive.operandsFor target source amount)).Stores file d
      (how.bits d.shown (sourceBits d.busWidth number (primitive.exactAmount amount))).toNat := by
  have told := effect_operandsFor (congrArg Operation.transfer? operation) target source amount
  obtain ⟨supplied, read, rfl⟩ := supplies.load (le_refl 0)
  have unshifted : clampAmount 0 = 0 := rfl
  rw [unshifted] at read
  have current := RegisterFile.fetch_eq found readable 0
  have stores := stores_bits told rfl found writable
    (how.bits (d.read 0).toBitVec
      (supplied.shift (clampAmount (primitive.exactAmount amount))).toBitVec) (by
      simp only [Effect.load, read, current, Combination.load_eq_bits found plain, bind, Except.bind,
        pure, Except.pure])
  rw [how.setWidth_bits _ _ d.busWidth_le, d.setWidth_read] at stores
  rwa [sourceBits, Int64.ofInt_toInt]

theorem alter_stores_bits {how : Alteration} (operation : primitive.operation = .alter how)
    (found : file.find? target = some d) (readable : d.access.Allows .read)
    (writable : d.access.Allows .write) :
    (primitive.perform [.register target]).Stores file d (how.bits d.shown).toNat := by
  have told : primitive.effect [.register target] = .ok (.alter how target) := by
    simp only [effect, operation]
    rfl
  have current := RegisterFile.fetch_eq found readable 0
  have loaded : (Effect.alter how target).load file =
      .ok (Int64.ofBitVec (how.bits (d.read 0).toBitVec), 0) := by
    cases how with
    | neg | not =>
      simp only [Effect.load, current, bind, Except.bind, pure, Except.pure]
      rfl
    | clear => rfl
  have stores := stores_bits told rfl found writable _ loaded
  rwa [how.setWidth_bits _ d.busWidth_le, d.setWidth_read] at stores

theorem alter_twice_stores {how : Alteration} (operation : first.operation = .alter how)
    (again : second.operation = .alter how) (found : file.find? target = some d)
    (readable : d.access.Allows .read) (writable : d.access.Allows .write)
    (involutive : ∀ pattern : BitVec d.busWidth, how.bits (how.bits pattern) = pattern) :
    Action.Stores (do first.perform [.register target]; second.perform [.register target]) file d
      (d.value.toInt % 2 ^ d.busWidth) := by
  rw [← d.toNat_shown]
  apply (alter_stores_bits operation found readable writable).bind
  intro next replaces
  have repeated := alter_stores_bits again (replaces.find?_written found) readable writable
  rw [d.shown_put] at repeated
  have restored : (how.bits (how.bits d.shown)).toNat = d.shown.toNat := by rw [involutive]
  rw [← restored]
  exact repeated

/-- A combination is undone by another with the same source and the same shift, which are found
again since the source is not the target. -/
theorem combine_undone_stores (operation : first.operation = .combine how)
    (again : second.operation = .combine back) (found : file.find? target = some d)
    (readable : d.access.Allows .read) (writable : d.access.Allows .write)
    (plain : how.Carries ∨ back.Carries → d.overflow = .wrap) (supplies : source.Supplies file 0 number)
    (elsewhere : source.register?.bind file.find? ≠ some d)
    (same : first.exactAmount amount = second.exactAmount further)
    (undoes : ∀ pattern others : BitVec d.busWidth, back.bits (how.bits pattern others) others = pattern) :
    Action.Stores (do
      first.perform (first.operandsFor target source amount)
      second.perform (second.operandsFor target source further)) file d
      (d.value.toInt % 2 ^ d.busWidth) := by
  rw [← d.toNat_shown]
  apply (combine_stores_bits operation found readable writable (plain ∘ .inl) supplies amount).bind
  intro next replaces
  have undone := combine_stores_bits again (replaces.find?_written found) readable writable
    (plain ∘ .inr) (supplies.of_replaces replaces elsewhere) further
  rw [d.shown_put, ← same] at undone
  have restored := undoes d.shown (sourceBits d.busWidth number (first.exactAmount amount))
  exact congrArg BitVec.toNat restored ▸ undone

theorem perform_neg_eq {negate complement increment : Primitive} (negation : negate.operation = .alter .neg)
    (inversion : complement.operation = .alter .not) (addition : increment.operation = .combine .add)
    (found : file.find? target = some d) (readable : d.access.Allows .read)
    (writable : d.access.Allows .write) (wraps : d.overflow = .wrap)
    (unshifted : increment.exactAmount amount = 0) :
    (do
      complement.perform [.register target]
      increment.perform (increment.operandsFor target (.immediate 1) amount) : Action Unit) file =
      negate.perform [.register target] file := by
  have negated := alter_stores_bits negation found readable writable
  refine Action.Stores.eq ?_ negated
  apply (alter_stores_bits inversion found readable writable).bind
  intro next replaces
  have stores := combine_stores_bits addition (replaces.find?_written found) readable writable
    (fun _ => wraps) (.of_immediate next 1) amount
  have one : sourceBits d.busWidth 1 0 = BitVec.ofNat d.busWidth 1 :=
    BitVec.setWidth_ofNat_of_le d.busWidth_le 1
  have sum : Alteration.neg.bits d.shown =
      Combination.add.bits (Alteration.not.bits d.shown) (sourceBits d.busWidth 1 0) := by
    rw [one]
    exact BitVec.neg_eq_not_add d.shown
  rw [sum, ← unshifted]
  rwa [d.shown_put] at stores

/-- The algebra of the bits that a bus shows. Complement, negation and exclusive or, done twice,
leave the bits as they were, and logic never overflows, under any policy; where the register wraps,
subtraction undoes addition and negation is the complement and one. -/
theorem bits_algebra (file : RegisterFile) (target : String) (d : Register)
    (found : file.find? target = some d) (readable : d.access.Allows .read)
    (writable : d.access.Allows .write) :
    let start := d.value.toInt % 2 ^ d.busWidth
    (∀ how : Alteration, how ≠ .clear → ∀ first second : Primitive,
      first.operation = .alter how → second.operation = .alter how →
      Action.Stores (do first.perform [.register target]; second.perform [.register target]) file d start) ∧
    (∀ (source : Operand) (number : Int), source.Supplies file 0 number →
      (∀ how : Combination, ¬ how.Carries → ∀ (primitive : Primitive) (amount : Option Int32),
        primitive.operation = .combine how →
        (primitive.perform (primitive.operandsFor target source amount)).Stores file d
          (how.bits d.shown (sourceBits d.busWidth number (primitive.exactAmount amount))).toNat) ∧
      (source.register?.bind file.find? ≠ some d →
        ∀ (first second : Primitive) (amount further : Option Int32),
        first.exactAmount amount = second.exactAmount further →
        let both : Action Unit := do
          first.perform (first.operandsFor target source amount)
          second.perform (second.operandsFor target source further)
        (first.operation = .combine .xor → second.operation = .combine .xor →
          both.Stores file d start) ∧
        (d.overflow = .wrap → first.operation = .combine .add → second.operation = .combine .sub →
          both.Stores file d start))) ∧
    (d.overflow = .wrap → ∀ (negate complement increment : Primitive) (amount : Option Int32),
      negate.operation = .alter .neg → complement.operation = .alter .not →
      increment.operation = .combine .add → increment.exactAmount amount = 0 →
      (do
        complement.perform [.register target]
        increment.perform (increment.operandsFor target (.immediate 1) amount) : Action Unit) file =
        negate.perform [.register target] file) := by
  intro start
  refine ⟨fun how kept first second operation again => ?_, fun source number supplies => ⟨?_, ?_⟩, ?_⟩
  · apply alter_twice_stores operation again found readable writable
    intro pattern
    cases how with
    | neg => exact BitVec.neg_neg
    | not => exact BitVec.not_not
    | clear => exact absurd rfl kept
  · intro how logical primitive amount operation
    exact combine_stores_bits operation found readable writable (fun carries => absurd carries logical)
      supplies amount
  · intro elsewhere first second amount further same both
    constructor
    · intro operation again
      have logical : ¬ Combination.xor.Carries := by decide
      exact combine_undone_stores operation again found readable writable
        (fun carries => absurd (carries.elim id id) logical) supplies elsewhere same
        fun pattern others => by
          simp only [Combination.bits, BitVec.xor_assoc, BitVec.xor_self, BitVec.xor_zero]
    · intro wraps operation again
      exact combine_undone_stores operation again found readable writable (fun _ => wraps) supplies
        elsewhere same BitVec.add_sub_cancel
  · intro wraps negate complement increment amount negation inversion addition unshifted
    exact perform_neg_eq negation inversion addition found readable writable wraps unshifted

theorem bits_algebra_of_byte :
    let d := Register.byte .wrap 200
    let file := RegisterFile.single d
    let source := Operand.immediate (-5)
    let alter (how : Alteration) := Primitive.perform { operation := .alter how } [.register "A"]
    let combine (how : Combination) (source : Operand) (amount : Option Int32) :=
      Primitive.perform { operation := .combine how }
        (Primitive.operandsFor { operation := .combine how } "A" source amount)
    file.find? "A" = some d ∧ d.access.Allows .read ∧ d.access.Allows .write ∧
      source.Supplies file 0 (-5) ∧ d.overflow = .wrap ∧
      Action.Stores (do alter .not; alter .not) file d 200 ∧
      Action.Stores (do alter .neg; alter .neg) file d 200 ∧
      (combine .xor source (some 3)).Stores file d (200 ^^^ 216 : Nat) ∧
      Action.Stores (do combine .xor source (some 3); combine .xor source (some 3)) file d 200 ∧
      Action.Stores (do combine .add source (some 3); combine .sub source (some 3)) file d 200 ∧
      (do alter .not; combine .add (.immediate 1) none : Action Unit) file = alter .neg file := by
  intro d file source alter combine
  have found : file.find? "A" = some d := RegisterFile.find?_single (by decide)
  have readable : d.access.Allows .read := by decide
  have writable : d.access.Allows .write := by decide
  have supplies : source.Supplies file 0 (-5) := .of_immediate file (-5)
  have elsewhere : source.register?.bind file.find? ≠ some d := nofun
  obtain ⟨twice, combined, negated⟩ := bits_algebra file "A" d found readable writable
  obtain ⟨logic, undone⟩ := combined source (-5) supplies
  have xored := logic .xor (by decide) { operation := .combine .xor } (some 3) rfl
  have apart : (Combination.xor.bits d.shown (sourceBits d.busWidth (-5) 3)).toNat = 200 ^^^ 216 := by
    decide +kernel
  exact ⟨found, readable, writable, supplies, rfl,
    twice .not (by decide) { operation := .alter .not } { operation := .alter .not } rfl rfl,
    twice .neg (by decide) { operation := .alter .neg } { operation := .alter .neg } rfl rfl,
    apart ▸ xored,
    (undone elsewhere { operation := .combine .xor } { operation := .combine .xor } (some 3) (some 3)
      rfl).1 rfl rfl,
    (undone elsewhere { operation := .combine .add } { operation := .combine .sub } (some 3) (some 3)
      rfl).2 rfl rfl rfl,
    negated rfl { operation := .alter .neg } { operation := .alter .not } { operation := .combine .add }
      none rfl rfl rfl (by decide)⟩

end Primitive

end DspChip
