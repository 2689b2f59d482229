import DspChip.Proofs.Instruction.Outcome
import DspChip.Proofs.Register.Fit
/-! Operands in their places, moves in closed form, and one instruction after another. A transfer
finds its target, its source and its shift amount in either order, and a source supplies an exact
number. -/

namespace DspChip

def Operand.ofAmount (amount : Int32) : Operand := .immediate amount.toInt64

def Operation.transfer? : Operation → Option (String → Operand → Int → Effect)
  | move => some .move
  | combine how => some (.combine how)
  | nop | shift _ | alter _ => none

theorem Operation.arity_of_transfer? {operation : Operation} {make : String → Operand → Int → Effect}
    (transfers : operation.transfer? = some make) : operation.arity = ⟨2, 3⟩ := by
  cases operation with
  | move | combine how => rfl
  | nop | shift fill | alter how => cases transfers

def OperandOrder.arrange (target source : Operand) (amount : Option Operand) :
    OperandOrder → List Operand
  | targetFirst => target :: source :: amount.toList
  | sourceFirst => source :: (amount.toList ++ [target])

theorem Operand.asAmount_ofAmount (index : Nat) (amount : Int32) :
    (ofAmount amount).asAmount index = .ok amount.toInt := by
  have told : (ofAmount amount).immediate?.map Int64.toInt = some amount.toInt :=
    congrArg some amount.toInt_toInt64
  have inRange : Int32.minValue.toInt ≤ amount.toInt ∧ amount.toInt ≤ Int32.maxValue.toInt :=
    ⟨amount.minValue_le_toInt, amount.toInt_le⟩
  simp only [asAmount, told, if_pos inRange]

/-- The source supplies this number where it is shifted to the right as it is read: an immediate as
it is written, a register that may be read cut to its bus. -/
inductive Operand.Supplies (file : RegisterFile) (amount : Int) : Operand → Int → Prop
  | immediate (value : Word) : Supplies file amount (.immediate value) (exactShift value.toInt amount)
  | register {name : String} {r : Register} (found : file.find? name = some r)
      (readable : r.access.Allows .read) :
      Supplies file amount (.register name) (exactShift r.value.toInt amount % 2 ^ r.busWidth)

theorem Operand.Supplies.of_immediate (file : RegisterFile) (value : Word) :
    (Operand.immediate value).Supplies file 0 value.toInt := by
  have supplied : (Operand.immediate value).Supplies file 0 (exactShift value.toInt 0) :=
    .immediate value
  rwa [exactShift_zero] at supplied

theorem Operand.Supplies.of_register {file : RegisterFile} {name : String} {r : Register}
    (found : file.find? name = some r) (readable : r.access.Allows .read) :
    (Operand.register name).Supplies file 0 (r.value.toInt % 2 ^ r.busWidth) := by
  have supplied : (Operand.register name).Supplies file 0
      (exactShift r.value.toInt 0 % 2 ^ r.busWidth) := .register found readable
  rwa [exactShift_zero] at supplied

theorem RegisterFile.fetch_eq {file : RegisterFile} {name : String} {r : Register}
    (found : file.find? name = some r) (readable : r.access.Allows .read) (amount : Int) :
    file.fetch name amount = .ok (r.read amount) := by
  have claimed := claim_eq_ok_iff.mpr ⟨found, readable⟩
  simp only [fetch, claimed, bind, Except.bind, pure, Except.pure]

theorem RegisterFile.fetch_clampAmount (file : RegisterFile) (ident : String) (amount : Int) :
    file.fetch ident (clampAmount amount) = file.fetch ident amount := by
  simp only [fetch, Register.read, Word.shift_clampAmount]

theorem Operand.load_clampAmount (source : Operand) (file : RegisterFile) (amount : Int) :
    source.load (clampAmount amount) file = source.load amount file := by
  cases source with
  | register name => exact file.fetch_clampAmount name amount
  | immediate value => exact congrArg Except.ok (value.shift_clampAmount amount)

theorem Operand.Supplies.load {file : RegisterFile} {source : Operand} {amount number : Int}
    (supplies : source.Supplies file amount number) (right : amount ≤ 0) :
    ∃ value : Word, source.load (clampAmount amount) file = .ok value ∧ value.toInt = number := by
  rw [Operand.load_clampAmount]
  cases supplies with
  | immediate value => exact ⟨value.shift amount, rfl, Word.toInt_shift_of_nonpos value right⟩
  | register found readable =>
    rename_i name r
    exact ⟨r.read amount, RegisterFile.fetch_eq found readable amount, r.toInt_read amount⟩

namespace Primitive

variable {primitive : Primitive} {operands : List Operand} {effect : Effect} {file : RegisterFile}
  {target : String} {d : Register}

/-- The amounts of the primitive itself and of an operand together, before they are stopped at the
ends of their range. -/
def exactAmount (primitive : Primitive) (amount : Option Int32) : Int :=
  primitive.amount.toInt + (amount.map Int32.toInt).getD 0

def operandsFor (primitive : Primitive) (target : String) (source : Operand)
    (amount : Option Int32) : List Operand :=
  primitive.order.arrange (.register target) source (amount.map Operand.ofAmount)

theorem transfer_operandsFor (primitive : Primitive) (target : String) (source : Operand)
    (amount : Option Int32) :
    primitive.transfer (primitive.operandsFor target source amount) =
      .ok (target, source, clampAmount (primitive.exactAmount amount)) := by
  obtain ⟨operation, order, fixed⟩ := primitive
  cases order with
  | targetFirst =>
    cases amount with
    | none => rfl
    | some amount =>
      simp only [transfer, operandsFor, OperandOrder.arrange, Option.map_some, Option.toList_some,
        Transfer.ofOperands?, Operand.asAmount_ofAmount]
      rfl
  | sourceFirst =>
    cases amount with
    | none => rfl
    | some amount =>
      simp only [transfer, operandsFor, OperandOrder.arrange, Option.map_some, Option.toList_some,
        List.cons_append, List.nil_append, Transfer.ofOperands?, Operand.asAmount_ofAmount]
      rfl

theorem effect_of_transfer? {make : String → Operand → Int → Effect}
    (transfers : primitive.operation.transfer? = some make) (operands : List Operand) :
    primitive.effect operands = do
      let (target, source, amount) ← primitive.transfer operands
      return make target source amount := by
  obtain ⟨operation, order, fixed⟩ := primitive
  cases operation with
  | move | combine how =>
    cases transfers
    rfl
  | nop | shift fill | alter how => cases transfers

theorem effect_operandsFor {make : String → Operand → Int → Effect}
    (transfers : primitive.operation.transfer? = some make) (target : String) (source : Operand)
    (amount : Option Int32) :
    primitive.effect (primitive.operandsFor target source amount) =
      .ok (make target source (clampAmount (primitive.exactAmount amount))) := by
  rw [effect_of_transfer? transfers, transfer_operandsFor]
  rfl

theorem perform_fits (told : primitive.effect operands = .ok effect)
    (goal : effect.target? = some target) (found : file.find? target = some d)
    (allowed : d.access.Allows .write) {value : Word} {amount : Int}
    (loaded : effect.load file = .ok (value, amount)) :
    (primitive.perform operands).Fits file d (d.offered value amount)
      (.registerOverflow d.name value amount) := by
  rw [perform_eq_change]
  apply Action.fits_change found allowed
  simp only [outcome, told, Effect.outcome, goal, loaded, bind, Except.bind]

theorem perform_of_load_error (told : primitive.effect operands = .ok effect)
    (goal : effect.target? = some target) {fault : Fault} (failed : effect.load file = .error fault) :
    primitive.perform operands file = .error fault file := by
  rw [perform_eq_change, Action.change]
  simp only [outcome, told, Effect.outcome, goal, failed, bind, Except.bind]

end Primitive

/-! Moves. A right shift happens as the source is read, a left shift as the target is written, so
that the first never overflows and the second goes by the policy of the target. -/

namespace Primitive

/-- Moves in closed form. A right shift cuts all of the source to its bus and then to that of the
target; a left shift fits what both buses let through to the target. The amounts of the primitive
and of the operand add up exactly, and source and target may be one register. -/
theorem move_closed_form (primitive : Primitive) (operation : primitive.operation = .move)
    (file : RegisterFile) (target : String) (d : Register) (found : file.find? target = some d)
    (writable : d.access.Allows .write) (source : Operand) (amount : Option Int32) (number : Int)
    (supplies : source.Supplies file (min (primitive.exactAmount amount) 0) number) :
    let places := primitive.exactAmount amount
    let action := primitive.perform (primitive.operandsFor target source amount)
    (places < 0 → action.Stores file d (number % 2 ^ d.busWidth)) ∧
    (0 ≤ places → ∃ value : Word, value.toInt = number ∧
      action.Fits file d (number % 2 ^ d.busWidth * 2 ^ places.toNat)
        (.registerOverflow d.name value (clampAmount places))) := by
  intro places action
  have told := effect_operandsFor (congrArg Operation.transfer? operation) target source amount
  obtain ⟨value, read, rfl⟩ := supplies.load (min_le_right _ _)
  have loaded : (Effect.move target source (clampAmount places)).load file =
      .ok (value, clampAmount (max places 0)) := by
    simp only [Effect.load, min_clampAmount_zero, max_clampAmount_zero]
    simp only [places, read, bind, Except.bind, pure, Except.pure]
  have fits := perform_fits told rfl found writable loaded
  constructor
  · intro right
    have unshifted : clampAmount (max places 0) = 0 := by
      rw [max_eq_right right.le]
      rfl
    rw [unshifted] at fits
    exact fits.stores_latched
  · intro left
    refine ⟨value, rfl, ?_⟩
    rw [max_eq_left left] at fits
    have exact := fits.congr (d.fit_offered_clampAmount value places)
    rwa [Register.offered, exactShift_of_nonneg _ left] at exact

theorem move_closed_form_accumulator :
    let d : Register := {
      name := "Accumulator", shortName := "A", bits := 40, busWidth := 16, overflow := .reject
      value := 0x123456789A
      one_le_busWidth := by decide
      busWidth_le_bits := by decide
      bits_le := by decide
      within := by decide }
    let file := RegisterFile.single d
    let high : Primitive := { operation := .move, order := .sourceFirst, amount := -16 }
    let acc := Operand.register "A"
    file.find? "A" = some d ∧ d.access.Allows .write ∧
      acc.Supplies file (min (high.exactAmount (some (-4))) 0) 0x2345 ∧
      Action.Stores (high.perform [acc, .immediate (-4), acc]) file d 0x2345 ∧
      acc.Supplies file (min (high.exactAmount (some 46)) 0) 0x789A ∧
      ∃ value : Word, value.toInt = 0x789A ∧
        high.perform [acc, .immediate 46, acc] file =
          .error (.registerOverflow "Accumulator" value 30) file := by
  intro d file high acc
  have found : file.find? "A" = some d := RegisterFile.find?_single (by decide)
  have readable : d.access.Allows .read := by decide
  have writable : d.access.Allows .write := by decide
  have rightward : high.exactAmount (some (-4)) = -20 := by decide
  have leftward : high.exactAmount (some 46) = 30 := by decide
  have shifted : exactShift d.value.toInt (-20) % 2 ^ d.busWidth = 0x2345 := by
    rw [exactShift_of_nonpos _ (by decide)]
    decide
  have supplies : acc.Supplies file (min (high.exactAmount (some (-4))) 0) 0x2345 := by
    rw [rightward, ← shifted]
    exact .register found readable
  have supplied : acc.Supplies file (min (high.exactAmount (some 46)) 0) 0x789A := by
    have unshifted : min (30 : Int) 0 = 0 := by decide
    have shown : d.value.toInt % 2 ^ d.busWidth = 0x789A := by decide
    rw [leftward, unshifted, ← shown]
    exact .of_register found readable
  have stores := (move_closed_form high rfl file "A" d found writable acc (some (-4)) _ supplies).1
  have fits := (move_closed_form high rfl file "A" d found writable acc (some 46) _ supplied).2
  rw [rightward] at stores
  rw [leftward] at fits
  have refused : d.fit (0x789A % 2 ^ d.busWidth * 2 ^ (30 : Int).toNat) = none := by decide
  have failed := fits (by decide)
  simp only [Action.Fits, refused] at failed
  exact ⟨found, writable, supplies, stores (by decide), supplied, failed⟩

end Primitive

/-! One instruction after another. What the first has stored is what the second finds, and it finds
all other registers as they were. -/

namespace RegisterFile.Replaces

variable {file middle next other : RegisterFile} {r s written last : Register} {name : String}

theorem trans (first : file.Replaces r written middle) (second : middle.Replaces written last next) :
    file.Replaces r last next := by
  obtain ⟨front, back, split, left, shape⟩ := first
  obtain ⟨front', back', split', left', shape'⟩ := second
  obtain ⟨rfl, rfl⟩ := eq_of_splits left split'
  exact ⟨front, back, split, left', shape'.trans shape⟩

theorem next_unique (replaces : file.Replaces r written next) (also : file.Replaces r written other) :
    next = other := by
  obtain ⟨front, back, split, left, _⟩ := replaces
  obtain ⟨front', back', split', left', _⟩ := also
  obtain ⟨rfl, rfl⟩ := eq_of_splits split split'
  exact eq_of_registers (left.trans left'.symm)

theorem find?_written (replaces : file.Replaces r written next) (found : file.find? name = some r) :
    next.find? name = some written := by
  have answers : written.Answers name := by
    rw [replaces.shape]
    exact answers_of_find?_eq_some found
  obtain ⟨front, back, _, left, _⟩ := replaces
  exact find?_eq_some_of_split left answers

theorem find?_other (replaces : file.Replaces r written next) (found : file.find? name = some s)
    (elsewhere : s ≠ r) : next.find? name = some s := by
  obtain ⟨front, back, split, left, _⟩ := replaces
  have present := mem_of_find?_eq_some found
  rw [split, List.mem_append, List.mem_cons] at present
  have kept : s ∈ next.registers := by
    rw [left, List.mem_append, List.mem_cons]
    exact present.imp_right fun later => .inr (later.resolve_left elsewhere)
  exact find?_eq_some_of_answers kept (answers_of_find?_eq_some found)

end RegisterFile.Replaces

theorem Operand.Supplies.of_replaces {file next : RegisterFile} {r written : Register} {source : Operand}
    {amount number : Int} (supplies : source.Supplies file amount number)
    (replaces : file.Replaces r written next)
    (elsewhere : source.register?.bind file.find? ≠ some r) : source.Supplies next amount number := by
  cases supplies with
  | immediate value => exact .immediate value
  | register found readable =>
    rename_i name s
    have other : s ≠ r := fun same => elsewhere (same ▸ found)
    exact .register (replaces.find?_other found other) readable

namespace Action

variable {action first second : Action Unit} {file : RegisterFile} {r : Register} {number later : Int}

theorem Stores.bind (stores : first.Stores file r number)
    (continues : ∀ next, file.Replaces r (r.put (Int64.ofInt number)) next →
      second.Stores next (r.put (Int64.ofInt number)) later) :
    Action.Stores (do first; second) file r later := by
  obtain ⟨middle, written, done, replaces, holds⟩ := stores
  obtain rfl := Register.eq_put_ofInt replaces.shape holds
  obtain ⟨next, last, done', replaces', holds'⟩ := continues middle replaces
  exact ⟨next, last, bind_eq_ok_iff.mpr ⟨middle, done, done'⟩, replaces.trans replaces', holds'⟩

theorem Stores.eq (stores : first.Stores file r number) (also : second.Stores file r number) :
    first file = second file := by
  obtain ⟨next, written, done, replaces, holds⟩ := stores
  obtain ⟨next', written', done', replaces', holds'⟩ := also
  obtain rfl := Register.eq_put_ofInt replaces.shape holds
  obtain rfl := Register.eq_put_ofInt replaces'.shape holds'
  obtain rfl := replaces.next_unique replaces'
  rw [done, done']

end Action

end DspChip
