import DspChip.Proofs.Instruction.Faults
/-! Normal forms. The order of the operands and the amount of a primitive itself are ways to write
an instruction down: the same is done by one whose target stands first and whose operand tells both
amounts together, and by an effect that shifts as far as both amounts tell, without a bound. -/

namespace DspChip

namespace Fault

def forgetIndex : Fault → Fault
  | invalidOperand mnemonic _ expected found => invalidOperand mnemonic 0 expected found
  | fault => fault

def mapAmount (change : Int → Int) : Fault → Fault
  | registerOverflow register value amount => registerOverflow register value (change amount)
  | fault => fault

end Fault

/-- Stopping an amount at the ends of its range shows in a store only where the fault tells it. -/
theorem RegisterFile.store_clampAmount (file : RegisterFile) (ident : String) (value : Word)
    (amount : Int) :
    file.store ident value (clampAmount amount) =
      (file.store ident value amount).mapError (Fault.mapAmount clampAmount) := by
  cases claimed : file.claim .write ident with
  | error fault =>
    have untouched :
        FaultsIn (fun fault => fault.mapAmount clampAmount = fault) (file.claim .write ident) :=
      claim_faults (fun _ => rfl) fun _ _ _ => rfl
    simp only [store, claimed, bind, Except.bind, Except.mapError, untouched fault claimed]
  | ok r =>
    obtain ⟨found, allowed⟩ := claim_eq_ok_iff.mp claimed
    rw [store_eq_fit found allowed, store_eq_fit found allowed, r.fit_offered_clampAmount]
    cases r.fit (r.offered value amount) <;> rfl

namespace Effect

def mapAmount (change : Int → Int) : Effect → Effect
  | idle => idle
  | move target source amount => move target source (change amount)
  | combine how target source amount => combine how target source (change amount)
  | shift fill target amount => shift fill target (change amount)
  | alter how target => alter how target

theorem target?_mapAmount (effect : Effect) (change : Int → Int) :
    (effect.mapAmount change).target? = effect.target? := by
  cases effect <;> rfl

theorem load_clampAmount (effect : Effect) (file : RegisterFile) :
    (effect.mapAmount clampAmount).load file = (effect.load file).map (Prod.map id clampAmount) := by
  cases effect with
  | idle => rfl
  | move target source amount =>
    simp only [mapAmount, load, min_clampAmount_zero, max_clampAmount_zero, Operand.load_clampAmount]
    cases source.load (min amount 0) file <;> rfl
  | combine how target source amount =>
    simp only [mapAmount, load, Word.shift_clampAmount]
    cases source.load 0 file with
    | error fault => rfl
    | ok value =>
      simp only [bind, Except.bind]
      cases file.fetch target 0 with
      | error fault => rfl
      | ok current =>
        dsimp only
        cases how.load target current (value.shift amount) file <;> rfl
  | shift fill target amount =>
    by_cases signed : fill = .sign ∧ amount < 0
    · have stopped : fill = .sign ∧ clampAmount amount < 0 :=
        ⟨signed.1, clampAmount_neg_iff.mpr signed.2⟩
      simp only [mapAmount, load, if_pos signed, if_pos stopped, Word.shift_clampAmount]
      cases file.fetchSigned target <;> rfl
    · have stopped : ¬ (fill = .sign ∧ clampAmount amount < 0) :=
        fun both => signed ⟨both.1, clampAmount_neg_iff.mp both.2⟩
      simp only [mapAmount, load, if_neg signed, if_neg stopped]
      cases file.fetch target 0 <;> rfl
  | alter how target =>
    cases how with
    | clear => rfl
    | neg | not =>
      simp only [mapAmount, load]
      cases file.fetch target 0 <;> rfl

theorem outcome_clampAmount (effect : Effect) (file : RegisterFile) :
    (effect.mapAmount clampAmount).outcome file =
      (effect.outcome file).mapError (Fault.mapAmount clampAmount) := by
  have untouched : FaultsIn (fun fault => fault.mapAmount clampAmount = fault) (effect.load file) :=
    load_faults (fun _ _ _ => rfl) (fun _ _ _ _ _ _ => rfl) fun _ _ _ _ _ _ => rfl
  unfold outcome
  rw [target?_mapAmount]
  cases effect.target? with
  | none => rfl
  | some target =>
    dsimp only
    rw [load_clampAmount, mapError_bind, untouched.mapError_eq]
    cases effect.load file with
    | error fault => rfl
    | ok pair => exact file.store_clampAmount target pair.1 pair.2

theorem outcome_forgetIndex (effect : Effect) (file : RegisterFile) :
    (effect.outcome file).mapError Fault.forgetIndex = effect.outcome file :=
  FaultsIn.mapError_eq
    (outcome_faults (fun _ _ _ => rfl) (fun _ _ _ _ _ _ => rfl) fun _ _ _ _ _ _ _ => rfl)

end Effect

namespace Operand

theorem asRegister_forgetIndex (operand : Operand) (index : Nat) :
    (operand.asRegister index).mapError Fault.forgetIndex = operand.asRegister 0 := by
  cases operand <;> rfl

theorem asAmount_forgetIndex (operand : Operand) (index : Nat) :
    (operand.asAmount index).mapError Fault.forgetIndex = operand.asAmount 0 := by
  unfold asAmount
  split
  · split <;> rfl
  · rfl

def direct (target : Operand) (effect : String → Effect) : Action Unit := do
  let name ← Action.ask fun _ => target.asRegister 0
  (effect name).perform

theorem direct_eq_change (target : Operand) (effect : String → Effect) :
    target.direct effect = Action.change fun file =>
      target.asRegister 0 >>= fun name => (effect name).outcome file := by
  simp only [direct, Effect.perform_eq_change, Action.ask_bind_change]

theorem direct_clampAmount (target : Operand) (effect : String → Effect) :
    (target.direct fun name => (effect name).mapAmount clampAmount) =
      (target.direct effect).adaptExcept (Fault.mapAmount clampAmount) := by
  have untouched :
      FaultsIn (fun fault => fault.mapAmount clampAmount = fault) (target.asRegister 0) :=
    asRegister_faults fun _ => rfl
  simp only [direct_eq_change, Action.adaptExcept_change, Effect.outcome_clampAmount, mapError_bind,
    untouched.mapError_eq]

end Operand

namespace Primitive

variable {make : String → Operand → Int → Effect}

/-- Up to the places in faults, a transfer does not see the order of its operands. -/
theorem transfer_arrange (primitive : Primitive) (target source : Operand) (amount : Option Operand) :
    (primitive.transfer (primitive.order.arrange target source amount)).mapError Fault.forgetIndex = do
      let places ← amount.elim (.ok 0) (·.asAmount 0)
      let name ← target.asRegister 0
      return (name, source, primitive.totalAmount places) := by
  obtain ⟨operation, order, fixed⟩ := primitive
  cases order with
  | targetFirst | sourceFirst =>
    cases amount with
    | none =>
      simp only [transfer, OperandOrder.arrange, Option.toList_none, List.nil_append,
        Transfer.ofOperands?, mapError_bind, Operand.asRegister_forgetIndex]
      rfl
    | some amount =>
      simp only [transfer, OperandOrder.arrange, Option.toList_some, List.cons_append, List.nil_append,
        Transfer.ofOperands?, mapError_bind, Operand.asRegister_forgetIndex,
        Operand.asAmount_forgetIndex]
      rfl

theorem perform_arrange (primitive : Primitive) (transfers : primitive.operation.transfer? = some make)
    (target source : Operand) (amount : Option Operand) :
    (primitive.perform (primitive.order.arrange target source amount)).adaptExcept Fault.forgetIndex =
      Action.change fun file =>
        amount.elim (.ok 0) (·.asAmount 0) >>= fun places =>
          target.asRegister 0 >>= fun name =>
            (make name source (primitive.totalAmount places)).outcome file := by
  rw [perform_eq_change, Action.adaptExcept_change]
  refine congrArg Action.change (funext fun file => ?_)
  rw [outcome, effect_of_transfer? transfers, bind_assoc, mapError_bind, transfer_arrange]
  simp only [bind_assoc, pure_bind, Effect.outcome_forgetIndex]

theorem perform_arrange_ofAmount (primitive : Primitive)
    (transfers : primitive.operation.transfer? = some make) (target source : Operand)
    (amount : Option Int32) :
    (primitive.perform (primitive.order.arrange target source (amount.map .ofAmount))).adaptExcept
        Fault.forgetIndex =
      target.direct (make · source (clampAmount (primitive.exactAmount amount))) := by
  rw [perform_arrange primitive transfers, Operand.direct_eq_change]
  cases amount with
  | none => rfl
  | some amount =>
    simp only [Option.map_some, Option.elim_some, Operand.asAmount_ofAmount]
    rfl

theorem perform_shift_eq_direct (primitive : Primitive) {fill : Fill}
    (operation : primitive.operation = .shift fill) (target : Operand) (amount : Int32) :
    primitive.perform [target, .ofAmount amount] =
      target.direct (.shift fill · (clampAmount (primitive.exactAmount (some amount)))) := by
  rw [perform_eq_change, Operand.direct_eq_change]
  refine congrArg Action.change (funext fun file => ?_)
  simp only [outcome, effect, operation, Operand.asAmount_ofAmount]
  cases target <;> rfl

theorem mapAmount_of_transfer? {operation : Operation} (transfers : operation.transfer? = some make)
    (change : Int → Int) (target : String) (source : Operand) (amount : Int) :
    (make target source amount).mapAmount change = make target source (change amount) := by
  cases operation with
  | move | combine how =>
    cases transfers
    rfl
  | nop | shift fill | alter how => cases transfers

/-- Operand order and amounts are ways to write an instruction down. For a move or a combination the
order does not matter, up to the place that a fault tells; and whatever the operands are, the
primitive does what is done with the target first, no amount of its own and both amounts, stopped at
the ends of their range, in an operand. For a shift the order does not matter at all. That the
amounts are stopped shows only where an overflow tells them: otherwise it is the effect that shifts
by the exact sum. -/
theorem perform_normal_form (operation : Operation) (fixed : Int32) :
    let run (order : OperandOrder) (amount : Int32) (operands : List Operand) : Action Unit :=
      Primitive.perform { operation, order, amount } operands
    (∀ make, operation.transfer? = some make → ∀ target source : Operand,
      (∀ amount : Option Operand,
        (run .sourceFirst fixed (OperandOrder.sourceFirst.arrange target source amount)).adaptExcept
            Fault.forgetIndex =
          (run .targetFirst fixed (OperandOrder.targetFirst.arrange target source amount)).adaptExcept
            Fault.forgetIndex) ∧
      ∀ (order : OperandOrder) (amount : Option Int32),
        let places := fixed.toInt + (amount.map Int32.toInt).getD 0
        let total := Int32.ofInt (clampAmount places)
        let written := (run order fixed
          (order.arrange target source (amount.map .ofAmount))).adaptExcept Fault.forgetIndex
        written = (run .targetFirst 0 [target, source, .ofAmount total]).adaptExcept Fault.forgetIndex ∧
          written = (target.direct (make · source places)).adaptExcept (Fault.mapAmount clampAmount)) ∧
    ∀ fill, operation = .shift fill →
      (∀ (order other : OperandOrder) (operands : List Operand),
        run order fixed operands = run other fixed operands) ∧
      ∀ (order : OperandOrder) (target : Operand) (amount : Int32),
        let places := fixed.toInt + amount.toInt
        let total := Int32.ofInt (clampAmount places)
        let written := run order fixed [target, .ofAmount amount]
        written = run .targetFirst 0 [target, .ofAmount total] ∧
          written = (target.direct (.shift fill · places)).adaptExcept (Fault.mapAmount clampAmount) := by
  intro run
  have stopped (places : Int) (order : OperandOrder) :
      clampAmount (exactAmount { operation, order, amount := 0 }
        (some (Int32.ofInt (clampAmount places)))) = clampAmount places := by
    have zero : (0 : Int32).toInt = 0 := rfl
    simp only [exactAmount, Option.map_some, Option.getD_some, zero, Int.zero_add,
      toInt_ofInt_clampAmount, clampAmount_clampAmount]
  constructor
  · intro make transfers target source
    constructor
    · intro amount
      have sourceFirst :=
        perform_arrange ⟨operation, .sourceFirst, fixed⟩ transfers target source amount
      exact sourceFirst.trans
        (perform_arrange ⟨operation, .targetFirst, fixed⟩ transfers target source amount).symm
    · intro order amount places total written
      have direct : written = target.direct (make · source (clampAmount places)) :=
        perform_arrange_ofAmount ⟨operation, order, fixed⟩ transfers target source amount
      have normal := perform_arrange_ofAmount ⟨operation, .targetFirst, 0⟩ transfers target source
        (some total)
      rw [stopped] at normal
      refine ⟨direct.trans normal.symm, ?_⟩
      rw [direct, ← Operand.direct_clampAmount]
      simp only [mapAmount_of_transfer? transfers]
  · intro fill shifts
    subst shifts
    refine ⟨fun order other operands => rfl, ?_⟩
    intro order target amount places total written
    have direct : written = target.direct (.shift fill · (clampAmount places)) :=
      perform_shift_eq_direct ⟨.shift fill, order, fixed⟩ rfl target amount
    have normal := perform_shift_eq_direct ⟨.shift fill, .targetFirst, 0⟩ rfl target total
    rw [stopped] at normal
    refine ⟨direct.trans normal.symm, ?_⟩
    rw [direct, ← Operand.direct_clampAmount]
    rfl

/-- Two amounts whose sum is beyond the range of amounts. -/
theorem perform_normal_form_beyond_range :
    let twofold : Primitive := { operation := .move, order := .sourceFirst, amount := Int32.maxValue }
    let single : Primitive := { operation := .move }
    let written :=
      (twofold.perform [.immediate 1, .ofAmount Int32.maxValue, .register "A"]).adaptExcept
        Fault.forgetIndex
    Operation.transfer? .move = some .move ∧
      Int32.maxValue.toInt + Int32.maxValue.toInt = 4294967294 ∧
      written = (single.perform [.register "A", .immediate 1, .ofAmount Int32.maxValue]).adaptExcept
        Fault.forgetIndex ∧
      written = ((Operand.register "A").direct (.move · (.immediate 1) 4294967294)).adaptExcept
        (Fault.mapAmount clampAmount) := by
  intro twofold single written
  obtain ⟨transfer, -⟩ := perform_normal_form .move Int32.maxValue
  obtain ⟨-, normal⟩ := transfer .move rfl (.register "A") (.immediate 1)
  obtain ⟨same, exact⟩ := normal .sourceFirst (some Int32.maxValue)
  exact ⟨rfl, by decide, same, exact⟩

end Primitive

end DspChip
