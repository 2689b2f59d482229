import DspChip.Proofs.Assembly.Case
import DspChip.Proofs.Instruction.Outcome
/-! Instructions in lower case. Operands in lower case name the registers that the operands name, so
an instruction makes of them what it makes of the operands. -/

namespace DspChip

theorem Fault.fold_inInstruction (mnemonic : String) (fault : Fault) :
    (fault.inInstruction mnemonic).fold = fault.fold.inInstruction mnemonic := by
  cases fault with
  | _ => rfl

theorem folded_id {α : Type} {result : Except Fault α}
    (stays : FaultsIn (fun fault => fault.fold = fault) result) : folded id result = result := by
  cases result with
  | error fault => exact congrArg Except.error (stays fault rfl)
  | ok a => rfl

theorem Register.Shape.answers_fold (shape : Register.Shape) (ident : String) :
    shape.Answers (Text.fold ident) ↔ shape.Answers ident := by
  simp only [Answers, Text.SameName, Text.fold_fold]

namespace RegisterFile

theorem find?_fold (file : RegisterFile) (ident : String) :
    file.find? (Text.fold ident) = file.find? ident := by
  simp only [find?, Register.Shape.answers_fold]

theorem put_fold (file : RegisterFile) (ident : String) (contents : Word) :
    file.put (Text.fold ident) contents = file.put ident contents := by
  simp only [put, Register.Shape.answers_fold]

theorem get_fold (file : RegisterFile) (ident : String) :
    file.get (Text.fold ident) = folded id (file.get ident) := by
  unfold get
  rw [find?_fold]
  cases file.find? ident <;> rfl

theorem claim_fold (file : RegisterFile) (right : Right) (ident : String) :
    file.claim right (Text.fold ident) = folded id (file.claim right ident) := by
  rw [claim, get_fold]
  apply folded_bind
  intro r
  dsimp only [id]
  split <;> rfl

theorem fetch_fold (file : RegisterFile) (ident : String) (amount : Int) :
    file.fetch (Text.fold ident) amount = folded id (file.fetch ident amount) := by
  rw [fetch, claim_fold]
  exact folded_bind fun r => rfl

theorem fetchSigned_fold (file : RegisterFile) (ident : String) :
    file.fetchSigned (Text.fold ident) = folded id (file.fetchSigned ident) := by
  rw [fetchSigned, claim_fold]
  exact folded_bind fun r => rfl

theorem settle_fold (file : RegisterFile) (ident : String) (result : Int) :
    file.settle (Text.fold ident) result = folded id (file.settle ident result) := by
  rw [settle, get_fold]
  apply folded_bind
  intro r
  symm
  apply folded_id
  unfold Register.settle
  split
  · exact FaultsIn.ok _
  · exact FaultsIn.ok _
  · split
    · exact FaultsIn.ok _
    · exact FaultsIn.error rfl

theorem store_fold (file : RegisterFile) (ident : String) (value : Word) (amount : Int) :
    file.store (Text.fold ident) value amount = folded id (file.store ident value amount) := by
  rw [store, claim_fold]
  apply folded_bind
  intro r
  simp only [put_fold, id]
  symm
  apply folded_id
  refine FaultsIn.bind ?_ fun written _ => FaultsIn.ok _
  unfold Register.tryWrite
  split
  · exact FaultsIn.error rfl
  · exact FaultsIn.ok _

end RegisterFile

def Effect.fold : Effect → Effect
  | idle => idle
  | move target source amount => move (Text.fold target) source.fold amount
  | combine how target source amount => combine how (Text.fold target) source.fold amount
  | shift fill target amount => shift fill (Text.fold target) amount
  | alter how target => alter how (Text.fold target)

section Effects

variable (file : RegisterFile)

theorem Operand.load_fold (amount : Int) (operand : Operand) :
    operand.fold.load amount file = folded id (operand.load amount file) := by
  cases operand with
  | register name => exact file.fetch_fold name amount
  | immediate value => rfl

theorem Combination.load_fold (how : Combination) (target : String) (current source : Word) :
    how.load (Text.fold target) current source file =
      folded id (how.load target current source file) := by
  cases how with
  | add => exact file.settle_fold target _
  | sub => exact file.settle_fold target _
  | and | or | xor => rfl

namespace Effect

theorem load_fold (effect : Effect) : effect.fold.load file = folded id (effect.load file) := by
  cases effect with
  | idle => rfl
  | move target source amount =>
    simp only [fold, load, Operand.load_fold]
    exact folded_bind fun value => rfl
  | combine how target source amount =>
    simp only [fold, load, Operand.load_fold, RegisterFile.fetch_fold, Combination.load_fold]
    apply folded_bind
    intro value
    apply folded_bind
    intro current
    exact folded_bind fun result => rfl
  | shift fill target amount =>
    by_cases signed : fill = .sign ∧ amount < 0
    · simp only [fold, load, if_pos signed, RegisterFile.fetchSigned_fold]
      exact folded_bind fun current => rfl
    · simp only [fold, load, if_neg signed, RegisterFile.fetch_fold]
      exact folded_bind fun current => rfl
  | alter how target =>
    cases how with
    | clear => rfl
    | neg | not =>
      simp only [fold, load, RegisterFile.fetch_fold]
      exact folded_bind fun current => rfl

theorem target?_fold (effect : Effect) : effect.fold.target? = effect.target?.map Text.fold := by
  cases effect <;> rfl

theorem outcome_fold (effect : Effect) :
    effect.fold.outcome file = folded id (effect.outcome file) := by
  unfold outcome
  rw [target?_fold, load_fold]
  cases effect.target? with
  | none => rfl
  | some target =>
    apply folded_bind
    intro stored
    exact file.store_fold target _ _

end Effect

end Effects

theorem Operand.text_fold (operand : Operand) : operand.fold.text = Text.fold operand.text := by
  cases operand with
  | register name => rfl
  | immediate value =>
    have stays : ∀ c ∈ '#' :: Numeral.decimal value.toInt, c.toLower = id c := by
      refine List.forall_mem_cons.mpr ⟨rfl, fun c member => ?_⟩
      rcases Numeral.mark_of_mem_decimal member with rfl | digit
      · rfl
      · exact Text.toLower_of_isDigit digit
    rw [fold, text, Text.fold_ofList, Text.lower, List.map_congr_left stays,
      List.map_id]

theorem Operand.asRegister_fold (index : Nat) (operand : Operand) :
    operand.fold.asRegister index = folded Text.fold (operand.asRegister index) := by
  unfold asRegister
  rw [text_fold]
  cases operand <;> rfl

theorem Operand.immediate?_fold (operand : Operand) :
    operand.fold.immediate? = operand.immediate? := by
  cases operand <;> rfl

theorem Operand.asAmount_fold (index : Nat) (operand : Operand) :
    operand.fold.asAmount index = folded id (operand.asAmount index) := by
  unfold asAmount
  rw [immediate?_fold, text_fold]
  split
  · split <;> rfl
  · rfl

def Transfer.fold (found : Transfer) : Transfer where
  target := found.target.fold
  targetIndex := found.targetIndex
  source := found.source.fold
  amount := found.amount.map fun (operand, index) => (operand.fold, index)

theorem Transfer.ofOperands?_fold (order : OperandOrder) (operands : List Operand) :
    ofOperands? order (operands.map Operand.fold) = (ofOperands? order operands).map fold := by
  cases order
  all_goals
    rcases operands with _ | ⟨first, _ | ⟨second, _ | ⟨third, _ | ⟨fourth, rest⟩⟩⟩⟩
    all_goals rfl

namespace Primitive

variable (primitive : Primitive) (operands : List Operand)

theorem countFault_fold : primitive.countFault (operands.map Operand.fold) =
    (primitive.countFault operands).fold := by
  rw [countFault, List.length_map]
  rfl

theorem transfer_fold : primitive.transfer (operands.map Operand.fold) =
    folded (fun parts => (Text.fold parts.1, parts.2.1.fold, parts.2.2))
      (primitive.transfer operands) := by
  unfold transfer
  rw [Transfer.ofOperands?_fold, countFault_fold]
  cases Transfer.ofOperands? primitive.order operands with
  | none => rfl
  | some found =>
    obtain ⟨target, place, source, amount⟩ := found
    cases amount with
    | none =>
      simp only [Option.map_some, Transfer.fold, Option.map_none, Operand.asRegister_fold]
      exact folded_bind fun name => rfl
    | some told =>
      simp only [Option.map_some, Transfer.fold, Operand.asRegister_fold, Operand.asAmount_fold]
      apply folded_bind
      intro total
      exact folded_bind fun name => rfl

theorem effect_fold : primitive.effect (operands.map Operand.fold) =
    folded Effect.fold (primitive.effect operands) := by
  unfold effect
  rw [transfer_fold, countFault_fold]
  cases primitive.operation with
  | nop => rfl
  | move => exact folded_bind fun parts => rfl
  | combine how => exact folded_bind fun parts => rfl
  | shift fill =>
    rcases operands with _ | ⟨target, _ | ⟨amount, _ | ⟨other, rest⟩⟩⟩
    · rfl
    · rfl
    · simp only [List.map_cons, List.map_nil, Operand.asRegister_fold, Operand.asAmount_fold]
      apply folded_bind
      intro name
      exact folded_bind fun total => rfl
    · rfl
  | alter how =>
    rcases operands with _ | ⟨target, _ | ⟨other, rest⟩⟩
    · rfl
    · simp only [List.map_cons, List.map_nil, Operand.asRegister_fold]
      exact folded_bind fun name => rfl
    · rfl

theorem outcome_fold (file : RegisterFile) :
    primitive.outcome (operands.map Operand.fold) file =
      folded id (primitive.outcome operands file) := by
  rw [outcome, effect_fold]
  exact folded_bind fun effect => effect.outcome_fold file

end Primitive

theorem Instruction.outcome_fold {i : Instruction} (builtin : i.IsPrimitive)
    (operands : List Operand) (file : RegisterFile) :
    i.outcome (operands.map Operand.fold) file = folded id (i.outcome operands file) := by
  obtain ⟨primitive, body⟩ := builtin
  rw [outcome_primitive body, outcome_primitive body, List.length_map, Primitive.outcome_fold]
  split
  · cases primitive.outcome operands file with
    | error fault => exact congrArg Except.error (fault.fold_inInstruction i.mnemonic).symm
    | ok next => rfl
  · rfl

end DspChip
