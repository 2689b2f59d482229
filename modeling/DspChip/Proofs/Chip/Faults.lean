import DspChip.Proofs.Chip.Atomicity
import DspChip.Proofs.Instruction.Faults
/-! What the faults of a line tell. Every fault of an instruction is warranted by its operands and
by the registers that they name, and no fault of another kind is met. -/

namespace DspChip

/-- The operands and the registers warrant a fault of the primitive: what it tells of them is so.
The mnemonic is told as far as it is known, and of faults of other kinds none is warranted. -/
inductive Primitive.Warrants (primitive : Primitive) (mnemonic : String)
    (operands : List Operand) (file : RegisterFile) : Fault → Prop
  | count (refused : ¬ primitive.arity.Accepts operands.length) :
    Warrants primitive mnemonic operands file
      (.operandCount mnemonic primitive.arity operands.length)
  | destination {index : Nat} {value : Word}
    (place : primitive.destinationIndex? operands.length = some index)
    (stands : operands[index]? = some (.immediate value)) :
    Warrants primitive mnemonic operands file
      (.invalidOperand mnemonic index "register" (Operand.immediate value).text)
  | amount {index : Nat} {operand : Operand}
    (place : primitive.amountIndex? operands.length = some index)
    (stands : operands[index]? = some operand) (other : ∀ amount : Int32, operand ≠ .ofAmount amount) :
    Warrants primitive mnemonic operands file
      (.invalidOperand mnemonic index "shift amount" operand.text)
  | unknown {name : String} (spelled : .register name ∈ operands)
    (absent : ∀ r ∈ file.registers, ¬ r.Answers name) :
    Warrants primitive mnemonic operands file (.unknownRegister name)
  | denied {name : String} {r : Register} {right : Right} (spelled : .register name ∈ operands)
    (resolves : file.find? name = some r) (lacks : ¬ r.access.Allows right) :
    Warrants primitive mnemonic operands file (.accessDenied r.name (.only right))
  | overflow {index : Nat} {name : String} {r : Register} {value : Word} {amount : Int}
    (place : primitive.destinationIndex? operands.length = some index)
    (stands : operands[index]? = some (.register name)) (resolves : file.find? name = some r)
    (rejects : r.overflow = .reject) :
    Warrants primitive mnemonic operands file (.registerOverflow r.name value amount)

namespace Primitive

variable {primitive : Primitive} {operands : List Operand} {file : RegisterFile} {effect : Effect}

theorem Warrants.inInstruction {fault : Fault} (warrants : primitive.Warrants "" operands file fault)
    (mnemonic : String) :
    primitive.Warrants mnemonic operands file (fault.inInstruction mnemonic) := by
  cases warrants with
  | count refused => exact .count refused
  | destination place stands => exact .destination place stands
  | amount place stands other => exact .amount place stands other
  | unknown spelled absent => exact .unknown spelled absent
  | denied spelled resolves lacks => exact .denied spelled resolves lacks
  | overflow place stands resolves rejects => exact .overflow place stands resolves rejects

theorem register_mem_of_effect (told : primitive.effect operands = .ok effect) {name : String}
    (member : name ∈ effect.registers) : .register name ∈ operands := by
  obtain ⟨operand, present, named⟩ := List.mem_filterMap.mp (registers_of_effect told member)
  cases operand with
  | immediate value => cases named
  | register other =>
    cases named
    exact present

theorem stands_of_target? (told : primitive.effect operands = .ok effect) {target : String}
    (named : effect.target? = some target) :
    ∃ index, primitive.destinationIndex? operands.length = some index ∧
      operands[index]? = some (.register target) := by
  rw [target?_of_effect told, destination?_eq_getElem?, Option.bind_assoc] at named
  obtain ⟨index, place, found⟩ := Option.bind_eq_some_iff.mp named
  obtain ⟨operand, stands, register⟩ := Option.bind_eq_some_iff.mp found
  cases operand with
  | immediate value => cases register
  | register other =>
    cases register
    exact ⟨index, place, stands⟩

theorem outcome_warranted (primitive : Primitive) (operands : List Operand) (file : RegisterFile) :
    FaultsIn (primitive.Warrants "" operands file) (primitive.outcome operands file) := by
  refine FaultsIn.bind (effect_faults .count ?_ fun _ _ => .amount) ?_
  · intro index operand place stands unnamed
    cases operand with
    | immediate value => exact .destination place stands
    | register name => cases unnamed
  · intro effect told
    apply Effect.outcome_faults
    · intro ident member absent
      exact .unknown (register_mem_of_effect told member)
        (RegisterFile.not_answers_of_find?_eq_none absent)
    · intro ident member r right found lacks
      exact .denied (register_mem_of_effect told member) found lacks
    · intro target named r found rejects value amount
      obtain ⟨index, place, stands⟩ := stands_of_target? told named
      exact .overflow place stands found rejects

end Primitive

namespace Chip

/-- Faults tell the truth. A statement whose mnemonic is registered fails by the number of its
operands if and only if its instruction takes another number of them; every other fault as well
tells what is so of the operands and of the registers that they name. -/
theorem execute_faults_warranted (chip : Chip) (builtin : chip.IsPrimitive) (line : List Char)
    (statement : Statement) (decoded : chip.grammar.decode line = .ok (some statement))
    (i : Instruction) (found : chip.instructions.lookup? statement.mnemonic = some i) :
    ∃ primitive, i.body = .primitive primitive ∧
      (∀ mnemonic arity count after,
        chip.execute line = .error (.operandCount mnemonic arity count) after ↔
          ¬ i.arity.Accepts statement.operands.length ∧ mnemonic = i.mnemonic ∧
            arity = i.arity ∧ count = statement.operands.length ∧ after = chip) ∧
      ∀ fault after, chip.execute line = .error fault after →
        primitive.Warrants i.mnemonic statement.operands chip.registers fault := by
  obtain ⟨primitive, body⟩ := builtin i (InstructionTable.lookup?_eq_some_iff.mp found).1
  have arity : i.arity = primitive.arity := by rw [Instruction.arity, body, Instruction.Body.arity]
  have left : chip.outcome statement =
      if primitive.arity.Accepts statement.operands.length then
        (primitive.outcome statement.operands chip.registers).mapError (Fault.inInstruction i.mnemonic)
      else .error (.operandCount i.mnemonic primitive.arity statement.operands.length) := by
    rw [outcome, found]
    exact Instruction.outcome_primitive body _ _
  have warranted : FaultsIn (primitive.Warrants i.mnemonic statement.operands chip.registers)
      (chip.outcome statement) := by
    rw [left]
    split
    · exact (primitive.outcome_warranted _ _).mapError fun fault warrants =>
        warrants.inInstruction i.mnemonic
    · rename_i refused
      exact FaultsIn.error (.count refused)
  have sound : ∀ fault after, chip.execute line = .error fault after →
      primitive.Warrants i.mnemonic statement.operands chip.registers fault ∧ after = chip := by
    intro fault after failed
    rw [execute_of_decode builtin decoded] at failed
    cases result : chip.outcome statement with
    | ok registers =>
      rw [result] at failed
      cases failed
    | error other =>
      rw [result] at failed
      cases failed
      exact ⟨warranted fault result, rfl⟩
  refine ⟨primitive, body, fun mnemonic expected count after => ⟨fun failed => ?_, ?_⟩,
    fun fault after failed => (sound fault after failed).1⟩
  · obtain ⟨warrants, same⟩ := sound _ after failed
    cases warrants with
    | count refused => exact ⟨arity ▸ refused, rfl, arity.symm, rfl, same⟩
  · rintro ⟨refused, rfl, rfl, rfl, rfl⟩
    rw [arity] at refused
    rw [execute_of_decode builtin decoded, left, if_neg refused, arity]

theorem execute_faults_warranted_toy :
    ∃ chip i primitive, (Descriptor.toy .reject).build = .ok chip ∧ chip.IsPrimitive ∧
      let line := "lda #300, #5".toList
      let statement : Statement := ⟨none, "lda", [.immediate 300, .immediate 5]⟩
      let fault : Fault := .invalidOperand "LDA" 1 "register" "#5"
      chip.grammar.decode line = .ok (some statement) ∧
      chip.instructions.lookup? statement.mnemonic = some i ∧ i.body = .primitive primitive ∧
      chip.execute line = .error fault chip ∧
      primitive.Warrants i.mnemonic statement.operands chip.registers fault := by
  obtain ⟨chip, built, grammar, registers, instructions⟩ := Descriptor.exists_build_toy .reject
  have builtin := Descriptor.isPrimitive_of_build built
  have found : chip.instructions.lookup? "lda" =
      some (InstructionEntry.build ⟨"LDA", .move, .sourceFirst, 0⟩) :=
    lookup?_of_entries instructions (by decide) (by decide)
  have decoded : chip.grammar.decode "lda #300, #5".toList =
      .ok (some ⟨none, "lda", [.immediate 300, .immediate 5]⟩) := by
    rw [grammar]
    decide
  have failed : chip.execute "lda #300, #5".toList =
      .error (.invalidOperand "LDA" 1 "register" "#5") chip := by
    rw [execute_of_decode builtin decoded, outcome, found]
    rfl
  obtain ⟨primitive, body, _, warranted⟩ :=
    execute_faults_warranted chip builtin _ _ decoded _ found
  exact ⟨chip, _, primitive, built, builtin, decoded, found, body, failed, warranted _ _ failed⟩

end Chip

end DspChip
