import DspChip.Proofs.Descriptor.Build
import DspChip.Proofs.Instruction.Case
import DspChip.Proofs.Instruction.Destination
/-! Lines that differ in the case of letters. A line does what it does in lower case, so two lines
that are the same in lower case do the same. -/

namespace DspChip

def Fault.SameVariant (first second : Fault) : Prop :=
  first.ctorIdx = second.ctorIdx

theorem Fault.sameVariant_of_fold {first second : Fault} (same : first.fold = second.fold) :
    first.SameVariant second := by
  have kept : ∀ fault : Fault, fault.fold.ctorIdx = fault.ctorIdx := by
    intro fault
    cases fault <;> rfl
  rw [SameVariant, ← kept first, same, kept second]

inductive RegisterFile.SameOperand (file : RegisterFile) : Operand → Operand → Prop where
  | immediate (value : Word) : SameOperand file (.immediate value) (.immediate value)
  | register {first second : String} {r : Register} (found : file.find? first = some r)
      (also : file.find? second = some r) : SameOperand file (.register first) (.register second)

theorem RegisterFile.sameOperand_of_fold {file : RegisterFile} {first second : Operand}
    (known : ∀ name, first.register? = some name → ∃ r, file.find? name = some r)
    (same : first.fold = second.fold) : file.SameOperand first second := by
  cases first with
  | immediate value =>
    cases second with
    | register name => cases same
    | immediate other =>
      cases same
      exact .immediate value
  | register name =>
    cases second with
    | immediate other => cases same
    | register other =>
      obtain ⟨r, found⟩ := known name rfl
      refine .register found ?_
      rw [← found, ← file.find?_fold other, ← file.find?_fold name, Operand.register.inj same]

namespace Chip

/-- Both lines held no statement, or statements with the same operands, or failed alike. -/
inductive SameAnswer (chip : Chip) :
    Except Fault (Option Statement) → Except Fault (Option Statement) → Prop where
  | blank : SameAnswer chip (.ok none) (.ok none)
  | executed {a b : Statement}
      (operands : List.Forall₂ chip.registers.SameOperand a.operands b.operands) :
      SameAnswer chip (.ok (some a)) (.ok (some b))
  | failed {fault other : Fault} (variant : fault.SameVariant other) :
      SameAnswer chip (.error fault) (.error other)

variable {chip : Chip}

theorem outcome_fold (builtin : chip.IsPrimitive) (statement : Statement) :
    chip.outcome statement.fold = folded id (chip.outcome statement) := by
  have known : chip.instructions.lookup? statement.fold.mnemonic =
      chip.instructions.lookup? statement.mnemonic :=
    InstructionTable.lookup?_of_sameName _ (Text.fold_fold _)
  unfold outcome
  rw [known]
  cases found : chip.instructions.lookup? statement.mnemonic with
  | none => rfl
  | some i =>
    have primitive := builtin i (InstructionTable.lookup?_eq_some_iff.mp found).1
    exact Instruction.outcome_fold primitive _ _

theorem attempt_lower (builtin : chip.IsPrimitive) (line : List Char) :
    chip.attempt (Text.lower line) =
      folded (fun left => (left.1.map Statement.fold, left.2)) (chip.attempt line) := by
  rw [attempt, Grammar.decode_lower]
  apply folded_bind
  intro decoded
  cases decoded with
  | none => rfl
  | some statement =>
    simp only [Option.map_some, outcome_fold builtin]
    exact folded_bind fun registers => rfl

theorem find?_of_outcome (builtin : chip.IsPrimitive) {statement : Statement}
    {registers : RegisterFile} (left : chip.outcome statement = .ok registers) {name : String}
    (member : name ∈ statement.operands.filterMap Operand.register?) :
    ∃ r, chip.registers.find? name = some r := by
  unfold outcome at left
  cases found : chip.instructions.lookup? statement.mnemonic with
  | none =>
    rw [found] at left
    cases left
  | some i =>
    simp only [found] at left
    obtain ⟨primitive, body⟩ := builtin i (InstructionTable.lookup?_eq_some_iff.mp found).1
    obtain ⟨effect, told, done⟩ := Instruction.effect_of_outcome body left
    exact Effect.find?_of_outcome done
      (Primitive.mem_registers_of_effect (Instruction.accepts_of_outcome body left) told member)

/-- Statements that are the same in lower case have the same operands, once one is carried out. -/
theorem sameOperands_of_fold (builtin : chip.IsPrimitive) {a b : Statement}
    {registers : RegisterFile} (left : chip.outcome a = .ok registers) (same : a.fold = b.fold) :
    List.Forall₂ chip.registers.SameOperand a.operands b.operands := by
  have operands : List.Forall₂ Eq (a.operands.map Operand.fold) (b.operands.map Operand.fold) :=
    List.forall₂_eq_eq_eq ▸ congrArg Statement.operands same
  have pairs : List.Forall₂ (fun first second : Operand => first.fold = second.fold)
      a.operands b.operands := by
    rwa [List.forall₂_map_left_iff, List.forall₂_map_right_iff] at operands
  have known : ∀ operand ∈ a.operands, ∀ name, operand.register? = some name →
      ∃ r, chip.registers.find? name = some r := by
    intro operand present name named
    exact find?_of_outcome builtin left (List.mem_filterMap.mpr ⟨operand, present, named⟩)
  apply ((List.forall₂_and_left _ _).mpr ⟨known, pairs⟩).imp
  intro first second ⟨resolves, alike⟩
  exact RegisterFile.sameOperand_of_fold resolves alike

/-- Executing a line ignores the case of its letters. Two lines that are the same in lower case
leave the same chip; both hold no statement, or both are carried out, on equal immediates and the
same registers, or both fail with a fault of the same kind. -/
theorem execute_ignores_case (chip : Chip) (builtin : chip.IsPrimitive) (first second : List Char)
    (same : Text.lower first = Text.lower second) :
    ofResult (chip.execute first) = ofResult (chip.execute second) ∧
      chip.SameAnswer (answer (chip.execute first)) (answer (chip.execute second)) := by
  have alike := attempt_lower builtin first
  rw [same, attempt_lower builtin second] at alike
  rw [execute_eq builtin, execute_eq builtin]
  cases left : chip.attempt first with
  | error fault =>
    cases right : chip.attempt second with
    | ok pair =>
      rw [left, right] at alike
      cases alike
    | error other =>
      rw [left, right] at alike
      exact ⟨rfl, .failed (Fault.sameVariant_of_fold (Except.error.inj alike).symm)⟩
  | ok pair =>
    obtain ⟨decoded, registers⟩ := pair
    cases right : chip.attempt second with
    | error other =>
      rw [left, right] at alike
      cases alike
    | ok pair =>
      obtain ⟨again, also⟩ := pair
      rw [left, right] at alike
      obtain ⟨statements, ended⟩ := Prod.mk.inj (Except.ok.inj alike)
      obtain rfl : also = registers := ended
      refine ⟨rfl, ?_⟩
      cases decoded with
      | none =>
        cases again with
        | none => exact .blank
        | some b => cases statements
      | some a =>
        cases again with
        | none => cases statements
        | some b =>
          have done := (attempt_eq_ok_iff.mp left).2
          exact .executed (sameOperands_of_fold builtin done (Option.some.inj statements).symm)

theorem execute_ignores_case_toy :
    let first := "LDA 0X1F, Acc ; SET".toList
    let second := "lda 0x1f, ACC ; set".toList
    ∃ chip, (Descriptor.toy .reject).build = .ok chip ∧ chip.IsPrimitive ∧
      Text.lower first = Text.lower second ∧
      ofResult (chip.execute first) = ofResult (chip.execute second) ∧
      chip.SameAnswer (answer (chip.execute first)) (answer (chip.execute second)) := by
  intro first second
  obtain ⟨chip, built, _⟩ := Descriptor.exists_build_toy .reject
  have builtin := Descriptor.isPrimitive_of_build built
  have same : Text.lower first = Text.lower second := by decide
  exact ⟨chip, built, builtin, same, execute_ignores_case chip builtin first second same⟩

end Chip

end DspChip
