import DspChip.Proofs.Assembly.Listing
import DspChip.Proofs.Chip.Faults
/-! Dispatch. Every instruction of a described chip can be reached: the line of its mnemonic and any
operands is carried out by it and by no other one, unless a comment begins within the mnemonic. -/

namespace DspChip

theorem Instruction.outcome_known {i : Instruction} {primitive : Primitive}
    (body : i.body = .primitive primitive) (operands : List Operand) (file : RegisterFile) :
    FaultsIn (fun fault => ∀ mnemonic, fault ≠ .unknownMnemonic mnemonic)
      (i.outcome operands file) := by
  rw [outcome_primitive body]
  split
  · refine (primitive.outcome_warranted operands file).mapError ?_
    intro fault warrants mnemonic same
    cases warrants <;> cases same
  · apply FaultsIn.error
    intro mnemonic same
    cases same

namespace Grammar

theorem admits_unlabelled {grammar : Grammar} {mnemonic : String} {operands : List Operand}
    (nonempty : mnemonic ≠ "") (solid : ∀ c ∈ mnemonic.toList, ¬ Text.IsBlank c)
    (uncut : grammar.comment ∉ mnemonic.toList) (noLabel : mnemonic.toList.getLast? ≠ some ':')
    (named : ∀ operand ∈ operands, operand.IsNamed) :
    grammar.Admits ⟨none, mnemonic, operands⟩ where
  label := by simp
  nonempty := nonempty
  solid := fun c member => ⟨solid c member, ne_of_mem_of_not_mem member uncut⟩
  unlabelled := fun _ => noLabel
  operands := named

end Grammar

namespace Chip

variable {chip : Chip} {line : List Char} {statement : Statement} {i : Instruction}

theorem execute_of_lookup? (decoded : chip.grammar.decode line = .ok (some statement))
    (found : chip.instructions.lookup? statement.mnemonic = some i) :
    chip.execute line =
      match i.execute statement.operands chip.registers with
      | .ok _ registers => .ok (some statement) { chip with registers }
      | .error fault registers => .error fault { chip with registers } := by
  simp only [execute, decoded, perform, found]
  cases i.execute statement.operands chip.registers <;> rfl

theorem execute_known (builtin : chip.IsPrimitive)
    (decoded : chip.grammar.decode line = .ok (some statement))
    (found : chip.instructions.lookup? statement.mnemonic = some i) (mnemonic : String)
    (after : Chip) : chip.execute line ≠ .error (.unknownMnemonic mnemonic) after := by
  obtain ⟨primitive, body⟩ := builtin i (InstructionTable.lookup?_eq_some_iff.mp found).1
  have known := Instruction.outcome_known body statement.operands chip.registers
  rw [execute_of_decode builtin decoded, outcome, found]
  intro failed
  cases left : i.outcome statement.operands chip.registers with
  | ok registers =>
    simp only [left] at failed
    cases failed
  | error fault =>
    simp only [left] at failed
    cases failed
    exact known _ left mnemonic rfl

/-- Every instruction that is registered can be dispatched. On a described chip, the line of a
mnemonic and any operands is decoded to just these; the instruction with this mnemonic, and no other
one, answers to it and carries out the line. The mnemonic must be a word that does not pass for a
label and does not hold the comment mark. -/
theorem execute_dispatches {descriptor : Descriptor} (built : descriptor.build = .ok chip)
    {entry : InstructionEntry} (present : entry ∈ descriptor.instructions)
    (nonempty : entry.mnemonic ≠ "") (solid : ∀ c ∈ entry.mnemonic.toList, ¬ Text.IsBlank c)
    (noLabel : entry.mnemonic.toList.getLast? ≠ some ':')
    (uncut : descriptor.config.comment ∉ entry.mnemonic.toList) (operands : List Operand)
    (named : ∀ operand ∈ operands, operand.IsNamed) :
    let shown := if operands = [] then "" else " " ++ ", ".intercalate (operands.map Operand.text)
    let line := (entry.mnemonic ++ shown).toList
    let statement : Statement := ⟨none, entry.mnemonic, operands⟩
    chip.grammar.decode line = .ok (some statement) ∧
      chip.instructions.lookup? entry.mnemonic = some entry.build ∧
      (∀ i ∈ chip.instructions.instructions, i.Answers entry.mnemonic → i = entry.build) ∧
      (chip.execute line =
        match entry.build.execute operands chip.registers with
        | .ok _ registers => .ok (some statement) { chip with registers }
        | .error fault registers => .error fault { chip with registers }) ∧
      ∀ mnemonic after, chip.execute line ≠ .error (.unknownMnemonic mnemonic) after := by
  intro shown line statement
  have describes := Descriptor.describes_of_build built
  have admits : chip.grammar.Admits statement :=
    Grammar.admits_unlabelled nonempty solid (describes.comment ▸ uncut) noLabel named
  have typed : line = statement.text.toList := by
    have operandText : statement.operandText = shown := by
      cases operands <;> rfl
    rw [Statement.text, operandText, Statement.labelText, String.empty_append]
  have decoded : chip.grammar.decode line = .ok (some statement) := typed ▸ admits.decode_text
  have found := Descriptor.lookup?_of_build built present
  refine ⟨decoded, found, ?_, execute_of_lookup? decoded found,
    execute_known (Descriptor.isPrimitive_of_build built) decoded found⟩
  intro i other answers
  have also := InstructionTable.lookup?_eq_some_iff.mpr ⟨other, answers⟩
  exact Option.some.inj (also.symm.trans found)

/-- A chip with a mnemonic that goes on with a semicolon where the other one ends. -/
def forked (comment : Char) : Descriptor where
  name := "Forked"
  shortName := "fork"
  config := { comment }
  registers := [⟨"Accumulator", "A", 8, none, none, .full⟩]
  instructions := [⟨"NOP", .nop, .targetFirst, 0⟩, ⟨"NOP;NOT", .alter .not, .targetFirst, 0⟩]

/-- Where comments begin with another character, the semicolon is one like others. -/
theorem execute_dispatches_forked :
    let entry : InstructionEntry := ⟨"NOP;NOT", .alter .not, .targetFirst, 0⟩
    let operands := [Operand.register "A"]
    let line := "NOP;NOT A".toList
    ∃ chip, (forked '!').build = .ok chip ∧ entry ∈ (forked '!').instructions ∧
      entry.mnemonic ≠ "" ∧ (∀ c ∈ entry.mnemonic.toList, ¬ Text.IsBlank c) ∧
      entry.mnemonic.toList.getLast? ≠ some ':' ∧
      (forked '!').config.comment ∉ entry.mnemonic.toList ∧
      (∀ operand ∈ operands, operand.IsNamed) ∧
      chip.grammar.decode line = .ok (some ⟨none, entry.mnemonic, operands⟩) ∧
      chip.instructions.lookup? entry.mnemonic = some entry.build ∧
      ∀ mnemonic after, chip.execute line ≠ .error (.unknownMnemonic mnemonic) after := by
  intro entry operands line
  have valid : (forked '!').Valid := by decide
  obtain ⟨chip, built, _⟩ := Descriptor.exists_build valid
  have present : entry ∈ (forked '!').instructions := by decide
  have solid : ∀ c ∈ entry.mnemonic.toList, ¬ Text.IsBlank c := Text.forall_mem_of_all (by decide)
  have uncut : (forked '!').config.comment ∉ entry.mnemonic.toList := by decide
  have named : ∀ operand ∈ operands, operand.IsNamed := by
    simp [operands, Operand.IsNamed, IsIdentifier]
  obtain ⟨decoded, found, _, _, known⟩ :=
    execute_dispatches built present (by decide) solid (by decide) uncut operands named
  exact ⟨chip, built, present, by decide, solid, by decide, uncut, named, decoded, found, known⟩

/-- Where comments begin with the semicolon, the same line is one of the other mnemonic. The chip is
described all the same, but its second instruction cannot be reached. -/
theorem execute_misses_cut_mnemonic :
    let entry : InstructionEntry := ⟨"NOP;NOT", .alter .not, .targetFirst, 0⟩
    let operands := [Operand.register "A"]
    let line := "NOP;NOT A".toList
    ∃ chip, (forked ';').build = .ok chip ∧ entry ∈ (forked ';').instructions ∧
      entry.mnemonic ≠ "" ∧ (∀ c ∈ entry.mnemonic.toList, ¬ Text.IsBlank c) ∧
      entry.mnemonic.toList.getLast? ≠ some ':' ∧ (∀ operand ∈ operands, operand.IsNamed) ∧
      line = (entry.mnemonic ++ (" " ++ ", ".intercalate (operands.map Operand.text))).toList ∧
      chip.grammar.decode line ≠ .ok (some ⟨none, entry.mnemonic, operands⟩) ∧
      chip.execute line = .ok (some ⟨none, "NOP", []⟩) chip := by
  intro entry operands line
  have valid : (forked ';').Valid := by decide
  obtain ⟨chip, built, describes⟩ := Descriptor.exists_build valid
  have solid : ∀ c ∈ entry.mnemonic.toList, ¬ Text.IsBlank c := Text.forall_mem_of_all (by decide)
  have named : ∀ operand ∈ operands, operand.IsNamed := by
    simp [operands, Operand.IsNamed, IsIdentifier]
  have typed : line =
      (entry.mnemonic ++ (" " ++ ", ".intercalate (operands.map Operand.text))).toList := by
    simp [line, entry, operands, Operand.text]
  have standard : chip.grammar = .standard := describes.grammar_eq rfl
  have decoded : chip.grammar.decode line = .ok (some ⟨none, "NOP", []⟩) := by
    rw [standard]
    decide
  let bare : InstructionEntry := ⟨"NOP", .nop, .targetFirst, 0⟩
  have present : bare ∈ (forked ';').instructions := by decide
  have found := Descriptor.lookup?_of_build built present
  refine ⟨chip, built, by decide, by decide, solid, by decide, named, typed, ?_, ?_⟩
  · rw [decoded]
    simp
  · rw [execute_of_lookup? decoded found]
    rfl

end Chip

end DspChip
