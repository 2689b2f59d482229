import DspChip.Proofs.Chip.Step
import DspChip.Proofs.Descriptor.Validation
/-! Described chips. They hold primitives only, their registers are empty at first, and a
description leaves nothing open. -/

namespace DspChip

theorem RegisterEntry.Describes.unique {entry : RegisterEntry} {config : Chip.Config}
    {r s : Register} (describes : entry.Describes config r) (also : entry.Describes config s) :
    r = s := by
  obtain ⟨⟨_, _, _, _, _, _, _, _, _⟩, _, _⟩ := r
  obtain ⟨⟨_, _, _, _, _, _, _, _, _⟩, _, _⟩ := s
  obtain ⟨rfl, rfl, rfl, rfl, rfl, rfl, rfl⟩ := describes
  obtain ⟨rfl, rfl, rfl, rfl, rfl, rfl, rfl⟩ := also
  rfl

theorem InstructionEntry.Describes.eq_build {entry : InstructionEntry} {i : Instruction}
    (describes : entry.Describes i) : i = entry.build := by
  obtain ⟨_, _⟩ := i
  obtain ⟨rfl, rfl⟩ := describes
  rfl

namespace Chip

variable {chip : Chip} {entries : List InstructionEntry}

theorem isPrimitive_of_entries
    (described : chip.instructions.instructions = entries.map InstructionEntry.build) :
    chip.IsPrimitive := by
  intro i present
  rw [described] at present
  obtain ⟨entry, _, rfl⟩ := List.mem_map.mp present
  exact ⟨entry.primitive, rfl⟩

theorem lookup?_of_entries
    (described : chip.instructions.instructions = entries.map InstructionEntry.build)
    {entry : InstructionEntry} (present : entry ∈ entries) {mnemonic : String}
    (answers : entry.build.Answers mnemonic) :
    chip.instructions.lookup? mnemonic = some entry.build :=
  InstructionTable.lookup?_eq_some_iff.mpr ⟨described ▸ List.mem_map_of_mem present, answers⟩

/-- A chip with described instructions carries out a line by the entry of its mnemonic. -/
theorem execute_of_entries (chip : Chip)
    (described : chip.instructions.instructions = entries.map InstructionEntry.build)
    (entry : InstructionEntry) (statement : Statement) {line : List Char} (present : entry ∈ entries)
    (decoded : chip.grammar.decode line = .ok (some statement))
    (answers : entry.build.Answers statement.mnemonic) :
    chip.execute line =
      match entry.build.outcome statement.operands chip.registers with
      | .ok registers => .ok (some statement) { chip with registers }
      | .error fault => .error fault chip := by
  have carried : chip.outcome statement =
      entry.build.outcome statement.operands chip.registers := by
    simp only [outcome, lookup?_of_entries described present answers]
  have executed := execute_of_decode (isPrimitive_of_entries described) decoded
  rw [carried] at executed
  exact executed

end Chip

namespace Descriptor

variable {descriptor : Descriptor} {chip : Chip}

theorem describes_of_build (built : descriptor.build = .ok chip) : descriptor.Describes chip := by
  have decides := descriptor.decide_build
  rw [built] at decides
  exact decides.made_of_ok

theorem exists_build (valid : descriptor.Valid) :
    ∃ chip, descriptor.build = .ok chip ∧ descriptor.Describes chip := by
  obtain ⟨chip, built⟩ :=
    descriptor.decide_build.exists_ok_iff.mpr (allHold_checks_iff.mpr valid)
  exact ⟨chip, built, describes_of_build built⟩

namespace Describes

theorem instructions_eq (describes : descriptor.Describes chip) :
    chip.instructions.instructions = descriptor.instructions.map InstructionEntry.build := by
  have same : List.Forall₂ Eq chip.instructions.instructions
      (descriptor.instructions.map InstructionEntry.build) := by
    rw [List.forall₂_map_right_iff]
    exact (describes.instructions.imp fun _ _ described => described.eq_build).flip
  rwa [List.forall₂_eq_eq_eq] at same

theorem registers_eq {file : RegisterFile} (describes : descriptor.Describes chip)
    (also : List.Forall₂ (fun entry r => entry.Describes descriptor.config r)
      descriptor.registers file.registers) : chip.registers = file := by
  have unique : Relator.RightUnique
      fun (entry : RegisterEntry) r => entry.Describes descriptor.config r :=
    fun _ _ _ first second => first.unique second
  exact RegisterFile.eq_of_registers (unique.forall₂ describes.registers also)

theorem grammar_eq (describes : descriptor.Describes chip) {grammar : Grammar}
    (same : grammar.comment = descriptor.config.comment) : chip.grammar = grammar := by
  have comment := describes.comment.trans same.symm
  generalize chip.grammar = found at comment
  cases found
  cases grammar
  cases comment
  rfl

theorem value_eq_zero (describes : descriptor.Describes chip) {r : Register}
    (present : r ∈ chip.registers.registers) : r.value = 0 := by
  have empty : List.Forall₂ (fun r entry => r.value = 0 ∧ RegisterEntry.Describes entry _ r)
      chip.registers.registers descriptor.registers :=
    (describes.registers.imp fun _ _ described => ⟨described.value, described⟩).flip
  exact ((List.forall₂_and_left _ _).mp empty).1 r present

end Describes

theorem isPrimitive_of_build (built : descriptor.build = .ok chip) : chip.IsPrimitive :=
  Chip.isPrimitive_of_entries (describes_of_build built).instructions_eq

theorem lookup?_of_build (built : descriptor.build = .ok chip) {entry : InstructionEntry}
    (present : entry ∈ descriptor.instructions) :
    chip.instructions.lookup? entry.mnemonic = some entry.build :=
  Chip.lookup?_of_entries (describes_of_build built).instructions_eq present rfl

/-- A small chip: an accumulator behind a narrow bus, and a register that may only be read. -/
def toy (overflow : Overflow) : Descriptor where
  name := "Toy DSP"
  shortName := "toy"
  config := { overflow }
  registers :=
    [⟨"Accumulator", "ACC", 24, some 8, none, .full⟩,
      ⟨"X", "X", 8, none, none, .full⟩,
      ⟨"Version", "VER", 8, none, none, ⟨Right.read.flag⟩⟩]
  instructions :=
    [⟨"LDA", .move, .sourceFirst, 0⟩,
      ⟨"ADDX", .combine .add, .targetFirst, 0⟩,
      ⟨"HI", .move, .sourceFirst, -16⟩,
      ⟨"NOP", .nop, .targetFirst, 0⟩]

def toyRegisters (overflow : Overflow) : RegisterFile where
  registers := [
    { name := "Accumulator", shortName := "ACC", bits := 24, busWidth := 8, overflow
      one_le_busWidth := by decide
      busWidth_le_bits := by decide
      bits_le := by decide },
    { name := "X", shortName := "X", bits := 8, busWidth := 8, overflow
      one_le_busWidth := by decide
      busWidth_le_bits := by decide
      bits_le := by decide },
    { name := "Version", shortName := "VER", bits := 8, busWidth := 8, overflow
      access := ⟨Right.read.flag⟩
      one_le_busWidth := by decide
      busWidth_le_bits := by decide
      bits_le := by decide }]
  distinct := by cases overflow <;> decide

theorem exists_build_toy (overflow : Overflow) :
    ∃ chip, (toy overflow).build = .ok chip ∧ chip.grammar = .standard ∧
      chip.registers = toyRegisters overflow ∧
      chip.instructions.instructions = (toy overflow).instructions.map InstructionEntry.build := by
  have valid : (toy overflow).Valid := by
    cases overflow <;> decide
  have registers : List.Forall₂ (fun entry r => entry.Describes (toy overflow).config r)
      (toy overflow).registers (toyRegisters overflow).registers :=
    .cons ⟨rfl, rfl, rfl, rfl, rfl, rfl, rfl⟩ <|
      .cons ⟨rfl, rfl, rfl, rfl, rfl, rfl, rfl⟩ <|
        .cons ⟨rfl, rfl, rfl, rfl, rfl, rfl, rfl⟩ .nil
  obtain ⟨chip, built, describes⟩ := exists_build valid
  exact ⟨chip, built, describes.grammar_eq rfl, describes.registers_eq registers,
    describes.instructions_eq⟩

/-- Lines of the small chip, in any spelling: it loads a number, it adds one, and it fails for want
of operands. -/
theorem exists_steps_toy :
    ∃ chip loaded added : Chip, (toy .wrap).build = .ok chip ∧
      chip.grammar = .standard ∧ loaded.grammar = .standard ∧
      (∀ line statement, Grammar.standard.decode line = .ok (some statement) →
        Text.SameName "LDA" statement.mnemonic →
        statement.operands ∈ [[.immediate 5, .register "ACC"], [.immediate 5, .register "acc"]] →
        chip.execute line = .ok (some statement) loaded) ∧
      (∀ line statement, Grammar.standard.decode line = .ok (some statement) →
        Text.SameName "ADDX" statement.mnemonic →
        statement.operands = [.register "X", .immediate 300] →
        loaded.execute line = .ok (some statement) added) ∧
      added.execute "HI".toList = .error (.operandCount "HI" ⟨2, 3⟩ 0) added := by
  obtain ⟨chip, built, grammar, registers, instructions⟩ := exists_build_toy .wrap
  let loaded : Chip := { chip with registers := (toyRegisters .wrap).put "ACC" 5 }
  let added : Chip := { loaded with registers := loaded.registers.put "X" 44 }
  refine ⟨chip, loaded, added, built, grammar, grammar, ?_, ?_, ?_⟩
  · intro line statement decoded answers told
    rw [chip.execute_of_entries instructions ⟨"LDA", .move, .sourceFirst, 0⟩ statement (by decide)
      (grammar ▸ decoded) answers, registers]
    rcases List.mem_pair.mp told with operands | operands
    all_goals
      rw [operands]
      rfl
  · intro line statement decoded answers told
    rw [loaded.execute_of_entries instructions ⟨"ADDX", .combine .add, .targetFirst, 0⟩ statement
      (by decide) (grammar ▸ decoded) answers, told]
    rfl
  · have decoded : Grammar.standard.decode "HI".toList = .ok (some ⟨none, "HI", []⟩) := by decide
    exact added.execute_of_entries instructions ⟨"HI", .move, .sourceFirst, -16⟩ ⟨none, "HI", []⟩
      (by decide) (grammar ▸ decoded) rfl

end Descriptor

end DspChip
