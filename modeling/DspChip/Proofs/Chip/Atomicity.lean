import DspChip.Proofs.Descriptor.Build
import DspChip.Proofs.Instruction.Destination
/-! A line that fails changes nothing, and one that does not changes its destination only. -/

namespace DspChip.Chip

variable {chip : Chip}

def destinationName? (chip : Chip) (statement : Statement) : Option String := do
  let i ← chip.instructions.lookup? statement.mnemonic
  let operand ←
    match i.body with
    | .primitive primitive => primitive.destination? statement.operands
    | .custom _ _ => none
  operand.register?

def destination? (chip : Chip) (statement : Statement) : Option Register :=
  (chip.destinationName? statement).bind chip.registers.find?

theorem destinationName?_of_effect {statement : Statement} {i : Instruction} {primitive : Primitive}
    {effect : Effect} (found : chip.instructions.lookup? statement.mnemonic = some i)
    (body : i.body = .primitive primitive)
    (told : primitive.effect statement.operands = .ok effect) :
    chip.destinationName? statement = effect.target? := by
  simp only [destinationName?, found, body, Primitive.target?_of_effect told, bind,
    Option.bind_some]

theorem destinationName?_congr {other : Chip}
    (same : other.instructions.instructions = chip.instructions.instructions)
    (statement : Statement) :
    other.destinationName? statement = chip.destinationName? statement := by
  rw [destinationName?, InstructionTable.lookup?_congr same]
  rfl

theorem changesOnly_of_outcome (builtin : chip.IsPrimitive) {statement : Statement}
    {registers : RegisterFile} (left : chip.outcome statement = .ok registers) :
    registers = chip.registers ∨ ∃ r, chip.destination? statement = some r ∧
      r.access.Allows .write ∧ chip.registers.ChangesOnly r registers := by
  obtain ⟨i, primitive, effect, found, body, told, done⟩ := effect_of_outcome builtin left
  rcases Effect.changesOnly_of_outcome done with same | ⟨target, r, named, resolved, allowed, changes⟩
  · exact Or.inl same
  · right
    refine ⟨r, ?_, allowed, changes⟩
    rw [destination?, destinationName?_of_effect found body told, named]
    exact resolved

/-- What a line leaves: the chip as it was, or another content of the destination. -/
theorem execute_frame (builtin : chip.IsPrimitive) (line : List Char) :
    match chip.execute line with
    | .error _ after => after = chip
    | .ok none after => after = chip
    | .ok (some statement) after =>
      after = chip ∨ ∃ r registers, after = { chip with registers } ∧
        chip.destination? statement = some r ∧ r.access.Allows .write ∧
        chip.registers.ChangesOnly r registers := by
  rw [execute_eq builtin]
  cases left : chip.attempt line with
  | error fault => rfl
  | ok result =>
    obtain ⟨decoded, registers⟩ := result
    obtain ⟨_, finished⟩ := attempt_eq_ok_iff.mp left
    cases decoded with
    | none =>
      change { chip with registers } = chip
      rw [finished]
    | some statement =>
      rcases changesOnly_of_outcome builtin finished with rfl | ⟨r, resolved, allowed, changes⟩
      · exact Or.inl rfl
      · exact Or.inr ⟨r, registers, rfl, resolved, allowed, changes⟩

theorem changesOnly_of_execute (builtin : chip.IsPrimitive) (line : List Char) :
    ofResult (chip.execute line) = chip ∨
      ∃ r registers, ofResult (chip.execute line) = { chip with registers } ∧
        r.access.Allows .write ∧ chip.registers.ChangesOnly r registers := by
  have frame := execute_frame builtin line
  cases result : chip.execute line with
  | error fault after =>
    rw [result] at frame
    exact Or.inl frame
  | ok decoded after =>
    rw [result] at frame
    cases decoded with
    | none => exact Or.inl frame
    | some statement =>
      rcases frame with same | ⟨r, registers, left, _, allowed, changes⟩
      · exact Or.inl same
      · exact Or.inr ⟨r, registers, left, allowed, changes⟩

theorem shapes_execute (builtin : chip.IsPrimitive) (line : List Char) :
    (ofResult (chip.execute line)).registers.shapes = chip.registers.shapes := by
  rcases changesOnly_of_execute builtin line with same | ⟨r, registers, left, _, changes⟩
  · rw [same]
  · rw [left]
    exact changes.shapes_eq

/-- A register that may not be written stands through any line. -/
theorem getElem?_execute (builtin : chip.IsPrimitive) (line : List Char) {place : Nat}
    {r : Register} (held : chip.registers.registers[place]? = some r)
    (denied : ¬ r.access.Allows .write) :
    (ofResult (chip.execute line)).registers.registers[place]? = some r := by
  rcases changesOnly_of_execute builtin line with same | ⟨s, registers, left, allowed, changes⟩
  · rwa [same]
  · rw [left]
    apply changes.getElem?_eq held
    intro same
    subst same
    exact denied allowed

/-- Atomicity and frame. A line that fails, or holds no statement, leaves the chip as it was; a
statement changes at most the contents of the register that its destination resolves to, and that
one may be written. So a register that may not be written stands through any run. -/
theorem execute_changes_destination_only (chip : Chip) (builtin : chip.IsPrimitive) :
    (∀ line : List Char,
      match chip.execute line with
      | .error _ after => after = chip
      | .ok none after => after = chip
      | .ok (some statement) after =>
        after = chip ∨ ∃ r registers, after = { chip with registers } ∧
          chip.destination? statement = some r ∧ r.access.Allows .write ∧
          chip.registers.ChangesOnly r registers) ∧
    (∀ (source : String) (place : Nat) (r : Register),
      chip.registers.registers[place]? = some r → ¬ r.access.Allows .write →
      (ofResult (chip.run source)).registers.registers[place]? = some r) := by
  constructor
  · exact execute_frame builtin
  · intro source place r held denied
    -- the invariant of the run: the chip holds primitives only, and the register stands
    have kept := runLines_keeps
      (fun chip => chip.IsPrimitive ∧ chip.registers.registers[place]? = some r)
      (fun chip ⟨primitive, stands⟩ line =>
        ⟨isPrimitive_execute primitive line, getElem?_execute primitive line stands denied⟩)
      (Text.lines source.toList) 1 0 ⟨builtin, held⟩
    exact kept.2

theorem execute_changes_destination_only_toy :
    ∃ chip version, (Descriptor.toy .saturate).build = .ok chip ∧ chip.IsPrimitive ∧
      chip.registers.registers[2]? = some version ∧ ¬ version.access.Allows .write ∧
      (ofResult (chip.run "LDA #5, ACC\nADDX X, #300\nLDA X, VER")).registers.registers[2]? =
        some version := by
  obtain ⟨chip, built, _, registers, _⟩ := Descriptor.exists_build_toy .saturate
  have builtin := Descriptor.isPrimitive_of_build built
  have held : chip.registers.registers[2]? = some ((Descriptor.toyRegisters .saturate).registers[2]) := by
    rw [registers]
    rfl
  have denied : ¬ ((Descriptor.toyRegisters .saturate).registers[2]).access.Allows .write := by decide
  exact ⟨chip, _, built, builtin, held, denied,
    (execute_changes_destination_only chip builtin).2 _ 2 _ held denied⟩

end DspChip.Chip
