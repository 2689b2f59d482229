import DspChip.Proofs.Chip.Agreement
import DspChip.Proofs.Chip.Atomicity
import DspChip.Proofs.Register.Patch
/-! Independent statements. What a line leaves is a patch of the registers, and a statement that
names no register of a patch does on the patched registers what it does without the patch. So lines
whose destinations are no operands of each other can be exchanged. -/

namespace DspChip

open RegisterFile (Patch)

namespace Effect

variable {effect : Effect} {file : RegisterFile} {patch : Patch}

theorem load_patch (spares : ∀ name ∈ effect.registers, file.Spares patch name) :
    effect.load (file.patch patch) = effect.load file := by
  apply Agrees.eq
  apply load_agrees_of
  · intro name member amount
    rw [RegisterFile.fetch, RegisterFile.fetch, RegisterFile.claim_patch (spares name member)]
    exact Agrees.of_eq rfl
  · intro name member
    rw [RegisterFile.fetchSigned, RegisterFile.fetchSigned,
      RegisterFile.claim_patch (spares name member)]
    exact Agrees.of_eq rfl
  · intro name member result
    rw [RegisterFile.settle, RegisterFile.settle, RegisterFile.get_patch (spares name member)]
    exact Agrees.of_eq rfl

/-- An effect commutes with a patch of a register that it neither reads nor writes. -/
theorem outcome_patch (spares : ∀ name ∈ effect.registers, file.Spares patch name) :
    effect.outcome (file.patch patch) = (effect.outcome file).map (·.patch patch) := by
  unfold outcome
  rw [load_patch spares]
  cases named : effect.target? with
  | none => rfl
  | some target =>
    have apart := spares target (mem_registers_of_target? named)
    cases effect.load file with
    | error fault => rfl
    | ok pair => exact RegisterFile.store_patch apart pair.1 pair.2

/-- What an effect leaves is a patch for its target. -/
theorem exists_patch {next : RegisterFile} (left : effect.outcome file = .ok next) :
    ∃ patch : Patch, next = file.patch patch ∧
      ∀ ident contents, patch = some (ident, contents) → effect.target? = some ident := by
  unfold outcome at left
  cases named : effect.target? with
  | none =>
    rw [named] at left
    exact ⟨none, (Except.ok.inj left).symm, by simp⟩
  | some target =>
    simp only [named] at left
    obtain ⟨⟨value, amount⟩, _, stored⟩ := bind_eq_ok_iff.mp left
    obtain ⟨r, written, _, _, _, rfl⟩ := RegisterFile.store_eq_ok_iff.mp stored
    refine ⟨some (target, written.value), rfl, ?_⟩
    rintro ident contents ⟨rfl, rfl⟩
    rfl

end Effect

def Statement.names (statement : Statement) : List String :=
  statement.operands.filterMap Operand.register?

namespace Chip

variable {chip : Chip} {a b statement : Statement} {patch : Patch} {line : List Char}

def Uses (chip : Chip) (statement : Statement) (r : Register) : Prop :=
  ∃ operand ∈ statement.operands, ∃ name, operand.register? = some name ∧
    chip.registers.find? name = some r

/-- No operand of either statement resolves to the destination of the other. -/
structure Independent (chip : Chip) (a b : Statement) : Prop where
  left : ∀ r, chip.destination? b = some r → ¬ chip.Uses a r
  right : ∀ r, chip.destination? a = some r → ¬ chip.Uses b r

def patched (chip : Chip) (patch : Patch) : Chip :=
  { chip with registers := chip.registers.patch patch }

theorem outcome_patch (builtin : chip.IsPrimitive)
    (spares : ∀ name ∈ statement.names, chip.registers.Spares patch name) :
    (chip.patched patch).outcome statement = (chip.outcome statement).map (·.patch patch) := by
  unfold outcome patched
  cases found : chip.instructions.lookup? statement.mnemonic with
  | none => rfl
  | some i =>
    obtain ⟨primitive, body⟩ := builtin i (InstructionTable.lookup?_eq_some_iff.mp found).1
    simp only [Instruction.outcome_primitive body]
    split
    · unfold Primitive.outcome
      cases told : primitive.effect statement.operands with
      | error fault => rfl
      | ok effect =>
        have apart : ∀ name ∈ effect.registers, chip.registers.Spares patch name :=
          fun name member => spares name (Primitive.registers_of_effect told member)
        simp only [bind, Except.bind, Effect.outcome_patch apart]
        cases effect.outcome chip.registers <;> rfl
    · rfl

/-- A line that names no register of a patch does what it does without the patch. -/
theorem execute_patched (builtin : chip.IsPrimitive)
    (read : chip.grammar.decode line = .ok (some statement))
    (spares : ∀ name ∈ statement.names, chip.registers.Spares patch name) :
    answer ((chip.patched patch).execute line) = answer (chip.execute line) ∧
      ofResult ((chip.patched patch).execute line) =
        (ofResult (chip.execute line)).patched patch := by
  have primitive : (chip.patched patch).IsPrimitive := builtin
  rw [execute_of_decode builtin read, execute_of_decode primitive read,
    outcome_patch builtin spares]
  cases chip.outcome statement with
  | error fault => exact ⟨rfl, rfl⟩
  | ok registers => exact ⟨rfl, rfl⟩

theorem exists_patched (builtin : chip.IsPrimitive)
    (read : chip.grammar.decode line = .ok (some statement)) :
    ∃ patch, ofResult (chip.execute line) = chip.patched patch ∧
      ∀ ident contents, patch = some (ident, contents) →
        ident ∈ statement.names ∧ chip.destination? statement = chip.registers.find? ident := by
  rw [execute_of_decode builtin read]
  cases left : chip.outcome statement with
  | error fault => exact ⟨none, rfl, by simp⟩
  | ok registers =>
    obtain ⟨i, primitive, effect, found, body, told, done⟩ := effect_of_outcome builtin left
    obtain ⟨patch, rfl, target⟩ := Effect.exists_patch done
    refine ⟨patch, rfl, fun ident contents same => ?_⟩
    have named := target ident contents same
    refine ⟨Primitive.registers_of_effect told (Effect.mem_registers_of_target? named), ?_⟩
    rw [destination?, destinationName?_of_effect found body told, named, Option.bind_some]

theorem spares_of_not_uses
    (resolves : ∀ ident contents, patch = some (ident, contents) →
      chip.destination? a = chip.registers.find? ident)
    (apart : ∀ r, chip.destination? a = some r → ¬ chip.Uses b r) :
    ∀ name ∈ b.names, chip.registers.Spares patch name := by
  intro name member ident contents same r present answers also
  obtain ⟨operand, stands, register⟩ := List.mem_filterMap.mp member
  apply apart r
  · rw [resolves ident contents same]
    exact RegisterFile.find?_eq_some_of_answers present also
  · exact ⟨operand, stands, name, register, RegisterFile.find?_eq_some_of_answers present answers⟩

theorem not_uses_of_apart {ident : String} (named : chip.destinationName? a = some ident)
    (apart : ∀ r ∈ chip.registers.registers, r.Answers ident → ∀ name ∈ b.names, ¬ r.Answers name) :
    ∀ r, chip.destination? a = some r → ¬ chip.Uses b r := by
  intro r resolved ⟨operand, stands, name, register, used⟩
  rw [destination?, named] at resolved
  exact apart r (RegisterFile.mem_of_find?_eq_some resolved)
    (RegisterFile.answers_of_find?_eq_some resolved) name
    (List.mem_filterMap.mpr ⟨operand, stands, register⟩)
    (RegisterFile.answers_of_find?_eq_some used)

/-- Independent lines commute. Both orders leave the same chip, and each line tells the same in
both. -/
theorem execute_comm_of_independent (chip : Chip) (builtin : chip.IsPrimitive)
    (first second : List Char) (a b : Statement)
    (readFirst : chip.grammar.decode first = .ok (some a))
    (readSecond : chip.grammar.decode second = .ok (some b)) (independent : chip.Independent a b) :
    let afterFirst := ofResult (chip.execute first)
    let afterSecond := ofResult (chip.execute second)
    ofResult (afterFirst.execute second) = ofResult (afterSecond.execute first) ∧
      answer (afterSecond.execute first) = answer (chip.execute first) ∧
      answer (afterFirst.execute second) = answer (chip.execute second) := by
  obtain ⟨p, leftFirst, destinationFirst⟩ := exists_patched builtin readFirst
  obtain ⟨q, leftSecond, destinationSecond⟩ := exists_patched builtin readSecond
  have sparesSecond : ∀ name ∈ b.names, chip.registers.Spares p name :=
    spares_of_not_uses (fun ident contents same => (destinationFirst ident contents same).2)
      independent.right
  have sparesFirst : ∀ name ∈ a.names, chip.registers.Spares q name :=
    spares_of_not_uses (fun ident contents same => (destinationSecond ident contents same).2)
      independent.left
  obtain ⟨toldSecond, endSecond⟩ := execute_patched builtin readSecond sparesSecond
  obtain ⟨toldFirst, endFirst⟩ := execute_patched builtin readFirst sparesFirst
  have commute : (chip.patched q).patched p = (chip.patched p).patched q := by
    have files : (chip.registers.patch q).patch p = (chip.registers.patch p).patch q :=
      RegisterFile.patch_comm fun ident contents same =>
        sparesFirst ident (destinationFirst ident contents same).1
    unfold patched
    rw [files]
  refine ⟨?_, ?_, ?_⟩
  · rw [leftFirst, leftSecond, endSecond, endFirst, leftFirst, leftSecond, commute]
  · rw [leftSecond, toldFirst]
  · rw [leftFirst, toldSecond]

theorem execute_comm_of_independent_toy :
    ∃ chip, (Descriptor.toy .saturate).build = .ok chip ∧ chip.IsPrimitive ∧
      let first := "LDA VER, ACC".toList
      let second := "ADDX X, VER".toList
      let a : Statement := ⟨none, "LDA", [.register "VER", .register "ACC"]⟩
      let b : Statement := ⟨none, "ADDX", [.register "X", .register "VER"]⟩
      chip.grammar.decode first = .ok (some a) ∧ chip.grammar.decode second = .ok (some b) ∧
      chip.Independent a b ∧
      let afterFirst := ofResult (chip.execute first)
      let afterSecond := ofResult (chip.execute second)
      ofResult (afterFirst.execute second) = ofResult (afterSecond.execute first) ∧
        answer (afterSecond.execute first) = answer (chip.execute first) ∧
        answer (afterFirst.execute second) = answer (chip.execute second) := by
  obtain ⟨chip, built, grammar, registers, instructions⟩ := Descriptor.exists_build_toy .saturate
  have builtin := Descriptor.isPrimitive_of_build built
  have lda : chip.instructions.lookup? "LDA" =
      some (InstructionEntry.build ⟨"LDA", .move, .sourceFirst, 0⟩) :=
    lookup?_of_entries instructions (by decide) rfl
  have addx : chip.instructions.lookup? "ADDX" =
      some (InstructionEntry.build ⟨"ADDX", .combine .add, .targetFirst, 0⟩) :=
    lookup?_of_entries instructions (by decide) rfl
  have independent : chip.Independent ⟨none, "LDA", [.register "VER", .register "ACC"]⟩
      ⟨none, "ADDX", [.register "X", .register "VER"]⟩ := by
    constructor
    · have named : chip.destinationName? ⟨none, "ADDX", [.register "X", .register "VER"]⟩ =
          some "X" := by
        rw [destinationName?, addx]
        rfl
      apply not_uses_of_apart named
      rw [registers]
      decide
    · have named : chip.destinationName? ⟨none, "LDA", [.register "VER", .register "ACC"]⟩ =
          some "ACC" := by
        rw [destinationName?, lda]
        rfl
      apply not_uses_of_apart named
      rw [registers]
      decide
  have readFirst : chip.grammar.decode "LDA VER, ACC".toList =
      .ok (some ⟨none, "LDA", [.register "VER", .register "ACC"]⟩) := by
    rw [grammar]
    decide
  have readSecond : chip.grammar.decode "ADDX X, VER".toList =
      .ok (some ⟨none, "ADDX", [.register "X", .register "VER"]⟩) := by
    rw [grammar]
    decide
  exact ⟨chip, built, builtin, readFirst, readSecond, independent,
    execute_comm_of_independent chip builtin _ _ _ _ readFirst readSecond independent⟩

end Chip

end DspChip
