import DspChip.Proofs.Assembly.Grammar
import DspChip.Proofs.Chip.Atomicity
import DspChip.Proofs.Instruction.Faults
/-! Rejected overflows. The fault of an overflow names a register whose own policy rejects it. -/

namespace DspChip

def Fault.IsOverflow : Fault → Prop
  | registerOverflow _ _ _ => True
  | _ => False

theorem Fault.isOverflow_inInstruction (mnemonic : String) (fault : Fault)
    (overflows : fault.IsOverflow) : (fault.inInstruction mnemonic).IsOverflow := by
  cases fault with
  | registerOverflow register value amount => trivial
  | _ => exact overflows.elim

def Fault.NamesRejecting (shapes : List Register.Shape) (fault : Fault) : Prop :=
  ∀ name value amount, fault = .registerOverflow name value amount →
    ∃ shape ∈ shapes, shape.name = name ∧ shape.overflow = .reject

namespace Fault.NamesRejecting

theorem of_not_overflow {shapes : List Register.Shape} {fault : Fault}
    (other : ¬ fault.IsOverflow) : fault.NamesRejecting shapes := by
  intro name value amount same
  subst same
  exact (other trivial).elim

theorem inInstruction {shapes : List Register.Shape} {fault : Fault} (mnemonic : String)
    (told : fault.NamesRejecting shapes) : (fault.inInstruction mnemonic).NamesRejecting shapes := by
  unfold Fault.inInstruction
  split
  · exact of_not_overflow id
  · exact of_not_overflow id
  · exact told

end Fault.NamesRejecting

namespace RegisterFile

variable {file : RegisterFile}

theorem namesRejecting_of_find? {ident : String} {r : Register}
    (found : file.find? ident = some r) (rejects : r.overflow = .reject) (value : Word)
    (amount : Int) :
    (Fault.registerOverflow r.name value amount).NamesRejecting file.shapes := by
  intro name _ _ same
  cases same
  exact ⟨r.toShape, List.mem_map.mpr ⟨r, mem_of_find?_eq_some found, rfl⟩, rfl, rejects⟩

theorem outcome_faults (effect : Effect) :
    FaultsIn (Fault.NamesRejecting file.shapes) (effect.outcome file) :=
  Effect.outcome_faults (fun _ _ _ => Fault.NamesRejecting.of_not_overflow id)
    (fun _ _ _ _ _ _ => Fault.NamesRejecting.of_not_overflow id)
    fun _ _ _ found rejects => namesRejecting_of_find? found rejects

end RegisterFile

namespace Chip

variable {chip : Chip}

theorem attempt_faults (builtin : chip.IsPrimitive) (line : List Char) :
    FaultsIn (Fault.NamesRejecting chip.registers.shapes) (chip.attempt line) := by
  have harmless : ∀ {fault : Fault}, ¬ fault.IsOverflow →
      fault.NamesRejecting chip.registers.shapes :=
    Fault.NamesRejecting.of_not_overflow
  apply (chip.grammar.decode_faults (fun _ _ => harmless id) (fun _ => harmless id) line).bind
  rintro (_ | statement) _
  · exact FaultsIn.ok _
  · refine FaultsIn.bind ?_ fun registers _ => FaultsIn.ok _
    unfold outcome
    split
    · exact FaultsIn.error (harmless id)
    · rename_i i found
      obtain ⟨primitive, body⟩ := builtin i (InstructionTable.lookup?_eq_some_iff.mp found).1
      rw [Instruction.outcome_primitive body]
      split
      · refine FaultsIn.mapError ?_ fun fault => .inInstruction i.mnemonic
        apply (primitive.effect_faults (fun _ => harmless id) (fun _ _ _ _ _ => harmless id)
          fun _ _ _ _ _ => harmless id).bind
        intro effect _
        exact RegisterFile.outcome_faults effect
      · exact FaultsIn.error (harmless id)

theorem rejecting_of_execute (builtin : chip.IsPrimitive) {line : List Char} {after : Chip}
    {register : String} {value : Word} {amount : Int}
    (failed : chip.execute line = .error (.registerOverflow register value amount) after) :
    ∃ shape ∈ chip.registers.shapes, shape.name = register ∧ shape.overflow = .reject := by
  rw [execute_eq builtin] at failed
  cases left : chip.attempt line with
  | error fault =>
    rw [left] at failed
    cases failed
    exact attempt_faults builtin line _ left _ _ _ rfl
  | ok result =>
    rw [left] at failed
    cases failed

theorem shapes_runLines (builtin : chip.IsPrimitive) (lines : List (List Char))
    (line executed : Nat) :
    let after := ofResult (chip.runLines line executed lines)
    after.IsPrimitive ∧ after.registers.shapes = chip.registers.shapes := by
  apply runLines_keeps fun after => after.IsPrimitive ∧ after.registers.shapes = chip.registers.shapes
  · intro before ⟨primitive, same⟩ text
    exact ⟨isPrimitive_execute primitive text, (shapes_execute primitive text).trans same⟩
  · exact ⟨builtin, rfl⟩

theorem find?_of_shape {shape : Register.Shape} (present : shape ∈ chip.registers.shapes) :
    ∃ r, chip.registers.find? shape.name = some r ∧ r.toShape = shape := by
  obtain ⟨r, member, rfl⟩ := List.mem_map.mp present
  exact ⟨r, RegisterFile.find?_eq_some_of_answers member r.answers_name, rfl⟩

def Rejects (chip : Chip) (name : String) : Prop :=
  ∃ r, chip.registers.find? name = some r ∧ r.name = name ∧ r.overflow = .reject

theorem rejects_of_shape {name : String}
    (told : ∃ shape ∈ chip.registers.shapes, shape.name = name ∧ shape.overflow = .reject) :
    chip.Rejects name := by
  obtain ⟨shape, present, rfl, rejects⟩ := told
  obtain ⟨r, found, rfl⟩ := find?_of_shape present
  exact ⟨r, found, rfl, rejects⟩

theorem rejects_of_run (builtin : chip.IsPrimitive) {source : String} {failure : LineFault}
    {after : Chip} {register : String} {value : Word} {amount : Int}
    (failed : chip.run source = .error failure after)
    (overflow : failure.fault = .registerOverflow register value amount) :
    chip.Rejects register := by
  obtain ⟨count, n, before, text, _, _, _, ran, faulty⟩ := runLines_before failed
  have kept := shapes_runLines builtin ((Text.lines source.toList).take count) 1 0
  rw [ran] at kept
  change before.IsPrimitive ∧ before.registers.shapes = chip.registers.shapes at kept
  rw [overflow] at faulty
  obtain ⟨shape, present, told⟩ := rejecting_of_execute kept.1 faulty
  rw [kept.2] at present
  exact rejects_of_shape ⟨shape, present, told⟩

end Chip

end DspChip
