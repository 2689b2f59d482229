import DspChip.Proofs.Chip.Atomicity
/-! Resetting a chip. Lines and texts change nothing but the contents of registers, and a reset
leaves none of those, so a chip that is reset is the chip that was built. -/

namespace DspChip

def Register.Shape.empty (shape : Register.Shape) : Register := { shape with }

namespace Register

theorem value_write_zero (r : Register) : (r.write 0 0).value = 0 := by
  have latched : r.latch 0 = 0 := Int64.zero_and
  have shifted : (0 : Word).shift 0 = 0 := by decide
  have fits : ¬ r.Overflows 0 0 := fun overflows => absurd overflows.1 (by decide)
  rw [write, latched, if_neg fun both => fits both.2, shifted, value_put, Int64.zero_and]

theorem put_zero (r : Register) : r.put 0 = r.toShape.empty := by
  have nothing : r.toShape.empty.put r.toShape.empty.value = r.toShape.empty := put_value _
  rw [← nothing]
  exact put_congr rfl 0

theorem empty_toShape {r : Register} (empty : r.value = 0) : r.toShape.empty = r := by
  rw [← put_zero, ← empty, put_value]

end Register

namespace RegisterFile

variable {file next : RegisterFile}

theorem registers_reset (file : RegisterFile) :
    file.reset.registers = file.shapes.map Register.Shape.empty := by
  rw [shapes, List.map_map]
  apply List.map_congr_left
  intro r _
  change r.put (r.write 0 0).value = r.toShape.empty
  rw [Register.value_write_zero, Register.put_zero]

theorem reset_congr (same : next.shapes = file.shapes) : next.reset = file.reset :=
  eq_of_registers (by rw [registers_reset, registers_reset, same])

theorem reset_of_empty (empty : ∀ r ∈ file.registers, r.value = 0) : file.reset = file := by
  apply eq_of_registers
  calc
    file.reset.registers = file.registers.map fun r => r.toShape.empty := by
      rw [registers_reset, shapes, List.map_map]
      rfl
    _ = file.registers.map id :=
      List.map_congr_left fun r present => Register.empty_toShape (empty r present)
    _ = file.registers := List.map_id _

end RegisterFile

namespace Chip

inductive Call where
  | execute (line : List Char)
  | run (source : String)

inductive Reply where
  | executed (answer : Except Fault (Option Statement))
  | ran (answer : Except LineFault Nat)

def call (chip : Chip) : Call → Reply × Chip
  | .execute line => (.executed (answer (chip.execute line)), ofResult (chip.execute line))
  | .run source => (.ran (answer (chip.run source)), ofResult (chip.run source))

/-- Carries out calls one after the other, whether they fail or not. -/
def session (chip : Chip) : List Call → List Reply × Chip
  | [] => ([], chip)
  | first :: rest =>
    let (reply, next) := chip.call first
    let (replies, last) := next.session rest
    (reply :: replies, last)

def SameButContents (chip after : Chip) : Prop :=
  ∃ registers : RegisterFile, after = { chip with registers } ∧
    registers.shapes = chip.registers.shapes

variable {chip after : Chip}

namespace SameButContents

theorem refl (chip : Chip) : chip.SameButContents chip := ⟨chip.registers, rfl, rfl⟩

theorem execute (builtin : chip.IsPrimitive) (same : chip.SameButContents after)
    (line : List Char) : chip.SameButContents (ofResult (after.execute line)) := by
  obtain ⟨registers, rfl, shapes⟩ := same
  have primitive : { chip with registers }.IsPrimitive := builtin
  have kept := shapes_execute primitive line
  obtain ⟨left, executed⟩ := ofResult_execute { chip with registers } line
  rw [executed] at kept ⊢
  exact ⟨left, rfl, kept.trans shapes⟩

theorem call (builtin : chip.IsPrimitive) (same : chip.SameButContents after) (call : Call) :
    chip.SameButContents (after.call call).2 := by
  cases call with
  | execute line => exact same.execute builtin line
  | run source =>
    exact runLines_keeps chip.SameButContents
      (fun _ kept line => kept.execute builtin line) _ 1 0 same

theorem session (builtin : chip.IsPrimitive) (same : chip.SameButContents after)
    (calls : List Call) : chip.SameButContents (after.session calls).2 := by
  induction calls generalizing after with
  | nil => exact same
  | cons first rest ih => exact ih (same.call builtin first)

theorem reset_eq (same : chip.SameButContents after) : after.reset = chip.reset := by
  obtain ⟨registers, rfl, shapes⟩ := same
  rw [reset, reset, RegisterFile.reset_congr shapes]

end SameButContents

theorem reset_of_build {descriptor : Descriptor} (built : descriptor.build = .ok chip) :
    chip.reset = chip := by
  have empty := RegisterFile.reset_of_empty fun _ present =>
    (Descriptor.describes_of_build built).value_eq_zero present
  rw [reset, empty]

/-- A reset forgets everything. Whatever calls a built chip was asked to carry out, resetting it
leaves the chip as it was built; so all later calls are replied to as if there had been no others.
-/
theorem reset_forgets (descriptor : Descriptor) (chip : Chip)
    (built : descriptor.build = .ok chip) (calls : List Call) :
    (chip.session calls).2.reset = chip ∧
      ∀ later, (chip.session calls).2.reset.session later = chip.session later := by
  have builtin := Descriptor.isPrimitive_of_build built
  have forgotten : (chip.session calls).2.reset = chip :=
    (((SameButContents.refl chip).session builtin calls).reset_eq).trans (reset_of_build built)
  exact ⟨forgotten, fun later => by rw [forgotten]⟩

theorem reset_forgets_toy :
    let calls : List Call :=
      [.execute "LDA #5, ACC".toList, .run "ADDX X, #300\nLDA X, VER", .execute "1: NOP".toList]
    ∃ chip, (Descriptor.toy .saturate).build = .ok chip ∧ (chip.session calls).2.reset = chip ∧
      (chip.session calls).2.reset.session [.run "HI ACC, X"] = chip.session [.run "HI ACC, X"] := by
  intro calls
  obtain ⟨chip, built, _⟩ := Descriptor.exists_build_toy .saturate
  have forgets := reset_forgets (Descriptor.toy .saturate) chip built calls
  exact ⟨chip, built, forgets.1, forgets.2 _⟩

end Chip

end DspChip
