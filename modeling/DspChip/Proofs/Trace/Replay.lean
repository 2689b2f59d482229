import DspChip.Proofs.Chip.Atomicity
import DspChip.Proofs.Number.Format
import DspChip.Proofs.Trace.Lines
/-! A trace report is a complete log of changes: they can be applied again, one after another, to
the registers before the trace, and lead to the registers in the report. -/

namespace DspChip

/-- Applies a change to the registers of a report. Exactly one of them must have the short name,
it must hold the value before, and the value after must be another one. -/
def Change.replay? (cells : List Snapshot) (change : Change) : Option (List Snapshot) :=
  match cells.filter (·.shortName = change.register), Operand.readNumber change.before.toList,
    Operand.readNumber change.after.toList with
  | [cell], .ok before, .ok after =>
    if cell.value = before ∧ before ≠ after then
      some (cells.map fun cell =>
        if cell.shortName = change.register then { cell with value := after } else cell)
    else none
  | _, _, _ => none

theorem Change.replay?_of_split (radix : Radix) {cells front back : List Snapshot} {cell : Snapshot}
    {after : Word} (split : cells = front ++ cell :: back)
    (others : ∀ other ∈ front ++ back, other.shortName ≠ cell.shortName)
    (changed : cell.value ≠ after) :
    replay? cells
      ⟨cell.shortName, radix.format cell.value.toInt, radix.format after.toInt⟩ =
      some (front ++ { cell with value := after } :: back) := by
  have absent : ∀ side : List Snapshot, (∀ other ∈ side, other.shortName ≠ cell.shortName) →
      side.filter (·.shortName = cell.shortName) = [] ∧
        side.map (fun other => if other.shortName = cell.shortName
          then { other with value := after } else other) = side := by
    intro side apart
    constructor
    · simpa using apart
    · calc
        _ = side.map id := List.map_congr_left fun other member => if_neg (apart other member)
        _ = side := List.map_id side
  obtain ⟨noFront, keptFront⟩ := absent front fun other member =>
    others other (List.mem_append_left back member)
  obtain ⟨noBack, keptBack⟩ := absent back fun other member =>
    others other (List.mem_append_right front member)
  have one : cells.filter (·.shortName = cell.shortName) = [cell] := by
    rw [split, List.filter_append, noFront, List.filter_cons_of_pos (by simp), noBack]
    rfl
  simp only [replay?, one, Operand.readNumber_format]
  rw [if_pos ⟨trivial, changed⟩, split, List.map_append, List.map_cons, keptFront, keptBack,
    if_pos rfl]

namespace RegisterFile

def tell? (radix : Radix) : Register × Register → Option Change := fun (old, new) =>
  if old.value = new.value then none
  else some ⟨new.shortName, radix.format old.value.toInt, radix.format new.value.toInt⟩

variable {file next : RegisterFile} {r : Register}

theorem changes_eq (radix : Radix) (before after : RegisterFile) :
    before.changes radix after =
      (before.registers.zip after.registers).filterMap (tell? radix) := rfl

theorem filterMap_tell?_self (radix : Radix) (registers : List Register) :
    (registers.zip registers).filterMap (tell? radix) = [] := by
  induction registers with
  | nil => rfl
  | cons r rest ih =>
    have same : tell? radix (r, r) = none := if_pos rfl
    rw [List.zip_cons_cons, List.filterMap_cons_none same]
    exact ih

theorem changes_of_split {front back : List Register} {written : Register}
    (before : file.registers = front ++ r :: back)
    (after : next.registers = front ++ written :: back) :
    file.changes radix next = (tell? radix (r, written)).toList := by
  rw [changes_eq, before, after, List.zip_append rfl, List.zip_cons_cons, List.filterMap_append,
    filterMap_tell?_self, List.nil_append]
  cases told : tell? radix (r, written) with
  | none => rw [List.filterMap_cons_none told, filterMap_tell?_self, Option.toList_none]
  | some change =>
    rw [List.filterMap_cons_some told, filterMap_tell?_self, Option.toList_some]

theorem snapshot_of_split {front back : List Register}
    (split : file.registers = front ++ r :: back) :
    file.snapshot = front.map Register.snapshot ++ r.snapshot :: back.map Register.snapshot := by
  rw [snapshot, split, List.map_append, List.map_cons]

theorem replay?_snapshot {front back : List Register} {written : Register} (radix : Radix)
    (before : file.registers = front ++ r :: back)
    (after : next.registers = front ++ written :: back) (shape : written.toShape = r.toShape)
    (changed : r.value ≠ written.value) :
    Change.replay? file.snapshot
      ⟨written.shortName, radix.format r.value.toInt, radix.format written.value.toInt⟩ =
      some next.snapshot := by
  have names : written.shortName = r.shortName := congrArg Register.Shape.shortName shape
  have cell : written.snapshot = { r.snapshot with value := written.value } := by
    obtain ⟨_, _, _⟩ := written
    subst shape
    rfl
  have others : ∀ other ∈ front.map Register.snapshot ++ back.map Register.snapshot,
      other.shortName ≠ r.snapshot.shortName := by
    intro other member same
    rw [← List.map_append] at member
    obtain ⟨s, present, rfl⟩ := List.mem_map.mp member
    apply not_answers_of_split before r.toShape.answers_shortName s present
    exact Or.inr (congrArg Text.fold same)
  rw [names, snapshot_of_split after, cell]
  exact Change.replay?_of_split radix (snapshot_of_split before) others changed

/-- Where one register changes, at most one change is told, and applying what is told leads from the
registers before to those after. -/
theorem ChangesOnly.replays (changes : file.ChangesOnly r next) (radix : Radix) :
    (file.changes radix next).length ≤ 1 ∧
      (file.changes radix next).foldlM Change.replay? file.snapshot = some next.snapshot := by
  obtain ⟨front, back, written, before, after, shape⟩ := changes
  rw [changes_of_split before after]
  by_cases same : r.value = written.value
  · have stands : written = r := by
      rw [← Register.put_value_of_toShape_eq shape, ← same, Register.put_value]
    have told : tell? radix (r, written) = none := if_pos same
    rw [told, snapshot_of_split before, snapshot_of_split after, stands]
    exact ⟨Nat.zero_le 1, rfl⟩
  · have told : tell? radix (r, written) = some ⟨written.shortName, radix.format r.value.toInt,
        radix.format written.value.toInt⟩ := if_neg same
    have applied := replay?_snapshot radix before after shape same
    rw [told, Option.toList_some, List.foldlM_cons, applied]
    exact ⟨Nat.le_refl 1, rfl⟩

end RegisterFile

namespace Chip

variable {chip : Chip}

theorem replays_execute (builtin : chip.IsPrimitive) (line : List Char) (radix : Radix) :
    let next := ofResult (chip.execute line)
    (chip.registers.changes radix next.registers).length ≤ 1 ∧
      (chip.registers.changes radix next.registers).foldlM Change.replay?
        chip.registers.snapshot = some next.registers.snapshot := by
  dsimp only
  rcases changesOnly_of_execute builtin line with same | ⟨r, registers, left, _, changes⟩
  · rw [same, RegisterFile.changes_eq, RegisterFile.filterMap_tell?_self]
    exact ⟨Nat.zero_le 1, rfl⟩
  · rw [left]
    exact changes.replays radix

theorem eq_of_execute (builtin : chip.IsPrimitive) {line : List Char} {next : Chip}
    (idle : (∃ fault, chip.execute line = .error fault next) ∨ chip.execute line = .ok none next) :
    next = chip := by
  have frame := execute_frame builtin line
  rcases idle with ⟨fault, failed⟩ | blank
  · rwa [failed] at frame
  · rwa [blank] at frame

/-- What holds of a trace without steps, and is kept by a line that carries out a statement before
it, holds of every trace on primitives: the other lines leave the chip as it was. -/
theorem traceLines_induction {motive : Chip → Traced → Prop} {radix : Radix}
    (ended : ∀ chip failure, motive chip ⟨chip, [], failure⟩)
    (carriedOut : ∀ {chip next : Chip} {line : ProgramLine} {statement : Statement}
      {traced : Traced}, chip.IsPrimitive → chip.execute line.text = .ok (some statement) next →
      motive next traced → motive chip { traced with
        steps := ⟨line.number, statement.listing, chip.registers.changes radix next.registers⟩ ::
          traced.steps })
    (builtin : chip.IsPrimitive) (allowed : Nat) (lines : List ProgramLine) :
    motive chip (chip.traceLines radix allowed lines) := by
  refine traceLines_cases (motive := fun chip _ traced => chip.IsPrimitive → motive chip traced)
    ?_ ?_ ?_ ?_ chip allowed lines builtin
  · intro chip lines _
    exact ended chip none
  · intro chip next line fault rest result primitive
    obtain rfl := eq_of_execute primitive (Or.inl ⟨fault, result⟩)
    exact ended next _
  · intro chip next line rest traced result later primitive
    obtain rfl := eq_of_execute primitive (Or.inr result)
    exact later primitive
  · intro chip next line statement rest traced result later primitive
    have kept := isPrimitive_execute primitive line.text
    rw [result] at kept
    exact carriedOut primitive result (later kept)

theorem replays_traceLines (builtin : chip.IsPrimitive) (radix : Radix) (allowed : Nat)
    (lines : List ProgramLine) :
    let traced := chip.traceLines radix allowed lines
    (∀ step ∈ traced.steps, step.changes.length ≤ 1) ∧
      (traced.steps.flatMap Step.changes).foldlM Change.replay? chip.registers.snapshot =
        some traced.chip.registers.snapshot := by
  refine traceLines_induction (motive := fun chip traced =>
    (∀ step ∈ traced.steps, step.changes.length ≤ 1) ∧
      (traced.steps.flatMap Step.changes).foldlM Change.replay? chip.registers.snapshot =
        some traced.chip.registers.snapshot) ?_ ?_ builtin allowed lines
  · intro chip failure
    exact ⟨by simp, rfl⟩
  · intro chip next line statement traced primitive result ⟨bounded, remaining⟩
    have replays := replays_execute primitive line.text radix
    simp only [result, ofResult] at replays
    obtain ⟨single, applied⟩ := replays
    constructor
    · exact List.forall_mem_cons.mpr ⟨single, bounded⟩
    · simp only [List.flatMap_cons, List.foldlM_append]
      rw [applied]
      exact remaining

/-- The trace is a complete and consistent log. A step tells at most one change, every change fits
the registers that the changes before it have led to, and the last one leads to the registers of the
report, whether or not the program fails. -/
theorem trace_replays (chip : Chip) (builtin : chip.IsPrimitive) (program : Program) (radix : Radix)
    (maxSteps : Nat) :
    let report := (chip.trace program radix maxSteps).2
    (∀ step ∈ report.steps, step.changes.length ≤ 1) ∧
      (report.steps.flatMap Step.changes).foldlM Change.replay? chip.registers.snapshot =
        some report.registers :=
  replays_traceLines builtin radix maxSteps program.lines

/-- A program that the small chip carries out up to its third line, which lacks operands. -/
theorem exists_trace_toy :
    ∃ chip, (Descriptor.toy .wrap).build = .ok chip ∧ chip.IsPrimitive ∧
      let lines := Program.number 1 ["LDA #5, ACC".toList, "ADDX X, #300".toList, "HI".toList]
      let report := (chip.trace ⟨"sum.asm", lines⟩ .hexadecimal 1000).2
      report.steps.map Step.line = [1, 2] ∧ report.failure.map Failure.line = some 3 := by
  obtain ⟨chip, loaded, added, built, _, _, loads, adds, lacks⟩ := Descriptor.exists_steps_toy
  have load := loads "LDA #5, ACC".toList ⟨none, "LDA", [.immediate 5, .register "ACC"]⟩
    (by decide) rfl (by decide)
  have add := adds "ADDX X, #300".toList ⟨none, "ADDX", [.register "X", .immediate 300]⟩
    (by decide) rfl rfl
  refine ⟨chip, built, Descriptor.isPrimitive_of_build built, ?_⟩
  simp only [trace, Program.number, List.zipIdx_cons, List.map_cons, traceLines, load, add, lacks]
  exact ⟨rfl, rfl⟩

theorem trace_replays_toy :
    ∃ chip, (Descriptor.toy .wrap).build = .ok chip ∧ chip.IsPrimitive ∧
      let lines := Program.number 1 ["LDA #5, ACC".toList, "ADDX X, #300".toList, "HI".toList]
      let report := (chip.trace ⟨"sum.asm", lines⟩ .hexadecimal 1000).2
      report.steps.map Step.line = [1, 2] ∧ report.failure.map Failure.line = some 3 ∧
        (∀ step ∈ report.steps, step.changes.length ≤ 1) ∧
        (report.steps.flatMap Step.changes).foldlM Change.replay? chip.registers.snapshot =
          some report.registers := by
  obtain ⟨chip, built, builtin, steps, failure⟩ := exists_trace_toy
  exact ⟨chip, built, builtin, steps, failure, trace_replays chip builtin _ .hexadecimal 1000⟩

end Chip

end DspChip
