import DspChip.Descriptor.Basic
import DspChip.Proofs.Checks
import DspChip.Proofs.Instruction.Outcome
/-! What building a chip demands of a descriptor, what it then makes, and what it blames otherwise.
The checks look at one entry and those before it; together they say that no two entries are in each
other's way. -/

namespace DspChip

/-! The described parts. -/

namespace RegisterEntry

def bus (entry : RegisterEntry) : UInt32 := entry.busWidth.getD entry.bits

def identifiers (entry : RegisterEntry) : List String := [entry.name, entry.shortName]

def Answers (entry : RegisterEntry) (ident : String) : Prop :=
  ∃ own ∈ entry.identifiers, Text.SameName own ident

instance (entry : RegisterEntry) (ident : String) : Decidable (entry.Answers ident) :=
  inferInstanceAs (Decidable (∃ own ∈ entry.identifiers, _))

structure Describes (entry : RegisterEntry) (config : Chip.Config) (r : Register) : Prop where
  name : r.name = entry.name
  shortName : r.shortName = entry.shortName
  bits : r.bits = entry.bits.toNat
  busWidth : r.busWidth = entry.bus.toNat
  overflow : r.overflow = entry.overflow.getD config.overflow
  access : r.access = entry.access
  value : r.value = 0

/-- No identifier of one entry is one of the other, in any case. -/
def Apart (first second : RegisterEntry) : Prop :=
  ∀ ident ∈ second.identifiers, ¬ first.Answers ident

instance (first second : RegisterEntry) : Decidable (first.Apart second) :=
  inferInstanceAs (Decidable (∀ ident ∈ second.identifiers, _))

def IsSized (entry : RegisterEntry) : Prop :=
  (1 ≤ entry.bits.toNat ∧ entry.bits.toNat ≤ 63) ∧
    1 ≤ entry.bus.toNat ∧ entry.bus.toNat ≤ entry.bits.toNat

instance (entry : RegisterEntry) : Decidable entry.IsSized :=
  inferInstanceAs (Decidable (_ ∧ _))

end RegisterEntry

namespace InstructionEntry

structure Describes (entry : InstructionEntry) (i : Instruction) : Prop where
  mnemonic : i.mnemonic = entry.mnemonic
  body : i.body = .primitive ⟨entry.operation, entry.order, entry.amount⟩

def Apart (first second : InstructionEntry) : Prop :=
  ¬ Text.SameName first.mnemonic second.mnemonic

instance (first second : InstructionEntry) : Decidable (first.Apart second) :=
  inferInstanceAs (Decidable (¬ _))

end InstructionEntry

namespace Descriptor

structure Describes (descriptor : Descriptor) (chip : Chip) : Prop where
  name : chip.name = descriptor.name
  shortName : chip.shortName = descriptor.shortName
  config : chip.config = descriptor.config
  comment : chip.grammar.comment = descriptor.config.comment
  registers : List.Forall₂ (fun entry r => entry.Describes descriptor.config r)
    descriptor.registers chip.registers.registers
  instructions : List.Forall₂ InstructionEntry.Describes
    descriptor.instructions chip.instructions.instructions

/-- The comment mark is free, all sizes are possible, and no two entries use one name. -/
structure Valid (descriptor : Descriptor) : Prop where
  comment : ¬ IsReserved descriptor.config.comment
  sizes : ∀ entry ∈ descriptor.registers, entry.IsSized
  registers : descriptor.registers.Pairwise RegisterEntry.Apart
  instructions : descriptor.instructions.Pairwise InstructionEntry.Apart

instance (descriptor : Descriptor) : Decidable descriptor.Valid :=
  decidable_of_iff
    (¬ IsReserved descriptor.config.comment ∧ (∀ entry ∈ descriptor.registers, entry.IsSized) ∧
      descriptor.registers.Pairwise RegisterEntry.Apart ∧
      descriptor.instructions.Pairwise InstructionEntry.Apart)
    ⟨fun ⟨comment, sizes, registers, instructions⟩ => ⟨comment, sizes, registers, instructions⟩,
      fun ⟨comment, sizes, registers, instructions⟩ => ⟨comment, sizes, registers, instructions⟩⟩

end Descriptor

/-! The checks. -/

namespace RegisterEntry

def sizeChecks (entry : RegisterEntry) : List Check :=
  [⟨1 ≤ entry.bits.toNat ∧ entry.bits.toNat ≤ 63,
      .invalidRegister entry.name (WidthFault.width entry.bits.toNat).text⟩,
    ⟨1 ≤ entry.bus.toNat ∧ entry.bus.toNat ≤ entry.bits.toNat,
      .invalidRegister entry.name (WidthFault.busWidth entry.bus.toNat entry.bits.toNat).text⟩]

def nameChecks (earlier : List RegisterEntry) (entry : RegisterEntry) : List Check :=
  [⟨∀ old ∈ earlier, ¬ old.Answers entry.name, .duplicateRegister entry.name⟩,
    ⟨∀ old ∈ earlier, ¬ old.Answers entry.shortName, .duplicateRegister entry.shortName⟩]

def checks (earlier : List RegisterEntry) (entry : RegisterEntry) : List Check :=
  entry.sizeChecks ++ entry.nameChecks earlier

theorem allHold_checks_iff (earlier : List RegisterEntry) (entry : RegisterEntry) :
    Check.AllHold (checks earlier entry) ↔
      entry.IsSized ∧ ∀ old ∈ earlier, old.Apart entry := by
  simp only [checks, sizeChecks, nameChecks, Check.allHold_append, Check.allHold_cons,
    Check.allHold_nil, and_true, IsSized, Apart, identifiers, List.forall_mem_cons, forall_and,
    List.not_mem_nil, false_implies, implies_true]

variable {entry : RegisterEntry} {config : Chip.Config} {r : Register}

theorem Describes.answers_iff (describes : entry.Describes config r) (ident : String) :
    r.Answers ident ↔ entry.Answers ident := by
  unfold Register.Shape.Answers Answers identifiers
  rw [describes.name, describes.shortName]
  simp

theorem find?_eq_none_iff {entries : List RegisterEntry} {file : RegisterFile}
    (described : List.Forall₂ (fun entry r => entry.Describes config r) entries file.registers)
    (ident : String) :
    file.find? ident = none ↔ ∀ old ∈ entries, ¬ old.Answers ident := by
  rw [RegisterFile.find?, List.find?_eq_none]
  symm
  apply forall_mem_iff_of_forall₂ _ described
  intro old r describes
  simp [describes.answers_iff]

theorem decide_build (entry : RegisterEntry) (config : Chip.Config) :
    Check.Decide entry.sizeChecks (fun r => entry.Describes config r) (entry.build config) := by
  change Check.Decide _ _
    (Register.create entry.name entry.shortName entry.bits.toNat entry.bus.toNat >>= _)
  unfold Register.create
  by_cases width : 1 ≤ entry.bits.toNat ∧ entry.bits.toNat ≤ 63
  · rw [dif_pos width]
    by_cases bus : 1 ≤ entry.bus.toNat ∧ entry.bus.toNat ≤ entry.bits.toNat
    · rw [dif_pos bus]
      exact ⟨by simp [sizeChecks, width, bus], rfl, rfl, rfl, rfl, rfl, rfl, rfl⟩
    · rw [dif_neg bus]
      exact .behind width (.here bus)
  · rw [dif_neg width]
    exact .here width

theorem decide_add {earlier : List RegisterEntry} {file : RegisterFile}
    (described : List.Forall₂ (fun entry r => entry.Describes config r) earlier file.registers)
    (describes : entry.Describes config r) :
    Check.Decide (entry.nameChecks earlier)
      (fun next : RegisterFile => next.registers = file.registers ++ [r]) (file.add r) := by
  unfold RegisterFile.add
  by_cases name : file.find? r.name = none
  · have quiet := (find?_eq_none_iff described _).mp name
    rw [dif_pos name]
    rw [describes.name] at quiet
    by_cases shortName : file.find? r.shortName = none
    · have silent := (find?_eq_none_iff described _).mp shortName
      rw [dif_pos shortName]
      rw [describes.shortName] at silent
      exact ⟨by simpa [nameChecks] using ⟨quiet, silent⟩, rfl⟩
    · rw [dif_neg shortName]
      rw [find?_eq_none_iff described, describes.shortName] at shortName
      rw [describes.shortName]
      exact .behind quiet (.here shortName)
  · rw [dif_neg name]
    rw [find?_eq_none_iff described, describes.name] at name
    rw [describes.name]
    exact .here name

end RegisterEntry

namespace InstructionEntry

def checks (earlier : List InstructionEntry) (entry : InstructionEntry) : List Check :=
  [⟨∀ old ∈ earlier, old.Apart entry, .duplicateMnemonic entry.mnemonic⟩]

theorem allHold_checks_iff (earlier : List InstructionEntry) (entry : InstructionEntry) :
    Check.AllHold (checks earlier entry) ↔ True ∧ ∀ old ∈ earlier, old.Apart entry := by
  simp [checks]

theorem decide_add {earlier : List InstructionEntry} {table : InstructionTable}
    (described : List.Forall₂ Describes earlier table.instructions) (entry : InstructionEntry) :
    Check.Decide (checks earlier entry)
      (fun next : InstructionTable => next.instructions = table.instructions ++ [entry.build])
      (table.add entry.build) := by
  have silent : (∀ old ∈ earlier, old.Apart entry) ↔
      ∀ old ∈ table.instructions, ¬ old.Answers entry.mnemonic := by
    apply forall_mem_iff_of_forall₂ _ described
    intro old i describes
    rw [Apart, Instruction.Answers, describes.mnemonic]
  by_cases apart : ∀ old ∈ earlier, old.Apart entry
  · obtain ⟨next, added, extended⟩ := InstructionTable.exists_add (i := entry.build) (silent.mp apart)
    rw [added]
    exact .of_holds apart extended
  · rw [InstructionTable.add_of_taken (i := entry.build) (mt silent.mpr apart)]
    exact .of_violated apart

end InstructionEntry

namespace Descriptor

variable {descriptor : Descriptor}

def withEntries (descriptor : Descriptor) (registers : List RegisterEntry)
    (instructions : List InstructionEntry) : Descriptor :=
  { descriptor with registers, instructions }

def checks (descriptor : Descriptor) : List Check :=
  ⟨¬ IsReserved descriptor.config.comment, .invalidComment descriptor.config.comment⟩ ::
    Check.inOrder RegisterEntry.checks [] descriptor.registers ++
      Check.inOrder InstructionEntry.checks [] descriptor.instructions

theorem allHold_checks_iff : Check.AllHold descriptor.checks ↔ descriptor.Valid := by
  rw [checks, List.cons_append, Check.allHold_cons, Check.allHold_append,
    Check.allHold_inOrder_iff RegisterEntry.allHold_checks_iff,
    Check.allHold_inOrder_iff InstructionEntry.allHold_checks_iff]
  constructor
  · rintro ⟨comment, ⟨sizes, registers, _⟩, _, instructions, _⟩
    exact ⟨comment, sizes, registers, instructions⟩
  · rintro ⟨comment, sizes, registers, instructions⟩
    exact ⟨comment, ⟨sizes, registers, by simp⟩, by simp, instructions, by simp⟩

theorem decide_withConfig (descriptor : Descriptor) :
    Check.Decide
      [⟨¬ IsReserved descriptor.config.comment, .invalidComment descriptor.config.comment⟩]
      (descriptor.withEntries [] []).Describes
      (Chip.withConfig descriptor.name descriptor.shortName descriptor.config) := by
  unfold Chip.withConfig Grammar.ofComment
  by_cases free : ¬ IsReserved descriptor.config.comment
  · rw [dif_pos free]
    exact .of_holds free ⟨rfl, rfl, rfl, rfl, .nil, .nil⟩
  · rw [dif_neg free]
    exact .of_violated free

theorem decide_addRegister {earlier : List RegisterEntry} {chip : Chip}
    (described : (descriptor.withEntries earlier []).Describes chip) (entry : RegisterEntry) :
    Check.Decide (RegisterEntry.checks earlier entry)
      (descriptor.withEntries (earlier ++ [entry]) []).Describes
      (addRegister descriptor.config chip entry) := by
  apply (entry.decide_build descriptor.config).bind
  intro r describes
  have decides := RegisterEntry.decide_add described.registers describes
  unfold Chip.addRegister
  cases added : chip.registers.add r with
  | error fault =>
    rw [added] at decides
    exact decides
  | ok registers =>
    rw [added] at decides
    refine ⟨decides.1, { described with registers := ?_ }⟩
    change List.Forall₂ _ (earlier ++ [entry]) registers.registers
    rw [decides.2]
    exact List.rel_append described.registers (.cons describes .nil)

theorem decide_addInstruction {earlier : List InstructionEntry} {chip : Chip}
    (described : (descriptor.withEntries descriptor.registers earlier).Describes chip)
    (entry : InstructionEntry) :
    Check.Decide (InstructionEntry.checks earlier entry)
      (descriptor.withEntries descriptor.registers (earlier ++ [entry])).Describes
      (chip.addInstruction entry.build) := by
  have decides := InstructionEntry.decide_add described.instructions entry
  unfold Chip.addInstruction
  cases added : chip.instructions.add entry.build with
  | error fault =>
    rw [added] at decides
    exact decides
  | ok table =>
    rw [added] at decides
    refine ⟨decides.1, { described with instructions := ?_ }⟩
    change List.Forall₂ _ (earlier ++ [entry]) table.instructions
    rw [decides.2]
    exact List.rel_append described.instructions (.cons ⟨rfl, rfl⟩ .nil)

/-- Building a chip obeys the checks in their order, and makes the described chip. -/
theorem decide_build (descriptor : Descriptor) :
    Check.Decide descriptor.checks descriptor.Describes descriptor.build := by
  rw [checks, List.cons_append, ← List.singleton_append]
  apply descriptor.decide_withConfig.bind
  intro bare described
  have registers := Check.Decide.foldlM RegisterEntry.checks
    (fun earlier => (descriptor.withEntries earlier []).Describes)
    (fun earlier entry chip described => decide_addRegister described entry)
    descriptor.registers described
  apply registers.bind
  intro furnished described
  exact Check.Decide.foldlM InstructionEntry.checks
    (fun earlier => (descriptor.withEntries descriptor.registers earlier).Describes)
    (fun earlier entry chip described => decide_addInstruction described entry)
    descriptor.instructions described

/-- Validation is exact. A descriptor is built if and only if it is valid; the chip is the described
one, with the registers empty; and otherwise the fault is that of the first check it violates. -/
theorem build_validates (descriptor : Descriptor) :
    ((∃ chip, descriptor.build = .ok chip) ↔ descriptor.Valid) ∧
    (∀ chip, descriptor.build = .ok chip → descriptor.Describes chip) ∧
    ∀ fault, descriptor.build = .error fault ↔ Check.FirstViolated descriptor.checks fault := by
  have decides := descriptor.decide_build
  refine ⟨?_, ?_, fun fault => decides.error_iff⟩
  · rw [decides.exists_ok_iff, allHold_checks_iff]
  · intro chip built
    rw [built] at decides
    exact decides.made_of_ok

/-- Two registers whose names clash, the second one behind a bus that is too wide: the bus is
blamed. -/
theorem build_validates_crowded :
    let index : RegisterEntry := ⟨"Index", "X", 8, none, none, .full⟩
    let crowding : RegisterEntry := ⟨"x", "Y", 8, some 9, none, .full⟩
    let sound : Descriptor := { name := "Toy DSP", shortName := "toy", registers := [index] }
    let crowded : Descriptor := { sound with registers := [index, crowding] }
    (∃ chip, sound.build = .ok chip ∧ sound.Describes chip) ∧
      ¬ crowded.Valid ∧
      crowded.build = .error (.invalidRegister "x" "bus width 9 outside 1..=8") := by
  intro index crowding sound crowded
  obtain ⟨chip, built⟩ := (build_validates sound).1.mpr (by decide)
  have violated : Check.FirstViolated crowded.checks
      (.invalidRegister "x" (WidthFault.busWidth 9 8).text) :=
    .behind (by decide) <| .behind (by decide) <| .behind (by decide) <| .behind (by simp) <|
      .behind (by simp) <| .behind (by decide) <| .here (by decide)
  exact ⟨⟨chip, built, (build_validates sound).2.1 chip built⟩, by decide,
    ((build_validates crowded).2.2 _).mpr violated⟩

end Descriptor

end DspChip
