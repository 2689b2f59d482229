import DspChip.Descriptor.Basic
/-! The chips that need no descriptor file. -/

namespace DspChip.Catalog

/-- The accumulators, the 16-bit registers and a slice of the accumulator instructions of the
TMS320VC5441. Operands of moves and combinations stand with the source first. -/
def c5441 : Descriptor where
  name := "TMS320VC5441"
  shortName := "'5441"
  registers :=
    [⟨"Accumulator A", "A", 40, none, none, .full⟩,
      ⟨"Accumulator B", "B", 40, none, none, .full⟩,
      ⟨"Temporary register", "T", 16, none, none, .full⟩,
      ⟨"Transition register", "TRN", 16, none, none, .full⟩] ++
    (List.range 8).map (fun n =>
      ⟨s!"Auxiliary register {n}", s!"AR{n}", 16, none, none, .full⟩) ++
    [⟨"Stack pointer", "SP", 16, none, none, .full⟩,
      ⟨"Circular buffer size register", "BK", 16, none, none, .full⟩,
      ⟨"Block repeat counter", "BRC", 16, none, none, .full⟩,
      ⟨"Status register 0", "ST0", 16, none, none, .full⟩,
      ⟨"Status register 1", "ST1", 16, none, none, .full⟩,
      ⟨"Processor mode status register", "PMST", 16, none, none, .full⟩]
  instructions :=
    [⟨"LD", .move, .sourceFirst, 0⟩,
      ⟨"ADD", .combine .add, .sourceFirst, 0⟩,
      ⟨"SUB", .combine .sub, .sourceFirst, 0⟩,
      ⟨"AND", .combine .and, .sourceFirst, 0⟩,
      ⟨"OR", .combine .or, .sourceFirst, 0⟩,
      ⟨"XOR", .combine .xor, .sourceFirst, 0⟩,
      -- the low word of the source; a 16-bit target drops the rest
      ⟨"STL", .move, .sourceFirst, 0⟩,
      -- the high word of the source
      ⟨"STH", .move, .sourceFirst, -16⟩,
      ⟨"MVMM", .move, .sourceFirst, 0⟩,
      ⟨"SFTL", .shift .zero, .targetFirst, 0⟩,
      ⟨"SFTA", .shift .sign, .targetFirst, 0⟩,
      ⟨"NEG", .alter .neg, .targetFirst, 0⟩,
      ⟨"CMPL", .alter .not, .targetFirst, 0⟩,
      ⟨"NOP", .nop, .targetFirst, 0⟩]

def c5441Key : String := "vc5441"

/-- A chip by its key, its name or its short name, in any case. -/
def find? (name : String) : Option Descriptor :=
  if Text.SameName c5441Key name ∨ Text.SameName c5441.name name ∨
      Text.SameName c5441.shortName name then
    some c5441
  else none

def unknownMessage (name : String) : String :=
  s!"unknown variant `{name}` (builtin: {c5441Key})"

end DspChip.Catalog
