import DspChip.Chip
/-! Chip descriptors: the registers and instructions of a chip as data. -/

namespace DspChip

structure RegisterEntry where
  name : String
  shortName : String
  bits : UInt32
  /-- As wide as the register if absent. -/
  busWidth : Option UInt32 := none
  /-- The policy of the chip if absent. -/
  overflow : Option Overflow := none
  access : Access := .full
  deriving DecidableEq, Repr

structure InstructionEntry where
  mnemonic : String
  operation : Operation
  order : OperandOrder := .targetFirst
  amount : Int32 := 0
  deriving DecidableEq, Repr

structure Descriptor where
  name : String
  shortName : String
  config : Chip.Config := {}
  registers : List RegisterEntry := []
  instructions : List InstructionEntry := []
  deriving DecidableEq, Repr

def RegisterEntry.build (entry : RegisterEntry) (config : Chip.Config) : Except Fault Register := do
  let r ← Register.create entry.name entry.shortName entry.bits.toNat
    (entry.busWidth.getD entry.bits).toNat
  return (r.withOverflow (entry.overflow.getD config.overflow)).withAccess entry.access

def InstructionEntry.primitive (entry : InstructionEntry) : Primitive :=
  ⟨entry.operation, entry.order, entry.amount⟩

def InstructionEntry.build (entry : InstructionEntry) : Instruction :=
  ⟨entry.mnemonic, .primitive entry.primitive⟩

namespace Descriptor

def addRegister (config : Chip.Config) (chip : Chip) (entry : RegisterEntry) : Except Fault Chip := do
  let r ← entry.build config
  chip.addRegister r

/-- The described chip: its registers and then its instructions are added in order, and the first
fault ends it. -/
def build (descriptor : Descriptor) : Except Fault Chip := do
  let bare ← Chip.withConfig descriptor.name descriptor.shortName descriptor.config
  let furnished ← descriptor.registers.foldlM (addRegister descriptor.config) bare
  descriptor.instructions.foldlM (fun chip entry => chip.addInstruction entry.build) furnished

end Descriptor

end DspChip
