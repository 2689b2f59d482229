import DspChip.Descriptor.Basic
import DspChip.Json.Members
import DspChip.Json.Parser
/-! Chip descriptors as JSON. -/

namespace DspChip

def Chip.Config.toJson (config : Chip.Config) : Json :=
  .record [("overflow", .text config.overflow.name), ("comment", .text config.comment.toString)]

def Chip.Config.ofJson? (value : Json) : Option Chip.Config := do
  match ← value.members? ["overflow", "comment"] with
  | [overflow, comment] =>
    let overflow ← Json.orDefault .wrap (Json.choice? Overflow.all Overflow.name) overflow
    let comment ← Json.orDefault ';' Json.character? comment
    return { overflow, comment }
  | _ => none

namespace RegisterEntry

/-- The bus width and the policy are written only where they are given. -/
def toJson (entry : RegisterEntry) : Json :=
  .record <|
    [("name", .text entry.name), ("short_name", .text entry.shortName),
      ("bits", .integer entry.bits.toNat)] ++
    (entry.busWidth.map fun width => ("bus_width", Json.integer width.toNat)).toList ++
    (entry.overflow.map fun policy => ("overflow", Json.text policy.name)).toList ++
    [("access", .text entry.access.text)]

def ofJson? (value : Json) : Option RegisterEntry := do
  match ← value.members? ["name", "short_name", "bits", "bus_width", "overflow", "access"] with
  | [some name, some shortName, some bits, busWidth, overflow, access] =>
    let name ← name.text?
    let shortName ← shortName.text?
    let bits ← bits.natural32?
    let busWidth ← Json.orAbsent Json.natural32? busWidth
    let overflow ← Json.orAbsent (Json.choice? Overflow.all Overflow.name) overflow
    let access ← Json.orDefault .full (fun v => v.text?.bind Access.ofText?) access
    return { name, shortName, bits, busWidth, overflow, access }
  | _ => none

end RegisterEntry

namespace InstructionEntry

def toJson (entry : InstructionEntry) : Json :=
  .record [("mnemonic", .text entry.mnemonic), ("op", .text entry.operation.name),
    ("order", .text entry.order.name), ("shift", .integer entry.amount.toInt)]

def ofJson? (value : Json) : Option InstructionEntry := do
  match ← value.members? ["mnemonic", "op", "order", "shift"] with
  | [some mnemonic, some operation, order, amount] =>
    let mnemonic ← mnemonic.text?
    let operation ← operation.choice? Operation.all Operation.name
    let order ← Json.orDefault .targetFirst (Json.choice? OperandOrder.all OperandOrder.name) order
    let amount ← Json.orDefault 0 Json.integer32? amount
    return { mnemonic, operation, order, amount }
  | _ => none

end InstructionEntry

namespace Descriptor

def toJson (descriptor : Descriptor) : Json :=
  .record [("name", .text descriptor.name), ("short_name", .text descriptor.shortName),
    ("config", descriptor.config.toJson),
    ("registers", .array (descriptor.registers.map RegisterEntry.toJson)),
    ("instructions", .array (descriptor.instructions.map InstructionEntry.toJson))]

def ofJson? (value : Json) : Option Descriptor := do
  match ← value.members? ["name", "short_name", "config", "registers", "instructions"] with
  | [some name, some shortName, config, registers, instructions] =>
    let name ← name.text?
    let shortName ← shortName.text?
    let config ← Json.orDefault {} Chip.Config.ofJson? config
    let registers ← Json.orDefault [] (Json.list? RegisterEntry.ofJson?) registers
    let instructions ← Json.orDefault [] (Json.list? InstructionEntry.ofJson?) instructions
    return { name, shortName, config, registers, instructions }
  | _ => none

def text (descriptor : Descriptor) : String :=
  descriptor.toJson.indented

def parse? (text : String) : Option Descriptor :=
  (Json.parse? text).bind ofJson?

end Descriptor

end DspChip
