import DspChip.Descriptor.Json
import DspChip.Proofs.Json.Members
import DspChip.Proofs.Json.RoundTrip
import DspChip.Proofs.Register.AccessText
/-! Descriptors as they may be written. The members of an object stand in any order, and what is as
it would be by default may be left out. Whatever is written of a descriptor is read as this
descriptor. -/

namespace DspChip

theorem Overflow.choice?_name (overflow : Overflow) :
    Json.choice? Overflow.all Overflow.name (.text overflow.name) = some overflow :=
  Json.choice?_text (by cases overflow <;> decide) (by decide)

theorem Operation.choice?_name (operation : Operation) :
    Json.choice? Operation.all Operation.name (.text operation.name) = some operation := by
  refine Json.choice?_text ?_ (by decide)
  cases operation with
  | combine how => cases how <;> decide
  | shift fill => cases fill <;> decide
  | alter how => cases how <;> decide
  | nop => decide
  | move => decide

theorem OperandOrder.choice?_name (order : OperandOrder) :
    Json.choice? OperandOrder.all OperandOrder.name (.text order.name) = some order :=
  Json.choice?_text (by cases order <;> decide) (by decide)

theorem Access.reads_text (access : Access) (value : Json)
    (written : Json.Writes (fun access : Access => .text access.text) access value) :
    value.text?.bind Access.ofText? = some access := by
  rw [written, Json.text?_text, Option.bind_some, ofText?_text]

namespace Chip.Config

/-- Registers wrap, and comments begin with a semicolon, unless something else is written. -/
def WrittenAs (config : Config) (value : Json) : Prop :=
  ∃ overflow comment,
    Json.OrDefault Overflow.wrap (Json.Writes fun policy => .text policy.name) config.overflow
      overflow ∧
    Json.OrDefault ';' (Json.Writes fun mark => .text mark.toString) config.comment comment ∧
    value.Holds [("overflow", overflow), ("comment", comment)]

theorem ofJson?_of_writtenAs (config : Config) (value : Json) (written : config.WrittenAs value) :
    ofJson? value = some config := by
  obtain ⟨overflow, comment, overflowWritten, commentWritten, holds⟩ := written
  have read : value.members? ["overflow", "comment"] = some [overflow, comment] :=
    Json.members?_of_holds holds (by simp)
  have policy := Json.orDefault_of_written (Json.reads_of_writes Overflow.choice?_name)
    overflowWritten
  have mark := Json.orDefault_of_written (Json.reads_of_writes Json.character?_text) commentWritten
  simp only [ofJson?, read, policy, mark, Option.bind_eq_bind, Option.bind_some]
  rfl

end Chip.Config

namespace RegisterEntry

/-- The bus is as wide as the register and the policy that of the chip, and the register can be read
and written, unless something else is written. -/
def WrittenAs (entry : RegisterEntry) (value : Json) : Prop :=
  ∃ busWidth overflow access,
    Json.OrAbsent (Json.Writes fun width : UInt32 => .integer width.toNat) entry.busWidth busWidth ∧
    Json.OrAbsent (Json.Writes fun policy : Overflow => .text policy.name) entry.overflow overflow ∧
    Json.OrDefault ⟨Right.read.flag ||| Right.write.flag⟩ (Json.Writes fun access => .text access.text)
      entry.access access ∧
    value.Holds
      [("name", some (.text entry.name)), ("short_name", some (.text entry.shortName)),
        ("bits", some (.integer entry.bits.toNat)), ("bus_width", busWidth), ("overflow", overflow),
        ("access", access)]

theorem ofJson?_of_writtenAs (entry : RegisterEntry) (value : Json)
    (written : entry.WrittenAs value) : ofJson? value = some entry := by
  obtain ⟨busWidth, overflow, access, widthWritten, overflowWritten, accessWritten, holds⟩ := written
  have read : value.members? ["name", "short_name", "bits", "bus_width", "overflow", "access"] =
      some [some (.text entry.name), some (.text entry.shortName), some (.integer entry.bits.toNat),
        busWidth, overflow, access] :=
    Json.members?_of_holds holds (by simp)
  have width := Json.orAbsent_of_written (Json.reads_of_writes Json.natural32?_integer) nofun
    widthWritten
  have policy := Json.orAbsent_of_written (Json.reads_of_writes Overflow.choice?_name) nofun
    overflowWritten
  have allowed : Json.orDefault .full (fun v => v.text?.bind Access.ofText?) access =
      some entry.access :=
    Json.orDefault_of_written Access.reads_text accessWritten
  -- a proof by definition alone would let the kernel run the readers
  simp -implicitDefEqProofs only [ofJson?, read, width, policy, allowed, Json.text?_text,
    Json.natural32?_integer, Option.bind_eq_bind, Option.bind_some]
  rfl

end RegisterEntry

namespace InstructionEntry

/-- The target comes first and the amount is zero, unless something else is written. -/
def WrittenAs (entry : InstructionEntry) (value : Json) : Prop :=
  ∃ order amount,
    Json.OrDefault OperandOrder.targetFirst (Json.Writes fun order => .text order.name) entry.order
      order ∧
    Json.OrDefault 0 (Json.Writes fun amount : Int32 => .integer amount.toInt) entry.amount amount ∧
    value.Holds
      [("mnemonic", some (.text entry.mnemonic)), ("op", some (.text entry.operation.name)),
        ("order", order), ("shift", amount)]

theorem ofJson?_of_writtenAs (entry : InstructionEntry) (value : Json)
    (written : entry.WrittenAs value) : ofJson? value = some entry := by
  obtain ⟨order, amount, orderWritten, amountWritten, holds⟩ := written
  have read : value.members? ["mnemonic", "op", "order", "shift"] =
      some [some (.text entry.mnemonic), some (.text entry.operation.name), order, amount] :=
    Json.members?_of_holds holds (by simp)
  have arranged := Json.orDefault_of_written (Json.reads_of_writes OperandOrder.choice?_name)
    orderWritten
  have shifted := Json.orDefault_of_written (Json.reads_of_writes Json.integer32?_integer)
    amountWritten
  simp only [ofJson?, read, arranged, shifted, Json.text?_text, Operation.choice?_name,
    Option.bind_eq_bind, Option.bind_some]
  rfl

end InstructionEntry

namespace Descriptor

/-- The configuration is the usual one and there are no registers and no instructions, unless
something else is written. -/
def WrittenAs (descriptor : Descriptor) (value : Json) : Prop :=
  ∃ config registers instructions,
    Json.OrDefault ⟨.wrap, ';'⟩ Chip.Config.WrittenAs descriptor.config config ∧
    Json.OrDefault [] (Json.Lists RegisterEntry.WrittenAs) descriptor.registers registers ∧
    Json.OrDefault [] (Json.Lists InstructionEntry.WrittenAs) descriptor.instructions instructions ∧
    value.Holds
      [("name", some (.text descriptor.name)), ("short_name", some (.text descriptor.shortName)),
        ("config", config), ("registers", registers), ("instructions", instructions)]

variable {descriptor : Descriptor} {value : Json}

theorem ofJson?_of_writtenAs (written : descriptor.WrittenAs value) :
    ofJson? value = some descriptor := by
  obtain ⟨config, registers, instructions, configWritten, registersWritten, instructionsWritten,
    holds⟩ := written
  have read : value.members? ["name", "short_name", "config", "registers", "instructions"] =
      some [some (.text descriptor.name), some (.text descriptor.shortName), config, registers,
        instructions] :=
    Json.members?_of_holds holds (by simp)
  have configured : Json.orDefault {} Chip.Config.ofJson? config = some descriptor.config :=
    Json.orDefault_of_written Chip.Config.ofJson?_of_writtenAs configWritten
  have registered := Json.orDefault_of_written
    (Json.list?_of_lists RegisterEntry.ofJson?_of_writtenAs) registersWritten
  have instructed := Json.orDefault_of_written
    (Json.list?_of_lists InstructionEntry.ofJson?_of_writtenAs) instructionsWritten
  simp only [ofJson?, read, configured, registered, instructed, Json.text?_text,
    Option.bind_eq_bind, Option.bind_some]
  rfl

/-- What is as it would be by default can be left out, and the members of an object stand in any
order: every text that spells a descriptor in one of these ways is read as the descriptor. -/
theorem parse?_of_written {text : String} (written : descriptor.WrittenAs value)
    (spelled : Json.Spells text.toList value.tokens) : parse? text = some descriptor := by
  rw [parse?, Json.parse?_of_spells spelled, Option.bind_some, ofJson?_of_writtenAs written]

/-- Each object is written backwards, with one member null and several left out. -/
theorem parse?_of_written_sparse :
    let index : RegisterEntry := ⟨"Index", "X", 8, none, none, .full⟩
    let descriptor : Descriptor :=
      { name := "Toy", shortName := "toy", config := ⟨.wrap, '!'⟩, registers := [index] }
    let entry := Json.record
      [("overflow", .null), ("bits", .integer 8), ("short_name", .text "X"), ("name", .text "Index")]
    let config := Json.record [("comment", .text "!")]
    let value := Json.record
      [("registers", .array [entry]), ("config", config), ("short_name", .text "toy"),
        ("name", .text "Toy")]
    let text :=
      "\x7b\"registers\":[\x7b\"overflow\":null,\"bits\":8,\"short_name\":\"X\",\"name\":\"Index\"\x7d]," ++
        "\"config\":\x7b\"comment\":\"!\"\x7d,\"short_name\":\"toy\",\"name\":\"Toy\"\x7d"
    descriptor.WrittenAs value ∧ Json.Spells text.toList value.tokens ∧
      parse? text = some descriptor := by
  intro index descriptor entry config value text
  have entryWritten : index.WrittenAs entry :=
    ⟨none, some .null, none, .omitted, .null, .omitted, _, List.reverse_perm _, rfl⟩
  have configWritten : descriptor.config.WrittenAs config :=
    ⟨none, _, .omitted, .given rfl, Json.holds_record _⟩
  have written : descriptor.WrittenAs value :=
    ⟨_, _, none, .given configWritten, .given ⟨_, .cons entryWritten .nil, rfl⟩, .omitted, _,
      List.reverse_perm _, rfl⟩
  have entrySpelled : entry.WellSpelled :=
    .record (by simp [Json.WellSpelled.text, Json.WellSpelled.integer, Json.WellSpelled.null])
  have configSpelled : config.WellSpelled := .record (by simp [Json.WellSpelled.text])
  have registersSpelled : (Json.array [entry]).WellSpelled := .array (by simp [entrySpelled])
  have valueSpelled : value.WellSpelled :=
    .record (by simp [Json.WellSpelled.text, registersSpelled, configSpelled])
  have printed : text.toList = Json.print .compact 0 value := by decide +kernel
  have spelled : Json.Spells text.toList value.tokens :=
    printed ▸ Json.spells_print Json.Style.blank_compact valueSpelled 0
  exact ⟨written, spelled, parse?_of_written written spelled⟩

end Descriptor

/-! The text of a descriptor is one way to write it. -/

namespace Chip.Config

theorem wellSpelled (config : Config) : config.toJson.WellSpelled := by
  refine .record ?_
  simp [Json.WellSpelled.text]

theorem writtenAs_toJson (config : Config) : config.WrittenAs config.toJson :=
  ⟨_, _, .given rfl, .given rfl, Json.holds_record _⟩

end Chip.Config

namespace RegisterEntry

theorem wellSpelled (entry : RegisterEntry) : entry.toJson.WellSpelled := by
  refine .record ?_
  obtain ⟨name, shortName, bits, busWidth, overflow, access⟩ := entry
  cases busWidth <;> cases overflow <;> simp [Json.WellSpelled.text, Json.WellSpelled.integer]

theorem toJson_eq (entry : RegisterEntry) :
    entry.toJson = .record (Json.present
      [("name", some (.text entry.name)), ("short_name", some (.text entry.shortName)),
        ("bits", some (.integer entry.bits.toNat)),
        ("bus_width", entry.busWidth.map fun width => .integer width.toNat),
        ("overflow", entry.overflow.map fun policy => .text policy.name),
        ("access", some (.text entry.access.text))]) := by
  unfold toJson
  cases entry.busWidth <;> cases entry.overflow <;> rfl

theorem writtenAs_toJson (entry : RegisterEntry) : entry.WrittenAs entry.toJson := by
  refine ⟨_, _, _, .of_map entry.busWidth, .of_map entry.overflow, .given rfl, ?_⟩
  rw [toJson_eq]
  exact Json.holds_record _

end RegisterEntry

namespace InstructionEntry

theorem wellSpelled (entry : InstructionEntry) : entry.toJson.WellSpelled := by
  refine .record ?_
  simp [Json.WellSpelled.text, Json.WellSpelled.integer]

theorem writtenAs_toJson (entry : InstructionEntry) : entry.WrittenAs entry.toJson :=
  ⟨_, _, .given rfl, .given rfl, Json.holds_record _⟩

end InstructionEntry

namespace Descriptor

theorem wellSpelled (descriptor : Descriptor) : descriptor.toJson.WellSpelled := by
  refine .record ?_
  simp [Json.WellSpelled.text, descriptor.config.wellSpelled,
    Json.WellSpelled.map RegisterEntry.wellSpelled,
    Json.WellSpelled.map InstructionEntry.wellSpelled]

theorem writtenAs_toJson (descriptor : Descriptor) : descriptor.WrittenAs descriptor.toJson :=
  ⟨_, _, _, .given descriptor.config.writtenAs_toJson,
    .given (.of_map RegisterEntry.writtenAs_toJson descriptor.registers),
    .given (.of_map InstructionEntry.writtenAs_toJson descriptor.instructions), Json.holds_record _⟩

theorem ofJson?_toJson (descriptor : Descriptor) : ofJson? descriptor.toJson = some descriptor :=
  ofJson?_of_writtenAs descriptor.writtenAs_toJson

/-- Every descriptor survives being written as JSON and read back. -/
theorem parse?_text (descriptor : Descriptor) : parse? descriptor.text = some descriptor := by
  rw [parse?, text, Json.parse?_indented descriptor.wellSpelled, Option.bind_some,
    descriptor.ofJson?_toJson]

end Descriptor

end DspChip
