import DspChip.Instruction.Table
/-! A chip: a register file, an instruction table and the grammar of its assembly lines. It executes
one line, or runs a text line by line until a line fails. -/

namespace DspChip

structure Chip.Config where
  /-- The policy of registers that name none of their own. -/
  overflow : Overflow := .wrap
  comment : Char := ';'
  deriving DecidableEq, Repr

structure Chip where
  name : String
  shortName : String
  config : Chip.Config := {}
  grammar : Grammar := .standard
  registers : RegisterFile := .empty
  instructions : InstructionTable := .empty

namespace Chip

def withConfig (name shortName : String) (config : Config) : Except Fault Chip := do
  let grammar ← Grammar.ofComment config.comment
  return { name, shortName, config, grammar }

def addRegister (chip : Chip) (r : Register) : Except Fault Chip := do
  let registers ← chip.registers.add r
  return { chip with registers }

def addInstruction (chip : Chip) (i : Instruction) : Except Fault Chip := do
  let instructions ← chip.instructions.add i
  return { chip with instructions }

def reset (chip : Chip) : Chip :=
  { chip with registers := chip.registers.reset }

def perform (chip : Chip) (statement : Statement) : EStateM.Result Fault Chip Unit :=
  match chip.instructions.lookup? statement.mnemonic with
  | none => .error (.unknownMnemonic statement.mnemonic) chip
  | some i =>
    match i.execute statement.operands chip.registers with
    | .ok _ registers => .ok () { chip with registers }
    | .error fault registers => .error fault { chip with registers }

/-- Executes one line. The result tells the statement, if the line holds one, and the chip as the
line leaves it, also where it fails. -/
def execute (chip : Chip) (line : List Char) : EStateM.Result Fault Chip (Option Statement) :=
  match chip.grammar.decode line with
  | .error fault => .error fault chip
  | .ok none => .ok none chip
  | .ok (some statement) =>
    match chip.perform statement with
    | .ok _ next => .ok (some statement) next
    | .error fault next => .error fault next

end Chip

/-- A failing line, with its number in the text counted from one. -/
structure LineFault where
  line : Nat
  text : String
  fault : Fault
  deriving DecidableEq, Repr

def LineFault.message (failure : LineFault) : String :=
  s!"line {failure.line}: {failure.fault.message}"

namespace Chip

/-- Runs lines that start at a number of the text, after some instructions have been executed. -/
def runLines (chip : Chip) (line executed : Nat) :
    List (List Char) → EStateM.Result LineFault Chip Nat
  | [] => .ok executed chip
  | text :: rest =>
    match chip.execute text with
    | .error fault next => .error ⟨line, String.ofList text, fault⟩ next
    | .ok none next => next.runLines (line + 1) executed rest
    | .ok (some _) next => next.runLines (line + 1) (executed + 1) rest

/-- Runs a text. The result tells how many instructions it held or where it failed, and the chip as
the text leaves it. -/
def run (chip : Chip) (source : String) : EStateM.Result LineFault Chip Nat :=
  chip.runLines 1 0 (Text.lines source.toList)

end Chip

end DspChip
