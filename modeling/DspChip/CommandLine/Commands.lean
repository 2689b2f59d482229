import DspChip.Catalog
import DspChip.CommandLine.Options
import DspChip.Descriptor.Json
import DspChip.Trace
/-! What a command line ends with. -/

namespace DspChip

/-- Text for standard output, a file to write with its contents, and the error that makes the
command fail. The file is written first. -/
structure Outcome where
  output : String := ""
  file : Option (String × String) := none
  error : Option String := none
  deriving DecidableEq, Repr

namespace Outcome

def failed (error : String) : Outcome := { error := some error }

def unwritten (_ : Outcome) (reason : String) : Outcome := failed reason

def exitCode (outcome : Outcome) : Nat :=
  if outcome.error.isSome then 1 else 0

def errorText (outcome : Outcome) : String :=
  match outcome.error with
  | some error => s!"Error: {error}\n"
  | none => ""

def usageCode : Nat := 2

end Outcome

/-! The two commands: running a source file, and tracing it line by line. Files are seen as a
function that gives the text of those that can be read. -/

abbrev Files := String → Option String

namespace Files

def read (files : Files) (path : String) : Except String String :=
  match files path with
  | some text => .ok text
  | none => .error s!"reading {path}"

end Files

namespace ChipChoice

def paths : ChipChoice → List String
  | variant _ => []
  | descriptor path => [path]

def describe (files : Files) : ChipChoice → Except String Descriptor
  | variant name =>
    match Catalog.find? name with
    | some found => .ok found
    | none => .error (Catalog.unknownMessage name)
  | descriptor path => do
    let text ← files.read path
    match Descriptor.parse? text with
    | some parsed => .ok parsed
    | none => .error s!"loading {path}"

def load (files : Files) (choice : ChipChoice) : Except String Chip := do
  let described ← choice.describe files
  described.build.mapError Fault.message

end ChipChoice

namespace RunOptions

def output (options : RunOptions) (chip : Chip) : String :=
  s!"{chip.name} ({chip.shortName})\n" ++ chip.registers.dump options.radix ++ "\n"

/-- Runs the source and dumps the registers, whether or not a line fails. -/
def finish (options : RunOptions) (chip : Chip) (source : String) : Outcome :=
  match chip.run source with
  | .ok _ final => { output := options.output final }
  | .error failure final =>
    { output := options.output final
      error := some s!"{options.source}:{failure.line}: {failure.fault.message}" }

def command (options : RunOptions) (files : Files) : Outcome :=
  let prepared := do
    let chip ← options.chip.load files
    let source ← files.read options.source
    return (chip, source)
  match prepared with
  | .ok (chip, source) => options.finish chip source
  | .error error => .failed error

end RunOptions

namespace TraceOptions

def render (options : TraceOptions) (report : Report) : String :=
  match options.format with
  | .text => report.text
  | .json => report.toJson.indented

def finish (options : TraceOptions) (chip : Chip) (program : Program) : Outcome :=
  let report := (chip.trace program options.radix options.maxSteps).2
  let error := report.failure.map fun failure =>
    s!"{report.source}:{failure.line}: {failure.message}"
  match options.destination with
  | some path => { file := some (path, options.render report), error }
  | none => { output := options.render report ++ "\n", error }

def command (options : TraceOptions) (files : Files) : Outcome :=
  let prepared := do
    let chip ← options.chip.load files
    let source ← files.read options.source
    let program ←
      (Program.window options.source source options.skip options.length).mapError
        WindowFault.message
    return (chip, program)
  match prepared with
  | .ok (chip, program) => options.finish chip program
  | .error error => .failed error

end TraceOptions

/-- A command that is understood: the files it may read, and what it does with their texts. -/
structure Command where
  paths : List String
  outcome : Files → Outcome

namespace Command

def run? (arguments : List String) : Option Command := do
  let options ← RunOptions.parse? arguments
  return ⟨options.source :: options.chip.paths, options.command⟩

def trace? (arguments : List String) : Option Command := do
  let options ← TraceOptions.parse? arguments
  return ⟨options.source :: options.chip.paths, options.command⟩

end Command

/-- What a command line asks for: to be told of the command, to carry it out, or nothing that makes
sense. -/
inductive Request where
  | inquiry
  | command (command : Command)
  | misuse

namespace Request

def ofCommand? (command : Option Command) : Request :=
  command.elim misuse Request.command

def run (arguments : List String) : Request :=
  if RunOptions.inquires arguments then inquiry else ofCommand? (Command.run? arguments)

def trace (arguments : List String) : Request :=
  if TraceOptions.inquires arguments then inquiry else ofCommand? (Command.trace? arguments)

end Request

end DspChip
