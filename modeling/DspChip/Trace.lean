import DspChip.Chip
import DspChip.Json.Value
/-! Tracing a program: which registers each of its lines changed, as a report in text or JSON.

A program is a window of numbered lines, cut out of a text. -/

namespace DspChip

structure ProgramLine where
  /-- Counted from one in the whole text. -/
  number : Nat
  text : List Char
  deriving DecidableEq, Repr

structure Program where
  name : String
  lines : List ProgramLine
  deriving DecidableEq, Repr

inductive WindowFault where
  | skip (lineCount : Nat)
  | length
  deriving DecidableEq, Repr

def WindowFault.message : WindowFault → String
  | skip lineCount => s!"--skip exceeds line count ({lineCount})"
  | length => "--len exceeds remaining lines after skip"

namespace Program

def number (first : Nat) (lines : List (List Char)) : List ProgramLine :=
  (lines.zipIdx first).map fun (text, number) => ⟨number, text⟩

/-- The lines that follow the first `skip` ones, all or `limit` of them. -/
def window (name text : String) (skip : Nat) (limit : Option Nat) : Except WindowFault Program :=
  let all := Text.lines text.toList
  if all.length < skip then .error (.skip all.length)
  else if all.length - skip < limit.getD 0 then .error .length
  else
    let kept := all.drop skip
    .ok ⟨name, number (skip + 1) (kept.take (limit.getD kept.length))⟩

end Program

structure Change where
  register : String
  before : String
  after : String
  deriving DecidableEq, Repr

structure Step where
  line : Nat
  listing : String
  changes : List Change
  deriving DecidableEq, Repr

structure Failure where
  line : Nat
  text : String
  message : String
  deriving DecidableEq, Repr

structure Report where
  chip : String
  source : String
  radix : Radix
  steps : List Step
  failure : Option Failure
  registers : List Snapshot
  deriving DecidableEq, Repr

def RegisterFile.changes (radix : Radix) (before after : RegisterFile) : List Change :=
  (before.registers.zip after.registers).filterMap fun (old, new) =>
    if old.value = new.value then none
    else some ⟨new.shortName, radix.format old.value.toInt, radix.format new.value.toInt⟩

structure Traced where
  chip : Chip
  steps : List Step
  failure : Option Failure

namespace Chip

/-- Executes lines until one fails or no more steps are allowed. -/
def traceLines (chip : Chip) (radix : Radix) : (allowed : Nat) → List ProgramLine → Traced
  | _, [] => ⟨chip, [], none⟩
  | 0, _ => ⟨chip, [], none⟩
  | allowed + 1, line :: rest =>
    match chip.execute line.text with
    | .error fault next => ⟨next, [], some ⟨line.number, String.ofList line.text, fault.message⟩⟩
    | .ok none next => next.traceLines radix (allowed + 1) rest
    | .ok (some statement) next =>
      let traced := next.traceLines radix allowed rest
      let changes := chip.registers.changes radix next.registers
      { traced with steps := ⟨line.number, statement.listing, changes⟩ :: traced.steps }

def trace (chip : Chip) (program : Program) (radix : Radix) (maxSteps : Nat) : Chip × Report :=
  let traced := chip.traceLines radix maxSteps program.lines
  (traced.chip,
    { chip := traced.chip.name
      source := program.name
      radix
      steps := traced.steps
      failure := traced.failure
      registers := traced.chip.registers.snapshot })

end Chip

/-! Reports as JSON. -/

def Change.toJson (change : Change) : Json :=
  .record [("register", .text change.register), ("before", .text change.before),
    ("after", .text change.after)]

def Step.toJson (step : Step) : Json :=
  .record [("line", .integer step.line), ("listing", .text step.listing),
    ("changes", .array (step.changes.map Change.toJson))]

def Failure.toJson (failure : Failure) : Json :=
  .record [("line", .integer failure.line), ("text", .text failure.text),
    ("message", .text failure.message)]

def Snapshot.toJson (snapshot : Snapshot) : Json :=
  .record [("name", .text snapshot.name), ("short_name", .text snapshot.shortName),
    ("bits", .integer snapshot.bits), ("bus_width", .integer snapshot.busWidth),
    ("value", .integer snapshot.value.toInt)]

def Report.toJson (report : Report) : Json :=
  .record [("chip", .text report.chip), ("source", .text report.source),
    ("base", .text report.radix.fullName),
    ("steps", .array (report.steps.map Step.toJson)),
    ("error", (report.failure.map Failure.toJson).getD .null),
    ("registers", .array (report.registers.map Snapshot.toJson))]

/-! Reports as text, one line a step. -/

def Change.text (change : Change) : String :=
  s!"{change.register}: {change.before} -> {change.after}"

namespace Report

def numbered (line : Nat) (text : List Char) : String :=
  String.ofList (Text.padLeft 5 (Nat.toDigits 10 line) ++ " | ".toList ++ text ++ ['\n'])

def stepText (step : Step) : String :=
  numbered step.line (Text.padRight 28 step.listing.toList ++
    ' ' :: ("  ".intercalate (step.changes.map Change.text)).toList)

def registerText (radix : Radix) (snapshot : Snapshot) : String :=
  String.ofList ("  ".toList ++ Text.padRight 5 snapshot.shortName.toList ++
    ' ' :: (radix.format snapshot.value.toInt).toList ++ ['\n'])

def failureText (failure : Failure) : String :=
  s!"error: line {failure.line}: {failure.message}\n" ++
    numbered failure.line (Text.trimRight failure.text.toList)

def text (report : Report) : String :=
  s!"{report.chip} <- {report.source}\n" ++ String.join (report.steps.map stepText) ++
    "Registers:\n" ++ String.join (report.registers.map (registerText report.radix)) ++
    (report.failure.map failureText).getD ""

end Report

end DspChip
