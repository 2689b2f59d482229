import DspChip.Number
/-! Command line arguments: options that take one value each, and operands. -/

namespace DspChip

structure Flag where
  long : String
  letter : Option Char := none
  deriving DecidableEq, Repr

/-- Arguments in order of appearance. Each option is given at most once. -/
structure Arguments where
  options : List (String × String) := []
  operands : List String := []
  deriving DecidableEq, Repr

namespace Arguments

def value? (arguments : Arguments) (long : String) : Option String :=
  arguments.options.lookup long

def withOption? (long value : String) (arguments : Arguments) : Option Arguments :=
  if (arguments.value? long).isSome then none
  else some { arguments with options := (long, value) :: arguments.options }

def withOperand (operand : String) (arguments : Arguments) : Arguments :=
  { arguments with operands := operand :: arguments.operands }

/-- A dash followed by anything starts an option; a single dash does not. -/
def LooksLikeOption (argument : String) : Prop :=
  argument.toList.head? = some '-' ∧ argument ≠ "-"

instance (argument : String) : Decidable (LooksLikeOption argument) :=
  inferInstanceAs (Decidable (_ ∧ _))

def attached? (flags : List Flag) : List Char → Option (String × Option String)
  | '-' :: '-' :: text =>
    let name := String.ofList (text.takeWhile (· ≠ '='))
    let value := text.dropWhile (· ≠ '=')
    (flags.find? (·.long = name)).map fun flag =>
      (flag.long, if value = [] then none else some (String.ofList value.tail))
  | '-' :: letter :: value =>
    (flags.find? (·.letter = some letter)).map fun flag =>
      (flag.long,
        if value = [] then none
        else some (String.ofList (if value.head? = some '=' then value.tail else value)))
  | _ => none

/-- Tells options and operands apart. An option takes its value from the same argument or from
the next one, unless that looks like an option; behind `--` all are operands. -/
def parse? (flags : List Flag) : List String → Option Arguments
  | [] => some {}
  | argument :: rest =>
    if argument = "--" then some { operands := rest }
    else if LooksLikeOption argument then
      match attached? flags argument.toList, rest with
      | some (long, some value), rest => (parse? flags rest).bind (withOption? long value)
      | some (long, none), value :: rest =>
        if LooksLikeOption value then none
        else (parse? flags rest).bind (withOption? long value)
      | _, _ => none
    else (parse? flags rest).map (withOperand argument)

/-- Asks what the command is for, or for its version. -/
def IsInquiry (argument : String) : Prop :=
  argument ∈ ["--help", "--version"] ∨ argument.toList.take 2 ∈ [['-', 'h'], ['-', 'V']]

instance (argument : String) : Decidable (IsInquiry argument) :=
  inferInstanceAs (Decidable (_ ∨ _))

def beforeInquiry? : List String → Option (List String)
  | [] => none
  | argument :: rest =>
    if argument = "--" then none
    else if IsInquiry argument then some []
    else (beforeInquiry? rest).map (argument :: ·)

end Arguments

/-! The options of the two command lines. -/

inductive ChipChoice where
  | variant (name : String)
  | descriptor (path : String)
  deriving DecidableEq, Repr

structure RunOptions where
  chip : ChipChoice
  radix : Radix
  source : String
  deriving DecidableEq, Repr

inductive OutputFormat where
  | text
  | json
  deriving DecidableEq, Repr

structure TraceOptions where
  chip : ChipChoice
  radix : Radix
  source : String
  skip : Nat
  length : Option Nat
  maxSteps : Nat
  format : OutputFormat
  /-- Standard output if absent. -/
  destination : Option String
  deriving DecidableEq, Repr

namespace Arguments

def read? {α : Type} (arguments : Arguments) (long : String) (default : α)
    (read : String → Option α) : Option α :=
  match arguments.value? long with
  | none => some default
  | some value => read value

def path? (value : String) : Option String :=
  if value = "" then none else some value

/-- A count of at most 64 bits, with an optional plus sign. -/
def count? (value : String) : Option Nat :=
  let digits := if value.toList.head? = some '+' then value.toList.tail else value.toList
  (Radix.decimal.read? digits).filter (· < UInt64.size)

def format? : String → Option OutputFormat
  | "text" => some .text
  | "json" => some .json
  | _ => none

/-- A variant and a descriptor exclude each other. -/
def chip? (arguments : Arguments) : Option ChipChoice :=
  match arguments.value? "variant", arguments.value? "descriptor" with
  | some _, some _ => none
  | some name, none => some (.variant name)
  | none, some path => (path? path).map .descriptor
  | none, none => some (.variant "vc5441")

def source? (arguments : Arguments) : Option String :=
  match arguments.operands with
  | [source] => path? source
  | _ => none

def radix? (arguments : Arguments) : Option Radix :=
  arguments.read? "base" .hexadecimal Radix.ofName?

/-- The arguments with a source if there is none, and without what a descriptor would exclude. -/
def completed (arguments : Arguments) : Arguments where
  options := arguments.options.filter (·.1 ≠ "variant")
  operands := if arguments.operands = [] then ["-"] else arguments.operands

/-- An inquiry is answered if the arguments before it can be read, enough of them or not. -/
def inquires (flags : List Flag) (readable : Arguments → Bool) (arguments : List String) : Bool :=
  ((beforeInquiry? arguments).bind (parse? flags)).any fun given => readable given.completed

end Arguments

namespace RunOptions

def flags : List Flag := [⟨"variant", 'v'⟩, ⟨"descriptor", 'd'⟩, ⟨"base", 'b'⟩]

def ofArguments? (given : Arguments) : Option RunOptions := do
  return { chip := ← given.chip?, radix := ← given.radix?, source := ← given.source? }

def parse? (arguments : List String) : Option RunOptions :=
  (Arguments.parse? flags arguments).bind ofArguments?

def inquires (arguments : List String) : Bool :=
  Arguments.inquires flags (fun given => (ofArguments? given).isSome) arguments

example : inquires ["-v", "x", "-d", "y", "-h"] = true ∧ inquires ["-b", "x", "-h"] = false := by
  decide

end RunOptions

namespace TraceOptions

def flags : List Flag :=
  [⟨"variant", none⟩, ⟨"descriptor", none⟩, ⟨"base", none⟩, ⟨"skip", none⟩, ⟨"len", none⟩,
    ⟨"max-steps", none⟩, ⟨"format", none⟩, ⟨"out", none⟩]

def ofArguments? (given : Arguments) : Option TraceOptions := do
  return {
    chip := ← given.chip?
    radix := ← given.radix?
    source := ← given.source?
    skip := ← given.read? "skip" 0 Arguments.count?
    length := ← given.read? "len" none (fun value => (Arguments.count? value).map some)
    maxSteps := ← given.read? "max-steps" 1000000 Arguments.count?
    format := ← given.read? "format" .text Arguments.format?
    destination := ← given.read? "out" none (fun value => (Arguments.path? value).map some) }

def parse? (arguments : List String) : Option TraceOptions :=
  (Arguments.parse? flags arguments).bind ofArguments?

def inquires (arguments : List String) : Bool :=
  Arguments.inquires flags (fun given => (ofArguments? given).isSome) arguments

end TraceOptions

end DspChip
