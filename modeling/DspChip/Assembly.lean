import DspChip.Fault
/-! Assembly: operands, statements with the text by which a listing shows them, and the grammar of
a line, `[label:] MNEMONIC [operand {, operand}] [comment]`.

A comment starts at the first comment mark. A line that is blank before its comment, or holds a
label only, has no statement. The mnemonic ends at the first blank. Operands are separated by
commas; one that starts with `#`, a digit or a sign is a number, any other is a register name. -/

namespace DspChip

inductive Operand where
  | register (name : String)
  | immediate (value : Word)
  deriving DecidableEq, Repr

namespace Operand

def register? : Operand → Option String
  | register name => some name
  | immediate _ => none

def immediate? : Operand → Option Word
  | register _ => none
  | immediate value => some value

def text : Operand → String
  | register name => name
  | immediate value => String.ofList ('#' :: Numeral.decimal value.toInt)

end Operand

structure Statement where
  label : Option String
  mnemonic : String
  operands : List Operand
  deriving DecidableEq, Repr

namespace Statement

def labelText (statement : Statement) : String :=
  match statement.label with
  | some label => label ++ ": "
  | none => ""

def operandText (statement : Statement) : String :=
  match statement.operands with
  | [] => ""
  | operands => " " ++ ", ".intercalate (operands.map Operand.text)

/-- The canonical text: mnemonic in upper case, operands separated by a comma and a space. -/
def listing (statement : Statement) : String :=
  statement.labelText ++ Text.upper statement.mnemonic ++ statement.operandText

end Statement

def IsIdentifier : List Char → Prop
  | [] => False
  | first :: rest =>
    (first.isAlpha = true ∨ first = '_') ∧ ∀ c ∈ rest, c.isAlphanum = true ∨ c = '_'

instance : (text : List Char) → Decidable (IsIdentifier text)
  | [] => isFalse id
  | first :: rest =>
    -- the characters of the text are tried, not all characters there are
    @instDecidableAnd (first.isAlpha = true ∨ first = '_')
      (∀ c ∈ rest, c.isAlphanum = true ∨ c = '_') inferInstance (List.decidableBAll _ rest)

/-- Characters that the grammar itself needs. -/
def IsReserved (c : Char) : Prop :=
  c.isAlphanum = true ∨ Text.IsBlank c ∨ c ∈ ['#', ',', ':', '+', '-', '_']

instance (c : Char) : Decidable (IsReserved c) :=
  inferInstanceAs (Decidable (_ ∨ _ ∨ _))

namespace Operand

def readNumber (token : List Char) : Except Fault Word :=
  match Numeral.value? token with
  | none => .error (.operandParse (String.ofList token) TokenFault.malformed.text)
  | some n =>
    match Word.ofInt? n with
    | none => .error (.operandParse (String.ofList token) TokenFault.outOfRange.text)
    | some value => .ok value

def read : List Char → Except Fault Operand
  | [] => .error (.operandParse "" TokenFault.empty.text)
  | '#' :: number => (readNumber number).map immediate
  | first :: rest =>
    if first.isDigit = true ∨ first = '-' ∨ first = '+' then
      (readNumber (first :: rest)).map immediate
    else if IsIdentifier (first :: rest) then
      .ok (register (String.ofList (first :: rest)))
    else .error (.operandParse (String.ofList (first :: rest)) TokenFault.unrecognised.text)

/-- Reads the operands behind a mnemonic; the first that is none decides the fault. -/
def readAll (text : List Char) : Except Fault (List Operand) :=
  if text = [] then .ok []
  else (text.splitOn ',').mapM fun item => read (Text.trim item)

end Operand

structure Grammar where
  comment : Char
  free : ¬ IsReserved comment
  deriving DecidableEq

namespace Grammar

def standard : Grammar where
  comment := ';'
  free := by decide

def ofComment (comment : Char) : Except Fault Grammar :=
  if free : ¬ IsReserved comment then .ok ⟨comment, free⟩ else .error (.invalidComment comment)

/-- The part of a line before its comment, without the blanks around it. -/
def code (grammar : Grammar) (line : List Char) : List Char :=
  Text.trim (line.takeWhile (· ≠ grammar.comment))

def readInstruction (label : Option String) (text : List Char) : Except Fault (Option Statement) :=
  if text = [] then .ok none
  else do
    let (mnemonic, rest) := Text.nextWord text
    let operands ← Operand.readAll rest
    return some ⟨label, String.ofList mnemonic, operands⟩

/-- Reads the code of a line, which starts with no blank. -/
def readCode (text : List Char) : Except Fault (Option Statement) :=
  let (first, rest) := Text.nextWord text
  if first.getLast? = some ':' then
    if IsIdentifier first.dropLast then
      readInstruction (some (String.ofList first.dropLast)) rest
    else .error (.invalidLabel (String.ofList first.dropLast))
  else readInstruction none text

def decode (grammar : Grammar) (line : List Char) : Except Fault (Option Statement) :=
  readCode (grammar.code line)

end Grammar

end DspChip
