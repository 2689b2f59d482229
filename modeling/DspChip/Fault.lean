import DspChip.Instruction.Operation
import DspChip.Register.Access
/-! Why a line, a register or a chip is refused, and the message that says so. -/

namespace DspChip

inductive TokenFault where
  | empty
  | malformed
  | outOfRange
  | unrecognised
  deriving DecidableEq, Repr

def TokenFault.text : TokenFault → String
  | empty => "empty operand"
  | malformed => "malformed number"
  | outOfRange => "number out of range"
  | unrecognised => "not a register name or number"

inductive WidthFault where
  | width (bits : Nat)
  | busWidth (bus bits : Nat)
  deriving DecidableEq, Repr

def WidthFault.text : WidthFault → String
  | width bits => s!"width {bits} outside 1..=63"
  | busWidth bus bits => s!"bus width {bus} outside 1..={bits}"

inductive Fault where
  | unknownMnemonic (mnemonic : String)
  | operandParse (token reason : String)
  | invalidLabel (label : String)
  /-- The mnemonic is empty until the instruction that failed adds its own. -/
  | operandCount (mnemonic : String) (expected : Arity) (found : Nat)
  | invalidOperand (mnemonic : String) (index : Nat) (expected found : String)
  | unknownRegister (name : String)
  | registerOverflow (register : String) (value : Word) (amount : Int)
  | accessDenied (register : String) (access : Access)
  | duplicateMnemonic (mnemonic : String)
  | duplicateRegister (name : String)
  | invalidRegister (name reason : String)
  | invalidComment (comment : Char)
  deriving DecidableEq, Repr

namespace Fault

/-- The fault with the mnemonic of the instruction it arose in, unless it names one already. -/
def inInstruction (mnemonic : String) : Fault → Fault
  | operandCount own expected found =>
    operandCount (if own = "" then mnemonic else own) expected found
  | invalidOperand own index expected found =>
    invalidOperand (if own = "" then mnemonic else own) index expected found
  | fault => fault

def hexadecimal (value : Word) : String :=
  String.ofList ('0' :: 'x' :: Nat.toDigits 16 value.pattern)

def message : Fault → String
  | unknownMnemonic mnemonic => s!"unknown mnemonic `{mnemonic}`"
  | operandParse token reason => s!"cannot parse operand `{token}`: {reason}"
  | invalidLabel label => s!"invalid label `{label}`"
  | operandCount mnemonic expected found =>
    s!"{mnemonic} takes {expected.text} operand(s), got {found}"
  | invalidOperand mnemonic index expected found =>
    s!"{mnemonic}: operand {index} must be a {expected}, got `{found}`"
  | unknownRegister name => s!"unknown register `{name}`"
  | registerOverflow register value amount =>
    s!"value {hexadecimal value} shifted by {amount} overflows register {register}"
  | accessDenied register access => s!"register {register} does not allow {access.shown}"
  | duplicateMnemonic mnemonic => s!"mnemonic `{mnemonic}` is already registered"
  | duplicateRegister name => s!"register name `{name}` is already in use"
  | invalidRegister name reason => s!"invalid register {name}: {reason}"
  | invalidComment comment => s!"comment delimiter `{comment}` is part of the line grammar"

end Fault

end DspChip
