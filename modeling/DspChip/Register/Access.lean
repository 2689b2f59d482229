import DspChip.Number
/-! What a register does with carries, who may read or write it, and the text of such rights. -/

namespace DspChip

inductive Overflow where
  /-- Only the low bits are kept. -/
  | wrap
  /-- The register takes its largest value. -/
  | saturate
  /-- An instruction fails; a plain write keeps the low bits. -/
  | reject
  deriving DecidableEq, Repr

namespace Overflow

def all : List Overflow := [wrap, saturate, reject]

def name : Overflow → String
  | wrap => "wrap"
  | saturate => "saturate"
  | reject => "reject"

end Overflow

inductive Right where
  | read
  | write
  deriving DecidableEq, Repr

namespace Right

def all : List Right := [read, write]

def name : Right → String
  | read => "READ"
  | write => "WRITE"

def flag : Right → UInt8
  | read => 1
  | write => 2

end Right

/-- The rights granted on a register, one bit each. Bits without a meaning are kept. -/
structure Access where
  flags : UInt8
  deriving DecidableEq, Repr

namespace Access

def full : Access := ⟨3⟩

def only (right : Right) : Access := ⟨right.flag⟩

def Allows (access : Access) (right : Right) : Prop :=
  access.flags &&& right.flag = right.flag

instance (access : Access) (right : Right) : Decidable (access.Allows right) :=
  inferInstanceAs (Decidable (access.flags &&& right.flag = right.flag))

def unnamed (access : Access) : UInt8 :=
  access.flags &&& 0xFC

/-! Rights as text: names joined by bars, with the bits that have no name in hexadecimal. -/

def parts (access : Access) : List (List Char) :=
  (Right.all.filter access.Allows).map (·.name.toList) ++
    if access.unnamed = 0 then [] else ['0' :: 'x' :: Nat.toDigits 16 access.unnamed.toNat]

def text (access : Access) : String :=
  String.ofList ([' ', '|', ' '].intercalate access.parts)

def shown (access : Access) : String :=
  if access.flags = 0 then "Access(0x0)" else s!"Access({access.text})"

def readBits? (digits : List Char) : Option UInt8 :=
  let body := if digits.head? = some '+' then digits.tail else digits
  ((Radix.hexadecimal.read? body).filter (· < 256)).map UInt8.ofNat

def readPart? : List Char → Option UInt8
  | '0' :: 'x' :: digits => readBits? digits
  | part => (Right.all.find? (·.name.toList = part)).map Right.flag

/-- Reads the text of access rights. A blank text grants none; a part may not be blank. -/
def ofText? (text : String) : Option Access :=
  if Text.trim text.toList = [] then some ⟨0⟩
  else
    ((text.toList.splitOn '|').mapM fun part => readPart? (Text.trim part)).map fun bits =>
      ⟨bits.foldl (· ||| ·) 0⟩

end Access

end DspChip
