import DspChip.Text
/-! Numbers: the words that travel between registers, the radices in which they are shown, and
numbers as they are typed.

A word is a signed 64-bit value. -/

namespace DspChip

abbrev Word := Int64

namespace Word

def ofInt? (n : Int) : Option Word :=
  if Int64.minValue.toInt ≤ n ∧ n ≤ Int64.maxValue.toInt then some (Int64.ofInt n) else none

def nearest (n : Int) : Word :=
  Int64.ofInt (max Int64.minValue.toInt (min n Int64.maxValue.toInt))

def pattern (v : Word) : Nat :=
  v.toUInt64.toNat

/-- The word whose low bits are set, as many as told. -/
def mask (bits : Nat) : Word :=
  Int64.ofNat (1 <<< bits - 1)

/-- Shifts left by a positive amount and right by a negative one. A left shift drops the bits that
leave the word; a right shift repeats the sign, so past 63 places nothing else is left. -/
def shift (v : Word) (amount : Int) : Word :=
  if 64 ≤ amount then 0
  else if 0 ≤ amount then v <<< Int64.ofInt amount
  else v >>> Int64.ofInt (min (-amount) 63)

end Word

/-- Shift amounts are 32-bit: a sum of two of them stops at the ends of that range. -/
def clampAmount (amount : Int) : Int :=
  max Int32.minValue.toInt (min amount Int32.maxValue.toInt)

/-! The radices in which values are shown and typed. -/

inductive Radix where
  | decimal
  | hexadecimal
  | binary
  deriving DecidableEq, Repr

namespace Radix

def size : Radix → Nat
  | decimal => 10
  | hexadecimal => 16
  | binary => 2

def suffix : Radix → Char
  | decimal => 'd'
  | hexadecimal => 'h'
  | binary => 'b'

def name : Radix → String
  | decimal => "dec"
  | hexadecimal => "hex"
  | binary => "bin"

def fullName : Radix → String
  | decimal => "decimal"
  | hexadecimal => "hex"
  | binary => "binary"

def code : Radix → Nat
  | decimal => 0
  | hexadecimal => 1
  | binary => 2

def ofCode? : Nat → Option Radix
  | 0 => some decimal
  | 1 => some hexadecimal
  | 2 => some binary
  | _ => none

def ofName? (name : String) : Option Radix :=
  let known := Text.fold name
  if known ∈ ["d", "dec", "decimal"] then some decimal
  else if known ∈ ["h", "hex", "hexadecimal"] then some hexadecimal
  else if known ∈ ["b", "bin", "binary"] then some binary
  else none

def unknownMessage (name : String) : String :=
  s!"unknown base `{Text.fold name}` (expected dec, hex or bin)"

def digit? (radix : Radix) (c : Char) : Option Nat :=
  let value :=
    if '0' ≤ c ∧ c ≤ '9' then some (c.toNat - '0'.toNat)
    else if 'a' ≤ c ∧ c ≤ 'f' then some (c.toNat - 'a'.toNat + 10)
    else if 'A' ≤ c ∧ c ≤ 'F' then some (c.toNat - 'A'.toNat + 10)
    else none
  value.filter (· < radix.size)

def read? (radix : Radix) (digits : List Char) : Option Nat :=
  if digits = [] then none
  else (digits.mapM radix.digit?).map (·.foldl (fun value digit => value * radix.size + digit) 0)

/-- The digits of a magnitude; hexadecimal ones come in pairs. -/
def magnitude (radix : Radix) (n : Nat) : List Char :=
  let digits := Nat.toDigits radix.size n
  if radix = hexadecimal ∧ digits.length % 2 = 1 then '0' :: digits else digits

def format (radix : Radix) (value : Int) : String :=
  String.ofList ((if value < 0 then ['-'] else []) ++ radix.magnitude value.natAbs ++ [radix.suffix])

example : hexadecimal.format (-256) = "-0100h" ∧ binary.format 5 = "101b" := by decide

end Radix

/-! Numbers as they are typed: `42`, `42d`, `-7`, `0x2A`, `2Ah`, `101b`. -/

namespace Numeral

/-- The radix and the digits of an unsigned number, by its mark. The mark `0x` comes first. Since
`b` is also a hexadecimal digit it is a mark only behind binary digits. -/
def radixAndDigits (body : List Char) : Radix × List Char :=
  match body with
  | '0' :: 'x' :: digits => (.hexadecimal, digits)
  | '0' :: 'X' :: digits => (.hexadecimal, digits)
  | _ =>
    match body.getLast?.map Char.toLower with
    | some 'h' => (.hexadecimal, body.dropLast)
    | some 'b' =>
      if (Radix.binary.read? body.dropLast).isSome then (.binary, body.dropLast)
      else (.decimal, body)
    | some 'd' => (.decimal, body.dropLast)
    | _ => (.decimal, body)

def unsigned? (body : List Char) : Option Nat :=
  (radixAndDigits body).1.read? (radixAndDigits body).2

/-- The exact value of a number with at most one sign, or `none` if the text is no number. -/
def value? : List Char → Option Int
  | '-' :: body => (unsigned? body).map fun n : Nat => -(n : Int)
  | '+' :: body => (unsigned? body).map Int.ofNat
  | body => (unsigned? body).map Int.ofNat

def decimal (n : Int) : List Char :=
  (if n < 0 then ['-'] else []) ++ Nat.toDigits 10 n.natAbs

example : value? "-0x2A".toList = some (-42) := by decide

-- `b` behind a digit other than 0 and 1 marks nothing
example : value? "101b".toList = some 5 ∧ value? "1Bh".toList = some 27 ∧
    value? "2b".toList = none := by decide

end Numeral

end DspChip
