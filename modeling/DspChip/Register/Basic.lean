import DspChip.Fault
/-! A register: up to 63 bits of storage behind a data bus that may be narrower. -/

namespace DspChip

/-- The part of a register that instructions never change. -/
structure Register.Shape where
  name : String
  shortName : String
  bits : Nat
  busWidth : Nat
  overflow : Overflow := .wrap
  access : Access := .full
  one_le_busWidth : 1 ≤ busWidth
  busWidth_le_bits : busWidth ≤ bits
  bits_le : bits ≤ 63
  deriving DecidableEq

def Register.Shape.Answers (shape : Register.Shape) (ident : String) : Prop :=
  Text.SameName shape.name ident ∨ Text.SameName shape.shortName ident

instance (shape : Register.Shape) (ident : String) : Decidable (shape.Answers ident) :=
  inferInstanceAs (Decidable (_ ∨ _))

def Register.Shape.Apart (first second : Register.Shape) : Prop :=
  ¬ first.Answers second.name ∧ ¬ first.Answers second.shortName

instance (first second : Register.Shape) : Decidable (first.Apart second) :=
  inferInstanceAs (Decidable (_ ∧ _))

/-- The contents never reach past the width. -/
structure Register extends Register.Shape where
  value : Word := 0
  within : value &&& Word.mask bits = value := by simp
  deriving DecidableEq

namespace Register

/-- An empty register that wraps and grants every right. -/
def create (name shortName : String) (bits busWidth : Nat) : Except Fault Register :=
  if width : 1 ≤ bits ∧ bits ≤ 63 then
    if bus : 1 ≤ busWidth ∧ busWidth ≤ bits then
      .ok {
        name, shortName, bits, busWidth
        one_le_busWidth := bus.1
        busWidth_le_bits := bus.2
        bits_le := width.2 }
    else .error (.invalidRegister name (WidthFault.busWidth busWidth bits).text)
  else .error (.invalidRegister name (WidthFault.width bits).text)

def withOverflow (r : Register) (overflow : Overflow) : Register := { r with overflow }

def withAccess (r : Register) (access : Access) : Register := { r with access }

def bitMask (r : Register) : Word := Word.mask r.bits

def busMask (r : Register) : Word := Word.mask r.busWidth

def put (r : Register) (contents : Word) : Register :=
  { r with
    value := contents &&& r.bitMask
    within := by rw [bitMask, Int64.and_assoc, Int64.and_self] }

@[simp] theorem value_put (r : Register) (contents : Word) :
    (r.put contents).value = contents &&& r.bitMask := rfl

@[simp] theorem toShape_put (r : Register) (contents : Word) :
    (r.put contents).toShape = r.toShape := rfl

@[simp] theorem put_value (r : Register) : r.put r.value = r := by
  simp [put, bitMask, r.within]

def signed (r : Register) : Word :=
  (r.value.shift (64 - r.bits)).shift (r.bits - 64)

/-- What the bus lets through of a word. -/
def latch (r : Register) (input : Word) : Word := input &&& r.busMask

def read (r : Register) (amount : Int) : Word := r.value.shift amount &&& r.busMask

/-- The shifted word, as an exact number, no longer fits the register. A latched word is never
negative, so only a left shift can do that. -/
def Overflows (r : Register) (latched : Word) (amount : Int) : Prop :=
  0 < amount ∧ latched ≠ 0 ∧
    (64 ≤ amount ∨ r.bitMask.toInt < latched.toInt <<< amount.toNat)

instance (r : Register) (latched : Word) (amount : Int) : Decidable (r.Overflows latched amount) :=
  inferInstanceAs (Decidable (_ ∧ _ ∧ (_ ∨ _)))

/-- Latches a word and stores it shifted. Bits past the width go by the policy, but a register
that rejects overflow wraps here. -/
def write (r : Register) (input : Word) (amount : Int) : Register :=
  if r.overflow = .saturate ∧ r.Overflows (r.latch input) amount then r.put r.bitMask
  else r.put ((r.latch input).shift amount)

@[simp] theorem toShape_write (r : Register) (input : Word) (amount : Int) :
    (r.write input amount).toShape = r.toShape := by
  unfold write
  split <;> rfl

def tryWrite (r : Register) (input : Word) (amount : Int) : Except Fault Register :=
  if r.overflow = .reject ∧ r.Overflows (r.latch input) amount then
    .error (.registerOverflow r.name input amount)
  else .ok (r.write input amount)

def settle (r : Register) (result : Int) : Except Fault Word :=
  match r.overflow with
  | .wrap => .ok (Int64.ofInt result)
  | .saturate => .ok (Int64.ofInt (max 0 (min result r.bitMask.toInt)))
  | .reject =>
    if 0 ≤ result ∧ result ≤ r.bitMask.toInt then .ok (Int64.ofInt result)
    else .error (.registerOverflow r.name (Word.nearest result) 0)

end Register

end DspChip
