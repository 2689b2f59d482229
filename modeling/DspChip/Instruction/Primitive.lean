import DspChip.Assembly
import DspChip.Register.File
/-! Effects, which are what an instruction does to a register file once its operands are told apart,
and primitives: an operation with the order of its operands and a shift of its own. -/

namespace DspChip

inductive Effect where
  | idle
  | move (target : String) (source : Operand) (amount : Int)
  | combine (how : Combination) (target : String) (source : Operand) (amount : Int)
  | shift (fill : Fill) (target : String) (amount : Int)
  | alter (how : Alteration) (target : String)
  deriving DecidableEq, Repr

/-- The value that an operand supplies, shifted on its side of the bus. -/
def Operand.supply (amount : Int) : Operand → Action Word
  | register name => Action.fetch name amount
  | immediate value => pure (value.shift amount)

/-- The new value of a target. Sums and differences are exact before they are fitted to it. -/
def Combination.result (target : String) (current source : Word) : Combination → Action Word
  | add => Action.settle target (current.toInt + source.toInt)
  | sub => Action.settle target (current.toInt - source.toInt)
  | and => pure (current &&& source)
  | or => pure (current ||| source)
  | xor => pure (current ^^^ source)

namespace Effect

def target? : Effect → Option String
  | idle => none
  | move target _ _ => some target
  | combine _ target _ _ => some target
  | shift _ target _ => some target
  | alter _ target => some target

def perform : Effect → Action Unit
  | idle => pure ()
  | move target source amount => do
    -- a right shift happens as the source is read, a left shift as the target is written
    let value ← source.supply (min amount 0)
    Action.store target value (max amount 0)
  | combine how target source amount => do
    let value ← source.supply 0
    let current ← Action.fetch target 0
    let result ← how.result target current (value.shift amount)
    Action.store target result 0
  | shift fill target amount => do
    if fill = .sign ∧ amount < 0 then
      let current ← Action.fetchSigned target
      Action.store target (current.shift amount) 0
    else
      let current ← Action.fetch target 0
      Action.store target current amount
  | alter .neg target => do
    let current ← Action.fetch target 0
    Action.store target (-current) 0
  | alter .not target => do
    let current ← Action.fetch target 0
    Action.store target (~~~current) 0
  | alter .clear target => Action.store target 0 0

end Effect

structure Primitive where
  operation : Operation
  order : OperandOrder := .targetFirst
  amount : Int32 := 0
  deriving DecidableEq, Repr

namespace Operand

def asRegister (index : Nat) (operand : Operand) : Except Fault String :=
  match operand.register? with
  | some name => .ok name
  | none => .error (.invalidOperand "" index "register" operand.text)

/-- The shift amount told by the operand at an index, a 32-bit number. -/
def asAmount (index : Nat) (operand : Operand) : Except Fault Int :=
  match operand.immediate?.map Int64.toInt with
  | some amount =>
    if Int32.minValue.toInt ≤ amount ∧ amount ≤ Int32.maxValue.toInt then .ok amount
    else .error (.invalidOperand "" index "shift amount" operand.text)
  | none => .error (.invalidOperand "" index "shift amount" operand.text)

end Operand

/-- Target, source and shift amount of a move or a combination, with the places where the first
and the last of them stand. -/
structure Transfer where
  target : Operand
  targetIndex : Nat
  source : Operand
  amount : Option (Operand × Nat)
  deriving DecidableEq, Repr

def Transfer.ofOperands? : OperandOrder → List Operand → Option Transfer
  | .targetFirst, [target, source] => some ⟨target, 0, source, none⟩
  | .targetFirst, [target, source, amount] => some ⟨target, 0, source, some (amount, 2)⟩
  | .sourceFirst, [source, target] => some ⟨target, 1, source, none⟩
  | .sourceFirst, [source, amount, target] => some ⟨target, 2, source, some (amount, 1)⟩
  | _, _ => none

namespace Primitive

def arity (primitive : Primitive) : Arity := primitive.operation.arity

def countFault (primitive : Primitive) (operands : List Operand) : Fault :=
  .operandCount "" primitive.arity operands.length

def totalAmount (primitive : Primitive) (amount : Int) : Int :=
  clampAmount (primitive.amount.toInt + amount)

def transfer (primitive : Primitive) (operands : List Operand) :
    Except Fault (String × Operand × Int) :=
  match Transfer.ofOperands? primitive.order operands with
  | none => .error (primitive.countFault operands)
  | some found => do
    let amount ←
      match found.amount with
      | some (operand, index) => operand.asAmount index
      | none => .ok 0
    let target ← found.target.asRegister found.targetIndex
    return (target, found.source, primitive.totalAmount amount)

def effect (primitive : Primitive) (operands : List Operand) : Except Fault Effect :=
  match primitive.operation with
  | .nop => .ok .idle
  | .move => do
    let (target, source, amount) ← primitive.transfer operands
    return .move target source amount
  | .combine how => do
    let (target, source, amount) ← primitive.transfer operands
    return .combine how target source amount
  | .shift fill =>
    match operands with
    | [target, amount] => do
      let target ← target.asRegister 0
      let amount ← amount.asAmount 1
      return .shift fill target (primitive.totalAmount amount)
    | _ => .error (primitive.countFault operands)
  | .alter how =>
    match operands with
    | [target] => do
      let target ← target.asRegister 0
      return .alter how target
    | _ => .error (primitive.countFault operands)

def perform (primitive : Primitive) (operands : List Operand) : Action Unit := do
  let effect ← Action.ask fun _ => primitive.effect operands
  effect.perform

end Primitive

end DspChip
