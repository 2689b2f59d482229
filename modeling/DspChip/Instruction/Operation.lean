/-! The operations that a mnemonic can stand for, and how many operands they take. -/

namespace DspChip

structure Arity where
  least : Nat
  most : Nat
  deriving DecidableEq, Repr

namespace Arity

def exactly (n : Nat) : Arity := ⟨n, n⟩

def Accepts (arity : Arity) (n : Nat) : Prop :=
  arity.least ≤ n ∧ n ≤ arity.most

instance (arity : Arity) (n : Nat) : Decidable (arity.Accepts n) :=
  inferInstanceAs (Decidable (arity.least ≤ n ∧ n ≤ arity.most))

def text (arity : Arity) : String :=
  if arity.least = arity.most then toString arity.least
  else s!"{arity.least} to {arity.most}"

end Arity

inductive Combination where
  | add
  | sub
  | and
  | or
  | xor
  deriving DecidableEq, Repr

inductive Alteration where
  | neg
  | not
  | clear
  deriving DecidableEq, Repr

/-- What enters at the top of a register that is shifted right. -/
inductive Fill where
  | zero
  | sign
  deriving DecidableEq, Repr

inductive Operation where
  | nop
  | move
  | combine (how : Combination)
  | shift (fill : Fill)
  | alter (how : Alteration)
  deriving DecidableEq, Repr

namespace Operation

def all : List Operation :=
  [nop, move, combine .add, combine .sub, combine .and, combine .or, combine .xor,
    shift .zero, shift .sign, alter .neg, alter .not, alter .clear]

def name : Operation → String
  | nop => "nop"
  | move => "move"
  | combine .add => "add"
  | combine .sub => "sub"
  | combine .and => "and"
  | combine .or => "or"
  | combine .xor => "xor"
  | shift .zero => "shift"
  | shift .sign => "shift_arith"
  | alter .neg => "neg"
  | alter .not => "not"
  | alter .clear => "clear"

def arity : Operation → Arity
  | nop => .exactly 0
  | move => ⟨2, 3⟩
  | combine _ => ⟨2, 3⟩
  | shift _ => .exactly 2
  | alter _ => .exactly 1

end Operation

/-- Where the target stands among the operands of a move or a combination. An operand that tells a
shift amount follows the source. -/
inductive OperandOrder where
  | targetFirst
  | sourceFirst
  deriving DecidableEq, Repr

namespace OperandOrder

def all : List OperandOrder := [targetFirst, sourceFirst]

def name : OperandOrder → String
  | targetFirst => "dst_first"
  | sourceFirst => "src_first"

end OperandOrder

end DspChip
