import DspChip.Instruction.Primitive
import Std.Data.HashMap
/-! Instructions, each a mnemonic and what it does, and tables of them: in the order they were
added, with an index by mnemonic. -/

namespace DspChip

abbrev Handler := List Operand → Action Unit

inductive Instruction.Body where
  | primitive (primitive : Primitive)
  | custom (arity : Arity) (handler : Handler)

structure Instruction where
  mnemonic : String
  body : Instruction.Body

namespace Instruction

def Body.arity : Body → Arity
  | primitive p => p.arity
  | custom arity _ => arity

def Body.perform : Body → Handler
  | primitive p => p.perform
  | custom _ handler => handler

def arity (i : Instruction) : Arity := i.body.arity

def Answers (i : Instruction) (mnemonic : String) : Prop :=
  Text.SameName i.mnemonic mnemonic

instance (i : Instruction) (mnemonic : String) : Decidable (i.Answers mnemonic) :=
  inferInstanceAs (Decidable (Text.SameName _ _))

/-- Checks the number of operands and acts on them. Faults tell the mnemonic as it is registered. -/
def execute (i : Instruction) (operands : List Operand) : Action Unit :=
  if i.arity.Accepts operands.length then
    (i.body.perform operands).adaptExcept (Fault.inInstruction i.mnemonic)
  else throw (.operandCount i.mnemonic i.arity operands.length)

end Instruction

/-- The index holds, for each mnemonic in lower case, the place of its instruction. -/
structure InstructionTable where
  instructions : List Instruction := []
  index : Std.HashMap String Nat := ∅
  index_eq_some_iff : ∀ key place, index[key]? = some place ↔
      (instructions[place]?).map (Text.fold ·.mnemonic) = some key := by simp

namespace InstructionTable

def empty : InstructionTable := {}

theorem index_insert {table : InstructionTable} {i : Instruction}
    (absent : table.index[Text.fold i.mnemonic]? = none) (key : String) (place : Nat) :
    (table.index.insert (Text.fold i.mnemonic) table.instructions.length)[key]? = some place ↔
      ((table.instructions ++ [i])[place]?).map (Text.fold ·.mnemonic) = some key := by
  have old := table.index_eq_some_iff key place
  rw [Std.HashMap.getElem?_insert]
  by_cases same : Text.fold i.mnemonic = key
  · subst same
    have fresh : ¬ (table.instructions[place]?).map (Text.fold ·.mnemonic) =
        some (Text.fold i.mnemonic) := by
      rw [← old, absent]
      simp
    rcases Nat.lt_trichotomy place table.instructions.length with before | last | after
    · rw [List.getElem?_append_left before]
      simp [fresh, Nat.ne_of_gt before]
    · subst last
      simp
    · rw [List.getElem?_append_right (Nat.le_of_lt after),
        List.getElem?_eq_none (by simp; omega)]
      simp [Nat.ne_of_lt after]
  · rw [if_neg (by simpa using same), old]
    rcases Nat.lt_trichotomy place table.instructions.length with before | last | after
    · rw [List.getElem?_append_left before]
    · subst last
      simp [same]
    · rw [List.getElem?_append_right (Nat.le_of_lt after),
        List.getElem?_eq_none (Nat.le_of_lt after), List.getElem?_eq_none (by simp; omega)]

def add (table : InstructionTable) (i : Instruction) : Except Fault InstructionTable :=
  if absent : table.index[Text.fold i.mnemonic]? = none then
    .ok {
      instructions := table.instructions ++ [i]
      index := table.index.insert (Text.fold i.mnemonic) table.instructions.length
      index_eq_some_iff := index_insert absent }
  else .error (.duplicateMnemonic i.mnemonic)

def lookup? (table : InstructionTable) (mnemonic : String) : Option Instruction :=
  table.index[Text.fold mnemonic]?.bind (table.instructions[·]?)

end InstructionTable

end DspChip
