import DspChip.Proofs.Chip.Step
/-! Chips that agree. Of two register files that answer the same questions alike, every effect
stores the same word into both; chips that differ in such files only are run alike. -/

namespace DspChip

/-- Both files give the same answers to the questions an instruction asks, up to excused faults. -/
structure RegisterFile.AnswersAlike (excused : Fault → Prop) (first second : RegisterFile) :
    Prop where
  fetch : ∀ ident amount,
    Agrees excused Eq (first.fetch ident amount) (second.fetch ident amount)
  fetchSigned : ∀ ident, Agrees excused Eq (first.fetchSigned ident) (second.fetchSigned ident)
  settle : ∀ ident result,
    Agrees excused Eq (first.settle ident result) (second.settle ident result)

variable {excused : Fault → Prop} {first second : RegisterFile}

theorem Operand.load_agrees {amount : Int} {operand : Operand}
    (fetch : ∀ ident ∈ operand.registers,
      Agrees excused Eq (first.fetch ident amount) (second.fetch ident amount)) :
    Agrees excused Eq (operand.load amount first) (operand.load amount second) := by
  cases operand with
  | register name => exact fetch name List.mem_cons_self
  | immediate value => exact Agrees.of_eq rfl

theorem Combination.load_agrees {target : String}
    (settle : ∀ result,
      Agrees excused Eq (first.settle target result) (second.settle target result))
    (how : Combination) (current source : Word) :
    Agrees excused Eq (how.load target current source first)
      (how.load target current source second) := by
  cases how with
  | add => exact settle _
  | sub => exact settle _
  | and | or | xor => exact Agrees.of_eq rfl

namespace Effect

theorem read_agrees {α : Type} {one other : Except Fault Word} (make : Word → α)
    (agrees : Agrees excused Eq one other) :
    Agrees excused Eq (one >>= fun value => pure (make value))
      (other >>= fun value => pure (make value)) := by
  apply agrees.bind
  intro value _ same
  subst same
  exact Agrees.of_eq rfl

theorem load_agrees_of {effect : Effect}
    (fetch : ∀ ident ∈ effect.registers, ∀ amount,
      Agrees excused Eq (first.fetch ident amount) (second.fetch ident amount))
    (fetchSigned : ∀ ident ∈ effect.registers,
      Agrees excused Eq (first.fetchSigned ident) (second.fetchSigned ident))
    (settle : ∀ ident ∈ effect.registers, ∀ result,
      Agrees excused Eq (first.settle ident result) (second.settle ident result)) :
    Agrees excused Eq (effect.load first) (effect.load second) := by
  cases effect with
  | idle => exact Agrees.of_eq rfl
  | move target source amount =>
    exact read_agrees _ (Operand.load_agrees fun ident member =>
      fetch ident (List.mem_cons_of_mem target member) _)
  | combine how target source amount =>
    apply (Operand.load_agrees fun ident member =>
      fetch ident (List.mem_cons_of_mem target member) 0).bind
    intro value _ same
    subst same
    apply (fetch target List.mem_cons_self 0).bind
    intro current _ same
    subst same
    exact read_agrees _ (how.load_agrees (settle target List.mem_cons_self) current _)
  | shift fill target amount =>
    by_cases signed : fill = .sign ∧ amount < 0
    · simp only [load, if_pos signed]
      exact read_agrees _ (fetchSigned target List.mem_cons_self)
    · simp only [load, if_neg signed]
      exact read_agrees _ (fetch target List.mem_cons_self 0)
  | alter how target =>
    cases how with
    | clear => exact Agrees.of_eq rfl
    | neg | not => exact read_agrees _ (fetch target List.mem_cons_self 0)

theorem load_agrees (alike : first.AnswersAlike excused second) (effect : Effect) :
    Agrees excused Eq (effect.load first) (effect.load second) :=
  load_agrees_of (fun ident _ => alike.fetch ident) (fun ident _ => alike.fetchSigned ident)
    fun ident _ => alike.settle ident

/-- Files that answer alike and store alike are left related by every effect. -/
theorem outcome_agrees {related : RegisterFile → RegisterFile → Prop}
    (alike : first.AnswersAlike excused second) (start : related first second)
    (stores : ∀ ident value amount,
      Agrees excused related (first.store ident value amount) (second.store ident value amount))
    (effect : Effect) :
    Agrees excused related (effect.outcome first) (effect.outcome second) := by
  unfold outcome
  cases effect.target? with
  | none => exact start
  | some target =>
    apply (effect.load_agrees alike).bind
    intro ⟨value, amount⟩ _ same
    subst same
    exact stores target value amount

end Effect

theorem Instruction.outcome_agrees {related : RegisterFile → RegisterFile → Prop} {i : Instruction}
    (builtin : i.IsPrimitive)
    (named : ∀ mnemonic fault, excused fault → excused (fault.inInstruction mnemonic))
    (effects : ∀ effect : Effect,
      Agrees excused related (effect.outcome first) (effect.outcome second))
    (operands : List Operand) :
    Agrees excused related (i.outcome operands first) (i.outcome operands second) := by
  obtain ⟨primitive, body⟩ := builtin
  simp only [Instruction.outcome_primitive body]
  split
  · apply Agrees.mapError _ (named i.mnemonic)
    unfold Primitive.outcome
    cases primitive.effect operands with
    | error fault => exact Or.inr rfl
    | ok effect => exact effects effect
  · exact Or.inr rfl

/-! Twin chips are built alike of primitives and differ in their register files only. If every
effect leaves related files related, every run does. -/

namespace Chip

/-- The chips read lines alike and hold the same primitives, over related register files. -/
structure Twins (related : RegisterFile → RegisterFile → Prop) (first second : Chip) : Prop where
  grammar : second.grammar = first.grammar
  instructions : second.instructions.instructions = first.instructions.instructions
  builtin : first.IsPrimitive
  registers : related first.registers second.registers

namespace Twins

variable {related : RegisterFile → RegisterFile → Prop} {excused : Fault → Prop}
  {first second : Chip}

theorem isPrimitive (twins : Twins related first second) : second.IsPrimitive := by
  intro i present
  rw [twins.instructions] at present
  exact twins.builtin i present

variable
  (named : ∀ mnemonic fault, excused fault → excused (fault.inInstruction mnemonic))
  (effects : ∀ before other, related before other → ∀ effect : Effect,
    Agrees excused related (effect.outcome before) (effect.outcome other))

include named effects

theorem outcome_agrees (twins : Twins related first second) (statement : Statement) :
    Agrees excused related (first.outcome statement) (second.outcome statement) := by
  unfold outcome
  rw [InstructionTable.lookup?_congr twins.instructions]
  cases found : first.instructions.lookup? statement.mnemonic with
  | none => exact Or.inr rfl
  | some i =>
    have builtin := twins.builtin i (InstructionTable.lookup?_eq_some_iff.mp found).1
    exact Instruction.outcome_agrees builtin named (effects _ _ twins.registers) _

theorem attempt_agrees (twins : Twins related first second) (line : List Char) :
    Agrees excused (fun left right => left.1 = right.1 ∧ related left.2 right.2)
      (first.attempt line) (second.attempt line) := by
  unfold attempt
  rw [twins.grammar]
  cases first.grammar.decode line with
  | error fault => exact Or.inr rfl
  | ok decoded =>
    cases decoded with
    | none => exact ⟨rfl, twins.registers⟩
    | some statement =>
      apply (twins.outcome_agrees named effects statement).bind
      intro left right ended
      exact ⟨rfl, ended⟩

theorem execute_agrees (twins : Twins related first second) (line : List Char) :
    ResultAgrees excused (Twins related) (first.execute line) (second.execute line) := by
  have agrees := twins.attempt_agrees named effects line
  rw [execute_eq twins.builtin, execute_eq twins.isPrimitive]
  cases left : first.attempt line with
  | error fault =>
    rw [left] at agrees
    rcases agrees with allowed | same
    · exact Or.inl allowed
    · rw [same]
      exact Or.inr ⟨second, rfl, twins⟩
  | ok result =>
    rw [left] at agrees
    cases right : second.attempt line with
    | error fault =>
      rw [right] at agrees
      exact agrees.elim
    | ok other =>
      rw [right] at agrees
      obtain ⟨decoded, ended⟩ := agrees
      refine ⟨{ second with registers := other.2 }, by rw [decoded], ?_⟩
      exact ⟨twins.grammar, twins.instructions, twins.builtin, ended⟩

theorem runLines_agrees (twins : Twins related first second) (lines : List (List Char))
    (line executed : Nat) :
    ResultAgrees (fun failure : LineFault => excused failure.fault) (Twins related)
      (first.runLines line executed lines) (second.runLines line executed lines) :=
  Chip.runLines_agrees (fun _ _ start text => start.execute_agrees named effects text)
    lines line executed twins

end Twins

end Chip

end DspChip
