import DspChip.Instruction.Table
import DspChip.Proofs.Register.Lookup
/-! What an instruction makes of a register file, and which one a mnemonic finds. A primitive reads
all that it needs first and then stores once, so its action is one change that either happens as a
whole or not at all. -/

namespace DspChip

namespace Action

variable {α : Type}

theorem ask_bind_change (question : RegisterFile → Except Fault α)
    (next : α → RegisterFile → Except Fault RegisterFile) :
    (ask question >>= fun answer => change (next answer)) =
      change fun file => question file >>= fun answer => next answer file := by
  funext file
  simp only [bind, EStateM.bind, Except.bind, ask, change]
  cases question file <;> rfl

theorem change_eq_ok_iff {next : RegisterFile → Except Fault RegisterFile} {file left : RegisterFile} :
    change next file = .ok () left ↔ next file = .ok left := by
  rw [change]
  cases next file <;> simp

theorem bind_eq_ok_iff {first second : Action Unit} {file next : RegisterFile} :
    (do first; second) file = .ok () next ↔
      ∃ middle, first file = .ok () middle ∧ second middle = .ok () next := by
  simp only [bind, EStateM.bind]
  cases first file with
  | ok _ middle => simp
  | error fault left => simp

def outcome (action : Action Unit) (file : RegisterFile) : Except Fault RegisterFile :=
  match action file with
  | .ok _ next => .ok next
  | .error fault _ => .error fault

@[simp] theorem outcome_change (next : RegisterFile → Except Fault RegisterFile) :
    (change next).outcome = next := by
  funext file
  simp only [outcome, change]
  cases next file <;> rfl

theorem adaptExcept_change (name : Fault → Fault)
    (next : RegisterFile → Except Fault RegisterFile) :
    (change next).adaptExcept name = change fun file => (next file).mapError name := by
  funext file
  simp only [EStateM.adaptExcept, change]
  cases next file <;> rfl

end Action

def Operand.load (amount : Int) (file : RegisterFile) : Operand → Except Fault Word
  | register name => file.fetch name amount
  | immediate value => .ok (value.shift amount)

theorem Operand.supply_eq_ask (amount : Int) (operand : Operand) :
    operand.supply amount = Action.ask fun file => operand.load amount file := by
  cases operand <;> rfl

def Combination.load (target : String) (current source : Word) (file : RegisterFile) :
    Combination → Except Fault Word
  | add => file.settle target (current.toInt + source.toInt)
  | sub => file.settle target (current.toInt - source.toInt)
  | and => .ok (current &&& source)
  | or => .ok (current ||| source)
  | xor => .ok (current ^^^ source)

theorem Combination.result_eq_ask (how : Combination) (target : String) (current source : Word) :
    how.result target current source =
      Action.ask fun file => how.load target current source file := by
  cases how <;> rfl

def Operand.registers (operand : Operand) : List String := operand.register?.toList

def Effect.registers : Effect → List String
  | idle => []
  | move target source _ => target :: source.registers
  | combine _ target source _ => target :: source.registers
  | shift _ target _ => [target]
  | alter _ target => [target]

namespace Effect

/-- What an effect stores into its target: a word, and the shift on its way there. -/
def load (file : RegisterFile) : Effect → Except Fault (Word × Int)
  | idle => .ok (0, 0)
  | move _ source amount => do
    let value ← source.load (min amount 0) file
    return (value, max amount 0)
  | combine how target source amount => do
    let value ← source.load 0 file
    let current ← file.fetch target 0
    let result ← how.load target current (value.shift amount) file
    return (result, 0)
  | shift fill target amount =>
    if fill = .sign ∧ amount < 0 then do
      let current ← file.fetchSigned target
      return (current.shift amount, 0)
    else do
      let current ← file.fetch target 0
      return (current, amount)
  | alter .neg target => do
    let current ← file.fetch target 0
    return (-current, 0)
  | alter .not target => do
    let current ← file.fetch target 0
    return (~~~current, 0)
  | alter .clear _ => .ok (0, 0)

def outcome (effect : Effect) (file : RegisterFile) : Except Fault RegisterFile :=
  match effect.target? with
  | none => .ok file
  | some target => do
    let (value, amount) ← effect.load file
    file.store target value amount

theorem perform_eq_change (effect : Effect) : effect.perform = Action.change effect.outcome := by
  cases effect with
  | idle => rfl
  | move target source amount =>
    simp only [perform, Operand.supply_eq_ask, Action.store, Action.ask_bind_change]
    refine congrArg Action.change (funext fun file => ?_)
    simp only [outcome, target?, load, bind_assoc, pure_bind]
  | combine how target source amount =>
    simp only [perform, Operand.supply_eq_ask, Combination.result_eq_ask, Action.fetch,
      Action.store, Action.ask_bind_change]
    refine congrArg Action.change (funext fun file => ?_)
    simp only [outcome, target?, load, bind_assoc, pure_bind]
  | shift fill target amount =>
    by_cases signed : fill = .sign ∧ amount < 0
    · simp only [perform, if_pos signed, Action.fetchSigned, Action.store, Action.ask_bind_change]
      refine congrArg Action.change (funext fun file => ?_)
      simp only [outcome, target?, load, if_pos signed, bind_assoc, pure_bind]
    · simp only [perform, if_neg signed, Action.fetch, Action.store, Action.ask_bind_change]
      refine congrArg Action.change (funext fun file => ?_)
      simp only [outcome, target?, load, if_neg signed, bind_assoc, pure_bind]
  | alter how target =>
    cases how with
    | clear => rfl
    | neg | not =>
      simp only [perform, Action.fetch, Action.store, Action.ask_bind_change]
      refine congrArg Action.change (funext fun file => ?_)
      simp only [outcome, target?, load, bind_assoc, pure_bind]

variable {effect : Effect} {file next : RegisterFile}

theorem changesOnly_of_outcome (left : effect.outcome file = .ok next) :
    next = file ∨ ∃ target r, effect.target? = some target ∧ file.find? target = some r ∧
      r.access.Allows .write ∧ file.ChangesOnly r next := by
  unfold outcome at left
  cases named : effect.target? with
  | none =>
    simp only [named, Except.ok.injEq] at left
    exact Or.inl left.symm
  | some target =>
    simp only [named] at left
    obtain ⟨⟨value, amount⟩, _, stored⟩ := bind_eq_ok_iff.mp left
    obtain ⟨r, found, allowed, changes⟩ := RegisterFile.changesOnly_of_store stored
    exact Or.inr ⟨target, r, rfl, found, allowed, changes⟩

end Effect

def Primitive.outcome (primitive : Primitive) (operands : List Operand) (file : RegisterFile) :
    Except Fault RegisterFile := do
  let effect ← primitive.effect operands
  effect.outcome file

theorem Primitive.perform_eq_change (primitive : Primitive) (operands : List Operand) :
    primitive.perform operands = Action.change (primitive.outcome operands) := by
  unfold perform
  simp only [Effect.perform_eq_change, Action.ask_bind_change]
  rfl

namespace Instruction

def IsPrimitive (i : Instruction) : Prop :=
  ∃ primitive, i.body = .primitive primitive

def outcome (i : Instruction) (operands : List Operand) : RegisterFile → Except Fault RegisterFile :=
  (i.execute operands).outcome

variable {i : Instruction} {primitive : Primitive}

theorem execute_primitive (body : i.body = .primitive primitive) (operands : List Operand) :
    i.execute operands = Action.change fun file =>
      if primitive.arity.Accepts operands.length then
        (primitive.outcome operands file).mapError (Fault.inInstruction i.mnemonic)
      else .error (.operandCount i.mnemonic primitive.arity operands.length) := by
  have arity : i.arity = primitive.arity := by rw [Instruction.arity, body, Body.arity]
  have perform : i.body.perform = primitive.perform := by rw [body, Body.perform]
  unfold execute
  rw [arity, perform]
  by_cases accepted : primitive.arity.Accepts operands.length
  · simp only [if_pos accepted, Primitive.perform_eq_change, Action.adaptExcept_change]
  · simp only [if_neg accepted]
    rfl

theorem outcome_primitive (body : i.body = .primitive primitive) (operands : List Operand)
    (file : RegisterFile) :
    i.outcome operands file =
      if primitive.arity.Accepts operands.length then
        (primitive.outcome operands file).mapError (Fault.inInstruction i.mnemonic)
      else .error (.operandCount i.mnemonic primitive.arity operands.length) := by
  rw [outcome, execute_primitive body, Action.outcome_change]

theorem effect_of_outcome (body : i.body = .primitive primitive) {operands : List Operand}
    {file next : RegisterFile} (left : i.outcome operands file = .ok next) :
    ∃ effect, primitive.effect operands = .ok effect ∧ effect.outcome file = .ok next := by
  rw [outcome_primitive body] at left
  split at left
  · cases done : primitive.outcome operands file with
    | error fault =>
      rw [done] at left
      cases left
    | ok finished =>
      rw [done] at left
      cases left
      exact bind_eq_ok_iff.mp done
  · cases left

theorem accepts_of_outcome (body : i.body = .primitive primitive) {operands : List Operand}
    {file next : RegisterFile} (left : i.outcome operands file = .ok next) :
    primitive.arity.Accepts operands.length := by
  by_contra refused
  rw [outcome_primitive body, if_neg refused] at left
  cases left

theorem execute_eq_change (builtin : i.IsPrimitive) (operands : List Operand) :
    i.execute operands = Action.change (i.outcome operands) := by
  obtain ⟨primitive, body⟩ := builtin
  rw [outcome, execute_primitive body, Action.outcome_change]

end Instruction

/-! Look-ups. The index finds the one instruction whose mnemonic answers, so a look-up depends on
the list of instructions only. -/

namespace InstructionTable

variable {table other : InstructionTable} {mnemonic : String} {i : Instruction}

theorem lookup?_eq_some_iff :
    table.lookup? mnemonic = some i ↔ i ∈ table.instructions ∧ i.Answers mnemonic := by
  unfold lookup?
  constructor
  · intro found
    obtain ⟨place, indexed, at_place⟩ := Option.bind_eq_some_iff.mp found
    have named := (table.index_eq_some_iff _ _).mp indexed
    rw [at_place, Option.map_some, Option.some.injEq] at named
    exact ⟨List.mem_of_getElem? at_place, named⟩
  · intro ⟨present, answers⟩
    obtain ⟨place, at_place⟩ := List.mem_iff_getElem?.mp present
    have indexed : table.index[Text.fold mnemonic]? = some place := by
      rw [table.index_eq_some_iff, at_place, Option.map_some, answers]
    rw [indexed, Option.bind_some, at_place]

theorem lookup?_congr (same : table.instructions = other.instructions) (mnemonic : String) :
    table.lookup? mnemonic = other.lookup? mnemonic := by
  ext i
  rw [lookup?_eq_some_iff, lookup?_eq_some_iff, same]

theorem lookup?_of_sameName (table : InstructionTable) {mnemonic spelling : String}
    (same : Text.SameName mnemonic spelling) :
    table.lookup? mnemonic = table.lookup? spelling := by
  rw [lookup?, same, lookup?]

theorem instructions_of_add (added : table.add i = .ok other) :
    other.instructions = table.instructions ++ [i] := by
  unfold add at added
  split at added
  · cases added
    rfl
  · cases added

theorem index_eq_none_iff :
    table.index[Text.fold mnemonic]? = none ↔
      ∀ old ∈ table.instructions, ¬ old.Answers mnemonic := by
  constructor
  · intro absent old present answers
    obtain ⟨place, at_place⟩ := List.mem_iff_getElem?.mp present
    have indexed : table.index[Text.fold mnemonic]? = some place := by
      rw [table.index_eq_some_iff, at_place, Option.map_some, answers]
    rw [absent] at indexed
    cases indexed
  · intro silent
    cases found : table.index[Text.fold mnemonic]? with
    | none => rfl
    | some place =>
      have named := (table.index_eq_some_iff _ _).mp found
      obtain ⟨old, at_place, answers⟩ := Option.map_eq_some_iff.mp named
      exact absurd answers (silent old (List.mem_of_getElem? at_place))

theorem exists_add (silent : ∀ old ∈ table.instructions, ¬ old.Answers i.mnemonic) :
    ∃ next, table.add i = .ok next ∧ next.instructions = table.instructions ++ [i] :=
  ⟨_, dif_pos (index_eq_none_iff.mpr silent), rfl⟩

theorem add_of_taken (taken : ¬ ∀ old ∈ table.instructions, ¬ old.Answers i.mnemonic) :
    table.add i = .error (.duplicateMnemonic i.mnemonic) :=
  dif_neg (mt index_eq_none_iff.mp taken)

end InstructionTable

end DspChip
