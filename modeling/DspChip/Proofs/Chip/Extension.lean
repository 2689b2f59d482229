import DspChip.Proofs.Chip.Agreement
import DspChip.Proofs.Descriptor.Build
/-! Extending a chip. What a chip takes up stands behind what it has and shares no name with it, so
a name that stood for a register or an instruction still stands for the same one. -/

namespace DspChip

def Fault.IsUnknown : Fault → Prop
  | unknownMnemonic _ => True
  | unknownRegister _ => True
  | _ => False

theorem Fault.isUnknown_inInstruction (mnemonic : String) (fault : Fault)
    (unknown : fault.IsUnknown) : (fault.inInstruction mnemonic).IsUnknown := by
  cases fault with
  | unknownMnemonic _ => trivial
  | unknownRegister _ => trivial
  | _ => exact unknown.elim

namespace RegisterFile

def Extends (more : List Register) (file grown : RegisterFile) : Prop :=
  grown.registers = file.registers ++ more

variable {more : List Register} {file grown : RegisterFile} {ident : String} {r : Register}

namespace Extends

theorem find? (extended : Extends more file grown) (found : file.find? ident = some r) :
    grown.find? ident = some r := by
  have first : (file.registers.find? fun r => decide (r.Answers ident)) = some r := found
  rw [RegisterFile.find?, extended, List.find?_append, first, Option.some_or]

theorem get (extended : Extends more file grown) (ident : String) :
    Agrees Fault.IsUnknown (fun r s => s = r ∧ file.find? ident = some r) (file.get ident)
      (grown.get ident) := by
  unfold RegisterFile.get
  cases found : file.find? ident with
  | none => exact Or.inl trivial
  | some r =>
    rw [extended.find? found]
    exact ⟨rfl, rfl⟩

theorem claim (extended : Extends more file grown) (right : Right) (ident : String) :
    Agrees Fault.IsUnknown (fun r s => s = r ∧ file.find? ident = some r) (file.claim right ident)
      (grown.claim right ident) := by
  apply (extended.get ident).bind
  rintro _ r ⟨rfl, found⟩
  split
  · exact ⟨rfl, found⟩
  · exact Or.inr rfl

theorem answersAlike (extended : Extends more file grown) :
    file.AnswersAlike Fault.IsUnknown grown where
  fetch ident amount := by
    apply (extended.claim .read ident).bind
    rintro _ r ⟨rfl, _⟩
    exact Agrees.of_eq rfl
  fetchSigned ident := by
    apply (extended.claim .read ident).bind
    rintro _ r ⟨rfl, _⟩
    exact Agrees.of_eq rfl
  settle ident result := by
    apply (extended.get ident).bind
    rintro _ r ⟨rfl, _⟩
    exact Agrees.of_eq rfl

/-- A register of the smaller file is the only one of the larger file that takes the contents. -/
theorem put (extended : Extends more file grown) (found : file.find? ident = some r)
    (contents : Word) : Extends more (file.put ident contents) (grown.put ident contents) := by
  have answers := answers_of_find?_eq_some found
  obtain ⟨front, back, split, others⟩ := exists_split_of_find? found
  have larger : grown.registers = front ++ r :: (back ++ more) := by
    rw [extended, split, List.append_assoc, List.cons_append]
  unfold Extends
  rw [registers_put_of_split contents split answers others,
    registers_put_of_split contents larger answers (not_answers_of_split larger answers),
    List.append_assoc, List.cons_append]

theorem store (extended : Extends more file grown) (ident : String) (value : Word) (amount : Int) :
    Agrees Fault.IsUnknown (Extends more) (file.store ident value amount)
      (grown.store ident value amount) := by
  apply (extended.claim .write ident).bind
  rintro _ r ⟨rfl, found⟩
  cases r.tryWrite value amount with
  | error fault => exact Or.inr rfl
  | ok written => exact extended.put found written.value

theorem outcome (extended : Extends more file grown) (effect : Effect) :
    Agrees Fault.IsUnknown (Extends more) (effect.outcome file) (effect.outcome grown) :=
  effect.outcome_agrees extended.answersAlike extended extended.store

end Extends

theorem extends_of_add {next : RegisterFile} (added : file.add r = .ok next) :
    Extends [r] file next :=
  registers_of_add added

end RegisterFile

theorem InstructionTable.lookup?_of_append {table grown : InstructionTable} {i : Instruction}
    {more : List Instruction} {mnemonic : String}
    (extended : grown.instructions = table.instructions ++ more)
    (found : table.lookup? mnemonic = some i) : grown.lookup? mnemonic = some i := by
  obtain ⟨present, answers⟩ := lookup?_eq_some_iff.mp found
  rw [lookup?_eq_some_iff, extended]
  exact ⟨List.mem_append_left more present, answers⟩

namespace Chip

inductive Addition where
  | register (r : Register)
  | instruction (i : Instruction)

def extend (chip : Chip) : Addition → Except Fault Chip
  | .register r => chip.addRegister r
  | .instruction i => chip.addInstruction i

/-- What an addition works on: two lists, and the index of the second. -/
structure Stock where
  registers : List Register
  instructions : List Instruction
  index : Std.HashMap String Nat

def stock (chip : Chip) : Stock where
  registers := chip.registers.registers
  instructions := chip.instructions.instructions
  index := chip.instructions.index

namespace Stock

def refuseIf (taken : Stock → Prop) [DecidablePred taken] (fault : Fault) :
    EStateM Fault Stock Unit := fun stock =>
  if taken stock then .error fault stock else .ok () stock

def update (change : Stock → Stock) : EStateM Fault Stock Unit := fun stock =>
  .ok () (change stock)

variable {taken : Stock → Prop} [DecidablePred taken] {fault : Fault} {stock : Stock}

theorem refuseIf_bind_of_free (free : ¬ taken stock) (next : Unit → EStateM Fault Stock Unit) :
    (refuseIf taken fault >>= next) stock = next () stock := by
  simp only [bind, EStateM.bind, refuseIf, if_neg free]

theorem refuseIf_bind_of_taken (clash : taken stock) (next : Unit → EStateM Fault Stock Unit) :
    (refuseIf taken fault >>= next) stock = .error fault stock := by
  simp only [bind, EStateM.bind, refuseIf, if_pos clash]

end Stock

namespace Addition

open Stock (refuseIf update refuseIf_bind_of_free refuseIf_bind_of_taken)

def registers : Addition → List Register
  | register r => [r]
  | instruction _ => []

def instructions : Addition → List Instruction
  | register _ => []
  | instruction i => [i]

/-- Takes up the addition in place. What was changed before a step fails stays. -/
def place : Addition → EStateM Fault Stock Unit
  | register r => do
    refuseIf (fun stock => ∃ old ∈ stock.registers, old.Answers r.name)
      (.duplicateRegister r.name)
    refuseIf (fun stock => ∃ old ∈ stock.registers, old.Answers r.shortName)
      (.duplicateRegister r.shortName)
    update fun stock => { stock with registers := stock.registers ++ [r] }
  | instruction i => do
    let key := Text.fold i.mnemonic
    refuseIf (fun stock => key ∈ stock.index) (.duplicateMnemonic i.mnemonic)
    update fun stock => { stock with index := stock.index.insert key stock.instructions.length }
    update fun stock => { stock with instructions := stock.instructions ++ [i] }

/-- In place, an addition comes to what it makes of the chip as a whole; where it is refused,
nothing has changed. -/
theorem place_eq (addition : Addition) (chip : Chip) :
    addition.place chip.stock =
      match chip.extend addition with
      | .ok next => .ok () next.stock
      | .error fault => .error fault chip.stock := by
  cases addition with
  | register r =>
    have taken : ∀ ident, (∃ old ∈ chip.stock.registers, old.Answers ident) ↔
        ¬ chip.registers.find? ident = none := by
      intro ident
      simp [RegisterFile.find?, stock]
    simp only [extend, addRegister, RegisterFile.add, place]
    by_cases name : chip.registers.find? r.name = none
    · rw [refuseIf_bind_of_free (by simpa only [taken, not_not] using name), dif_pos name]
      by_cases shortName : chip.registers.find? r.shortName = none
      · rw [refuseIf_bind_of_free (by simpa only [taken, not_not] using shortName),
          dif_pos shortName]
        rfl
      · rw [refuseIf_bind_of_taken ((taken _).mpr shortName), dif_neg shortName]
        rfl
    · rw [refuseIf_bind_of_taken ((taken _).mpr name), dif_neg name]
      rfl
  | instruction i =>
    have taken : Text.fold i.mnemonic ∈ chip.stock.index ↔
        ¬ chip.instructions.index[Text.fold i.mnemonic]? = none := by
      simp [stock]
    simp only [extend, addInstruction, InstructionTable.add, place]
    by_cases absent : chip.instructions.index[Text.fold i.mnemonic]? = none
    · rw [refuseIf_bind_of_free (by rwa [taken, not_not]), dif_pos absent]
      rfl
    · rw [refuseIf_bind_of_taken (taken.mpr absent), dif_neg absent]
      rfl

structure Extends (addition : Addition) (chip grown : Chip) : Prop where
  name : grown.name = chip.name
  shortName : grown.shortName = chip.shortName
  config : grown.config = chip.config
  grammar : grown.grammar = chip.grammar
  registers : RegisterFile.Extends addition.registers chip.registers grown.registers
  instructions :
    grown.instructions.instructions = chip.instructions.instructions ++ addition.instructions

variable {addition : Addition} {chip grown : Chip}

theorem extends_of_extend (extended : chip.extend addition = .ok grown) :
    addition.Extends chip grown := by
  cases addition with
  | register r =>
    obtain ⟨registers, added, same⟩ := bind_eq_ok_iff.mp extended
    cases same
    exact ⟨rfl, rfl, rfl, rfl, RegisterFile.extends_of_add added, (List.append_nil _).symm⟩
  | instruction i =>
    obtain ⟨instructions, added, same⟩ := bind_eq_ok_iff.mp extended
    cases same
    exact ⟨rfl, rfl, rfl, rfl, (List.append_nil _).symm, InstructionTable.instructions_of_add added⟩

namespace Extends

theorem perform_agrees (extended : addition.Extends chip grown) (builtin : chip.IsPrimitive)
    (statement : Statement) :
    ResultAgrees Fault.IsUnknown addition.Extends (chip.perform statement)
      (grown.perform statement) := by
  cases found : chip.instructions.lookup? statement.mnemonic with
  | none =>
    -- the larger chip may know the mnemonic
    simp only [perform, found]
    exact Or.inl trivial
  | some i =>
    have primitive := builtin i (InstructionTable.lookup?_eq_some_iff.mp found).1
    have also := InstructionTable.lookup?_of_append extended.instructions found
    have agrees := Instruction.outcome_agrees primitive Fault.isUnknown_inInstruction
      extended.registers.outcome statement.operands
    rw [perform_of_lookup? found primitive, perform_of_lookup? also primitive]
    cases left : i.outcome statement.operands chip.registers with
    | error fault =>
      rw [left] at agrees
      rcases agrees with unknown | same
      · exact Or.inl unknown
      · rw [same]
        exact Or.inr ⟨grown, rfl, extended⟩
    | ok registers =>
      rw [left] at agrees
      cases right : i.outcome statement.operands grown.registers with
      | error fault =>
        rw [right] at agrees
        exact agrees.elim
      | ok larger =>
        rw [right] at agrees
        exact ⟨_, rfl, { extended with registers := agrees }⟩

theorem execute_agrees (extended : addition.Extends chip grown) (builtin : chip.IsPrimitive)
    (line : List Char) :
    ResultAgrees Fault.IsUnknown addition.Extends (chip.execute line) (grown.execute line) := by
  unfold execute
  rw [extended.grammar]
  cases chip.grammar.decode line with
  | error fault => exact Or.inr ⟨grown, rfl, extended⟩
  | ok decoded =>
    cases decoded with
    | none => exact ⟨grown, rfl, extended⟩
    | some statement =>
      have agrees := extended.perform_agrees builtin statement
      dsimp only
      cases left : chip.perform statement with
      | error fault after =>
        rw [left] at agrees
        rcases agrees with unknown | ⟨later, right, ended⟩
        · exact Or.inl unknown
        · rw [right]
          exact Or.inr ⟨later, rfl, ended⟩
      | ok _ after =>
        rw [left] at agrees
        obtain ⟨later, right, ended⟩ := agrees
        rw [right]
        exact ⟨later, rfl, ended⟩

end Extends

end Addition

/-- Extending a chip is conservative. Once a register or an instruction is taken up, a line does on
the larger chip what it does without it, unless it failed for a name that stood for nothing: it
gives the same result, and leaves what it leaves of the smaller chip with the addition behind it. An
addition that is refused changes nothing. -/
theorem extend_conservative (chip : Chip) (builtin : chip.IsPrimitive) (addition : Addition) :
    (∀ stock, addition.place chip.stock = .ok () stock →
      ∃ next, chip.extend addition = .ok next ∧ next.stock = stock ∧ addition.Extends chip next ∧
        ∀ line, ResultAgrees Fault.IsUnknown addition.Extends (chip.execute line)
          (next.execute line)) ∧
    ∀ fault stock, addition.place chip.stock = .error fault stock →
      chip.extend addition = .error fault ∧ stock = chip.stock := by
  rw [addition.place_eq]
  cases extended : chip.extend addition with
  | error fault =>
    constructor
    · intro stock placed
      cases placed
    · intro other stock refused
      cases refused
      exact ⟨rfl, rfl⟩
  | ok next =>
    constructor
    · intro stock placed
      cases placed
      have larger := Addition.extends_of_extend extended
      exact ⟨next, rfl, rfl, larger, larger.execute_agrees builtin⟩
    · intro fault stock refused
      cases refused

def spare (shortName : String) : Register where
  name := "Spare"
  shortName
  bits := 16
  busWidth := 16
  one_le_busWidth := by decide
  busWidth_le_bits := by decide
  bits_le := by decide
  value := 9
  within := by decide

theorem extend_conservative_toy :
    let line := "LDA #7, ACC".toList
    ∃ chip next, (Descriptor.toy .wrap).build = .ok chip ∧ chip.IsPrimitive ∧
      chip.extend (.register (spare "S")) = .ok next ∧
      ResultAgrees Fault.IsUnknown (Addition.register (spare "S")).Extends (chip.execute line)
        (next.execute line) ∧
      ∃ fault stock, (Addition.register (spare "acc")).place chip.stock = .error fault stock ∧
        chip.extend (.register (spare "acc")) = .error fault ∧ stock = chip.stock := by
  intro line
  obtain ⟨chip, built, _, registers, _⟩ := Descriptor.exists_build_toy .wrap
  have builtin := Descriptor.isPrimitive_of_build built
  have stocked : chip.stock.registers = (Descriptor.toyRegisters .wrap).registers :=
    congrArg RegisterFile.registers registers
  have free : ∀ ident ∈ ["Spare", "S"],
      ¬ ∃ old ∈ chip.stock.registers, old.Answers ident := by
    rw [stocked]
    decide
  have taken : ∃ old ∈ chip.stock.registers, old.Answers "acc" := by
    rw [stocked]
    decide
  obtain ⟨next, extended, _, _, agrees⟩ :=
    (extend_conservative chip builtin (.register (spare "S"))).1 _ <| by
      rw [Addition.place, Stock.refuseIf_bind_of_free (free _ (by decide)),
        Stock.refuseIf_bind_of_free (free _ (by decide))]
      rfl
  have refused : (Addition.register (spare "acc")).place chip.stock =
      .error (.duplicateRegister "acc") chip.stock := by
    rw [Addition.place, Stock.refuseIf_bind_of_free (free _ (by decide)),
      Stock.refuseIf_bind_of_taken taken]
    rfl
  exact ⟨chip, next, built, builtin, extended, agrees line, _, _, refused,
    (extend_conservative chip builtin _).2 _ _ refused⟩

end Chip

end DspChip
