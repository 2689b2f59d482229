import DspChip.Proofs.Instruction.Destination
import DspChip.Proofs.Instruction.Operands
/-! The faults of an instruction. They come from its operands, from the registers that it reads, and
from the target that it writes, and what they tell of these is so. -/

namespace DspChip

namespace RegisterFile

variable {kind : Fault → Prop} {file : RegisterFile} {ident : String}

theorem get_faults (unknown : file.find? ident = none → kind (.unknownRegister ident)) :
    FaultsIn kind (file.get ident) := by
  unfold get
  split
  · exact FaultsIn.ok _
  · rename_i absent
    exact FaultsIn.error (unknown absent)

theorem claim_faults {right : Right}
    (unknown : file.find? ident = none → kind (.unknownRegister ident))
    (denied : ∀ r, file.find? ident = some r → ¬ r.access.Allows right →
      kind (.accessDenied r.name (.only right))) :
    FaultsIn kind (file.claim right ident) := by
  apply (get_faults unknown).bind
  intro r got
  split
  · exact FaultsIn.ok _
  · rename_i lacks
    exact FaultsIn.error (denied r (get_eq_ok_iff.mp got) lacks)

theorem settle_faults (unknown : file.find? ident = none → kind (.unknownRegister ident))
    (overflow : ∀ r, file.find? ident = some r → r.overflow = .reject → ∀ value,
      kind (.registerOverflow r.name value 0)) (result : Int) :
    FaultsIn kind (file.settle ident result) := by
  apply (get_faults unknown).bind
  intro r got
  unfold Register.settle
  split
  · exact FaultsIn.ok _
  · exact FaultsIn.ok _
  · rename_i rejects
    split
    · exact FaultsIn.ok _
    · exact FaultsIn.error (overflow r (get_eq_ok_iff.mp got) rejects _)

theorem store_faults (unknown : file.find? ident = none → kind (.unknownRegister ident))
    (denied : ∀ r, file.find? ident = some r → ¬ r.access.Allows .write →
      kind (.accessDenied r.name (.only .write))) {value : Word} {amount : Int}
    (overflow : ∀ r, file.find? ident = some r → r.overflow = .reject →
      kind (.registerOverflow r.name value amount)) :
    FaultsIn kind (file.store ident value amount) := by
  apply (claim_faults unknown denied).bind
  intro r claimed
  refine FaultsIn.bind ?_ fun written _ => FaultsIn.ok _
  unfold Register.tryWrite
  split
  · rename_i overflows
    exact FaultsIn.error (overflow r (claim_eq_ok_iff.mp claimed).1 overflows.1)
  · exact FaultsIn.ok _

end RegisterFile

theorem Operand.load_faults {kind : Fault → Prop} {file : RegisterFile} {amount : Int}
    {operand : Operand}
    (fetch : ∀ ident ∈ operand.registers, FaultsIn kind (file.fetch ident amount)) :
    FaultsIn kind (operand.load amount file) := by
  cases operand with
  | register name => exact fetch name List.mem_cons_self
  | immediate value => exact FaultsIn.ok _

namespace Effect

variable {kind : Fault → Prop} {file : RegisterFile} {effect : Effect}

section

variable
  (unknown : ∀ ident ∈ effect.registers, file.find? ident = none → kind (.unknownRegister ident))
  (denied : ∀ ident ∈ effect.registers, ∀ r right, file.find? ident = some r →
    ¬ r.access.Allows right → kind (.accessDenied r.name (.only right)))

include unknown denied

/-- What an effect loads it reads, or it settles a result, which tells no shift. -/
theorem load_faults
    (overflow : ∀ target, effect.target? = some target → ∀ r, file.find? target = some r →
      r.overflow = .reject → ∀ value, kind (.registerOverflow r.name value 0)) :
    FaultsIn kind (effect.load file) := by
  have claim (ident : String) (member : ident ∈ effect.registers) :
      FaultsIn kind (file.claim .read ident) :=
    RegisterFile.claim_faults (unknown ident member) fun r found lacks =>
      denied ident member r .read found lacks
  have fetch (ident : String) (member : ident ∈ effect.registers) (amount : Int) :
      FaultsIn kind (file.fetch ident amount) := (claim ident member).bind fun r _ => FaultsIn.ok _
  cases effect with
  | idle => exact FaultsIn.ok _
  | move target source amount =>
    exact (Operand.load_faults fun ident member =>
      fetch ident (List.mem_cons_of_mem target member) _).bind fun value _ => FaultsIn.ok _
  | combine how target source amount =>
    apply (Operand.load_faults fun ident member =>
      fetch ident (List.mem_cons_of_mem target member) _).bind
    intro value _
    apply (fetch target List.mem_cons_self 0).bind
    intro current _
    refine FaultsIn.bind ?_ fun result _ => FaultsIn.ok _
    have settle := RegisterFile.settle_faults (unknown target List.mem_cons_self) (overflow target rfl)
    cases how with
    | add => exact settle _
    | sub => exact settle _
    | and | or | xor => exact FaultsIn.ok _
  | shift fill target amount =>
    by_cases signed : fill = .sign ∧ amount < 0
    · simp only [load, if_pos signed]
      refine FaultsIn.bind ?_ fun value _ => FaultsIn.ok _
      exact (claim target List.mem_cons_self).bind fun r _ => FaultsIn.ok _
    · simp only [load, if_neg signed]
      exact (fetch target List.mem_cons_self 0).bind fun value _ => FaultsIn.ok _
  | alter how target =>
    cases how with
    | clear => exact FaultsIn.ok _
    | neg | not => exact (fetch target List.mem_cons_self 0).bind fun value _ => FaultsIn.ok _

theorem outcome_faults
    (overflow : ∀ target, effect.target? = some target → ∀ r, file.find? target = some r →
      r.overflow = .reject → ∀ value amount, kind (.registerOverflow r.name value amount)) :
    FaultsIn kind (effect.outcome file) := by
  have loaded := load_faults unknown denied fun target named r found rejects value =>
    overflow target named r found rejects value 0
  unfold outcome
  cases named : effect.target? with
  | none => exact FaultsIn.ok _
  | some target =>
    have member := mem_registers_of_target? named
    apply loaded.bind
    intro ⟨value, amount⟩ _
    exact RegisterFile.store_faults (unknown target member)
      (fun r found lacks => denied target member r .write found lacks)
      fun r found rejects => overflow target named r found rejects value amount

end

end Effect

namespace Operand

theorem asRegister_faults {kind : Fault → Prop} {index : Nat} {operand : Operand}
    (invalid : operand.register? = none → kind (.invalidOperand "" index "register" operand.text)) :
    FaultsIn kind (operand.asRegister index) := by
  cases operand with
  | register name => exact FaultsIn.ok name
  | immediate value => exact FaultsIn.error (invalid rfl)

theorem asAmount_faults {kind : Fault → Prop} {index : Nat} {operand : Operand}
    (invalid : (∀ amount : Int32, operand ≠ .ofAmount amount) →
      kind (.invalidOperand "" index "shift amount" operand.text)) :
    FaultsIn kind (operand.asAmount index) := by
  intro fault failed
  have other (amount : Int32) : operand ≠ .ofAmount amount := by
    rintro rfl
    rw [asAmount_ofAmount] at failed
    cases failed
  unfold asAmount at failed
  split at failed
  · split at failed
    · cases failed
    · cases failed
      exact invalid other
  · cases failed
    exact invalid other

end Operand

def OperandOrder.targetIndex (count : Nat) : OperandOrder → Nat
  | targetFirst => 0
  | sourceFirst => count - 1

def OperandOrder.amountIndex : OperandOrder → Nat
  | targetFirst => 2
  | sourceFirst => 1

namespace Primitive

variable {primitive : Primitive} {operands : List Operand}

def destinationIndex? (primitive : Primitive) (count : Nat) : Option Nat :=
  match primitive.operation with
  | .nop => none
  | .move | .combine _ => some (primitive.order.targetIndex count)
  | .shift _ | .alter _ => some 0

def amountIndex? (primitive : Primitive) (count : Nat) : Option Nat :=
  match primitive.operation with
  | .nop | .alter _ => none
  | .move | .combine _ => if count = 3 then some primitive.order.amountIndex else none
  | .shift _ => some 1

theorem destination?_eq_getElem? (primitive : Primitive) (operands : List Operand) :
    primitive.destination? operands =
      (primitive.destinationIndex? operands.length).bind (operands[·]?) := by
  obtain ⟨operation, order, fixed⟩ := primitive
  cases operation with
  | nop => rfl
  | move | combine how =>
    cases order with
    | targetFirst => exact List.head?_eq_getElem?
    | sourceFirst => exact List.getLast?_eq_getElem?
  | shift fill | alter how => exact List.head?_eq_getElem?

section Transfer

variable {make : String → Operand → Int → Effect}

theorem not_accepts_of_ofOperands? (transfers : primitive.operation.transfer? = some make)
    (mismatch : Transfer.ofOperands? primitive.order operands = none) :
    ¬ primitive.arity.Accepts operands.length := by
  have arity : primitive.arity = ⟨2, 3⟩ := Operation.arity_of_transfer? transfers
  rw [arity]
  intro accepted
  have least : 2 ≤ operands.length := accepted.1
  have most : operands.length ≤ 3 := accepted.2
  rcases operands with _ | ⟨first, _ | ⟨second, _ | ⟨third, _ | ⟨fourth, rest⟩⟩⟩⟩
  · exact absurd least (by decide)
  · exact absurd least (Nat.not_succ_le_self 1)
  · cases order : primitive.order <;> simp [order, Transfer.ofOperands?] at mismatch
  · cases order : primitive.order <;> simp [order, Transfer.ofOperands?] at mismatch
  · simp only [List.length_cons] at most
    omega

theorem stands_of_ofOperands? {order : OperandOrder} {found : Transfer}
    (parts : Transfer.ofOperands? order operands = some found) :
    found.targetIndex = order.targetIndex operands.length ∧
      operands[found.targetIndex]? = some found.target ∧
      ∀ operand index, found.amount = some (operand, index) →
        operands.length = 3 ∧ index = order.amountIndex ∧ operands[index]? = some operand := by
  have absent {p : Operand → Nat → Prop} (operand : Operand) (index : Nat)
      (told : none = some (operand, index)) : p operand index := nomatch told
  unfold Transfer.ofOperands? at parts
  split at parts
  · cases parts
    exact ⟨rfl, rfl, absent⟩
  · cases parts
    refine ⟨rfl, rfl, fun operand index told => ?_⟩
    cases told
    exact ⟨rfl, rfl, rfl⟩
  · cases parts
    exact ⟨rfl, rfl, absent⟩
  · cases parts
    refine ⟨rfl, rfl, fun operand index told => ?_⟩
    cases told
    exact ⟨rfl, rfl, rfl⟩
  · cases parts

theorem places_of_ofOperands? (transfers : primitive.operation.transfer? = some make) {found : Transfer}
    (parts : Transfer.ofOperands? primitive.order operands = some found) :
    (primitive.destinationIndex? operands.length = some found.targetIndex ∧
      operands[found.targetIndex]? = some found.target) ∧
    ∀ operand index, found.amount = some (operand, index) →
      primitive.amountIndex? operands.length = some index ∧ operands[index]? = some operand := by
  obtain ⟨place, stands, counted⟩ := stands_of_ofOperands? parts
  obtain ⟨operation, order, fixed⟩ := primitive
  cases operation with
  | move | combine how =>
    refine ⟨⟨congrArg some place.symm, stands⟩, fun operand index told => ?_⟩
    obtain ⟨three, rfl, present⟩ := counted operand index told
    exact ⟨if_pos three, present⟩
  | nop | shift fill | alter how => cases transfers

end Transfer

theorem effect_faults {kind : Fault → Prop}
    (count : ¬ primitive.arity.Accepts operands.length → kind (primitive.countFault operands))
    (destination : ∀ index operand, primitive.destinationIndex? operands.length = some index →
      operands[index]? = some operand → operand.register? = none →
      kind (.invalidOperand "" index "register" operand.text))
    (amount : ∀ index operand, primitive.amountIndex? operands.length = some index →
      operands[index]? = some operand → (∀ amount : Int32, operand ≠ .ofAmount amount) →
      kind (.invalidOperand "" index "shift amount" operand.text)) :
    FaultsIn kind (primitive.effect operands) := by
  have transfer {make : String → Operand → Int → Effect}
      (transfers : primitive.operation.transfer? = some make) :
      FaultsIn kind (primitive.effect operands) := by
    rw [effect_of_transfer? transfers]
    refine FaultsIn.bind ?_ fun parts _ => FaultsIn.ok _
    unfold Primitive.transfer
    cases parts : Transfer.ofOperands? primitive.order operands with
    | none => exact FaultsIn.error (count (not_accepts_of_ofOperands? transfers parts))
    | some found =>
      obtain ⟨⟨place, stands⟩, counted⟩ := places_of_ofOperands? transfers parts
      have target := Operand.asRegister_faults (destination _ _ place stands)
      dsimp only
      split
      · rename_i operand index told
        obtain ⟨follows, present⟩ := counted operand index told
        exact (Operand.asAmount_faults (amount _ _ follows present)).bind fun _ _ =>
          target.bind fun _ _ => FaultsIn.ok _
      · exact (FaultsIn.ok _).bind fun _ _ => target.bind fun _ _ => FaultsIn.ok _
  obtain ⟨operation, order, fixed⟩ := primitive
  cases operation with
  | nop => exact FaultsIn.ok _
  | move | combine how => exact transfer rfl
  | shift fill =>
    simp only [effect]
    split
    · exact (Operand.asRegister_faults (destination 0 _ rfl rfl)).bind fun _ _ =>
        (Operand.asAmount_faults (amount 1 _ rfl rfl)).bind fun _ _ => FaultsIn.ok _
    · rename_i mismatch
      refine FaultsIn.error (count fun accepted => ?_)
      obtain ⟨first, second, same⟩ :=
        List.length_eq_two.mp (Nat.le_antisymm accepted.2 accepted.1)
      exact mismatch first second same
  | alter how =>
    simp only [effect]
    split
    · exact (Operand.asRegister_faults (destination 0 _ rfl rfl)).bind fun _ _ => FaultsIn.ok _
    · rename_i mismatch
      refine FaultsIn.error (count fun accepted => ?_)
      obtain ⟨first, same⟩ := List.length_eq_one_iff.mp (Nat.le_antisymm accepted.2 accepted.1)
      exact mismatch first same

end Primitive

end DspChip
