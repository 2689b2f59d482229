import DspChip.Proofs.Instruction.Outcome
/-! The destination of an instruction: the operand that names the register to be written. -/

namespace DspChip

def OperandOrder.target? (operands : List Operand) : OperandOrder → Option Operand
  | targetFirst => operands.head?
  | sourceFirst => operands.getLast?

def Effect.source? : Effect → Option Operand
  | move _ source _ => some source
  | combine _ _ source _ => some source
  | idle | shift _ _ _ | alter _ _ => none

theorem Effect.mem_registers_of_target? {effect : Effect} {target : String}
    (named : effect.target? = some target) : target ∈ effect.registers := by
  cases effect with
  | idle => cases named
  | move _ _ _ | combine _ _ _ _ | shift _ _ _ | alter _ _ =>
    cases named
    exact List.mem_cons_self

theorem Effect.target?_or_source? {effect : Effect} {name : String}
    (member : name ∈ effect.registers) : effect.target? = some name ∨
      ∃ source, effect.source? = some source ∧ source.register? = some name := by
  cases effect with
  | idle => cases member
  | shift fill target amount => exact Or.inl (congrArg some (List.mem_singleton.mp member).symm)
  | alter how target => exact Or.inl (congrArg some (List.mem_singleton.mp member).symm)
  | move target source amount | combine how target source amount =>
    rcases List.mem_cons.mp member with rfl | supplied
    · exact Or.inl rfl
    · exact Or.inr ⟨source, rfl, Option.mem_toList.mp supplied⟩

theorem Operand.find?_of_load {file : RegisterFile} {operand : Operand} {name : String}
    {amount : Int} {value : Word} (supplied : operand.load amount file = .ok value)
    (named : operand.register? = some name) : ∃ r, file.find? name = some r := by
  cases operand with
  | immediate other => cases named
  | register other =>
    cases named
    obtain ⟨r, claimed, _⟩ := bind_eq_ok_iff.mp supplied
    exact ⟨r, (RegisterFile.claim_eq_ok_iff.mp claimed).1⟩

theorem Effect.find?_of_outcome {effect : Effect} {file next : RegisterFile}
    (left : effect.outcome file = .ok next) {name : String} (member : name ∈ effect.registers) :
    ∃ r, file.find? name = some r := by
  unfold outcome at left
  cases target : effect.target? with
  | none =>
    cases effect with
    | idle => cases member
    | _ => cases target
  | some goal =>
    simp only [target] at left
    obtain ⟨⟨value, amount⟩, loaded, stored⟩ := bind_eq_ok_iff.mp left
    rcases target?_or_source? member with same | ⟨source, supplies, named⟩
    · cases target.symm.trans same
      obtain ⟨r, _, found, _⟩ := RegisterFile.store_eq_ok_iff.mp stored
      exact ⟨r, found⟩
    · cases effect with
      | move goal operand shift =>
        cases supplies
        obtain ⟨word, supplied, _⟩ := bind_eq_ok_iff.mp loaded
        exact Operand.find?_of_load supplied named
      | combine how goal operand shift =>
        cases supplies
        obtain ⟨word, supplied, _⟩ := bind_eq_ok_iff.mp loaded
        exact Operand.find?_of_load supplied named
      | idle | shift fill goal count | alter how goal => cases supplies

namespace Primitive

/-- The destination stands first among the operands, but behind the source of a move or a
combination whose source stands first. -/
def destination? (primitive : Primitive) (operands : List Operand) : Option Operand :=
  match primitive.operation with
  | .nop => none
  | .move => primitive.order.target? operands
  | .combine _ => primitive.order.target? operands
  | .shift _ => operands.head?
  | .alter _ => operands.head?

variable {primitive : Primitive} {operands : List Operand}

theorem register?_eq_some_of_asRegister {index : Nat} {operand : Operand} {name : String}
    (named : operand.asRegister index = .ok name) : operand.register? = some name := by
  cases operand with
  | register other => rw [Operand.register?, Except.ok.inj named]
  | immediate value => cases named

theorem target_of_ofOperands? {order : OperandOrder} {found : Transfer}
    (parts : Transfer.ofOperands? order operands = some found) :
    order.target? operands = some found.target := by
  unfold Transfer.ofOperands? at parts
  split at parts
  all_goals
    cases parts
    try rfl

theorem register?_eq_none_of_asAmount {index : Nat} {operand : Operand} {amount : Int}
    (told : operand.asAmount index = .ok amount) : operand.register? = none := by
  cases operand with
  | register name => cases told
  | immediate value => rfl

/-- What is told of a transfer stands among its operands; a shift amount names no register. -/
theorem parts_of_transfer {target : String} {source : Operand} {amount : Int}
    (parts : primitive.transfer operands = .ok (target, source, amount)) :
    ∃ found, Transfer.ofOperands? primitive.order operands = some found ∧
      found.target.register? = some target ∧ found.source = source ∧
      ∀ operand index, found.amount = some (operand, index) → operand.register? = none := by
  unfold transfer at parts
  cases found : Transfer.ofOperands? primitive.order operands with
  | none => simp [found] at parts
  | some transfer =>
    simp only [found] at parts
    refine ⟨transfer, rfl, ?_⟩
    split at parts
    · rename_i operand index last
      obtain ⟨total, counted, continued⟩ := bind_eq_ok_iff.mp parts
      obtain ⟨name, named, finished⟩ := bind_eq_ok_iff.mp continued
      cases finished
      refine ⟨register?_eq_some_of_asRegister named, rfl, ?_⟩
      intro other place same
      cases last.symm.trans same
      exact register?_eq_none_of_asAmount counted
    · rename_i missing
      obtain ⟨total, _, continued⟩ := bind_eq_ok_iff.mp parts
      obtain ⟨name, named, finished⟩ := bind_eq_ok_iff.mp continued
      cases finished
      refine ⟨register?_eq_some_of_asRegister named, rfl, ?_⟩
      intro other place same
      cases missing.symm.trans same

theorem target_of_transfer {target : String} {source : Operand} {amount : Int}
    (parts : primitive.transfer operands = .ok (target, source, amount)) :
    (primitive.order.target? operands).bind Operand.register? = some target := by
  obtain ⟨found, split, named, _⟩ := parts_of_transfer parts
  rw [target_of_ofOperands? split, Option.bind_some, named]

theorem target?_of_effect {effect : Effect} (told : primitive.effect operands = .ok effect) :
    effect.target? = (primitive.destination? operands).bind Operand.register? := by
  obtain ⟨operation, order, amount⟩ := primitive
  cases operation with
  | nop =>
    cases told
    rfl
  | move =>
    obtain ⟨⟨target, source, total⟩, parts, finished⟩ := bind_eq_ok_iff.mp told
    rw [← Except.ok.inj finished]
    exact (target_of_transfer parts).symm
  | combine how =>
    obtain ⟨⟨target, source, total⟩, parts, finished⟩ := bind_eq_ok_iff.mp told
    rw [← Except.ok.inj finished]
    exact (target_of_transfer parts).symm
  | shift fill =>
    simp only [Primitive.effect] at told
    split at told
    · obtain ⟨target, named, rest⟩ := bind_eq_ok_iff.mp told
      obtain ⟨total, _, finished⟩ := bind_eq_ok_iff.mp rest
      rw [← Except.ok.inj finished]
      exact (register?_eq_some_of_asRegister named).symm
    · cases told
  | alter how =>
    simp only [Primitive.effect] at told
    split at told
    · obtain ⟨target, named, finished⟩ := bind_eq_ok_iff.mp told
      rw [← Except.ok.inj finished]
      exact (register?_eq_some_of_asRegister named).symm
    · cases told

theorem mem_of_target? {order : OperandOrder} {operand : Operand}
    (stands : order.target? operands = some operand) : operand ∈ operands := by
  cases order with
  | targetFirst => exact List.mem_of_head? stands
  | sourceFirst => exact List.mem_of_getLast? stands

theorem mem_of_destination? {operand : Operand}
    (stands : primitive.destination? operands = some operand) : operand ∈ operands := by
  unfold destination? at stands
  split at stands
  · cases stands
  · exact mem_of_target? stands
  · exact mem_of_target? stands
  · exact List.mem_of_head? stands
  · exact List.mem_of_head? stands

theorem source_mem_of_ofOperands? {order : OperandOrder} {found : Transfer}
    (parts : Transfer.ofOperands? order operands = some found) : found.source ∈ operands := by
  unfold Transfer.ofOperands? at parts
  split at parts
  all_goals
    cases parts
    try simp

theorem source_mem_of_transfer {target : String} {source : Operand} {amount : Int}
    (parts : primitive.transfer operands = .ok (target, source, amount)) : source ∈ operands := by
  obtain ⟨found, split, _, rfl, _⟩ := parts_of_transfer parts
  exact source_mem_of_ofOperands? split

theorem source_mem_of_effect {effect : Effect} (told : primitive.effect operands = .ok effect)
    {source : Operand} (supplied : effect.source? = some source) : source ∈ operands := by
  obtain ⟨operation, order, amount⟩ := primitive
  cases operation with
  | nop =>
    cases told
    cases supplied
  | move =>
    obtain ⟨⟨target, found, total⟩, parts, finished⟩ := bind_eq_ok_iff.mp told
    cases finished
    cases supplied
    exact source_mem_of_transfer parts
  | combine how =>
    obtain ⟨⟨target, found, total⟩, parts, finished⟩ := bind_eq_ok_iff.mp told
    cases finished
    cases supplied
    exact source_mem_of_transfer parts
  | shift fill =>
    simp only [Primitive.effect] at told
    split at told
    · obtain ⟨target, _, rest⟩ := bind_eq_ok_iff.mp told
      obtain ⟨total, _, finished⟩ := bind_eq_ok_iff.mp rest
      cases finished
      cases supplied
    · cases told
  | alter how =>
    simp only [Primitive.effect] at told
    split at told
    · obtain ⟨target, _, finished⟩ := bind_eq_ok_iff.mp told
      cases finished
      cases supplied
    · cases told

theorem registers_of_effect {effect : Effect} (told : primitive.effect operands = .ok effect)
    {name : String} (member : name ∈ effect.registers) :
    name ∈ operands.filterMap Operand.register? := by
  rw [List.mem_filterMap]
  rcases Effect.target?_or_source? member with named | ⟨source, supplied, named⟩
  · rw [target?_of_effect told] at named
    obtain ⟨operand, stands, register⟩ := Option.bind_eq_some_iff.mp named
    exact ⟨operand, mem_of_destination? stands, register⟩
  · exact ⟨source, source_mem_of_effect told supplied, named⟩

theorem mem_of_ofOperands? {order : OperandOrder} {found : Transfer} {operand : Operand}
    (parts : Transfer.ofOperands? order operands = some found) (member : operand ∈ operands) :
    operand = found.target ∨ operand = found.source ∨
      ∃ index, found.amount = some (operand, index) := by
  unfold Transfer.ofOperands? at parts
  split at parts
  all_goals
    cases parts
    try simpa [eq_comm, or_comm, or_left_comm] using member

theorem name_of_transfer {target name : String} {source operand : Operand} {amount : Int}
    (parts : primitive.transfer operands = .ok (target, source, amount))
    (member : operand ∈ operands) (named : operand.register? = some name) :
    name = target ∨ source.register? = some name := by
  obtain ⟨found, split, called, rfl, silent⟩ := parts_of_transfer parts
  rcases mem_of_ofOperands? split member with rfl | rfl | ⟨index, last⟩
  · exact Or.inl (Option.some.inj (named.symm.trans called))
  · exact Or.inr named
  · cases (silent operand index last).symm.trans named

theorem mem_registers_of_effect {effect : Effect}
    (accepted : primitive.arity.Accepts operands.length)
    (told : primitive.effect operands = .ok effect) {name : String}
    (member : name ∈ operands.filterMap Operand.register?) : name ∈ effect.registers := by
  obtain ⟨operand, present, named⟩ := List.mem_filterMap.mp member
  obtain ⟨operation, order, amount⟩ := primitive
  cases operation with
  | nop =>
    have none : operands = [] := List.length_eq_zero_iff.mp (Nat.le_zero.mp accepted.2)
    subst none
    cases present
  | move | combine how =>
    obtain ⟨⟨target, source, total⟩, parts, finished⟩ := bind_eq_ok_iff.mp told
    cases finished
    rcases name_of_transfer parts present named with rfl | supplied
    · exact List.mem_cons_self
    · exact List.mem_cons_of_mem _ (Option.mem_toList.mpr supplied)
  | shift fill =>
    simp only [Primitive.effect] at told
    split at told
    · obtain ⟨target, called, rest⟩ := bind_eq_ok_iff.mp told
      obtain ⟨total, counted, finished⟩ := bind_eq_ok_iff.mp rest
      cases finished
      rcases List.mem_cons.mp present with rfl | last
      · rw [register?_eq_some_of_asRegister called] at named
        exact List.mem_singleton.mpr (Option.some.inj named).symm
      · obtain rfl := List.mem_singleton.mp last
        rw [register?_eq_none_of_asAmount counted] at named
        cases named
    · cases told
  | alter how =>
    simp only [Primitive.effect] at told
    split at told
    · obtain ⟨target, called, finished⟩ := bind_eq_ok_iff.mp told
      cases finished
      obtain rfl := List.mem_singleton.mp present
      rw [register?_eq_some_of_asRegister called] at named
      exact List.mem_singleton.mpr (Option.some.inj named).symm
    · cases told

end Primitive

end DspChip
