import DspChip.Proofs.Chip.Agreement
import DspChip.Proofs.Chip.Rejection
import DspChip.Proofs.Register.Aligned
/-! Overflow policies. Chips that differ in the policies of their registers only run alike until one
that rejects overflow meets one, and only a register that rejects it is ever named for it. -/

namespace DspChip

namespace Register

def SameButPolicy (r s : Register) : Prop :=
  ∃ policy, s = r.withOverflow policy

def Rejecting (r s : Register) : Prop :=
  r.overflow = .reject ∧ r.SameButPolicy s

theorem keepsNames_rejecting : KeepsNames Rejecting where
  name := by
    intro r _ ⟨_, policy, same⟩
    subst same
    rfl
  shortName := by
    intro r _ ⟨_, policy, same⟩
    subst same
    rfl
  access := by
    intro r _ ⟨_, policy, same⟩
    subst same
    rfl

variable {r s : Register}

/-- A result that fits is settled to itself under every policy. -/
theorem settle_agrees (twins : Rejecting r s) (result : Int) :
    Agrees Fault.IsOverflow Eq (r.settle result) (s.settle result) := by
  obtain ⟨rejects, policy, rfl⟩ := twins
  by_cases fits : 0 ≤ result ∧ result ≤ r.bitMask.toInt
  · have settled : r.settle result = .ok (Int64.ofInt result) := by
      simp only [settle, rejects, if_pos fits]
    rw [settled]
    cases policy with
    | wrap => rfl
    | saturate =>
      have clamped : max 0 (min result r.bitMask.toInt) = result := by omega
      change Int64.ofInt result = Int64.ofInt (max 0 (min result r.bitMask.toInt))
      rw [clamped]
    | reject =>
      change Agrees _ _ _ (if 0 ≤ result ∧ result ≤ r.bitMask.toInt then _ else _)
      rw [if_pos fits]
      rfl
  · have refused : r.settle result =
        .error (.registerOverflow r.name (Word.nearest result) 0) := by
      simp only [settle, rejects, if_neg fits]
    rw [refused]
    exact Or.inl trivial

theorem tryWrite_of_fits {value : Word} {amount : Int}
    (fits : ¬ r.Overflows (r.latch value) amount) :
    r.tryWrite value amount = .ok (r.put ((r.latch value).shift amount)) := by
  unfold tryWrite write
  rw [if_neg fun both => fits both.2, if_neg fun both => fits both.2]

theorem tryWrite_agrees (twins : Rejecting r s) (value : Word) (amount : Int) :
    Agrees Fault.IsOverflow Rejecting (r.tryWrite value amount) (s.tryWrite value amount) := by
  obtain ⟨rejects, policy, rfl⟩ := twins
  by_cases overflows : r.Overflows (r.latch value) amount
  · have refused : r.tryWrite value amount = .error (.registerOverflow r.name value amount) :=
      if_pos ⟨rejects, overflows⟩
    rw [refused]
    exact Or.inl trivial
  · rw [tryWrite_of_fits overflows]
    have other := tryWrite_of_fits (r := r.withOverflow policy) overflows
    rw [other]
    exact ⟨rejects, policy, rfl⟩

end Register

namespace RegisterFile

variable {first second : RegisterFile}

theorem answersAlike_of_rejecting (aligned : Aligned Register.Rejecting first second) :
    first.AnswersAlike Fault.IsOverflow second where
  fetch ident amount := by
    apply (aligned.claim Register.keepsNames_rejecting .read ident).bind
    intro r _ ⟨⟨_, policy, same⟩, _⟩
    subst same
    exact Agrees.of_eq rfl
  fetchSigned ident := by
    apply (aligned.claim Register.keepsNames_rejecting .read ident).bind
    intro r _ ⟨⟨_, policy, same⟩, _⟩
    subst same
    exact Agrees.of_eq rfl
  settle ident result := by
    apply (aligned.get Register.keepsNames_rejecting ident).bind
    intro r s ⟨twins, _⟩
    exact Register.settle_agrees twins result

theorem outcome_agrees_of_rejecting (aligned : Aligned Register.Rejecting first second)
    (effect : Effect) :
    Agrees Fault.IsOverflow (Aligned Register.Rejecting) (effect.outcome first)
      (effect.outcome second) := by
  apply effect.outcome_agrees (answersAlike_of_rejecting aligned) aligned
  intro ident value amount
  apply aligned.store Register.keepsNames_rejecting
  intro r s twins
  exact Register.tryWrite_agrees twins value amount

theorem values_eq_of_rejecting (aligned : Aligned Register.Rejecting first second) :
    second.values = first.values := by
  have same : List.Forall₂ Eq (second.registers.map (·.value)) (first.registers.map (·.value)) := by
    rw [List.forall₂_map_left_iff, List.forall₂_map_right_iff]
    apply List.Forall₂.flip
    apply aligned.imp
    intro r _ ⟨_, policy, same⟩
    subst same
    rfl
  rwa [List.forall₂_eq_eq_eq] at same

end RegisterFile

namespace Chip

/-- The chips are built alike, over registers that differ in their policies only. -/
structure SameButPolicies (first second : Chip) : Prop where
  grammar : second.grammar = first.grammar
  instructions : second.instructions.instructions = first.instructions.instructions
  registers : first.registers.Aligned Register.SameButPolicy second.registers

variable {first second : Chip}

abbrev RejectingTwins : Chip → Chip → Prop := Twins (RegisterFile.Aligned Register.Rejecting)

theorem rejectingTwins (alike : first.SameButPolicies second) (builtin : first.IsPrimitive)
    (rejects : ∀ r ∈ first.registers.registers, r.overflow = .reject) :
    RejectingTwins first second where
  grammar := alike.grammar
  instructions := alike.instructions
  builtin := builtin
  registers := by
    apply (RegisterFile.Aligned.members alike.registers).imp
    intro r s ⟨same, present, _⟩
    exact ⟨rejects r present, same⟩

theorem RejectingTwins.runLines_agrees (twins : RejectingTwins first second)
    (lines : List (List Char)) (line executed : Nat) :
    ResultAgrees (fun failure : LineFault => failure.fault.IsOverflow) RejectingTwins
      (first.runLines line executed lines) (second.runLines line executed lines) :=
  Twins.runLines_agrees Fault.isOverflow_inInstruction
    (fun _ _ aligned effect => RegisterFile.outcome_agrees_of_rejecting aligned effect)
    twins lines line executed

/-- Policies agree until an overflow is rejected. Of two chips that differ in the policies of their
registers only, let those of the first reject overflow. Unless the first run ends with an overflow,
the second ends with the same result and the same values; if it does, both runs come to the line of
the overflow with the same values. And on any chip, an overflow names a register that rejects it. -/
theorem run_agrees_until_overflow :
    (∀ first second : Chip, first.IsPrimitive → first.SameButPolicies second →
      (∀ r ∈ first.registers.registers, r.overflow = .reject) → ∀ source : String,
      match first.run source with
      | .ok n after => ∃ other, second.run source = .ok n other ∧
          other.registers.values = after.registers.values
      | .error failure after =>
        (¬ failure.fault.IsOverflow → ∃ other, second.run source = .error failure other ∧
          other.registers.values = after.registers.values) ∧
        (failure.fault.IsOverflow → ∃ n before other,
          first.runBefore source failure.line = .ok n before ∧
          second.runBefore source failure.line = .ok n other ∧
          other.registers.values = before.registers.values)) ∧
    (∀ chip : Chip, chip.IsPrimitive → ∀ register value amount after,
      (∀ line, chip.execute line = .error (.registerOverflow register value amount) after →
        chip.Rejects register) ∧
      ∀ source failure, chip.run source = .error failure after →
        failure.fault = .registerOverflow register value amount → chip.Rejects register) := by
  constructor
  · intro first second builtin alike rejects source
    have twins := rejectingTwins alike builtin rejects
    have agrees := twins.runLines_agrees (Text.lines source.toList) 1 0
    cases left : first.run source with
    | ok n after =>
      rw [run] at left
      rw [left] at agrees
      obtain ⟨other, same, ended⟩ := agrees
      exact ⟨other, same, RegisterFile.values_eq_of_rejecting ended.registers⟩
    | error failure after =>
      rw [run] at left
      rw [left] at agrees
      constructor
      · intro harmless
        rcases agrees with overflow | ⟨other, same, ended⟩
        · exact absurd overflow harmless
        · exact ⟨other, same, RegisterFile.values_eq_of_rejecting ended.registers⟩
      · intro _
        obtain ⟨count, n, before, text, place, _, _, earlier, _⟩ := runLines_before left
        have prior : failure.line - 1 = count := by omega
        have reached := twins.runLines_agrees ((Text.lines source.toList).take count) 1 0
        rw [earlier] at reached
        obtain ⟨other, same, ended⟩ := reached
        simp only [runBefore, prior]
        exact ⟨n, before, other, earlier, same, RegisterFile.values_eq_of_rejecting ended.registers⟩
  · intro chip builtin register value amount after
    constructor
    · intro line failed
      exact rejects_of_shape (rejecting_of_execute builtin failed)
    · intro source failure failed overflow
      exact rejects_of_run builtin failed overflow

/-- Rejecting overflow, the small chip fails in the third line, at which it arrives wrapping as
well. -/
theorem run_agrees_until_overflow_toy :
    ∃ first second, (Descriptor.toy .reject).build = .ok first ∧
      (Descriptor.toy .wrap).build = .ok second ∧ first.IsPrimitive ∧
      first.SameButPolicies second ∧ (∀ r ∈ first.registers.registers, r.overflow = .reject) ∧
      let source := "LDA #5, X\nADDX X, #1\nADDX X, #255"
      (∃ after, first.run source =
        .error ⟨3, "ADDX X, #255", .registerOverflow "X" 261 0⟩ after) ∧
      match first.run source with
      | .ok n after => ∃ other, second.run source = .ok n other ∧
          other.registers.values = after.registers.values
      | .error failure after =>
        (¬ failure.fault.IsOverflow → ∃ other, second.run source = .error failure other ∧
          other.registers.values = after.registers.values) ∧
        (failure.fault.IsOverflow → ∃ n before other,
          first.runBefore source failure.line = .ok n before ∧
          second.runBefore source failure.line = .ok n other ∧
          other.registers.values = before.registers.values) := by
  obtain ⟨first, built, grammar, registers, instructions⟩ := Descriptor.exists_build_toy .reject
  obtain ⟨second, made, other, wrapping, also⟩ := Descriptor.exists_build_toy .wrap
  have builtin := Descriptor.isPrimitive_of_build built
  have alike : first.SameButPolicies second := by
    refine ⟨other.trans grammar.symm, also.trans instructions.symm, ?_⟩
    unfold RegisterFile.Aligned
    rw [registers, wrapping]
    exact .cons ⟨.wrap, rfl⟩ (.cons ⟨.wrap, rfl⟩ (.cons ⟨.wrap, rfl⟩ .nil))
  have rejects : ∀ r ∈ first.registers.registers, r.overflow = .reject := by
    rw [registers]
    decide
  refine ⟨first, second, built, made, builtin, alike, rejects, ?_,
    run_agrees_until_overflow.1 first second builtin alike rejects _⟩
  let loaded : Chip := { first with registers := (Descriptor.toyRegisters .reject).put "X" 5 }
  let added : Chip := { loaded with registers := loaded.registers.put "X" 6 }
  let adds (value : Word) : Statement := ⟨none, "ADDX", [.register "X", .immediate value]⟩
  have read {line : String} {statement : Statement}
      (decoded : Grammar.standard.decode line.toList = .ok (some statement)) :
      first.grammar.decode line.toList = .ok (some statement) := grammar ▸ decoded
  have load : first.execute "LDA #5, X".toList =
      .ok (some ⟨none, "LDA", [.immediate 5, .register "X"]⟩) loaded := by
    rw [first.execute_of_entries instructions ⟨"LDA", .move, .sourceFirst, 0⟩
      ⟨none, "LDA", [.immediate 5, .register "X"]⟩ (by decide) (read (by decide)) rfl, registers]
    rfl
  have add : loaded.execute "ADDX X, #1".toList = .ok (some (adds 1)) added :=
    loaded.execute_of_entries instructions ⟨"ADDX", .combine .add, .targetFirst, 0⟩ (adds 1)
      (by decide) (read (by decide)) rfl
  have overflows : added.execute "ADDX X, #255".toList =
      .error (.registerOverflow "X" 261 0) added :=
    added.execute_of_entries instructions ⟨"ADDX", .combine .add, .targetFirst, 0⟩ (adds 255)
      (by decide) (read (by decide)) rfl
  have cut : Text.lines "LDA #5, X\nADDX X, #1\nADDX X, #255".toList =
      ["LDA #5, X".toList, "ADDX X, #1".toList, "ADDX X, #255".toList] := by decide
  exact ⟨added, by rw [run, cut, runLines_of_ok load, runLines_of_ok add,
    runLines_of_error overflows, String.ofList_toList]⟩

end Chip

end DspChip
