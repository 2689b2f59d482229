import DspChip.Proofs.Chip.Representation
import DspChip.Proofs.Trace.Replay
/-! The step limit. A trace with fewer steps allowed is the beginning of one with more: the limit
cuts it off and changes nothing else. -/

namespace DspChip

/-- What is left of a trace when a step limit cuts it off. A failure is seen only if the limit is
not reached before it. -/
structure Traced.CutOff (limit : Nat) (whole cut : Traced) : Prop where
  steps : cut.steps = whole.steps.take limit
  failure : cut.failure = if whole.steps.length < limit then whole.failure else none

theorem Traced.CutOff.prepend {limit : Nat} {whole cut : Traced} (cutOff : whole.CutOff limit cut)
    (step : Step) : Traced.CutOff (limit + 1) (whole.prepend step) (cut.prepend step) where
  steps := by rw [Traced.prepend, Traced.prepend, cutOff.steps, List.take_succ_cons]
  failure := by
    simp only [Traced.prepend, cutOff.failure, List.length_cons, Nat.add_lt_add_iff_right]

namespace Chip

theorem cutOff_traceLines (chip : Chip) (radix : Radix) (lines : List ProgramLine)
    {fewer more : Nat} (within : fewer ≤ more) :
    Traced.CutOff fewer (chip.traceLines radix more lines)
      (chip.traceLines radix fewer lines) := by
  induction lines generalizing chip fewer more with
  | nil =>
    rw [traceLines_nil, traceLines_nil]
    exact ⟨List.take_nil.symm, (ite_self none).symm⟩
  | cons line rest ih =>
    cases fewer with
    | zero =>
      -- no step is left of the trace, and no failure before the first step
      rw [traceLines_zero]
      exact ⟨rfl, (if_neg (Nat.not_lt_zero _)).symm⟩
    | succ fewer =>
      obtain ⟨more, rfl⟩ := Nat.exists_eq_add_of_lt within
      cases result : chip.execute line.text with
      | error fault next =>
        rw [traceLines_of_error result, traceLines_of_error result]
        exact ⟨List.take_nil.symm, (if_pos (Nat.succ_pos _)).symm⟩
      | ok decoded next =>
        cases decoded with
        | none =>
          rw [traceLines_of_none result, traceLines_of_none result]
          exact ih next within
        | some statement =>
          rw [traceLines_of_some result, traceLines_of_some result]
          exact (ih next (Nat.le_of_succ_le_succ within)).prepend _

theorem name_traceLines (chip : Chip) (radix : Radix) (allowed : Nat) (lines : List ProgramLine) :
    (chip.traceLines radix allowed lines).chip.name = chip.name := by
  apply traceLines_keeps (fun left => left.name = chip.name)
  · intro left same line
    obtain ⟨registers, executed⟩ := left.ofResult_execute line
    rw [executed]
    exact same
  · rfl

/-- The step limit cuts a trace off and does nothing else. With fewer steps allowed, the report has
the first steps of the one with more. It tells the same failure if that came before the limit was
reached, and none otherwise. Its registers are those that the changes of its steps lead to. -/
theorem trace_cut_off (chip : Chip) (builtin : chip.IsPrimitive) (program : Program) (radix : Radix)
    {fewer more : Nat} (within : fewer ≤ more) :
    let whole := (chip.trace program radix more).2
    let cut := (chip.trace program radix fewer).2
    cut.steps = whole.steps.take (min fewer whole.steps.length) ∧
      cut.failure = (if whole.steps.length < fewer then whole.failure else none) ∧
      ((whole.steps.take (min fewer whole.steps.length)).flatMap Step.changes).foldlM
        Change.replay? chip.registers.snapshot = some cut.registers ∧
      (cut.chip, cut.source, cut.radix) = (whole.chip, whole.source, whole.radix) := by
  intro whole cut
  obtain ⟨steps, failure⟩ := cutOff_traceLines chip radix program.lines within
  rw [List.take_eq_take_min] at steps
  have replayed := (replays_traceLines builtin radix fewer program.lines).2
  rw [steps] at replayed
  refine ⟨steps, failure, replayed, ?_⟩
  have name : cut.chip = whole.chip :=
    (name_traceLines chip radix fewer program.lines).trans
      (name_traceLines chip radix more program.lines).symm
  rw [name]
  rfl

/-- The limit is reached just before the line that fails. -/
theorem trace_cut_off_toy :
    2 ≤ 1000 ∧ ∃ chip, (Descriptor.toy .wrap).build = .ok chip ∧ chip.IsPrimitive ∧
      let program : Program := ⟨"sum.asm", Program.number 1
        ["LDA #5, ACC".toList, "ADDX X, #300".toList, "HI".toList]⟩
      let whole := (chip.trace program .hexadecimal 1000).2
      let cut := (chip.trace program .hexadecimal 2).2
      whole.steps.map Step.line = [1, 2] ∧ whole.failure.map Failure.line = some 3 ∧
        cut.steps = whole.steps ∧ cut.failure = none ∧
        cut.steps = whole.steps.take (min 2 whole.steps.length) ∧
        cut.failure = (if whole.steps.length < 2 then whole.failure else none) ∧
        ((whole.steps.take (min 2 whole.steps.length)).flatMap Step.changes).foldlM
          Change.replay? chip.registers.snapshot = some cut.registers ∧
        (cut.chip, cut.source, cut.radix) = (whole.chip, whole.source, whole.radix) := by
  have within : 2 ≤ 1000 := by decide
  obtain ⟨chip, built, builtin, told, failed⟩ := exists_trace_toy
  have cutOff := trace_cut_off chip builtin ⟨"sum.asm", Program.number 1
    ["LDA #5, ACC".toList, "ADDX X, #300".toList, "HI".toList]⟩ .hexadecimal within
  have length := congrArg List.length told
  rw [List.length_map] at length
  have steps := cutOff.1
  have failure := cutOff.2.1
  refine ⟨within, chip, built, builtin, told, failed, ?_, ?_, cutOff⟩
  · rw [steps, length]
    exact List.take_of_length_le (Nat.le_of_eq length)
  · rw [failure, length]
    rfl

end Chip

end DspChip
