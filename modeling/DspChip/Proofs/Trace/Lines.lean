import DspChip.Proofs.Chip.Step
import DspChip.Trace
/-! Tracing lines, one by one and one list behind the other. What every line keeps, a trace keeps;
lines that follow others are traced on the chip that those leave. -/

namespace DspChip

def Traced.prepend (traced : Traced) (step : Step) : Traced :=
  { traced with steps := step :: traced.steps }

/-- A trace and, unless it fails, another one that goes on where it ends. -/
def Traced.followedBy (first second : Traced) : Traced :=
  match first.failure with
  | some _ => first
  | none => { second with steps := first.steps ++ second.steps }

theorem Traced.prepend_followedBy (first second : Traced) (step : Step) :
    (first.followedBy second).prepend step = (first.prepend step).followedBy second := by
  obtain ⟨chip, steps, failure⟩ := first
  cases failure <;> rfl

namespace Chip

variable {chip : Chip} {radix : Radix}

section Equations

variable {next : Chip} {line : ProgramLine}

theorem traceLines_nil (chip : Chip) (radix : Radix) (allowed : Nat) :
    chip.traceLines radix allowed [] = ⟨chip, [], none⟩ := by
  simp only [traceLines]

theorem traceLines_zero (chip : Chip) (radix : Radix) (lines : List ProgramLine) :
    chip.traceLines radix 0 lines = ⟨chip, [], none⟩ := by
  cases lines <;> simp only [traceLines]

theorem traceLines_of_error {fault : Fault} (result : chip.execute line.text = .error fault next)
    (radix : Radix) (allowed : Nat) (rest : List ProgramLine) :
    chip.traceLines radix (allowed + 1) (line :: rest) =
      ⟨next, [], some ⟨line.number, String.ofList line.text, fault.message⟩⟩ := by
  simp only [traceLines, result]

theorem traceLines_of_none (result : chip.execute line.text = .ok none next) (radix : Radix)
    (allowed : Nat) (rest : List ProgramLine) :
    chip.traceLines radix (allowed + 1) (line :: rest) =
      next.traceLines radix (allowed + 1) rest := by
  simp only [traceLines, result]

theorem traceLines_of_some {statement : Statement}
    (result : chip.execute line.text = .ok (some statement) next) (radix : Radix) (allowed : Nat)
    (rest : List ProgramLine) :
    chip.traceLines radix (allowed + 1) (line :: rest) =
      (next.traceLines radix allowed rest).prepend
        ⟨line.number, statement.listing, chip.registers.changes radix next.registers⟩ := by
  simp only [traceLines, result, Traced.prepend]

end Equations

/-- The cases of a trace. It ends before a line, or with one that fails; a line that does not fail
is followed by the trace of the rest, with a step in front if it carries out a statement. -/
theorem traceLines_cases {motive : Chip → List ProgramLine → Traced → Prop}
    (ended : ∀ chip lines, motive chip lines ⟨chip, [], none⟩)
    (failed : ∀ {chip next : Chip} {line : ProgramLine} {fault : Fault} (rest),
      chip.execute line.text = .error fault next → motive chip (line :: rest)
        ⟨next, [], some ⟨line.number, String.ofList line.text, fault.message⟩⟩)
    (skipped : ∀ {chip next : Chip} {line : ProgramLine} {rest : List ProgramLine}
      {traced : Traced}, chip.execute line.text = .ok none next → motive next rest traced →
      motive chip (line :: rest) traced)
    (carriedOut : ∀ {chip next : Chip} {line : ProgramLine} {statement : Statement}
      {rest : List ProgramLine} {traced : Traced},
      chip.execute line.text = .ok (some statement) next → motive next rest traced →
      motive chip (line :: rest) (traced.prepend
        ⟨line.number, statement.listing, chip.registers.changes radix next.registers⟩))
    (chip : Chip) (allowed : Nat) (lines : List ProgramLine) :
    motive chip lines (chip.traceLines radix allowed lines) := by
  induction lines generalizing chip allowed with
  | nil =>
    rw [traceLines_nil]
    exact ended chip []
  | cons line rest ih =>
    cases allowed with
    | zero =>
      rw [traceLines_zero]
      exact ended chip (line :: rest)
    | succ allowed =>
      cases result : chip.execute line.text with
      | error fault next =>
        rw [traceLines_of_error result]
        exact failed rest result
      | ok decoded next =>
        cases decoded with
        | none =>
          rw [traceLines_of_none result]
          exact skipped result (ih next (allowed + 1))
        | some statement =>
          rw [traceLines_of_some result]
          exact carriedOut result (ih next allowed)

theorem traceLines_keeps (kept : Chip → Prop)
    (step : ∀ chip, kept chip → ∀ line, kept (ofResult (chip.execute line))) (radix : Radix)
    (lines : List ProgramLine) (allowed : Nat) (start : kept chip) :
    kept (chip.traceLines radix allowed lines).chip := by
  have after {chip next : Chip} {line : List Char}
      {result : EStateM.Result Fault Chip (Option Statement)} (executed : chip.execute line = result)
      (left : ofResult result = next) (known : kept chip) : kept next := by
    rw [← left, ← executed]
    exact step chip known line
  refine traceLines_cases (motive := fun chip _ traced => kept chip → kept traced.chip)
    ?_ ?_ ?_ ?_ chip allowed lines start
  · intro chip lines known
    exact known
  · intro chip next line fault rest result known
    exact after result rfl known
  · intro chip next line rest traced result later known
    exact later (after result rfl known)
  · intro chip next line statement rest traced result later known
    exact later (after result rfl known)

theorem length_steps_le (chip : Chip) (radix : Radix) (allowed : Nat) (lines : List ProgramLine) :
    (chip.traceLines radix allowed lines).steps.length ≤ lines.length := by
  refine traceLines_cases (motive := fun _ lines traced => traced.steps.length ≤ lines.length)
    ?_ ?_ ?_ ?_ chip allowed lines
  · intro chip lines
    exact Nat.zero_le _
  · intro chip next line fault rest result
    exact Nat.zero_le _
  · intro chip next line rest traced result bounded
    exact Nat.le_succ_of_le bounded
  · intro chip next line statement rest traced result bounded
    exact Nat.succ_le_succ bounded

theorem traceLines_of_enough (chip : Chip) (radix : Radix) (lines : List ProgramLine)
    {allowed other : Nat} (enough : lines.length ≤ allowed) (also : lines.length ≤ other) :
    chip.traceLines radix allowed lines = chip.traceLines radix other lines := by
  induction lines generalizing chip allowed other with
  | nil => rw [traceLines_nil, traceLines_nil]
  | cons line rest ih =>
    obtain ⟨allowed, rfl⟩ := Nat.exists_eq_add_of_lt enough
    obtain ⟨other, rfl⟩ := Nat.exists_eq_add_of_lt also
    cases result : chip.execute line.text with
    | error fault next => rw [traceLines_of_error result, traceLines_of_error result]
    | ok decoded next =>
      cases decoded with
      | none =>
        rw [traceLines_of_none result, traceLines_of_none result]
        exact ih next (Nat.le_of_succ_le enough) (Nat.le_of_succ_le also)
      | some statement =>
        rw [traceLines_of_some result, traceLines_of_some result,
          ih next (Nat.le_of_succ_le_succ enough) (Nat.le_of_succ_le_succ also)]

theorem traceLines_append (chip : Chip) (radix : Radix) (allowed : Nat)
    (front back : List ProgramLine) :
    let first := chip.traceLines radix allowed front
    chip.traceLines radix allowed (front ++ back) =
      first.followedBy (first.chip.traceLines radix (allowed - first.steps.length) back) := by
  induction front generalizing chip allowed with
  | nil =>
    rw [List.nil_append, traceLines_nil]
    rfl
  | cons line rest ih =>
    cases allowed with
    | zero => simp only [traceLines_zero, Nat.zero_sub, Traced.followedBy, List.append_nil]
    | succ allowed =>
      rw [List.cons_append]
      cases result : chip.execute line.text with
      | error fault next =>
        rw [traceLines_of_error result, traceLines_of_error result]
        rfl
      | ok decoded next =>
        cases decoded with
        | none =>
          rw [traceLines_of_none result, traceLines_of_none result]
          exact ih next (allowed + 1)
        | some statement =>
          rw [traceLines_of_some result, traceLines_of_some result, ih, Traced.prepend_followedBy]
          simp only [Traced.prepend, List.length_cons, Nat.add_sub_add_right]

/-- Tracing lines and then, on the chip that they leave, others is tracing them all, with a step
allowed for each line. -/
theorem trace_append (chip : Chip) (name : String) (radix : Radix) {front back : List ProgramLine}
    {frontSteps backSteps wholeSteps : Nat} (frontEnough : front.length ≤ frontSteps)
    (backEnough : back.length ≤ backSteps) (wholeEnough : (front ++ back).length ≤ wholeSteps) :
    let first := chip.trace ⟨name, front⟩ radix frontSteps
    let second := first.1.trace ⟨name, back⟩ radix backSteps
    chip.trace ⟨name, front ++ back⟩ radix wholeSteps =
      match first.2.failure with
      | some _ => first
      | none => (second.1, { second.2 with steps := first.2.steps ++ second.2.steps }) := by
  rw [List.length_append] at wholeEnough
  have counted := chip.length_steps_le radix frontSteps front
  have first := chip.traceLines_of_enough radix front
    (by omega : front.length ≤ wholeSteps) frontEnough
  have second := (chip.traceLines radix frontSteps front).chip.traceLines_of_enough radix back
    (by omega : back.length ≤ wholeSteps - (chip.traceLines radix frontSteps front).steps.length)
    backEnough
  simp only [trace, traceLines_append, first, second]
  generalize chip.traceLines radix frontSteps front = traced
  obtain ⟨next, steps, failure⟩ := traced
  cases failure <;> rfl

end Chip

end DspChip
