import DspChip.Proofs.Descriptor.Build
import DspChip.Trace
import Mathlib.Data.List.Range
/-! A trace is a run with a record of it: with enough steps allowed, tracing a text leaves what
running it leaves, fails where it fails, and has one step for each line that carries out a
statement. -/

namespace DspChip

def LineFault.failure (fault : LineFault) : Failure :=
  ⟨fault.line, fault.text, fault.fault.message⟩

theorem Program.window_all (name text : String) :
    window name text 0 none = .ok ⟨name, number 1 (Text.lines text.toList)⟩ := by
  simp [window]

theorem Program.number_cons (first : Nat) (text : List Char) (rest : List (List Char)) :
    number first (text :: rest) = ⟨first, text⟩ :: number (first + 1) rest := rfl

def Traced.Tells (traced : Traced) (executed : Nat) : EStateM.Result LineFault Chip Nat → Prop
  | .ok n left =>
    traced.chip = left ∧ traced.failure = none ∧ n = executed + traced.steps.length
  | .error fault left => traced.chip = left ∧ traced.failure = some fault.failure

namespace Traced.Tells

variable {traced : Traced} {executed : Nat} {result : EStateM.Result LineFault Chip Nat}

theorem prepend (tells : traced.Tells (executed + 1) result) (step : Step) :
    { traced with steps := step :: traced.steps }.Tells executed result := by
  cases result with
  | error fault left => exact tells
  | ok n left =>
    obtain ⟨same, finished, counted⟩ := tells
    refine ⟨same, finished, ?_⟩
    rw [counted, List.length_cons]
    omega

theorem chip_eq (tells : traced.Tells executed result) : traced.chip = Chip.ofResult result := by
  cases result with
  | error fault left => exact tells.1
  | ok n left => exact tells.1

theorem ok_iff (tells : traced.Tells executed result) (n : Nat) :
    (∃ left, result = .ok n left) ↔
      traced.failure = none ∧ n = executed + traced.steps.length := by
  cases result with
  | error fault left =>
    obtain ⟨_, failed⟩ := tells
    simp [failed]
  | ok m left =>
    obtain ⟨_, finished, counted⟩ := tells
    simp [finished, counted, eq_comm]

theorem eq_ok_of_finished (tells : traced.Tells executed result)
    (finished : traced.failure = none) :
    result = .ok (executed + traced.steps.length) traced.chip := by
  obtain ⟨left, returned⟩ := (tells.ok_iff _).mpr ⟨finished, rfl⟩
  have same := tells.chip_eq
  rw [returned] at same
  rw [returned, same]
  rfl

theorem error_iff (tells : traced.Tells executed result) (failure : Failure) :
    traced.failure = some failure ↔
      ∃ fault left, result = .error fault left ∧ failure = fault.failure := by
  cases result with
  | error fault left =>
    obtain ⟨_, failed⟩ := tells
    simp [failed, eq_comm]
  | ok m left =>
    obtain ⟨_, finished, _⟩ := tells
    simp [finished]

end Traced.Tells

namespace Chip

def Takes (radix : Radix) (chip : Chip) (first executed : Nat) (lines : List (List Char))
    (step : Step) : Prop :=
  ∃ place text n before statement after, lines[place]? = some text ∧
    chip.runLines first executed (lines.take place) = .ok n before ∧
    before.execute text = .ok (some statement) after ∧
    step = ⟨first + place, statement.listing, before.registers.changes radix after.registers⟩

/-- Lines that are numbered from the first one, with the whole record of executing them. -/
inductive Records (radix : Radix) : Chip → Nat → List (List Char) → Traced → Prop where
  | finished {chip : Chip} {first : Nat} : Records radix chip first [] ⟨chip, [], none⟩
  | failed {chip next : Chip} {first : Nat} {text : List Char} {rest : List (List Char)}
      {fault : Fault} (result : chip.execute text = .error fault next) :
      Records radix chip first (text :: rest)
        ⟨next, [], some ⟨first, String.ofList text, fault.message⟩⟩
  | skipped {chip next : Chip} {first : Nat} {text : List Char} {rest : List (List Char)}
      {traced : Traced} (result : chip.execute text = .ok none next)
      (later : Records radix next (first + 1) rest traced) :
      Records radix chip first (text :: rest) traced
  | carriedOut {chip next : Chip} {first : Nat} {text : List Char} {rest : List (List Char)}
      {traced : Traced} {statement : Statement}
      (result : chip.execute text = .ok (some statement) next)
      (later : Records radix next (first + 1) rest traced) :
      Records radix chip first (text :: rest)
        { traced with
          steps := ⟨first, statement.listing, chip.registers.changes radix next.registers⟩ ::
            traced.steps }

variable {chip : Chip} {radix : Radix} {first : Nat} {lines : List (List Char)} {traced : Traced}

theorem exists_records (radix : Radix) (chip : Chip) (first : Nat) (lines : List (List Char)) :
    ∃ traced, Records radix chip first lines traced := by
  induction lines generalizing chip first with
  | nil => exact ⟨_, .finished⟩
  | cons text rest ih =>
    cases result : chip.execute text with
    | error fault next => exact ⟨_, .failed result⟩
    | ok decoded next =>
      obtain ⟨traced, later⟩ := ih next (first + 1)
      cases decoded with
      | none => exact ⟨_, .skipped result later⟩
      | some statement => exact ⟨_, .carriedOut result later⟩

section Takes

variable {next : Chip} {text : List Char} {rest : List (List Char)} {executed : Nat} {step : Step}

theorem not_takes_of_error {fault : Fault} (result : chip.execute text = .error fault next) :
    ¬ chip.Takes radix first executed (text :: rest) step := by
  rintro ⟨place, line, n, before, statement, after, found, ran, done, _⟩
  cases place with
  | zero =>
    cases found
    cases ran
    cases result.symm.trans done
  | succ place =>
    rw [List.take_succ_cons, runLines_of_error result] at ran
    cases ran

theorem takes_cons_iff {decoded : Option Statement}
    (result : chip.execute text = .ok decoded next) :
    chip.Takes radix first executed (text :: rest) step ↔
      (∃ statement, decoded = some statement ∧
        step = ⟨first, statement.listing, chip.registers.changes radix next.registers⟩) ∨
      next.Takes radix (first + 1) (executed + decoded.toList.length) rest step := by
  constructor
  · rintro ⟨place, line, n, before, statement, after, found, ran, done, told⟩
    cases place with
    | zero =>
      cases found
      cases ran
      cases result.symm.trans done
      exact Or.inl ⟨statement, rfl, told⟩
    | succ place =>
      rw [List.take_succ_cons, runLines_of_ok result] at ran
      rw [Nat.add_comm place, ← Nat.add_assoc] at told
      exact Or.inr ⟨place, line, n, before, statement, after, found, ran, done, told⟩
  · rintro (⟨statement, rfl, told⟩ |
      ⟨place, line, n, before, statement, after, found, ran, done, told⟩)
    · exact ⟨0, text, executed, chip, statement, next, rfl, rfl, result, told⟩
    · refine ⟨place + 1, line, n, before, statement, after, found, ?_, done, ?_⟩
      · rw [List.take_succ_cons, runLines_of_ok result]
        exact ran
      · rw [Nat.add_comm place, ← Nat.add_assoc]
        exact told

end Takes

namespace Records

/-- With a step allowed for each line, the trace is the whole record. -/
theorem traceLines_eq (records : Records radix chip first lines traced) (spare : Nat) :
    chip.traceLines radix (lines.length + spare) (Program.number first lines) = traced := by
  induction records generalizing spare with
  | finished => rfl
  | failed result =>
    rw [List.length_cons, Nat.add_right_comm, Program.number_cons, traceLines, result]
  | skipped result later ih =>
    rw [List.length_cons, Nat.add_right_comm, Program.number_cons, traceLines, result]
    exact ih (spare + 1)
  | carriedOut result later ih =>
    rw [List.length_cons, Nat.add_right_comm, Program.number_cons, traceLines, result]
    simp only [ih spare]

theorem tells (records : Records radix chip first lines traced) (executed : Nat) :
    traced.Tells executed (chip.runLines first executed lines) := by
  induction records generalizing executed with
  | finished => exact ⟨rfl, rfl, rfl⟩
  | failed result =>
    rw [runLines_of_error result]
    exact ⟨rfl, rfl⟩
  | skipped result later ih =>
    rw [runLines_of_ok result]
    exact ih executed
  | carriedOut result later ih =>
    rw [runLines_of_ok result]
    exact (ih (executed + 1)).prepend _

theorem lines_sublist (records : Records radix chip first lines traced) :
    (traced.steps.map Step.line).Sublist (List.range' first lines.length) := by
  induction records with
  | finished => exact List.Sublist.refl []
  | failed result => exact List.nil_sublist _
  | skipped result later ih =>
    rw [List.length_cons, List.range'_succ]
    exact ih.cons _
  | carriedOut result later ih =>
    rw [List.length_cons, List.range'_succ, List.map_cons]
    exact ih.cons_cons _

theorem mem_steps_iff (records : Records radix chip first lines traced) (executed : Nat)
    (step : Step) : step ∈ traced.steps ↔ chip.Takes radix first executed lines step := by
  induction records generalizing executed with
  | finished => simp [Takes]
  | failed result =>
    constructor
    · intro member
      cases member
    · intro takes
      exact absurd takes (not_takes_of_error result)
  | skipped result later ih =>
    rw [takes_cons_iff result, ih executed]
    simp
  | carriedOut result later ih =>
    rw [takes_cons_iff result, List.mem_cons, ih (executed + 1)]
    simp

end Records

/-- The run of a text comes to a line, counted from one, and the line carries out a statement. -/
def CarriesOut (chip : Chip) (source : String) (number : Nat) : Prop :=
  ∃ place text n before statement after, number = place + 1 ∧
    (Text.lines source.toList)[place]? = some text ∧
    chip.runBefore source number = .ok n before ∧
    before.execute text = .ok (some statement) after

/-- A chip and a report are what is expected of tracing a text: what running the text leaves and
returns, with one step for each line that carries out a statement. -/
structure AgreesWithRun (chip : Chip) (source : String) (left : Chip) (report : Report) :
    Prop where
  left_eq : left = ofResult (chip.run source)
  completed : ∀ n, (∃ last, chip.run source = .ok n last) ↔
    report.failure = none ∧ n = report.steps.length
  failed : ∀ failure, report.failure = some failure ↔
    ∃ fault last, chip.run source = .error fault last ∧ failure = fault.failure
  increasing : (report.steps.map Step.line).Pairwise (· < ·)
  carriedOut : ∀ number, number ∈ report.steps.map Step.line ↔ chip.CarriesOut source number

theorem Records.carriesOut_iff {source : String}
    (records : Records radix chip 1 (Text.lines source.toList) traced) (number : Nat) :
    number ∈ traced.steps.map Step.line ↔ chip.CarriesOut source number := by
  rw [List.mem_map]
  constructor
  · rintro ⟨step, member, rfl⟩
    obtain ⟨place, text, n, before, statement, after, found, ran, done, rfl⟩ :=
      (records.mem_steps_iff 0 step).mp member
    refine ⟨place, text, n, before, statement, after, Nat.add_comm 1 place, found, ?_, done⟩
    rw [runBefore, Nat.add_sub_cancel_left]
    exact ran
  · rintro ⟨place, text, n, before, statement, after, rfl, found, ran, done⟩
    rw [runBefore, Nat.add_sub_cancel] at ran
    exact ⟨_, (records.mem_steps_iff 0 _).mpr
      ⟨place, text, n, before, statement, after, found, ran, done, rfl⟩, Nat.add_comm 1 place⟩

/-- Tracing a whole text agrees with running it, on every chip, if a step is allowed for each line.
-/
theorem trace_agrees_with_run (chip : Chip) (name source : String) (radix : Radix) (maxSteps : Nat)
    (enough : (Text.lines source.toList).length ≤ maxSteps) :
    ∃ program, Program.window name source 0 none = .ok program ∧
      let traced := chip.trace program radix maxSteps
      chip.AgreesWithRun source traced.1 traced.2 := by
  obtain ⟨spare, rfl⟩ := Nat.exists_eq_add_of_le enough
  obtain ⟨traced, records⟩ := exists_records radix chip 1 (Text.lines source.toList)
  have told : traced.Tells 0 (chip.run source) := records.tells 0
  refine ⟨_, Program.window_all name source, ?_⟩
  simp only [trace, records.traceLines_eq spare]
  exact {
    left_eq := told.chip_eq
    completed := fun n => by rw [told.ok_iff, Nat.zero_add]
    failed := told.error_iff
    increasing := (List.pairwise_lt_range' 1).sublist records.lines_sublist
    carriedOut := records.carriesOut_iff }

/-- Of five lines two carry out statements, two hold none, and the last fails. -/
theorem trace_agrees_with_run_toy :
    let source := "LDA #5, ACC\nstart:\n\nADDX X, #300 ; wraps\r\nHI"
    (Text.lines source.toList).length ≤ 5 ∧
      ∃ chip program, (Descriptor.toy .wrap).build = .ok chip ∧
        Program.window "sum.asm" source 0 none = .ok program ∧
        let traced := chip.trace program .hexadecimal 5
        traced.2.steps.map Step.line = [1, 4] ∧ traced.2.failure.map Failure.line = some 5 ∧
          chip.AgreesWithRun source traced.1 traced.2 := by
  intro source
  have enough : (Text.lines source.toList).length ≤ 5 := by decide
  have cut : Text.lines source.toList = ["LDA #5, ACC".toList, "start:".toList, "".toList,
    "ADDX X, #300 ; wraps".toList, "HI".toList] := by decide
  obtain ⟨chip, loaded, added, built, _, grammar, loads, adds, lacks⟩ :=
    Descriptor.exists_steps_toy
  have load := loads "LDA #5, ACC".toList ⟨none, "LDA", [.immediate 5, .register "ACC"]⟩
    (by decide) rfl (by decide)
  have label : loaded.execute "start:".toList = .ok none loaded := by
    rw [execute, grammar]
    rfl
  have blank : loaded.execute "".toList = .ok none loaded := by
    rw [execute, grammar]
    rfl
  have add := adds "ADDX X, #300 ; wraps".toList
    ⟨none, "ADDX", [.register "X", .immediate 300]⟩ (by decide) rfl rfl
  obtain ⟨program, whole, agrees⟩ :=
    trace_agrees_with_run chip "sum.asm" source .hexadecimal 5 enough
  have told := Except.ok.inj (whole.symm.trans (Program.window_all "sum.asm" source))
  refine ⟨enough, chip, program, built, whole, ?_, ?_, agrees⟩
  all_goals
    simp only [told, cut, trace, Program.number, List.zipIdx_cons, List.map_cons, traceLines,
      load, label, blank, add, lacks]
    rfl

end Chip

end DspChip
