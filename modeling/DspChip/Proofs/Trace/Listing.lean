import DspChip.Proofs.Assembly.Listing
import DspChip.Proofs.Text.Lines
import DspChip.Proofs.Trace.Replay
import DspChip.Proofs.Trace.Run
/-! The listings of a trace are a program: executed line by line, they do again what the traced
lines did, and a trace of them has the same listings and the same changes. -/

namespace DspChip

theorem Grammar.Admits.wholeLine {grammar : Grammar} {statement : Statement}
    (admits : grammar.Admits statement) : Text.WholeLine statement.listing.toList := by
  have other : ∀ c, Text.IsBlank c → c ≠ ' ' → c ∉ statement.listing.toList :=
    fun c blank apart member => apart (admits.upper.eq_space_of_mem_text member blank)
  refine ⟨?_, other '\n' (by decide) (by decide), ?_⟩
  · intro empty
    rw [Statement.listing, String.toList_append, String.toList_append] at empty
    obtain ⟨_, noMnemonic⟩ := List.append_eq_nil_iff.mp (List.append_eq_nil_iff.mp empty).1
    exact admits.upper.layout.nonempty noMnemonic
  · intro last
    exact other '\r' (by decide) (by decide) (List.mem_of_getLast? last)

def Step.told (step : Step) : String × List Change := (step.listing, step.changes)

theorem Statement.listing_upper (statement : Statement) :
    { statement with mnemonic := Text.upper statement.mnemonic }.listing = statement.listing := by
  rw [listing, Text.upper_upper]
  rfl

namespace Chip

variable {chip next : Chip} {line : List Char} {statement : Statement} {radix : Radix}

theorem perform_upper (performed : chip.perform statement = .ok () next) :
    chip.perform { statement with mnemonic := Text.upper statement.mnemonic } = .ok () next := by
  unfold perform at performed ⊢
  rw [InstructionTable.lookup?_of_sameName _ (Text.fold_upper _)]
  cases found : chip.instructions.lookup? statement.mnemonic with
  | none =>
    rw [found] at performed
    cases performed
  | some i =>
    rw [found] at performed
    exact performed

theorem execute_listing (done : chip.execute line = .ok (some statement) next) :
    chip.execute statement.listing.toList =
      .ok (some { statement with mnemonic := Text.upper statement.mnemonic }) next := by
  obtain ⟨read, performed⟩ := execute_eq_ok_some_iff.mp done
  exact execute_eq_ok_some_iff.mpr
    ⟨(Grammar.admits_of_decode read).decode_listing, perform_upper performed⟩

theorem wholeLine_of_execute (done : chip.execute line = .ok (some statement) next) :
    Text.WholeLine statement.listing.toList :=
  (Grammar.admits_of_decode (execute_eq_ok_some_iff.mp done).1).wholeLine

/-- The listings of a trace are whole lines which, numbered from anywhere, are executed to the end
and told as before. -/
structure Relists (radix : Radix) (chip : Chip) (traced : Traced) : Prop where
  whole : ∀ step ∈ traced.steps, Text.WholeLine step.listing.toList
  again : ∀ first, ∃ steps, steps.map Step.told = traced.steps.map Step.told ∧
    Records radix chip first (traced.steps.map fun step => step.listing.toList)
      ⟨traced.chip, steps, none⟩

theorem relists_traceLines (builtin : chip.IsPrimitive) (radix : Radix) (allowed : Nat)
    (lines : List ProgramLine) : chip.Relists radix (chip.traceLines radix allowed lines) := by
  refine traceLines_induction (motive := Relists radix) ?_ ?_ builtin allowed lines
  · intro chip failure
    exact ⟨by simp, fun first => ⟨[], rfl, .finished⟩⟩
  · intro chip next line statement traced _ result relists
    refine ⟨List.forall_mem_cons.mpr ⟨wholeLine_of_execute result, relists.whole⟩, fun first => ?_⟩
    obtain ⟨steps, told, records⟩ := relists.again (first + 1)
    refine ⟨_, ?_, .carriedOut (execute_listing result) records⟩
    rw [List.map_cons, List.map_cons, told, Statement.listing_upper]
    rfl

theorem Relists.lines_intercalate {traced : Traced} (relists : chip.Relists radix traced) :
    Text.lines ("\n".intercalate (traced.steps.map Step.listing)).toList =
      traced.steps.map fun step => step.listing.toList := by
  rw [String.toList_intercalate, List.map_map]
  apply Text.lines_intercalate
  intro line member
  obtain ⟨step, present, rfl⟩ := List.mem_map.mp member
  exact relists.whole step present

/-- The listings of a trace, joined by line feeds, are a program of their own. On the chip as it was
before the trace it runs to the end, with as many instructions as the trace has steps, and leaves
the registers of the report; its trace does not fail, and has the same listings and changes. -/
theorem trace_of_listings (chip : Chip) (builtin : chip.IsPrimitive) (program : Program)
    (radix : Radix) (maxSteps : Nat) :
    let report := (chip.trace program radix maxSteps).2
    let source := "\n".intercalate (report.steps.map Step.listing)
    (∃ left, chip.run source = .ok report.steps.length left ∧
      left.registers.snapshot = report.registers) ∧
    ∀ name limit, report.steps.length ≤ limit →
      ∃ again, Program.window name source 0 none = .ok again ∧
        let second := (chip.trace again radix limit).2
        second.failure = none ∧ second.steps.map Step.told = report.steps.map Step.told := by
  intro report source
  have relists := relists_traceLines builtin radix maxSteps program.lines
  have cut : Text.lines source.toList = report.steps.map fun step => step.listing.toList :=
    relists.lines_intercalate
  obtain ⟨steps, told, recorded⟩ := relists.again 1
  have records : Records radix chip 1 (Text.lines source.toList)
      ⟨(chip.trace program radix maxSteps).1, steps, none⟩ := by
    rw [cut]
    exact recorded
  have counted : steps.length = report.steps.length := by
    have lengths := congrArg List.length told
    rwa [List.length_map, List.length_map] at lengths
  constructor
  · have ran := (records.tells 0).eq_ok_of_finished rfl
    rw [Nat.zero_add, counted] at ran
    exact ⟨_, ran, rfl⟩
  · intro name limit enough
    have fits : (Text.lines source.toList).length ≤ limit := by
      rw [cut, List.length_map]
      exact enough
    obtain ⟨spare, rfl⟩ := Nat.exists_eq_add_of_le fits
    refine ⟨_, Program.window_all name source, ?_⟩
    simp only [trace, records.traceLines_eq spare]
    exact ⟨trivial, told⟩

/-- A program with a comment, a blank line and a label, which fails in its last line. -/
theorem trace_of_listings_toy :
    ∃ chip, (Descriptor.toy .wrap).build = .ok chip ∧ chip.IsPrimitive ∧
      let lines := ["lda 5,acc ; set", "", "loop: addx X, 300", "HI"].map String.toList
      let report := (chip.trace ⟨"sum.asm", Program.number 7 lines⟩ .binary 1000).2
      let source := "\n".intercalate (report.steps.map Step.listing)
      source = "LDA #5, acc\nloop: ADDX X, #300" ∧ report.failure.map Failure.line = some 10 ∧
        (∃ left, chip.run source = .ok report.steps.length left ∧
          left.registers.snapshot = report.registers) ∧
        ∀ name limit, report.steps.length ≤ limit →
          ∃ again, Program.window name source 0 none = .ok again ∧
            let second := (chip.trace again .binary limit).2
            second.failure = none ∧ second.steps.map Step.told = report.steps.map Step.told := by
  obtain ⟨chip, loaded, added, built, _, grammar, loads, adds, lacks⟩ :=
    Descriptor.exists_steps_toy
  have builtin := Descriptor.isPrimitive_of_build built
  have load := loads "lda 5,acc ; set".toList ⟨none, "lda", [.immediate 5, .register "acc"]⟩
    (by decide) (by decide) (by decide)
  have blank : loaded.execute "".toList = .ok none loaded := by
    rw [execute, grammar]
    rfl
  have add := adds "loop: addx X, 300".toList
    ⟨some "loop", "addx", [.register "X", .immediate 300]⟩ (by decide) (by decide) rfl
  refine ⟨chip, built, builtin, ?_, ?_, trace_of_listings chip builtin _ .binary 1000⟩
  · simp only [trace, Program.number, List.zipIdx_cons, List.map_cons, traceLines, load, blank,
      add, lacks]
    decide
  · simp only [trace, Program.number, List.zipIdx_cons, List.map_cons, traceLines, load, blank,
      add, lacks]
    rfl

end Chip

end DspChip
