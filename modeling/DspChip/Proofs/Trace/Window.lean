import DspChip.Proofs.Trace.Limit
import DspChip.Proofs.Trace.Run
/-! Windows of a text. A window shows lines of the text under their numbers there, and tracing a
window and then the rest of the text is tracing both in one. -/

namespace DspChip

def Text.IsLine (text : List Char) (number : Nat) (line : List Char) : Prop :=
  ∃ place, number = place + 1 ∧ (lines text)[place]? = some line

namespace Program

variable {name text : String} {skip : Nat} {limit : Option Nat} {program : Program}

theorem number_append (first : Nat) (front back : List (List Char)) :
    number first (front ++ back) = number first front ++ number (first + front.length) back := by
  rw [number, List.zipIdx_append, List.map_append]
  rfl

theorem map_number_number (first : Nat) (lines : List (List Char)) :
    (number first lines).map ProgramLine.number = List.range' first lines.length := by
  rw [number, List.map_map, ← List.zipIdx_map_snd first lines]
  rfl

theorem length_number (first : Nat) (lines : List (List Char)) :
    (number first lines).length = lines.length := by
  rw [number, List.length_map, List.length_zipIdx]

theorem mem_number {first : Nat} {lines : List (List Char)} {line : ProgramLine}
    (member : line ∈ number first lines) :
    ∃ place, line.number = first + place ∧ lines[place]? = some line.text := by
  obtain ⟨⟨text, number⟩, listed, rfl⟩ := List.mem_map.mp member
  obtain ⟨behind, found⟩ := List.mk_mem_zipIdx_iff_le_and_getElem?_sub.mp listed
  exact ⟨number - first, (Nat.add_sub_of_le behind).symm, found⟩

theorem getD_zero_le_iff {bound : Nat} :
    limit.getD 0 ≤ bound ↔ ∀ count, limit = some count → count ≤ bound := by
  cases limit with
  | none => simp
  | some count => simp

/-- The lines of a window, as far as the text has them. -/
def excerpt (text : String) (skip : Nat) (limit : Option Nat) : List (List Char) :=
  let kept := (Text.lines text.toList).drop skip
  kept.take (limit.getD kept.length)

theorem window_eq_ok_iff :
    window name text skip limit = .ok program ↔
      (skip ≤ (Text.lines text.toList).length ∧
        limit.getD 0 ≤ (Text.lines text.toList).length - skip) ∧
      program = ⟨name, number (skip + 1) (excerpt text skip limit)⟩ := by
  unfold window
  dsimp only
  by_cases inside : skip ≤ (Text.lines text.toList).length
  · rw [if_neg (Nat.not_lt.mpr inside)]
    by_cases fits : limit.getD 0 ≤ (Text.lines text.toList).length - skip
    · rw [if_neg (Nat.not_lt.mpr fits), Except.ok.injEq]
      constructor
      · intro made
        exact ⟨⟨inside, fits⟩, made.symm⟩
      · intro ⟨_, made⟩
        exact made.symm
    · rw [if_pos (Nat.lt_of_not_le fits)]
      simp [fits]
  · rw [if_pos (Nat.lt_of_not_le inside)]
    simp [inside]

theorem length_excerpt (fits : limit.getD 0 ≤ (Text.lines text.toList).length - skip) :
    (excerpt text skip limit).length = limit.getD ((Text.lines text.toList).length - skip) := by
  rw [excerpt, List.length_take, List.length_drop]
  cases limit with
  | none => exact Nat.min_self _
  | some count => exact Nat.min_eq_left fits

theorem length_window_le (text : String) (skip : Nat) (limit : Option Nat) :
    (number (skip + 1) (excerpt text skip limit)).length ≤ (Text.lines text.toList).length := by
  rw [length_number, excerpt]
  exact (List.length_take_le' _ _).trans (List.length_drop ▸ Nat.sub_le _ _)

/-- A window is its first part, followed by the window behind that. -/
theorem number_excerpt {count : Nat} (fits : count ≤ (Text.lines text.toList).length - skip) :
    number (skip + 1) (excerpt text skip none) =
      number (skip + 1) (excerpt text skip (some count)) ++
        number (skip + count + 1) (excerpt text (skip + count) none) := by
  have parts : excerpt text skip none =
      excerpt text skip (some count) ++ excerpt text (skip + count) none := by
    simp only [excerpt, Option.getD_some, Option.getD_none, List.take_length]
    rw [← List.drop_drop, List.take_append_drop]
  have long : (excerpt text skip (some count)).length = count := length_excerpt fits
  rw [parts, number_append, long, Nat.add_right_comm skip 1 count]

theorem getElem?_excerpt {place : Nat} {line : List Char}
    (found : (excerpt text skip limit)[place]? = some line) :
    (Text.lines text.toList)[skip + place]? = some line := by
  rw [excerpt, List.getElem?_take] at found
  split at found
  · rwa [List.getElem?_drop] at found
  · cases found

theorem isLine_of_mem_number {line : ProgramLine}
    (member : line ∈ number (skip + 1) (excerpt text skip limit)) :
    Text.IsLine text.toList line.number line.text := by
  obtain ⟨place, numbered, found⟩ := mem_number member
  exact ⟨skip + place, numbered.trans (Nat.add_right_comm skip 1 place), getElem?_excerpt found⟩

end Program

/-- Steps and a failure that tell of lines of a text, under their numbers there. -/
structure CitesLines (text : List Char) (grammar : Grammar) (steps : List Step)
    (failure : Option Failure) : Prop where
  steps : ∀ step ∈ steps, ∃ line statement, Text.IsLine text step.line line ∧
    grammar.decode line = .ok (some statement) ∧ step.listing = statement.listing
  failure : ∀ told, failure = some told → Text.IsLine text told.line told.text.toList

namespace CitesLines

variable {text : List Char} {grammar : Grammar} {steps : List Step} {failure : Option Failure}

theorem ended (text : List Char) (grammar : Grammar) : CitesLines text grammar [] none :=
  ⟨by simp, by simp⟩

theorem failed {line : ProgramLine} (stands : Text.IsLine text line.number line.text)
    (message : String) :
    CitesLines text grammar [] (some ⟨line.number, String.ofList line.text, message⟩) where
  steps := by simp
  failure := by
    intro told same
    cases same
    rwa [String.toList_ofList]

theorem cons (cites : CitesLines text grammar steps failure) {line : ProgramLine}
    {statement : Statement} (stands : Text.IsLine text line.number line.text)
    (read : grammar.decode line.text = .ok (some statement)) (changes : List Change) :
    CitesLines text grammar (⟨line.number, statement.listing, changes⟩ :: steps) failure where
  steps := List.forall_mem_cons.mpr ⟨⟨line.text, statement, stands, read, rfl⟩, cites.steps⟩
  failure := cites.failure

end CitesLines

namespace Chip

theorem grammar_of_execute {chip next : Chip} {line : List Char} {decoded : Option Statement}
    (result : chip.execute line = .ok decoded next) : next.grammar = chip.grammar := by
  obtain ⟨registers, executed⟩ := chip.ofResult_execute line
  have left : next = { chip with registers } := by
    rw [← executed, result]
    rfl
  rw [left]

theorem citesLines_traceLines (chip : Chip) (radix : Radix) (allowed : Nat) {text : List Char}
    {lines : List ProgramLine} (stand : ∀ line ∈ lines, Text.IsLine text line.number line.text) :
    let traced := chip.traceLines radix allowed lines
    CitesLines text chip.grammar traced.steps traced.failure := by
  refine traceLines_cases (motive := fun chip lines traced =>
    (∀ line ∈ lines, Text.IsLine text line.number line.text) →
      CitesLines text chip.grammar traced.steps traced.failure) ?_ ?_ ?_ ?_ chip allowed lines stand
  · intro chip lines _
    exact .ended text chip.grammar
  · intro chip next line fault rest result stand
    exact .failed (stand line List.mem_cons_self) fault.message
  · intro chip next line rest traced result later stand
    rw [← grammar_of_execute result]
    exact later (List.forall_mem_cons.mp stand).2
  · intro chip next line statement rest traced result later stand
    obtain ⟨stands, others⟩ := List.forall_mem_cons.mp stand
    have read := (execute_eq_ok_some_iff.mp result).1
    rw [← grammar_of_execute result] at read ⊢
    exact (later others).cons stands read _

/-- Windows compose. A text has the windows that lie within it, and shows in each the lines from a
place on, under their numbers in the text; a report of a window tells of these lines under these
numbers. Tracing the first part of a window and then, on the same chip, the rest is tracing the
whole: if the first part fails, so does the whole, in the same way; otherwise the steps of both
follow each other, and the whole ends as the rest does. -/
theorem trace_windows_compose (name text : String) :
    let length := (Text.lines text.toList).length
    (∀ skip limit, (∃ program, Program.window name text skip limit = .ok program) ↔
      skip ≤ length ∧ ∀ count, limit = some count → count ≤ length - skip) ∧
    (∀ skip limit program, Program.window name text skip limit = .ok program →
      program.lines.map ProgramLine.number =
        List.range' (skip + 1) (limit.getD (length - skip)) ∧
      (∀ line ∈ program.lines, Text.IsLine text.toList line.number line.text) ∧
      ∀ chip radix maxSteps,
        let report := (Chip.trace chip program radix maxSteps).2
        CitesLines text.toList chip.grammar report.steps report.failure) ∧
    ∀ skip count, skip + count ≤ length → ∃ front back whole,
      Program.window name text skip (some count) = .ok front ∧
      Program.window name text (skip + count) none = .ok back ∧
      Program.window name text skip none = .ok whole ∧
      ∀ chip radix frontSteps backSteps wholeSteps, length ≤ frontSteps → length ≤ backSteps →
        length ≤ wholeSteps →
        let first := Chip.trace chip front radix frontSteps
        let second := first.1.trace back radix backSteps
        chip.trace whole radix wholeSteps =
          match first.2.failure with
          | some _ => first
          | none => (second.1, { second.2 with steps := first.2.steps ++ second.2.steps }) := by
  intro length
  refine ⟨?_, ?_, ?_⟩
  · intro skip limit
    rw [← Program.getD_zero_le_iff]
    constructor
    · intro ⟨program, made⟩
      exact (Program.window_eq_ok_iff.mp made).1
    · intro within
      exact ⟨_, Program.window_eq_ok_iff.mpr ⟨within, rfl⟩⟩
  · intro skip limit program made
    obtain ⟨⟨_, fits⟩, rfl⟩ := Program.window_eq_ok_iff.mp made
    refine ⟨?_, ?_, ?_⟩
    · rw [Program.map_number_number, Program.length_excerpt fits]
    · intro line member
      exact Program.isLine_of_mem_number member
    · intro chip radix maxSteps
      exact chip.citesLines_traceLines radix maxSteps fun line => Program.isLine_of_mem_number
  · intro skip count inside
    have before : skip ≤ length := Nat.le_of_add_right_le inside
    have fits : count ≤ length - skip := Nat.le_sub_of_add_le' inside
    refine ⟨_, _, _, Program.window_eq_ok_iff.mpr ⟨⟨before, fits⟩, rfl⟩,
      Program.window_eq_ok_iff.mpr ⟨⟨inside, Nat.zero_le _⟩, rfl⟩,
      Program.window_eq_ok_iff.mpr ⟨⟨before, Nat.zero_le _⟩, rfl⟩, ?_⟩
    intro chip radix frontSteps backSteps wholeSteps frontEnough backEnough wholeEnough
    rw [Program.number_excerpt fits]
    apply trace_append
    · exact (Program.length_window_le text skip (some count)).trans frontEnough
    · exact (Program.length_window_le text (skip + count) none).trans backEnough
    · rw [← Program.number_excerpt fits]
      exact (Program.length_window_le text skip none).trans wholeEnough

theorem trace_windows_compose_toy :
    let text := "NOP\r\n\nLDA #5, ACC ; five\nADDX X, #300\nHI"
    1 + 2 ≤ (Text.lines text.toList).length ∧ (Text.lines text.toList).length ≤ 5 ∧
      ∃ chip front back whole, (Descriptor.toy .wrap).build = .ok chip ∧
        Program.window "sum.asm" text 1 (some 2) = .ok front ∧
        Program.window "sum.asm" text (1 + 2) none = .ok back ∧
        Program.window "sum.asm" text 1 none = .ok whole ∧
        let first := chip.trace front .binary 5
        let second := first.1.trace back .binary 6
        first.2.steps.map Step.line = [3] ∧ second.2.steps.map Step.line = [4] ∧
          second.2.failure.map Failure.line = some 5 ∧
          chip.trace whole .binary 7 =
            match first.2.failure with
            | some _ => first
            | none => (second.1, { second.2 with steps := first.2.steps ++ second.2.steps }) := by
  intro text
  have inside : 1 + 2 ≤ (Text.lines text.toList).length := by decide
  have enough : (Text.lines text.toList).length ≤ 5 := by decide
  obtain ⟨chip, loaded, added, built, grammar, _, loads, adds, lacks⟩ := Descriptor.exists_steps_toy
  have blank : chip.execute "".toList = .ok none chip := by
    rw [execute, grammar]
    rfl
  have load := loads "LDA #5, ACC ; five".toList
    ⟨none, "LDA", [.immediate 5, .register "ACC"]⟩ (by decide) rfl (by decide)
  have add := adds "ADDX X, #300".toList ⟨none, "ADDX", [.register "X", .immediate 300]⟩
    (by decide) rfl rfl
  have cutFront : Program.window "sum.asm" text 1 (some 2) =
      .ok ⟨"sum.asm", [⟨2, "".toList⟩, ⟨3, "LDA #5, ACC ; five".toList⟩]⟩ := by decide
  have cutBack : Program.window "sum.asm" text (1 + 2) none =
      .ok ⟨"sum.asm", [⟨4, "ADDX X, #300".toList⟩, ⟨5, "HI".toList⟩]⟩ := by decide
  obtain ⟨front, back, whole, left, right, cutWhole, composes⟩ :=
    (trace_windows_compose "sum.asm" text).2.2 1 2 inside
  cases left.symm.trans cutFront
  cases right.symm.trans cutBack
  refine ⟨inside, enough, chip, _, _, whole, built, left, right, cutWhole, ?_, ?_, ?_,
    composes chip .binary 5 6 7 enough (by omega) (by omega)⟩
  all_goals
    simp only [trace, traceLines, blank, load, add, lacks]
    rfl

end Chip

end DspChip
