import DspChip.CommandLine.Commands
import DspChip.Proofs.Trace.Run
/-! Running a source and tracing it from the command line. Asked for the same chip, radix and
source, both commands exit with the same code and the same error, and show the same registers. -/

namespace DspChip

def RegisterFile.shown (file : RegisterFile) (radix : Radix) : List (String × String) :=
  file.registers.map fun r => (r.shortName, radix.format r.value.toInt)

def dumpText (shown : List (String × String)) : String :=
  let width := shown.foldl (fun width (name, _) => max width name.utf8ByteSize) 0
  "\n".intercalate (shown.map fun (name, value) =>
    String.ofList (Text.padRight width name.toList) ++ " " ++ value)

def sectionText (shown : List (String × String)) : String :=
  "Registers:\n" ++ String.join (shown.map fun (name, value) =>
    String.ofList ("  ".toList ++ Text.padRight 5 name.toList ++ ' ' :: value.toList ++ ['\n']))

theorem RegisterFile.dump_eq (file : RegisterFile) (radix : Radix) :
    file.dump radix = dumpText (file.shown radix) := by
  simp only [dump, dumpText, shown, nameWidth, List.map_map, List.foldl_map]
  rfl

theorem Report.join_registerText (radix : Radix) (file : RegisterFile) :
    "Registers:\n" ++ String.join (file.snapshot.map (registerText radix)) =
      sectionText (file.shown radix) := by
  simp only [sectionText, RegisterFile.snapshot, RegisterFile.shown, List.map_map]
  rfl

/-! Arguments that make sense are no inquiry, as no option is named like one. -/

namespace Arguments

variable {flags : List Flag} {argument : String} {arguments : List String}

theorem IsInquiry.cases (inquiry : IsInquiry argument) :
    (argument = "--help" ∨ argument = "--version") ∨
      ∃ letter rest, letter ∈ ['h', 'V'] ∧ argument.toList = '-' :: letter :: rest := by
  rcases inquiry with long | short
  · exact .inl (by simpa using long)
  · have split := List.take_append_drop 2 argument.toList
    rw [List.mem_cons, List.mem_singleton] at short
    rcases short with front | front
    · exact .inr ⟨'h', _, by decide, by rw [← split, front]; rfl⟩
    · exact .inr ⟨'V', _, by decide, by rw [← split, front]; rfl⟩

theorem IsInquiry.looksLikeOption (inquiry : IsInquiry argument) : LooksLikeOption argument := by
  rcases inquiry.cases with (rfl | rfl) | ⟨letter, rest, _, text⟩
  · decide
  · decide
  · refine ⟨by rw [text]; rfl, ?_⟩
    rintro rfl
    cases text

def Apart (flags : List Flag) : Prop :=
  ∀ flag ∈ flags, flag.long ∉ ["help", "version"] ∧ flag.letter ∉ [some 'h', some 'V']

theorem attached?_of_inquiry (apart : Apart flags) (inquiry : IsInquiry argument) :
    attached? flags argument.toList = none := by
  have long : ∀ name ∈ ["help", "version"], flags.find? (·.long = name) = none := by
    intro name member
    rw [List.find?_eq_none]
    intro flag present same
    exact (apart flag present).1 (of_decide_eq_true same ▸ member)
  have short : ∀ letter ∈ ['h', 'V'], flags.find? (·.letter = some letter) = none := by
    intro letter member
    rw [List.find?_eq_none]
    intro flag present same
    exact (apart flag present).2 (of_decide_eq_true same ▸ List.mem_map_of_mem member)
  rcases inquiry.cases with (rfl | rfl) | ⟨letter, rest, told, text⟩
  · exact congrArg (Option.map _) (long "help" (by decide))
  · exact congrArg (Option.map _) (long "version" (by decide))
  · have other : letter ≠ '-' := by
      rintro rfl
      exact absurd told (by decide)
    rw [text]
    unfold attached?
    split
    · rename_i same
      cases same
      exact absurd rfl other
    · rename_i same
      cases same
      rw [short _ told]
      rfl
    · rfl

theorem asked_of_cons (plain : ¬ IsInquiry argument)
    (asked : (beforeInquiry? (argument :: arguments)).isSome) :
    (beforeInquiry? arguments).isSome := by
  unfold beforeInquiry? at asked
  split at asked
  · cases asked
  · rwa [Option.isSome_map] at asked

/-- Arguments among which there is an inquiry make no sense. -/
theorem parse?_of_inquiry (apart : Apart flags) (asked : (beforeInquiry? arguments).isSome) :
    parse? flags arguments = none := by
  fun_induction parse? flags arguments with
  | case1 => cases asked
  | case2 rest =>
    rw [beforeInquiry?, if_pos rfl] at asked
    cases asked
  | case3 argument _ _ long value rest told ih =>
    have plain : ¬ IsInquiry argument := fun inquiry =>
      nomatch (attached?_of_inquiry apart inquiry).symm.trans told
    rw [ih (asked_of_cons plain asked)]
    rfl
  | case4 | case6 => rfl
  | case5 argument _ _ long value rest told noOption ih =>
    have plain : ¬ IsInquiry argument := fun inquiry =>
      nomatch (attached?_of_inquiry apart inquiry).symm.trans told
    have also : ¬ IsInquiry value := mt IsInquiry.looksLikeOption noOption
    rw [ih (asked_of_cons also (asked_of_cons plain asked))]
    rfl
  | case7 argument rest _ noOption ih =>
    have plain : ¬ IsInquiry argument := mt IsInquiry.looksLikeOption noOption
    rw [ih (asked_of_cons plain asked)]
    rfl

theorem inquires_eq_false (apart : Apart flags) (readable : Arguments → Bool)
    (understood : (parse? flags arguments).isSome) : inquires flags readable arguments = false := by
  cases asked : beforeInquiry? arguments with
  | none => rw [inquires, asked]; rfl
  | some front =>
    rw [parse?_of_inquiry apart (asked ▸ rfl)] at understood
    cases understood

end Arguments

namespace Request

variable {arguments : List String} {understood : Command}

theorem run_of_run? (told : Command.run? arguments = some understood) :
    run arguments = command understood := by
  obtain ⟨options, parsed, _⟩ := Option.bind_eq_some_iff.mp told
  obtain ⟨given, parsed, _⟩ := Option.bind_eq_some_iff.mp parsed
  have apart : Arguments.Apart RunOptions.flags := by unfold Arguments.Apart; decide
  rw [run, RunOptions.inquires, Arguments.inquires_eq_false apart _ (parsed ▸ rfl), told]
  rfl

theorem trace_of_trace? (told : Command.trace? arguments = some understood) :
    trace arguments = command understood := by
  obtain ⟨options, parsed, _⟩ := Option.bind_eq_some_iff.mp told
  obtain ⟨given, parsed, _⟩ := Option.bind_eq_some_iff.mp parsed
  have apart : Arguments.Apart TraceOptions.flags := by unfold Arguments.Apart; decide
  rw [trace, TraceOptions.inquires, Arguments.inquires_eq_false apart _ (parsed ▸ rfl), told]
  rfl

end Request

namespace Arguments

/-- Arguments of the run command and of the trace command that ask for the same: the chip, the radix
and the source are named alike, and the trace is one of the whole source, with the usual number of
steps, as text on standard output. -/
structure AskAlike (ran traced : Arguments) : Prop where
  variant : traced.value? "variant" = ran.value? "variant"
  descriptor : traced.value? "descriptor" = ran.value? "descriptor"
  base : traced.value? "base" = ran.value? "base"
  operands : traced.operands = ran.operands
  skip : traced.read? "skip" 0 count? = some 0
  length : traced.read? "len" none (fun value => (count? value).map some) = some none
  maxSteps : traced.read? "max-steps" 1000000 count? = some 1000000
  format : traced.read? "format" .text format? = some .text
  destination : traced.read? "out" none (fun value => (path? value).map some) = some none

end Arguments

def RunOptions.tracing (options : RunOptions) : TraceOptions where
  chip := options.chip
  radix := options.radix
  source := options.source
  skip := 0
  length := none
  maxSteps := 1000000
  format := .text
  destination := none

theorem Arguments.AskAlike.tracing {ran traced : Arguments} (alike : ran.AskAlike traced)
    {runArguments traceArguments : List String}
    (runGiven : parse? RunOptions.flags runArguments = some ran)
    (traceGiven : parse? TraceOptions.flags traceArguments = some traced) :
    TraceOptions.parse? traceArguments =
      (RunOptions.parse? runArguments).map RunOptions.tracing := by
  have chip : traced.chip? = ran.chip? := by
    rw [chip?, alike.variant, alike.descriptor, chip?]
  have radix : traced.radix? = ran.radix? := by
    rw [radix?, read?, alike.base, radix?, read?]
  have source : traced.source? = ran.source? := by
    rw [source?, alike.operands, source?]
  simp only [TraceOptions.parse?, TraceOptions.ofArguments?, RunOptions.parse?,
    RunOptions.ofArguments?, runGiven, traceGiven, Option.bind_eq_bind, Option.bind_some, chip,
    radix, source, alike.skip, alike.length, alike.maxSteps, alike.format, alike.destination]
  cases ran.chip? with
  | none => rfl
  | some _ =>
    cases ran.radix? with
    | none => rfl
    | some _ => cases ran.source? <;> rfl

/-- The outcomes of running and of tracing the same source. Neither writes a file; they have the
same exit code and the same error. If the chip can be loaded and the source be read, both show the
registers as the run leaves them; otherwise they show nothing. -/
structure RunOptions.Agrees (options : RunOptions) (files : Files) (ran traced : Outcome) :
    Prop where
  file : ran.file = none ∧ traced.file = none
  exitCode : traced.exitCode = ran.exitCode
  errorText : traced.errorText = ran.errorText
  registers : match options.chip.load files, files.read options.source with
    | .ok chip, .ok source =>
      let left := Chip.ofResult (chip.run source)
      let shown := left.registers.shown options.radix
      ran.output = s!"{left.name} ({left.shortName})\n" ++ dumpText shown ++ "\n" ∧
        ∃ steps ending, traced.output =
          s!"{left.name} <- {options.source}\n" ++ steps ++ sectionText shown ++ ending ++ "\n"
    | _, _ => ran.output = "" ∧ traced.output = ""

theorem Chip.trace_whole (chip : Chip) (name source : String) (radix : Radix) {maxSteps : Nat}
    (enough : (Text.lines source.toList).length ≤ maxSteps) :
    let report :=
      (chip.trace ⟨name, Program.number 1 (Text.lines source.toList)⟩ radix maxSteps).2
    report.chip = (ofResult (chip.run source)).name ∧
      report.registers = (ofResult (chip.run source)).registers.snapshot ∧
      report.failure =
        match chip.run source with
        | .ok _ _ => none
        | .error failure _ => some failure.failure := by
  obtain ⟨spare, rfl⟩ := Nat.exists_eq_add_of_le enough
  obtain ⟨traced, records⟩ := exists_records radix chip 1 (Text.lines source.toList)
  have told : traced.Tells 0 (chip.run source) := records.tells 0
  simp only [trace, records.traceLines_eq spare, told.chip_eq, true_and]
  cases result : chip.run source with
  | ok n left =>
    rw [result] at told
    exact told.2.1
  | error failure left =>
    rw [result] at told
    exact told.2

theorem RunOptions.finish_eq (options : RunOptions) (chip : Chip) (source : String) :
    options.finish chip source =
      { output := options.output (Chip.ofResult (chip.run source))
        error :=
          match chip.run source with
          | .ok _ _ => none
          | .error failure _ =>
            some s!"{options.source}:{failure.line}: {failure.fault.message}" } := by
  unfold finish
  cases chip.run source <;> rfl

theorem RunOptions.finish_tracing (options : RunOptions) (chip : Chip) {source : String}
    (enough : (Text.lines source.toList).length ≤ 1000000) :
    let left := Chip.ofResult (chip.run source)
    ∃ steps ending,
      options.tracing.finish chip ⟨options.source, Program.number 1 (Text.lines source.toList)⟩ =
        { output := s!"{left.name} <- {options.source}\n" ++ steps ++
            sectionText (left.registers.shown options.radix) ++ ending ++ "\n"
          error := (options.finish chip source).error } := by
  intro left
  obtain ⟨name, registers, failure⟩ :=
    chip.trace_whole options.source source options.radix enough
  let program : Program := ⟨options.source, Program.number 1 (Text.lines source.toList)⟩
  let report := (chip.trace program options.radix 1000000).2
  let steps := String.join (report.steps.map Report.stepText)
  let ending := (report.failure.map Report.failureText).getD ""
  have text : report.text = s!"{left.name} <- {options.source}\n" ++ steps ++
      sectionText (left.registers.shown options.radix) ++ ending := by
    rw [← Report.join_registerText, ← registers, ← name, ← String.append_assoc]
    rfl
  have error : report.failure.map (fun failure =>
      s!"{report.source}:{failure.line}: {failure.message}") =
        (options.finish chip source).error := by
    rw [finish_eq, failure]
    cases chip.run source <;> rfl
  refine ⟨steps, ending, ?_⟩
  rw [← text, ← error]
  rfl

theorem Files.eq_some_of_read {files : Files} {path text : String}
    (read : files.read path = .ok text) : files path = some text := by
  unfold Files.read at read
  split at read
  · cases read
    assumption
  · cases read

theorem RunOptions.agrees (options : RunOptions) (files : Files)
    (short : ∀ text, files options.source = some text →
      (Text.lines text.toList).length ≤ 1000000) :
    options.Agrees files (options.command files) (options.tracing.command files) := by
  unfold RunOptions.command TraceOptions.command
  simp only [RunOptions.tracing, Program.window_all, Except.mapError]
  cases loaded : options.chip.load files with
  | error error => exact ⟨⟨rfl, rfl⟩, rfl, rfl, by simp only [loaded]; exact ⟨rfl, rfl⟩⟩
  | ok chip =>
    cases read : files.read options.source with
    | error error => exact ⟨⟨rfl, rfl⟩, rfl, rfl, by simp only [loaded, read]; exact ⟨rfl, rfl⟩⟩
    | ok source =>
      obtain ⟨steps, ending, traced⟩ :=
        options.finish_tracing chip (short source (Files.eq_some_of_read read))
      change options.Agrees files (options.finish chip source)
        (options.tracing.finish chip ⟨options.source, Program.number 1 (Text.lines source.toList)⟩)
      rw [traced]
      refine ⟨⟨?_, rfl⟩, ?_, ?_, ?_⟩
      · rw [finish_eq]
      · rw [Outcome.exitCode, Outcome.exitCode]
      · rw [Outcome.errorText, Outcome.errorText]
      · simp only [loaded, read]
        refine ⟨?_, steps, ending, rfl⟩
        rw [finish_eq, RunOptions.output, RegisterFile.dump_eq]

end DspChip
