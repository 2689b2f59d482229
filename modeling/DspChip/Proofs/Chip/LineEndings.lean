import DspChip.Proofs.Descriptor.Build
import DspChip.Proofs.Text.Lines
import DspChip.Trace
/-! Texts with line ends of two characters. They run as the same texts with line feeds alone, since
a carriage return that is left at the end of a line is a blank there. -/

namespace DspChip

namespace Grammar

variable (grammar : Grammar) {line longer back : List Char}

theorem takeWhile_blank (blank : Text.AllBlank back) : back.takeWhile (· ≠ grammar.comment) = back := by
  rw [List.takeWhile_eq_self_iff]
  intro c member
  have apart : c ≠ grammar.comment := by
    rintro rfl
    exact grammar.free (.inr (.inl (blank _ member)))
  exact decide_eq_true apart

theorem decode_append_blank (line : List Char) (blank : Text.AllBlank back) :
    grammar.decode (line ++ back) = grammar.decode line := by
  have same : grammar.code (line ++ back) = grammar.code line := by
    rw [code, code, List.takeWhile_append]
    split
    next free =>
      have whole : line.takeWhile (· ≠ grammar.comment) = line :=
        (List.takeWhile_prefix _).eq_of_length free
      rw [grammar.takeWhile_blank blank, whole, Text.trim_append_blank line blank]
    -- a comment in the line hides what stands behind it
    next => rfl
  rw [decode, same, ← decode]

theorem decode_of_lengthens (lengthens : Text.Lengthens line longer) :
    grammar.decode longer = grammar.decode line := by
  have blank : Text.AllBlank ['\r'] := List.forall_mem_singleton.mpr (by decide)
  rcases lengthens with rfl | rfl
  · rfl
  · exact grammar.decode_append_blank line blank

end Grammar

namespace Chip

variable {line longer : List Char}

theorem execute_of_lengthens (chip : Chip) (lengthens : Text.Lengthens line longer) :
    chip.execute longer = chip.execute line := by
  rw [execute, execute, chip.grammar.decode_of_lengthens lengthens]

/-- The results of two runs are the same but for a carriage return at the end of the text that they
report. -/
def SameButReturn : EStateM.Result LineFault Chip Nat → EStateM.Result LineFault Chip Nat → Prop
  | .ok n after, result => result = .ok n after
  | .error failure after, result =>
    ∃ text, result = .error { failure with text } after ∧
      (text = failure.text ∨ text = failure.text ++ "\r")

theorem runLines_of_lengthens {lines others : List (List Char)}
    (lengthens : List.Forall₂ Text.Lengthens lines others) (chip : Chip) (place executed : Nat) :
    SameButReturn (chip.runLines place executed lines) (chip.runLines place executed others) := by
  induction lengthens generalizing chip place executed with
  | nil => exact rfl
  | @cons line longer lines others both rest ih =>
    have same := chip.execute_of_lengthens both
    cases result : chip.execute line with
    | error fault next =>
      rw [result] at same
      rw [runLines_of_error result, runLines_of_error same]
      refine ⟨String.ofList longer, rfl, ?_⟩
      rcases both with rfl | rfl
      · exact .inl rfl
      · exact .inr String.ofList_append
    | ok decoded next =>
      rw [result] at same
      rw [runLines_of_ok result, runLines_of_ok same]
      exact ih next _ _

/-- Line ends do not matter. A carriage return before each line feed of a text without any changes
neither the result of a run, failures and their texts included, nor a window. In a text that holds
carriage returns it changes at most the text of a failing line, which may come to end in one. -/
theorem run_ignores_line_endings (chip : Chip) (source : String) :
    let returned := String.ofList (Text.withReturns source.toList)
    ('\r' ∉ source.toList →
      chip.run returned = chip.run source ∧
        ∀ name skip limit,
          Program.window name returned skip limit = Program.window name source skip limit) ∧
      SameButReturn (chip.run source) (chip.run returned) := by
  intro returned
  have told : returned.toList = Text.withReturns source.toList := String.toList_ofList
  constructor
  · intro bare
    have lines : Text.lines returned.toList = Text.lines source.toList := by
      rw [told, Text.lines_withReturns bare]
    refine ⟨by rw [run, lines, ← run], fun name skip limit => ?_⟩
    rw [Program.window, lines, ← Program.window]
  · rw [run, run, told]
    exact runLines_of_lengthens (Text.lengthens_lines source.toList) chip 1 0

/-- A label that is none, in the last line of a text, and in a line that has a carriage return too
many. -/
theorem run_ignores_line_endings_label :
    ∃ chip, (Descriptor.toy .wrap).build = .ok chip ∧ '\r' ∉ "start:\n1:".toList ∧
      chip.run "start:\r\n1:" = .error ⟨2, "1:", .invalidLabel "1"⟩ chip ∧
      Program.window "labels" "start:\r\n1:" 1 none = .ok ⟨"labels", [⟨2, "1:".toList⟩]⟩ ∧
      chip.run "start:\n1:\r\n" = .error ⟨2, "1:", .invalidLabel "1"⟩ chip ∧
      ∃ text, chip.run "start:\r\n1:\r\r\n" = .error ⟨2, text, .invalidLabel "1"⟩ chip ∧
        (text = "1:" ∨ text = "1:" ++ "\r") := by
  obtain ⟨chip, built, grammar, _⟩ := Descriptor.exists_build_toy .wrap
  have label : chip.execute "start:".toList = .ok none chip := by
    rw [execute, grammar]
    rfl
  have number : chip.execute "1:".toList = .error (.invalidLabel "1") chip := by
    rw [execute, grammar]
    rfl
  have failed (source : String) (cut : Text.lines source.toList = ["start:".toList, "1:".toList]) :
      chip.run source = .error ⟨2, "1:", .invalidLabel "1"⟩ chip := by
    rw [run, cut, runLines_of_ok label, runLines_of_error number]
    rfl
  have bare : '\r' ∉ "start:\n1:".toList := by decide
  obtain ⟨same, windows⟩ := (run_ignores_line_endings chip "start:\n1:").1 bare
  have more := (run_ignores_line_endings chip "start:\n1:\r\n").2
  rw [failed "start:\n1:\r\n" (by decide)] at more
  exact ⟨chip, built, bare, same.trans (failed _ (by decide)), windows "labels" 1 none,
    failed _ (by decide), more⟩

end Chip

end DspChip
