import DspChip.Proofs.Chip.Rejection
import DspChip.Proofs.Text.Lines
/-! Running texts one behind the other. A run is the runs of its parts in order, if the first part
ends a line; the second part counts on where the first one stopped. -/

namespace DspChip

def LineFault.behind (count : Nat) (failure : LineFault) : LineFault :=
  { failure with line := failure.line + count }

namespace Chip

variable {chip : Chip}

/-- Where lines stand, and what was executed before them, shows in the result only. -/
theorem runLines_behind (chip : Chip) (line executed count n : Nat) (lines : List (List Char)) :
    chip.runLines (line + count) (n + executed) lines =
      match chip.runLines line executed lines with
      | .ok m after => .ok (n + m) after
      | .error failure after => .error (failure.behind count) after := by
  induction lines generalizing chip line executed with
  | nil => rfl
  | cons text rest ih =>
    cases result : chip.execute text with
    | error fault next =>
      rw [runLines_of_error result, runLines_of_error result]
      rfl
    | ok decoded next =>
      rw [runLines_of_ok result, runLines_of_ok result, Nat.add_right_comm, Nat.add_assoc n]
      exact ih next (line + 1) (executed + decoded.toList.length)

theorem runLines_append (chip : Chip) (line executed : Nat) (first second : List (List Char)) :
    chip.runLines line executed (first ++ second) =
      match chip.runLines line executed first with
      | .ok n next => next.runLines (line + first.length) n second
      | .error failure next => .error failure next := by
  induction first generalizing chip line executed with
  | nil => rfl
  | cons text rest ih =>
    rw [List.cons_append]
    cases result : chip.execute text with
    | error fault next => rw [runLines_of_error result, runLines_of_error result]
    | ok decoded next =>
      rw [runLines_of_ok result, runLines_of_ok result, List.length_cons, ih, Nat.add_assoc,
        Nat.add_comm 1]

theorem runBefore_of_run (builtin : chip.IsPrimitive) {source : String} {failure : LineFault}
    {after : Chip} (failed : chip.run source = .error failure after) :
    ∃ n, chip.runBefore source failure.line = .ok n after := by
  obtain ⟨count, n, before, text, place, _, _, ran, faulty⟩ := runLines_before failed
  have kept := shapes_runLines builtin ((Text.lines source.toList).take count) 1 0
  rw [ran] at kept
  have frame := execute_frame kept.1 text
  rw [ofResult, faulty] at frame
  refine ⟨n, ?_⟩
  rw [runBefore, place, Nat.add_sub_cancel_left, frame]
  exact ran

/-- Running a text behind another one that ends a line. If the first one fails, so does the whole,
in the same way; otherwise the second one runs on the chip that the first one leaves, both counts
are added, and lines are counted on. A failing run leaves what the lines before the failing one
leave. -/
theorem run_append (chip : Chip) (builtin : chip.IsPrimitive) :
    (∀ first second : String, Text.Ended first.toList →
      chip.run (first ++ second) =
        match chip.run first with
        | .error failure after => .error failure after
        | .ok n between =>
          match between.run second with
          | .ok m after => .ok (n + m) after
          | .error failure after =>
            .error (failure.behind (Text.lines first.toList).length) after) ∧
    ∀ source failure after, chip.run source = .error failure after →
      ∃ n, chip.runBefore source failure.line = .ok n after := by
  constructor
  · intro first second ended
    rw [run, String.toList_append, Text.lines_append ended, runLines_append, ← run]
    cases chip.run first with
    | error failure after => rfl
    | ok n between => exact between.runLines_behind 1 0 (Text.lines first.toList).length n _
  · intro source failure after failed
    exact runBefore_of_run builtin failed

theorem run_append_toy :
    ∃ chip, (Descriptor.toy .wrap).build = .ok chip ∧ chip.IsPrimitive ∧
      Text.Ended "LDA #5, ACC\r\n; nothing\n".toList ∧
      (chip.run ("LDA #5, ACC\r\n; nothing\n" ++ "ADDX X, #300\nADDX VER, X") =
        match chip.run "LDA #5, ACC\r\n; nothing\n" with
        | .error failure after => .error failure after
        | .ok n between =>
          match between.run "ADDX X, #300\nADDX VER, X" with
          | .ok m after => .ok (n + m) after
          | .error failure after => .error
            (failure.behind (Text.lines "LDA #5, ACC\r\n; nothing\n".toList).length) after) ∧
      chip.run "start:\n1:" = .error ⟨2, "1:", .invalidLabel "1"⟩ chip ∧
      ∃ n, chip.runBefore "start:\n1:" 2 = .ok n chip := by
  obtain ⟨chip, built, grammar, _⟩ := Descriptor.exists_build_toy .wrap
  have builtin := Descriptor.isPrimitive_of_build built
  have ended : Text.Ended "LDA #5, ACC\r\n; nothing\n".toList := Or.inr (by decide)
  have failed : chip.run "start:\n1:" = .error ⟨2, "1:", .invalidLabel "1"⟩ chip := by
    have cut : Text.lines "start:\n1:".toList = ["start:".toList, "1:".toList] := by decide
    have label : chip.execute "start:".toList = .ok none chip := by
      rw [execute, grammar]
      rfl
    have number : chip.execute "1:".toList = .error (.invalidLabel "1") chip := by
      rw [execute, grammar]
      rfl
    rw [run, cut, runLines_of_ok label, runLines_of_error number]
    rfl
  exact ⟨chip, built, builtin, ended, (run_append chip builtin).1 _ _ ended, failed,
    (run_append chip builtin).2 _ _ _ failed⟩

end Chip

end DspChip
