import DspChip.Proofs.Text.Items
import Mathlib.Data.List.Forall2
/-! The lines of a text. Joining lines by line feeds and cutting the text again gives the lines, if
each of them is a whole line: not empty, without a line feed, and with no carriage return at its
end. -/

namespace DspChip.Text

structure WholeLine (line : List Char) : Prop where
  nonempty : line ≠ []
  unbroken : '\n' ∉ line
  bare : line.getLast? ≠ some '\r'

instance (line : List Char) : Decidable (WholeLine line) :=
  decidable_of_iff (line ≠ [] ∧ '\n' ∉ line ∧ line.getLast? ≠ some '\r')
    ⟨fun ⟨nonempty, unbroken, bare⟩ => ⟨nonempty, unbroken, bare⟩,
      fun whole => ⟨whole.nonempty, whole.unbroken, whole.bare⟩⟩

variable {all : List (List Char)}

theorem endLines_eq_self (whole : ∀ line ∈ all, WholeLine line) : endLines all = all := by
  induction all with
  | nil => rfl
  | cons line rest ih =>
    obtain ⟨own, others⟩ := List.forall_mem_cons.mp whole
    cases rest with
    | nil => exact if_neg own.nonempty
    | cons next later => rw [endLines, dropReturn, if_neg own.bare, ih others]

theorem lines_intercalate (whole : ∀ line ∈ all, WholeLine line) :
    lines (['\n'].intercalate all) = all := by
  rw [lines]
  cases all with
  | nil => rfl
  | cons line rest =>
    rw [List.splitOn_intercalate '\n' (fun part member => (whole part member).unbroken)
      (List.cons_ne_nil line rest)]
    exact endLines_eq_self whole

theorem endLines_append (front : List (List Char)) {back : List (List Char)} (more : back ≠ []) :
    endLines (front ++ back) = front.map dropReturn ++ endLines back := by
  induction front with
  | nil => rfl
  | cons line rest ih =>
    rw [List.map_cons, List.cons_append, List.cons_append, ← ih]
    -- the line is not the last one, since there are more behind the rest
    cases both : rest ++ back with
    | nil => exact absurd (List.append_eq_nil_iff.mp both).2 more
    | cons next later => rfl

def Ended (text : List Char) : Prop :=
  text = [] ∨ text.getLast? = some '\n'

theorem lines_append {first : List Char} (ended : Ended first) (second : List Char) :
    lines (first ++ second) = lines first ++ lines second := by
  rcases ended with rfl | last
  · rfl
  · obtain ⟨front, rfl⟩ := List.getLast?_eq_some_iff.mp last
    have cut : ∀ back, lines (front ++ '\n' :: back) =
        (front.splitOn '\n').map dropReturn ++ lines back := by
      intro back
      rw [lines, List.splitOn_append_cons_self, endLines_append _ (List.splitOn_ne_nil _ _), lines]
    have none : lines [] = [] := rfl
    rw [List.append_assoc, List.singleton_append, cut, cut, none, List.append_nil]

/-! Line ends of two characters. Where a carriage return is put before each line feed of a text, its
lines stay as they are, but for a line that had one there before. -/

variable {line longer text : List Char}

theorem lines_append_cons (unbroken : '\n' ∉ line) (text : List Char) :
    lines (line ++ '\n' :: text) = dropReturn line :: lines text := by
  rw [lines, List.splitOn_append_cons_self_of_not_mem unbroken, ← List.singleton_append,
    endLines_append _ (List.splitOn_ne_nil _ _), lines]
  rfl

theorem dropReturn_append (line : List Char) : dropReturn (line ++ ['\r']) = line := by
  rw [dropReturn, if_pos List.getLast?_concat, List.dropLast_concat]

/-- The text with a carriage return before each of its line feeds. -/
def withReturns (text : List Char) : List Char :=
  text.flatMap fun c => if c = '\n' then ['\r', '\n'] else [c]

theorem withReturns_of_unbroken (unbroken : '\n' ∉ text) : withReturns text = text := by
  have kept : ∀ c ∈ text, (if c = '\n' then ['\r', '\n'] else [c]) = [c] :=
    fun c member => if_neg (ne_of_mem_of_not_mem member unbroken)
  rw [withReturns, List.flatMap_congr kept]
  exact List.flatMap_singleton' text

theorem withReturns_append_cons (unbroken : '\n' ∉ line) (text : List Char) :
    withReturns (line ++ '\n' :: text) = (line ++ ['\r']) ++ '\n' :: withReturns text := by
  have front := withReturns_of_unbroken unbroken
  rw [withReturns] at front
  rw [withReturns, List.flatMap_append, front, List.flatMap_cons, if_pos rfl, withReturns]
  simp

def Lengthens (line longer : List Char) : Prop :=
  longer = line ∨ longer = line ++ ['\r']

theorem lengthens_dropReturn (line : List Char) : Lengthens (dropReturn line) line := by
  by_cases ends : line.getLast? = some '\r'
  · obtain ⟨front, rfl⟩ := List.getLast?_eq_some_iff.mp ends
    rw [dropReturn_append]
    exact .inr rfl
  · rw [dropReturn, if_neg ends]
    exact .inl rfl

/-- A carriage return that is put before a line feed belongs to the line end. One that stood there
before does so no longer. -/
theorem lengthens_lines (text : List Char) :
    List.Forall₂ Lengthens (lines text) (lines (withReturns text)) := by
  induction text using piece_induction '\n' with
  | last line unbroken =>
    rw [withReturns_of_unbroken unbroken]
    exact List.forall₂_same.mpr fun _ _ => .inl rfl
  | more line text unbroken ih =>
    rw [withReturns_append_cons unbroken, lines_append_cons unbroken,
      lines_append_cons (by simpa using unbroken), dropReturn_append]
    exact .cons (lengthens_dropReturn line) ih

theorem lines_withReturns (bare : '\r' ∉ text) : lines (withReturns text) = lines text := by
  induction text using piece_induction '\n' with
  | last line unbroken => rw [withReturns_of_unbroken unbroken]
  | more line text unbroken ih =>
    rw [List.mem_append, List.mem_cons, not_or, not_or] at bare
    have whole : dropReturn line = line :=
      if_neg fun ends => bare.1 (List.mem_of_getLast? ends)
    rw [withReturns_append_cons unbroken, lines_append_cons unbroken,
      lines_append_cons (by simpa using unbroken), dropReturn_append, ih bare.2.2, whole]

end DspChip.Text
