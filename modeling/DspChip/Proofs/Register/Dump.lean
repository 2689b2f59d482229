import DspChip.Proofs.Number.Format
import DspChip.Register.File
import Mathlib.Data.List.Forall2
import Mathlib.Data.String.Basic
/-! Register dumps. The values of all registers start at one column, behind the whole short names,
and where two files with the same short names are shown alike they hold the same values. -/

namespace DspChip

namespace Text

theorem length_le_utf8ByteSize (text : String) : text.length ≤ text.utf8ByteSize := by
  rw [← String.utf8Len_toList, ← String.length_toList]
  induction text.toList with
  | nil => exact Nat.le_refl 0
  | cons c rest ih =>
    have positive := c.utf8Size_pos
    rw [List.length_cons, String.utf8Len_cons]
    omega

def label (width : Nat) (name : String) : List Char :=
  padRight width name.toList ++ [' ']

theorem length_label {width : Nat} {name : String} (fits : name.length ≤ width) :
    (label width name).length = width + 1 := by
  rw [label, padRight, List.length_append, List.length_rightpad, String.length_toList,
    Nat.max_eq_left fits, List.length_singleton]

theorem label_eq (width : Nat) (name : String) :
    label width name = name.toList ++ List.replicate (width - name.length + 1) ' ' := by
  rw [label, padRight, List.rightpad, String.length_toList, List.append_assoc, List.replicate_succ']

variable {mark : Char}

theorem eq_of_append_mark {first second front back : List Char} (free : mark ∉ first)
    (freeToo : mark ∉ second) (same : first ++ mark :: front = second ++ mark :: back) :
    first = second ∧ front = back := by
  have cut := congrArg (List.splitOn mark) same
  rw [List.splitOn_append_cons_self_of_not_mem free,
    List.splitOn_append_cons_self_of_not_mem freeToo] at cut
  obtain rfl := (List.cons.inj cut).1
  exact ⟨rfl, (List.cons.inj (List.append_cancel_left same)).2⟩

theorem intercalate_labelled_cons (label : List Char) {labels values : List (List Char)}
    (value : List Char) (more : labels ≠ []) (sizes : values.length = labels.length) :
    [mark].intercalate (List.zipWith (· ++ ·) (label :: labels) (value :: values)) =
      label ++ (value ++ mark :: [mark].intercalate (List.zipWith (· ++ ·) labels values)) := by
  obtain ⟨next, later, rfl⟩ := List.exists_cons_of_ne_nil more
  obtain ⟨second, others, rfl⟩ := List.exists_cons_of_length_eq_add_one sizes
  simp [List.intercalate_cons_cons]

/-- Values without the mark can be told from the text that joins them by the mark, each behind its
label, whatever the labels hold. -/
theorem eq_of_intercalate_labelled_eq {labels first second : List (List Char)}
    (firstSize : first.length = labels.length) (secondSize : second.length = labels.length)
    (firstFree : ∀ value ∈ first, mark ∉ value) (secondFree : ∀ value ∈ second, mark ∉ value)
    (same : [mark].intercalate (List.zipWith (· ++ ·) labels first) =
      [mark].intercalate (List.zipWith (· ++ ·) labels second)) :
    first = second := by
  induction labels generalizing first second with
  | nil => rw [List.length_eq_zero_iff.mp firstSize, List.length_eq_zero_iff.mp secondSize]
  | cons label rest ih =>
    obtain ⟨v, vs, rfl⟩ := List.exists_cons_of_length_eq_add_one firstSize
    obtain ⟨w, ws, rfl⟩ := List.exists_cons_of_length_eq_add_one secondSize
    replace firstSize := Nat.succ.inj firstSize
    replace secondSize := Nat.succ.inj secondSize
    by_cases last : rest = []
    · subst last
      obtain rfl := List.length_eq_zero_iff.mp firstSize
      obtain rfl := List.length_eq_zero_iff.mp secondSize
      simp only [List.zipWith_cons_cons, List.zipWith_nil_left, List.intercalate_singleton] at same
      rw [List.append_cancel_left same]
    · -- labels may hold the mark, but behind the first of them the first mark ends the first value
      rw [intercalate_labelled_cons label v last firstSize,
        intercalate_labelled_cons label w last secondSize] at same
      obtain ⟨free, others⟩ := List.forall_mem_cons.mp firstFree
      obtain ⟨freeToo, othersToo⟩ := List.forall_mem_cons.mp secondFree
      obtain ⟨rfl, behind⟩ := eq_of_append_mark free freeToo (List.append_cancel_left same)
      rw [ih firstSize secondSize others othersToo behind]

end Text

theorem Radix.newline_not_mem_format (radix : Radix) (v : Int) :
    '\n' ∉ (radix.format v).toList := by
  have digits := Numeral.not_mem_of_read? (radix.read?_magnitude v.natAbs) (c := '\n') (by simp)
  rw [Radix.format, String.toList_ofList, List.append_assoc, List.mem_append, not_or]
  refine ⟨?_, digits⟩
  split <;> simp

/-- An entry of a dump: the whole short name and spaces up to a column, and from there on the value.
-/
structure Register.EntryAt (radix : Radix) (column : Nat) (r : Register) (entry : List Char) :
    Prop where
  name : ∃ spaces, 1 ≤ spaces ∧
    entry.take column = r.shortName.toList ++ List.replicate spaces ' '
  value : entry.drop column = (radix.format r.value.toInt).toList

theorem Register.toList_dumpLine (r : Register) (radix : Radix) (width : Nat) :
    (r.dumpLine radix width).toList =
      Text.label width r.shortName ++ (radix.format r.value.toInt).toList := by
  rw [dumpLine, String.toList_append, String.toList_append, String.toList_ofList, Text.label]
  rfl

theorem Register.entryAt_dumpLine {r : Register} {width : Nat} (fits : r.shortName.length ≤ width)
    (radix : Radix) : r.EntryAt radix (width + 1) (r.dumpLine radix width).toList := by
  have length := Text.length_label fits
  rw [toList_dumpLine]
  refine ⟨⟨width - r.shortName.length + 1, Nat.le_add_left 1 _, ?_⟩, List.drop_left' length⟩
  rw [List.take_left' length, Text.label_eq]

namespace RegisterFile

def shortNames (file : RegisterFile) : List String :=
  file.registers.map (·.shortName)

theorem nameWidth_eq (file : RegisterFile) :
    file.nameWidth = (file.shortNames.map String.utf8ByteSize).foldl max 0 := by
  rw [nameWidth, shortNames, List.map_map, List.foldl_map]
  rfl

theorem utf8ByteSize_le_nameWidth {file : RegisterFile} {name : String}
    (member : name ∈ file.shortNames) : name.utf8ByteSize ≤ file.nameWidth := by
  rw [nameWidth_eq, List.foldl_max]
  exact (List.le_max?_getD_of_mem (List.mem_map_of_mem member)).trans (Nat.le_max_right 0 _)

def labels (file : RegisterFile) : List (List Char) :=
  file.shortNames.map (Text.label file.nameWidth)

def valueTexts (file : RegisterFile) (radix : Radix) : List (List Char) :=
  file.values.map fun v => (radix.format v.toInt).toList

theorem toList_dump (file : RegisterFile) (radix : Radix) :
    (file.dump radix).toList =
      ['\n'].intercalate (List.zipWith (· ++ ·) file.labels (file.valueTexts radix)) := by
  rw [dump, String.toList_intercalate, labels, shortNames, valueTexts, values]
  simp only [List.map_map, List.zipWith_map, List.zipWith_self]
  congr 1
  exact List.map_congr_left fun r _ => r.toList_dumpLine radix file.nameWidth

theorem labels_congr {file other : RegisterFile} (names : other.shortNames = file.shortNames) :
    other.labels = file.labels := by
  rw [labels, labels, nameWidth_eq, nameWidth_eq, names]

theorem length_labels (file : RegisterFile) : file.labels.length = file.registers.length := by
  rw [labels, shortNames, List.length_map, List.length_map]

theorem length_valueTexts (file : RegisterFile) (radix : Radix) :
    (file.valueTexts radix).length = file.registers.length := by
  rw [valueTexts, values, List.length_map, List.length_map]

theorem newline_not_mem_of_mem_valueTexts {file : RegisterFile} {radix : Radix} {text : List Char}
    (member : text ∈ file.valueTexts radix) : '\n' ∉ text := by
  obtain ⟨v, -, rfl⟩ := List.mem_map.mp member
  exact radix.newline_not_mem_format v.toInt

theorem values_eq_of_valueTexts_eq {file other : RegisterFile} {radix : Radix}
    (same : other.valueTexts radix = file.valueTexts radix) : other.values = file.values := by
  refine List.map_injective_iff.mpr ?_ same
  intro v w shown
  exact Int64.toInt_inj.mp (Radix.eq_of_format_eq (String.toList_inj.mp shown))

theorem values_eq_of_dump_eq {file other : RegisterFile} {radix : Radix}
    (names : other.shortNames = file.shortNames) (same : other.dump radix = file.dump radix) :
    other.values = file.values := by
  have labels := labels_congr names
  have count : other.registers.length = file.registers.length := by
    rw [← length_labels, labels, length_labels]
  have texts := congrArg String.toList same
  rw [toList_dump, toList_dump, labels] at texts
  refine values_eq_of_valueTexts_eq (Text.eq_of_intercalate_labelled_eq ?_ ?_ ?_ ?_ texts)
  · rw [length_valueTexts, length_labels, count]
  · rw [length_valueTexts, length_labels]
  · exact fun _ => newline_not_mem_of_mem_valueTexts
  · exact fun _ => newline_not_mem_of_mem_valueTexts

theorem dump_congr {file other : RegisterFile} (names : other.shortNames = file.shortNames)
    (same : other.values = file.values) (radix : Radix) : other.dump radix = file.dump radix := by
  rw [← String.toList_inj, toList_dump, toList_dump, labels_congr names, valueTexts, valueTexts, same]

/-- A dump is aligned and loses nothing. It has an entry for each register, in order. The short name
stands whole in a column that has a character for each byte of the longest one, and a space behind
it the value starts. Two files with the same short names have the same dump if they hold the same
values, and only then. -/
theorem dump_keeps_columns_and_values (file : RegisterFile) (radix : Radix) :
    (∃ entries, (file.dump radix).toList = ['\n'].intercalate entries ∧
      List.Forall₂ (Register.EntryAt radix (file.nameWidth + 1)) file.registers entries) ∧
    ∀ other : RegisterFile, other.shortNames = file.shortNames →
      (other.dump radix = file.dump radix ↔ other.values = file.values) := by
  refine ⟨⟨file.registers.map fun r => (r.dumpLine radix file.nameWidth).toList, ?_, ?_⟩, ?_⟩
  · rw [dump, String.toList_intercalate, List.map_map]
    rfl
  · rw [List.forall₂_map_right_iff, List.forall₂_same]
    intro r present
    have bytes := utf8ByteSize_le_nameWidth (List.mem_map_of_mem present)
    exact Register.entryAt_dumpLine ((Text.length_le_utf8ByteSize r.shortName).trans bytes) radix
  · exact fun other names => ⟨values_eq_of_dump_eq names, fun same => dump_congr names same radix⟩

/-- One short name reads like an entry with a line end behind it, the other has more bytes than
characters. -/
theorem dump_keeps_columns_and_values_line_break :
    let broken : Register :=
      ⟨⟨"Broken", "A 7dh\n", 16, 16, .wrap, .full, by decide, by decide, by decide⟩, 0x1F, by decide⟩
    let wide : Register :=
      ⟨⟨"Wide", "日é", 8, 8, .wrap, .full, by decide, by decide, by decide⟩, 0, by simp⟩
    let file : RegisterFile := { registers := [broken, wide], distinct := by decide }
    let other := file.put "WIDE" 1
    other.shortNames = file.shortNames ∧ other.values ≠ file.values ∧
      other.dump .hexadecimal ≠ file.dump .hexadecimal ∧
      file.nameWidth = 6 ∧ ∃ first second : List Char,
        (file.dump .hexadecimal).toList = first ++ '\n' :: second ∧
          broken.EntryAt .hexadecimal 7 first ∧ wide.EntryAt .hexadecimal 7 second := by
  intro broken wide file other
  have names : other.shortNames = file.shortNames := by decide
  have apart : other.values ≠ file.values := by decide
  obtain ⟨⟨entries, joined, aligned⟩, tells⟩ := dump_keeps_columns_and_values file .hexadecimal
  have width : file.nameWidth = 6 := by decide
  rw [width] at aligned
  cases aligned with
  | cons first rest =>
    cases rest with
    | cons second ending =>
      cases ending
      refine ⟨names, apart, (tells other names).not.mpr apart, width, _, _, ?_, first, second⟩
      simpa [List.intercalate_cons_cons] using joined

end RegisterFile

end DspChip
