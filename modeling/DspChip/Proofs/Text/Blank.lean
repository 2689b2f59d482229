import DspChip.Text
import Mathlib.Data.List.TakeWhile
/-! Trimming and first words, told by what stands where in a text instead of by the functions that
cut it. -/

namespace DspChip.Text

abbrev AllBlank (text : List Char) : Prop := ∀ c ∈ text, IsBlank c

def Strips (text word : List Char) : Prop :=
  ∃ front back, text = front ++ (word ++ back) ∧ AllBlank front ∧ AllBlank back ∧
    (∀ c, word.head? = some c → ¬ IsBlank c) ∧ ∀ c, word.getLast? = some c → ¬ IsBlank c

/-- Only blanks stand before the word, and the rest behind it is empty or begins with a blank. -/
structure FirstWord (text word rest : List Char) : Prop where
  stands : ∃ front, AllBlank front ∧ text = front ++ (word ++ rest)
  nonempty : word ≠ []
  solid : ∀ c ∈ word, ¬ IsBlank c
  ended : ∀ c, rest.head? = some c → IsBlank c

variable {front word back rest text : List Char}

theorem trimLeft_append (blank : AllBlank front) (text : List Char) :
    trimLeft (front ++ text) = trimLeft text :=
  List.dropWhile_append_of_pos fun c member => decide_eq_true (blank c member)

theorem trimLeft_eq_nil (blank : AllBlank text) : trimLeft text = [] :=
  List.dropWhile_eq_nil_iff.mpr fun c member => decide_eq_true (blank c member)

theorem trimLeft_eq_self (begins : ∀ c, text.head? = some c → ¬ IsBlank c) :
    trimLeft text = text := by
  cases text with
  | nil => rfl
  | cons first rest => exact List.dropWhile_cons_of_neg (by simpa using begins first rfl)

theorem not_isBlank_of_head?_trimLeft {c : Char} (head : (trimLeft text).head? = some c) :
    ¬ IsBlank c := by
  have stops := List.head?_dropWhile_not (fun c => decide (IsBlank c)) text
  rw [trimLeft] at head
  rw [head] at stops
  simpa using stops

theorem not_isBlank_of_getLast?_trimRight {c : Char} (last : (trimRight text).getLast? = some c) :
    ¬ IsBlank c := by
  rw [trimRight, List.getLast?_reverse] at last
  exact not_isBlank_of_head?_trimLeft last

theorem exists_blank_append_trimLeft (text : List Char) :
    ∃ front, AllBlank front ∧ text = front ++ trimLeft text := by
  refine ⟨text.takeWhile fun c => decide (IsBlank c), ?_, List.takeWhile_append_dropWhile.symm⟩
  intro c member
  simpa using List.mem_takeWhile_imp member

theorem exists_trimRight_append_blank (text : List Char) :
    ∃ back, AllBlank back ∧ text = trimRight text ++ back := by
  obtain ⟨front, blank, split⟩ := exists_blank_append_trimLeft text.reverse
  refine ⟨front.reverse, fun c member => blank c (List.mem_reverse.mp member), ?_⟩
  rw [trimRight, ← List.reverse_append, ← split, List.reverse_reverse]

theorem trim_of_strips (strips : Strips text word) : trim text = word := by
  obtain ⟨front, back, rfl, before, behind, begins, ends⟩ := strips
  have cut : trimRight (word ++ back) = word := by
    rw [trimRight, List.reverse_append,
      trimLeft_append fun c member => behind c (List.mem_reverse.mp member),
      trimLeft_eq_self (by simpa using ends), List.reverse_reverse]
  rw [trim, trimLeft_append before]
  cases word with
  | nil => rw [List.nil_append, trimLeft_eq_nil behind]; rfl
  | cons first inner => rw [trimLeft_eq_self (by simpa using begins), cut]

theorem strips_trim (text : List Char) : Strips text (trim text) := by
  obtain ⟨front, before, left⟩ := exists_blank_append_trimLeft text
  obtain ⟨back, behind, right⟩ := exists_trimRight_append_blank (trimLeft text)
  refine ⟨front, back, left.trans (congrArg _ right), before, behind, ?_, ?_⟩
  · intro c head
    have begins : (trimLeft text).head? = some c := by
      rw [right, List.head?_append, ← trim, head, Option.some_or]
    exact not_isBlank_of_head?_trimLeft begins
  · intro c last
    exact not_isBlank_of_getLast?_trimRight last

theorem strips_append_blank (solid : ∀ c ∈ word, ¬ IsBlank c) (blank : AllBlank back) :
    Strips (word ++ back) word :=
  ⟨[], back, rfl, by simp [AllBlank], blank, fun c head => solid c (List.mem_of_mem_head? head),
    fun c last => solid c (List.mem_of_getLast? last)⟩

theorem trim_eq_iff : trim text = word ↔ Strips text word := by
  constructor
  · rintro rfl
    exact strips_trim text
  · exact trim_of_strips

theorem trim_append_blank (text : List Char) (blank : AllBlank back) : trim (text ++ back) = trim text := by
  obtain ⟨front, behind, split, before, after, begins, ends⟩ := strips_trim text
  have longer : text ++ back = front ++ (trim text ++ (behind ++ back)) := by
    rw [← List.append_assoc (trim text), ← List.append_assoc front, ← split]
  exact trim_of_strips
    ⟨front, behind ++ back, longer, before, List.forall_mem_append.mpr ⟨after, blank⟩, begins, ends⟩

theorem trim_eq_nil_iff : trim text = [] ↔ AllBlank text := by
  rw [trim_eq_iff]
  constructor
  · rintro ⟨front, back, rfl, before, behind, _⟩ c member
    rcases List.mem_append.mp member with early | late
    · exact before c early
    · exact behind c late
  · intro blank
    exact ⟨text, [], by simp, blank, by simp [AllBlank]⟩

theorem exists_firstWord (present : ¬ AllBlank text) : ∃ word rest, FirstWord text word rest := by
  obtain ⟨front, before, split⟩ := exists_blank_append_trimLeft text
  refine ⟨(nextWord (trimLeft text)).1, (trimLeft text).dropWhile fun c => !decide (IsBlank c),
    ⟨front, before, ?_⟩, ?_, ?_, ?_⟩
  · rw [nextWord, List.takeWhile_append_dropWhile]
    exact split
  · cases kept : trimLeft text with
    | nil =>
      rw [kept, List.append_nil] at split
      exact absurd (split ▸ before) present
    | cons first inner =>
      have solid : ¬ IsBlank first := not_isBlank_of_head?_trimLeft (congrArg List.head? kept)
      simp [nextWord, solid]
  · intro c member
    simpa using List.mem_takeWhile_imp member
  · intro c head
    have stops := List.head?_dropWhile_not (fun c => !decide (IsBlank c)) (trimLeft text)
    rw [head] at stops
    simpa using stops

theorem nextWord_append (solid : ∀ c ∈ word, ¬ IsBlank c)
    (ended : ∀ c, rest.head? = some c → IsBlank c) :
    nextWord (word ++ rest) = (word, trimLeft rest) := by
  have inside : ∀ c ∈ word, (!decide (IsBlank c)) = true := by simpa using solid
  have stop : rest.takeWhile (fun c => !decide (IsBlank c)) = [] ∧
      rest.dropWhile (fun c => !decide (IsBlank c)) = rest := by
    cases rest with
    | nil => exact ⟨rfl, rfl⟩
    | cons first others => simp [ended first rfl]
  rw [nextWord, List.takeWhile_append_of_pos inside, List.dropWhile_append_of_pos inside, stop.1,
    stop.2, List.append_nil]

theorem trimLeft_trimRight (text : List Char) : trimLeft (trimRight text) = trim text := by
  obtain ⟨back, behind, right⟩ := exists_trimRight_append_blank text
  obtain ⟨front, before, left⟩ := exists_blank_append_trimLeft (trimRight text)
  symm
  apply trim_of_strips
  refine ⟨front, back, ?_, before, behind, fun c => not_isBlank_of_head?_trimLeft, ?_⟩
  · rw [← List.append_assoc, ← left]
    exact right
  · intro c last
    have ends : (trimRight text).getLast? = some c := by
      rw [left, List.getLast?_append, last, Option.some_or]
    exact not_isBlank_of_getLast?_trimRight ends

/-- The first word is found in the trimmed text, and what is found behind it is trimmed. -/
theorem FirstWord.nextWord_trim (first : FirstWord text word rest) :
    nextWord (trim text) = (word, trim rest) := by
  obtain ⟨⟨front, before, rfl⟩, nonempty, solid, ended⟩ := first
  obtain ⟨back, behind, right⟩ := exists_trimRight_append_blank rest
  have trimmed : trim (front ++ (word ++ rest)) = word ++ trimRight rest := by
    apply trim_of_strips
    refine ⟨front, back, ?_, before, behind, ?_, ?_⟩
    · rw [List.append_assoc, ← right]
    · intro c head
      rw [List.head?_append, List.head?_eq_some_head nonempty, Option.some_or] at head
      exact solid c (Option.some.inj head ▸ List.head_mem nonempty)
    · intro c last
      rw [List.getLast?_append] at last
      cases kept : (trimRight rest).getLast? with
      | none =>
        rw [kept, Option.none_or] at last
        exact solid c (List.mem_of_getLast? last)
      | some other =>
        rw [kept, Option.some_or] at last
        exact not_isBlank_of_getLast?_trimRight (kept.trans last)
  have stop : ∀ c, (trimRight rest).head? = some c → IsBlank c := by
    intro c head
    apply ended
    rw [right, List.head?_append, head, Option.some_or]
  rw [trimmed, nextWord_append solid stop, trimLeft_trimRight]

end DspChip.Text
