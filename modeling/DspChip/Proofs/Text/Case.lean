import DspChip.Text
import Mathlib
/-! The case of letters. A name in upper case stays the same name, and no character appears in it
but letters. A text in lower case is cut where the text is cut. Names are compared character by
character. -/

namespace DspChip.Text

theorem toUpper_eq_or_isAlphanum (c : Char) : c.toUpper = c ∨ c.toUpper.isAlphanum = true := by
  by_cases lower : c.isLower = true
  · right
    rw [Char.isAlphanum, Char.isAlpha_toUpper_eq_isAlpha, Char.isAlpha, lower, Bool.or_true,
      Bool.true_or]
  · exact Or.inl (Char.toUpper_eq_of_not_isLower (by simpa using lower))

variable {name : String}

theorem mem_upper {c : Char} (member : c ∈ (upper name).toList) :
    c ∈ name.toList ∨ c.isAlphanum = true := by
  rw [upper, String.toList_ofList] at member
  obtain ⟨old, present, rfl⟩ := List.mem_map.mp member
  rcases toUpper_eq_or_isAlphanum old with same | letter
  · exact Or.inl (same.symm ▸ present)
  · exact Or.inr letter

theorem getLast?_upper {c : Char} (last : (upper name).toList.getLast? = some c) :
    name.toList.getLast? = some c ∨ c.isAlphanum = true := by
  rw [upper, String.toList_ofList, List.getLast?_map] at last
  obtain ⟨old, ends, rfl⟩ := Option.map_eq_some_iff.mp last
  rcases toUpper_eq_or_isAlphanum old with same | letter
  · exact Or.inl (same.symm ▸ ends)
  · exact Or.inr letter

theorem upper_eq_empty_iff : upper name = "" ↔ name = "" := by
  rw [← String.toList_eq_nil_iff, ← String.toList_eq_nil_iff, upper, String.toList_ofList,
    List.map_eq_nil_iff]

theorem fold_upper (name : String) : fold (upper name) = fold name := by
  unfold fold upper
  rw [String.toList_ofList, List.map_map]
  exact congrArg String.ofList
    (List.map_congr_left fun c _ => Char.toLower_toUpper_eq_toLower c)

theorem upper_upper (name : String) : upper (upper name) = upper name := by
  unfold upper
  rw [String.toList_ofList, List.map_map]
  exact congrArg String.ofList
    (List.map_congr_left fun c _ => Char.toUpper_toUpper_eq_toUpper c)

/-! Lower case. -/

def lower (text : List Char) : List Char := text.map Char.toLower

theorem fold_ofList (text : List Char) :
    fold (String.ofList text) = String.ofList (lower text) := by
  rw [fold, String.toList_ofList, lower]

theorem lower_lower (text : List Char) : lower (lower text) = lower text := by
  unfold lower
  rw [List.map_map]
  exact List.map_congr_left fun c _ => Char.toLower_toLower_eq_toLower c

@[simp] theorem fold_fold (name : String) : fold (fold name) = fold name := by
  calc
    fold (fold name) = String.ofList (lower (lower name.toList)) := fold_ofList _
    _ = fold name := congrArg String.ofList (lower_lower name.toList)

/-- What relates every character to itself, and every letter in upper case to the same one in lower
case, relates every character to its lower case. -/
theorem toLower_cases {motive : Char → Char → Prop} (same : ∀ c, motive c c)
    (letters : ∀ n < 26, motive (Char.ofNat (n + 65)) (Char.ofNat (n + 97))) (c : Char) :
    motive c c.toLower := by
  by_cases upper : c.isUpper = true
  · have range : 65 ≤ c.toNat ∧ c.toNat ≤ 90 := by
      simpa [Char.isUpper, UInt32.le_iff_toNat_le] using upper
    have letter := letters (c.toNat - 65) (by omega)
    rw [show c.toNat - 65 + 65 = c.toNat by omega, Char.ofNat_toNat] at letter
    rwa [Char.toLower_eq_of_isUpper upper, show c.toNat + 32 = c.toNat - 65 + 97 by omega]
  · rw [Char.toLower_eq_of_not_isUpper upper]
    exact same c

variable {c mark : Char} {text : List Char}

theorem isBlank_toLower : IsBlank c.toLower ↔ IsBlank c :=
  toLower_cases (motive := fun c small => IsBlank small ↔ IsBlank c) (fun _ => Iff.rfl)
    (by decide) c

theorem isDigit_toLower : c.toLower.isDigit = c.isDigit :=
  toLower_cases (motive := fun c small => small.isDigit = c.isDigit) (fun _ => rfl) (by decide) c

theorem isAlphanum_toLower : c.toLower.isAlphanum = c.isAlphanum := by
  rw [Char.isAlphanum, Char.isAlphanum, Char.isAlpha_toLower_eq_isAlpha, isDigit_toLower]

theorem toLower_eq_iff (plain : mark.isAlpha = false) : c.toLower = mark ↔ c = mark := by
  have stays : ∀ other : Char, other.isAlpha = false → other.toLower = other := by
    intro other plain
    apply Char.toLower_eq_of_not_isUpper
    intro upper
    rw [Char.isAlpha, upper, Bool.true_or] at plain
    cases plain
  constructor
  · intro same
    have alike := Char.isAlpha_toLower_eq_isAlpha c
    rw [same, plain] at alike
    rw [← stays c alike.symm, same]
  · rintro rfl
    exact stays c plain

theorem map_toLower_eq_some_iff (plain : mark.isAlpha = false) (found : Option Char) :
    found.map Char.toLower = some mark ↔ found = some mark := by
  cases found with
  | none => exact Iff.rfl
  | some c => rw [Option.map_some, Option.some.injEq, Option.some.injEq, toLower_eq_iff plain]

theorem head?_lower_eq_iff (plain : mark.isAlpha = false) (text : List Char) :
    (lower text).head? = some mark ↔ text.head? = some mark := by
  rw [lower, List.head?_map, map_toLower_eq_some_iff plain]

theorem getLast?_lower_eq_iff (plain : mark.isAlpha = false) (text : List Char) :
    (lower text).getLast? = some mark ↔ text.getLast? = some mark := by
  rw [lower, List.getLast?_map, map_toLower_eq_some_iff plain]

theorem dropLast_lower (text : List Char) : (lower text).dropLast = lower text.dropLast :=
  List.map_dropLast.symm

theorem trimLeft_lower (text : List Char) : trimLeft (lower text) = lower (trimLeft text) := by
  simp only [trimLeft, lower, List.dropWhile_map, Function.comp_def, isBlank_toLower]

theorem trim_lower (text : List Char) : trim (lower text) = lower (trim text) := by
  have reverse : ∀ part, (lower part).reverse = lower part.reverse := fun _ => List.map_reverse.symm
  simp only [trim, trimRight, trimLeft_lower, reverse]

theorem nextWord_lower (text : List Char) :
    nextWord (lower text) = (lower (nextWord text).1, lower (nextWord text).2) := by
  unfold nextWord
  rw [← trimLeft_lower]
  simp only [lower, List.takeWhile_map, List.dropWhile_map, Function.comp_def, isBlank_toLower]

theorem takeWhile_ne_lower (plain : mark.isAlpha = false) (text : List Char) :
    (lower text).takeWhile (· ≠ mark) = lower (text.takeWhile (· ≠ mark)) := by
  simp only [lower, List.takeWhile_map, Function.comp_def, ne_eq, toLower_eq_iff plain]

theorem splitOn_lower (plain : mark.isAlpha = false) (text : List Char) :
    (lower text).splitOn mark = (text.splitOn mark).map lower := by
  induction text with
  | nil => rfl
  | cons first rest ih =>
    have cut : (lower (first :: rest)).splitOn mark =
        (first.toLower :: lower rest).splitOn mark := rfl
    rw [cut, List.splitOn_cons_eq_if_modifyHead, List.splitOn_cons_eq_if_modifyHead, ih]
    simp only [beq_iff_eq, toLower_eq_iff plain]
    split
    · rfl
    · cases rest.splitOn mark <;> rfl

/-! Names character by character. -/

variable {d : Char} {first second : String}

def SameLetter (c d : Char) : Prop :=
  c = d ∨ (c.isUpper = true ∧ d.toNat = c.toNat + 32) ∨ (d.isUpper = true ∧ c.toNat = d.toNat + 32)

instance (c d : Char) : Decidable (SameLetter c d) :=
  inferInstanceAs (Decidable (_ ∨ _ ∨ _))

theorem toLower_eq_or (c : Char) :
    c.toLower = c ∨ (c.isUpper = true ∧ c.toLower.toNat = c.toNat + 32) :=
  toLower_cases (motive := fun c small => small = c ∨ (c.isUpper = true ∧ small.toNat = c.toNat + 32))
    (fun _ => Or.inl rfl) (by decide) c

theorem toLower_eq_of_toNat (upper : c.isUpper = true) (apart : d.toNat = c.toNat + 32) :
    d = c.toLower := by
  rcases toLower_eq_or c with same | ⟨_, small⟩
  · have lower := c.isUpper_toLower_eq_false
    rw [same, upper] at lower
    cases lower
  · exact Char.toNat_inj.mp (apart.trans small.symm)

theorem sameLetter_iff : SameLetter c d ↔ c.toLower = d.toLower := by
  constructor
  · rintro (rfl | ⟨upper, apart⟩ | ⟨upper, apart⟩)
    · rfl
    · rw [toLower_eq_of_toNat upper apart, Char.toLower_toLower_eq_toLower]
    · rw [toLower_eq_of_toNat upper apart, Char.toLower_toLower_eq_toLower]
  · intro same
    rcases toLower_eq_or c with left | ⟨upper, left⟩
    · rcases toLower_eq_or d with right | ⟨upper, right⟩
      · exact .inl (left.symm.trans (same.trans right))
      · exact .inr (.inr ⟨upper, by rw [← right, ← same, left]⟩)
    · rcases toLower_eq_or d with right | ⟨_, right⟩
      · exact .inr (.inl ⟨upper, by rw [← left, same, right]⟩)
      · rw [same, right] at left
        exact .inl (Char.toNat_inj.mp (Nat.add_right_cancel left).symm)

theorem sameName_iff : SameName first second ↔ List.Forall₂ SameLetter first.toList second.toList := by
  have letters : SameLetter = fun c d : Char => c.toLower = d.toLower :=
    funext fun c => funext fun d => propext sameLetter_iff
  have mapped : List.Forall₂ SameLetter first.toList second.toList ↔
      List.Forall₂ Eq (first.toList.map Char.toLower) (second.toList.map Char.toLower) := by
    rw [List.forall₂_map_left_iff, List.forall₂_map_right_iff, letters]
  rw [mapped, List.forall₂_eq_eq_eq, SameName, fold, fold, String.ofList_inj]

end DspChip.Text
