import DspChip.Proofs.Number.Format
import DspChip.Proofs.Result
import DspChip.Proofs.Text.Items
/-! Operands and the tokens that spell them. Reading a token gives the operand that it spells, or
the fault for which it spells none. -/

namespace DspChip

abbrev BeginsNumber (c : Char) : Prop := c.isDigit = true ∨ c = '-' ∨ c = '+'

theorem Text.toNat_of_isAlpha {c : Char} (alpha : c.isAlpha = true) :
    (65 ≤ c.toNat ∧ c.toNat ≤ 90) ∨ 97 ≤ c.toNat ∧ c.toNat ≤ 122 := by
  rcases Bool.or_eq_true_iff.mp alpha with upper | lower
  · have range : 'A'.val ≤ c.val ∧ c.val ≤ 'Z'.val := of_decide_eq_true upper
    exact Or.inl ⟨UInt32.le_iff_toNat_le.mp range.1, UInt32.le_iff_toNat_le.mp range.2⟩
  · obtain ⟨least, greatest⟩ := Bool.and_eq_true_iff.mp lower
    have above : 'a'.val ≤ c.val := of_decide_eq_true least
    have below : c.val ≤ 'z'.val := of_decide_eq_true greatest
    exact Or.inr ⟨UInt32.le_iff_toNat_le.mp above, UInt32.le_iff_toNat_le.mp below⟩

theorem Text.toNat_of_isDigit {c : Char} (digit : c.isDigit = true) :
    48 ≤ c.toNat ∧ c.toNat ≤ 57 :=
  Char.isDigit_iff_toNat.mp digit

theorem Text.not_isBlank_of_isAlphanum {c : Char} (alphanum : c.isAlphanum = true) :
    ¬ Text.IsBlank c := by
  simp only [Text.IsBlank, Text.blankPoints, List.mem_cons, List.not_mem_nil, or_false]
  rcases Bool.or_eq_true_iff.mp alphanum with alpha | digit
  · have range := Text.toNat_of_isAlpha alpha
    omega
  · have range := Text.toNat_of_isDigit digit
    omega

theorem IsIdentifier.alphanum {name : List Char} (identifier : IsIdentifier name) :
    ∀ c ∈ name, c.isAlphanum = true ∨ c = '_' := by
  cases name with
  | nil => exact identifier.elim
  | cons first rest =>
    have letter : first.isAlpha = true ∨ first = '_' := identifier.1
    refine List.forall_mem_cons.mpr ⟨?_, identifier.2⟩
    exact letter.imp_left fun alpha => by rw [Char.isAlphanum, alpha, Bool.true_or]

theorem IsIdentifier.solid {name : List Char} (identifier : IsIdentifier name) :
    ∀ c ∈ name, ¬ Text.IsBlank c := by
  intro c member
  rcases identifier.alphanum c member with alphanum | rfl
  · exact Text.not_isBlank_of_isAlphanum alphanum
  · decide

theorem IsIdentifier.head {first : Char} {rest : List Char} (name : IsIdentifier (first :: rest)) :
    first ≠ '#' ∧ ¬ BeginsNumber first := by
  have letter : first.isAlpha = true ∨ first = '_' := name.1
  constructor
  · rintro rfl
    exact absurd letter (by decide)
  · rintro (digit | rfl | rfl)
    · rcases letter with alpha | rfl
      · have letters := Text.toNat_of_isAlpha alpha
        have digits := Text.toNat_of_isDigit digit
        omega
      · exact absurd digit (by decide)
    · exact absurd letter (by decide)
    · exact absurd letter (by decide)

namespace Operand

/-- A token and the operand that it stands for: an identifier names a register, and a number is an
immediate, behind `#` or where it begins with a digit or a sign. -/
inductive Spells : List Char → Operand → Prop where
  | register {name : List Char} (identifier : IsIdentifier name) :
      Spells name (register (String.ofList name))
  | marked {number : List Char} {value : Word} (told : readNumber number = .ok value) :
      Spells ('#' :: number) (immediate value)
  | number {first : Char} {rest : List Char} {value : Word} (begins : BeginsNumber first)
      (told : readNumber (first :: rest) = .ok value) : Spells (first :: rest) (immediate value)

/-- A token that stands for no operand, with the part of it that is blamed and the reason. -/
inductive Refused : List Char → String → TokenFault → Prop where
  | empty : Refused [] "" .empty
  | marked {number : List Char} {part : String} {reason : TokenFault}
      (failed : readNumber number = .error (.operandParse part reason.text)) :
      Refused ('#' :: number) part reason
  | number {first : Char} {rest : List Char} {part : String} {reason : TokenFault}
      (begins : BeginsNumber first)
      (failed : readNumber (first :: rest) = .error (.operandParse part reason.text)) :
      Refused (first :: rest) part reason
  | unrecognised {first : Char} {rest : List Char} (unmarked : first ≠ '#')
      (noNumber : ¬ BeginsNumber first) (noName : ¬ IsIdentifier (first :: rest)) :
      Refused (first :: rest) (String.ofList (first :: rest)) .unrecognised

variable {token : List Char} {operand : Operand} {first : Char} {rest : List Char}

theorem read_cons (unmarked : first ≠ '#') :
    read (first :: rest) =
      if BeginsNumber first then (readNumber (first :: rest)).map immediate
      else if IsIdentifier (first :: rest) then .ok (register (String.ofList (first :: rest)))
      else .error (.operandParse (String.ofList (first :: rest)) TokenFault.unrecognised.text) := by
  unfold read
  split
  · rename_i empty
    cases empty
  · rename_i marked
    exact absurd (List.cons.inj marked).1 unmarked
  · rename_i same
    obtain ⟨rfl, rfl⟩ := List.cons.inj same
    rfl

theorem BeginsNumber.unmarked (begins : BeginsNumber first) : first ≠ '#' := by
  rintro rfl
  exact absurd begins (by decide)

theorem read_of_spells (spells : Spells token operand) : read token = .ok operand := by
  cases spells with
  | register identifier =>
    cases token with
    | nil => exact identifier.elim
    | cons first rest =>
      rw [read_cons identifier.head.1, if_neg identifier.head.2, if_pos identifier]
  | @marked number value told =>
    change (readNumber number).map immediate = _
    rw [told]
    rfl
  | number begins told =>
    rw [read_cons (BeginsNumber.unmarked begins), if_pos begins, told]
    rfl

theorem read_of_refused {part : String} {reason : TokenFault} (refused : Refused token part reason) :
    read token = .error (.operandParse part reason.text) := by
  cases refused with
  | empty => rfl
  | @marked number _ _ failed =>
    change (readNumber number).map immediate = _
    rw [failed]
    rfl
  | number begins failed =>
    rw [read_cons (BeginsNumber.unmarked begins), if_pos begins, failed]
    rfl
  | unrecognised unmarked noNumber noName =>
    rw [read_cons unmarked, if_neg noNumber, if_neg noName]

theorem readNumber_cases (number : List Char) :
    (∃ value, readNumber number = .ok value) ∨
      ∃ part, ∃ reason : TokenFault,
        readNumber number = .error (.operandParse part reason.text) := by
  unfold readNumber
  split
  · exact Or.inr ⟨_, _, rfl⟩
  · split
    · exact Or.inr ⟨_, _, rfl⟩
    · exact Or.inl ⟨_, rfl⟩

theorem spells_or_refused (token : List Char) :
    (∃ operand, Spells token operand) ∨ ∃ part reason, Refused token part reason := by
  cases token with
  | nil => exact Or.inr ⟨_, _, .empty⟩
  | cons first rest =>
    by_cases marked : first = '#'
    · subst marked
      rcases readNumber_cases rest with ⟨value, told⟩ | ⟨part, reason, failed⟩
      · exact Or.inl ⟨_, .marked told⟩
      · exact Or.inr ⟨_, _, .marked failed⟩
    by_cases begins : BeginsNumber first
    · rcases readNumber_cases (first :: rest) with ⟨value, told⟩ | ⟨part, reason, failed⟩
      · exact Or.inl ⟨_, .number begins told⟩
      · exact Or.inr ⟨_, _, .number begins failed⟩
    by_cases identifier : IsIdentifier (first :: rest)
    · exact Or.inl ⟨_, .register identifier⟩
    · exact Or.inr ⟨_, _, .unrecognised marked begins identifier⟩

theorem read_eq_ok_iff : read token = .ok operand ↔ Spells token operand := by
  refine ⟨fun told => ?_, read_of_spells⟩
  rcases spells_or_refused token with ⟨other, spells⟩ | ⟨part, reason, refused⟩
  · cases (read_of_spells spells).symm.trans told
    exact spells
  · cases (read_of_refused refused).symm.trans told

theorem read_eq_error_iff {fault : Fault} :
    read token = .error fault ↔
      ∃ part reason, Refused token part reason ∧ fault = .operandParse part reason.text := by
  constructor
  · intro failed
    rcases spells_or_refused token with ⟨other, spells⟩ | ⟨part, reason, refused⟩
    · cases (read_of_spells spells).symm.trans failed
    · exact ⟨part, reason, refused, Except.error.inj (failed.symm.trans (read_of_refused refused))⟩
  · rintro ⟨part, reason, refused, rfl⟩
    exact read_of_refused refused

def FirstRefused (items : List (List Char)) (part : String) (reason : TokenFault) : Prop :=
  ∃ good bad later operands, items = good ++ bad :: later ∧ List.Forall₂ Spells good operands ∧
    Refused bad part reason

theorem mapM_read_eq_ok_iff {items : List (List Char)} {operands : List Operand} :
    items.mapM read = .ok operands ↔ List.Forall₂ Spells items operands := by
  simp only [mapM_eq_ok_iff, read_eq_ok_iff]

theorem mapM_read_eq_error_iff {items : List (List Char)} {fault : Fault} :
    items.mapM read = .error fault ↔
      ∃ part reason, FirstRefused items part reason ∧ fault = .operandParse part reason.text := by
  simp only [mapM_eq_error_iff, read_eq_ok_iff, read_eq_error_iff, FirstRefused]
  constructor
  · rintro ⟨good, bad, later, operands, split, fine, part, reason, refused, rfl⟩
    exact ⟨part, reason, ⟨good, bad, later, operands, split, fine, refused⟩, rfl⟩
  · rintro ⟨part, reason, ⟨good, bad, later, operands, split, fine, refused⟩, rfl⟩
    exact ⟨good, bad, later, operands, split, fine, part, reason, refused, rfl⟩

theorem readAll_of_lists {text : List Char} {items : List (List Char)} (present : text ≠ [])
    (lists : Text.Lists ',' text items) : readAll text = items.mapM read := by
  rw [readAll, if_neg present, ← lists.map_trim_splitOn, List.mapM_map]
  rfl

end Operand

end DspChip
