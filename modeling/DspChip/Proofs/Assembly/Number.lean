import DspChip.Proofs.Number.Spelling
/-! Numbers among operands. A text that is spelled as a number is read as a word, if a word holds
its value; any other is refused, for the one of two reasons that applies. -/

namespace DspChip

def Word.InRange (n : Int) : Prop := -2 ^ 63 ≤ n ∧ n < 2 ^ 63

theorem Word.ofInt?_eq_some_iff {n : Int} {v : Word} :
    ofInt? n = some v ↔ v.toInt = n ∧ InRange n := by
  have least : Int64.minValue.toInt = -2 ^ 63 := rfl
  have most : Int64.maxValue.toInt = 2 ^ 63 - 1 := rfl
  rw [ofInt?, InRange, least, most]
  constructor
  · intro told
    split at told
    · cases told
      exact ⟨Int64.toInt_ofInt_of_le (by omega) (by omega), by omega⟩
    · cases told
  · rintro ⟨rfl, _⟩
    rw [if_pos (by omega), Int64.ofInt_toInt]

theorem Word.ofInt?_eq_none_iff {n : Int} : ofInt? n = none ↔ ¬ InRange n := by
  constructor
  · intro absent range
    cases absent.symm.trans
      (ofInt?_eq_some_iff.mpr ⟨Int64.toInt_ofInt_of_le range.1 range.2, range⟩)
  · intro outside
    cases found : ofInt? n with
    | none => rfl
    | some v => exact absurd (ofInt?_eq_some_iff.mp found).2 outside

namespace Operand

variable {number : List Char}

theorem readNumber_eq_ok_iff {word : Word} :
    readNumber number = .ok word ↔ Numeral.value? number = some word.toInt := by
  constructor
  · intro read
    unfold readNumber at read
    split at read
    · cases read
    · rename_i v told
      split at read
      · cases read
      · rename_i found
        cases read
        rw [told, (Word.ofInt?_eq_some_iff.mp found).1]
  · exact readNumber_of_value?

theorem readNumber_eq_error_iff {fault : Fault} :
    readNumber number = .error fault ↔
      (Numeral.value? number = none ∧
          fault = .operandParse (String.ofList number) TokenFault.malformed.text) ∨
        ∃ v, Numeral.value? number = some v ∧ ¬ Word.InRange v ∧
          fault = .operandParse (String.ofList number) TokenFault.outOfRange.text := by
  constructor
  · intro failed
    unfold readNumber at failed
    split at failed
    · rename_i absent
      exact .inl ⟨absent, (Except.error.inj failed).symm⟩
    · rename_i v told
      split at failed
      · rename_i outside
        exact .inr ⟨v, told, Word.ofInt?_eq_none_iff.mp outside, (Except.error.inj failed).symm⟩
      · cases failed
  · rintro (⟨absent, rfl⟩ | ⟨v, told, outside, rfl⟩)
    · rw [readNumber, absent]
    · simp only [readNumber, told, Word.ofInt?_eq_none_iff.mpr outside]

theorem refused_iff {message : String} :
    readNumber number = .error (.operandParse (String.ofList number) message) ↔
      (Numeral.value? number = none ∧ message = TokenFault.malformed.text) ∨
        ∃ v, Numeral.value? number = some v ∧ ¬ Word.InRange v ∧
          message = TokenFault.outOfRange.text := by
  simp only [readNumber_eq_error_iff, Fault.operandParse.injEq, true_and]

/-- Numbers are read by their spelling. A text has one spelling at most; if it has one, its value is
read as a word or is out of range, and if it has none, the text is malformed. -/
theorem readNumber_by_spelling (number : List Char) :
    let refused (message : String) :=
      readNumber number = .error (.operandParse (String.ofList number) message)
    (∀ v : Int, (∃ word : Word, readNumber number = .ok word ∧ word.toInt = v) ↔
      ∃ spelling : Numeral.Spelling,
        spelling.text = number ∧ spelling.value = v ∧ -2 ^ 63 ≤ v ∧ v < 2 ^ 63) ∧
    (refused "number out of range" ↔ ∃ spelling : Numeral.Spelling,
      spelling.text = number ∧ ¬ (-2 ^ 63 ≤ spelling.value ∧ spelling.value < 2 ^ 63)) ∧
    (refused "malformed number" ↔ ¬ ∃ spelling : Numeral.Spelling, spelling.text = number) ∧
    { spelling : Numeral.Spelling | spelling.text = number }.Subsingleton := by
  intro refused
  have others : "number out of range" ≠ TokenFault.malformed.text ∧
      "malformed number" ≠ TokenFault.outOfRange.text := by decide
  refine ⟨fun v => ?_, ?_, ?_, fun first left second right =>
    Numeral.Spelling.text_injective (left.trans right.symm)⟩
  · constructor
    · rintro ⟨word, read, rfl⟩
      obtain ⟨spelling, same, value⟩ :=
        Numeral.Spelling.value?_eq_some_iff.mp (readNumber_eq_ok_iff.mp read)
      exact ⟨spelling, same, value, word.le_toInt, word.toInt_lt⟩
    · rintro ⟨spelling, rfl, rfl, range⟩
      have held := Int64.toInt_ofInt_of_le range.1 range.2
      refine ⟨_, readNumber_eq_ok_iff.mpr ?_, held⟩
      rw [spelling.value?_text, held]
  · refine refused_iff.trans ⟨?_, ?_⟩
    · rintro (⟨_, same⟩ | ⟨v, told, outside, _⟩)
      · exact absurd same others.1
      · obtain ⟨spelling, same, rfl⟩ := Numeral.Spelling.value?_eq_some_iff.mp told
        exact ⟨spelling, same, outside⟩
    · rintro ⟨spelling, rfl, outside⟩
      exact .inr ⟨_, spelling.value?_text, outside, rfl⟩
  · refine refused_iff.trans ⟨?_, ?_⟩
    · rintro (⟨absent, _⟩ | ⟨_, _, _, same⟩)
      · rintro ⟨spelling, rfl⟩
        cases spelling.value?_text.symm.trans absent
      · exact absurd same others.2
    · intro missing
      refine .inl ⟨?_, rfl⟩
      cases told : Numeral.value? number with
      | none => rfl
      | some v =>
        obtain ⟨spelling, same, _⟩ := Numeral.Spelling.value?_eq_some_iff.mp told
        exact absurd ⟨spelling, same⟩ missing

end Operand

end DspChip
