import DspChip.Assembly
/-! Numbers that are written can be read back: digits in every radix, and the values that are shown
with them. -/

namespace DspChip

/-- What holds of the characters of a fixed text is decided one character at a time. -/
theorem Text.forall_mem_of_all {p : Char → Prop} [DecidablePred p] {text : List Char}
    (every : text.all (fun c => decide (p c))) : ∀ c ∈ text, p c := by
  simpa using every

theorem Text.toLower_of_isDigit {c : Char} (digit : c.isDigit = true) : c.toLower = c := by
  refine dif_neg fun letter => ?_
  simp only [Char.isDigit, Bool.and_eq_true, decide_eq_true_eq] at digit
  exact absurd (UInt32.le_trans letter.1 digit.2) (by decide)

theorem Numeral.isDigit_of_mem_toDigits {n : Nat} {c : Char} (member : c ∈ Nat.toDigits 10 n) :
    c.isDigit = true :=
  Nat.isDigit_of_mem_toDigits (by decide) (by decide) member

theorem Numeral.mark_of_mem_decimal {v : Int} {c : Char} (member : c ∈ decimal v) :
    c = '-' ∨ c.isDigit := by
  rcases List.mem_append.mp member with sign | digit
  · split at sign
    · exact Or.inl (List.mem_singleton.mp sign)
    · cases sign
  · exact Or.inr (isDigit_of_mem_toDigits digit)

namespace Radix

variable {radix : Radix} {n : Nat} {digits : List Char}

theorem one_lt_size (radix : Radix) : 1 < radix.size := by
  cases radix <;> decide

theorem digit?_digitChar {d : Nat} (small : d < radix.size) :
    radix.digit? d.digitChar = some d := by
  have every : ∀ d < radix.size, radix.digit? d.digitChar = some d := by
    cases radix <;> decide
  exact every d small

def weigh (radix : Radix) (digits : List Nat) : Nat :=
  digits.foldl (fun value digit => value * radix.size + digit) 0

theorem weigh_append_singleton (front : List Nat) (d : Nat) :
    radix.weigh (front ++ [d]) = radix.weigh front * radix.size + d := by
  simp [weigh]

theorem read?_eq_some_iff :
    radix.read? digits = some n ↔
      digits ≠ [] ∧ ∃ values, digits.mapM radix.digit? = some values ∧ radix.weigh values = n := by
  unfold read?
  split
  · rename_i empty
    simp [empty]
  · rename_i present
    simp only [Option.map_eq_some_iff]
    exact ⟨fun told => ⟨present, told⟩, fun told => told.2⟩

/-- A number is written one digit behind its quotient by the radix. -/
theorem mapM_digit?_toDigits (radix : Radix) (n : Nat) :
    ∃ values, (Nat.toDigits radix.size n).mapM radix.digit? = some values ∧
      radix.weigh values = n := by
  induction n using Nat.strongRecOn with
  | ind n ih =>
    by_cases small : n < radix.size
    · rw [Nat.toDigits_of_lt_base small]
      refine ⟨[n], ?_, by simp [weigh]⟩
      simp [digit?_digitChar small]
    · have size := radix.one_lt_size
      obtain ⟨values, read, weight⟩ := ih (n / radix.size) (Nat.div_lt_self (by omega) size)
      have last := digit?_digitChar (Nat.mod_lt n (by omega : 0 < radix.size))
      rw [Nat.toDigits_of_base_le size (by omega)]
      refine ⟨values ++ [n % radix.size], ?_, ?_⟩
      · simp [List.mapM_append, read, last]
      · rw [weigh_append_singleton, weight, Nat.mul_comm]
        exact Nat.div_add_mod n radix.size

theorem read?_toDigits (radix : Radix) (n : Nat) :
    radix.read? (Nat.toDigits radix.size n) = some n :=
  read?_eq_some_iff.mpr ⟨Nat.toDigits_ne_nil, mapM_digit?_toDigits radix n⟩

theorem eq_zero_of_head?_toDigits (head : (Nat.toDigits radix.size n).head? = some '0') : n = 0 := by
  induction n using Nat.strongRecOn with
  | ind n ih =>
    by_cases small : n < radix.size
    · rw [Nat.toDigits_of_lt_base small] at head
      simpa using head
    · have size := radix.one_lt_size
      have quotient : 0 < n / radix.size := Nat.div_pos (by omega) (by omega)
      have first := List.head?_eq_some_head (@Nat.toDigits_ne_nil (n / radix.size) radix.size)
      rw [Nat.toDigits_of_base_le size (by omega), List.head?_append, first, Option.some_or,
        ← first] at head
      have := ih (n / radix.size) (Nat.div_lt_self (by omega) size) head
      omega

theorem read?_zero_cons (read : radix.read? digits = some n) :
    radix.read? ('0' :: digits) = some n := by
  obtain ⟨_, values, told, weight⟩ := read?_eq_some_iff.mp read
  have zero : radix.digit? '0' = some 0 := digit?_digitChar (Nat.lt_of_succ_lt radix.one_lt_size)
  refine read?_eq_some_iff.mpr ⟨List.cons_ne_nil _ _, 0 :: values, ?_, ?_⟩
  · simp [zero, told]
  · rw [← weight]
    simp [weigh]

theorem read?_magnitude (radix : Radix) (n : Nat) : radix.read? (radix.magnitude n) = some n := by
  have plain := read?_toDigits radix n
  unfold magnitude
  dsimp only
  split
  · exact read?_zero_cons plain
  · exact plain

theorem isSome_digit?_of_read? (read : radix.read? digits = some n) {c : Char}
    (member : c ∈ digits) : (radix.digit? c).isSome := by
  obtain ⟨-, values, told, -⟩ := read?_eq_some_iff.mp read
  clear read
  induction digits generalizing values with
  | nil => cases member
  | cons first rest ih =>
    rw [List.mapM_cons, Option.bind_eq_bind, Option.bind_eq_some_iff] at told
    obtain ⟨value, found, remaining⟩ := told
    obtain ⟨others, told, _⟩ := Option.bind_eq_some_iff.mp remaining
    rcases List.mem_cons.mp member with rfl | later
    · rw [found]
      rfl
    · exact ih later others told

end Radix

/-! Shown values. -/

namespace Numeral

variable {radix : Radix} {n : Nat} {digits : List Char}

/-- No digit marks a sign, a hexadecimal number or the end of a line. -/
theorem not_mem_of_read? (read : radix.read? digits = some n) {c : Char}
    (mark : c ∈ ['-', '+', 'x', 'X', '\n']) : c ∉ digits ++ [radix.suffix] := by
  intro member
  rcases List.mem_append.mp member with digit | suffix
  · have known := Radix.isSome_digit?_of_read? read digit
    have every : ∀ c ∈ ['-', '+', 'x', 'X', '\n'], ¬ (radix.digit? c).isSome := by
      cases radix <;> exact Text.forall_mem_of_all (by decide)
    exact every c mark known
  · have every : ∀ c ∈ ['-', '+', 'x', 'X', '\n'], c ∉ [radix.suffix] := by
      cases radix <;> exact Text.forall_mem_of_all (by decide)
    exact every c mark suffix

theorem radixAndDigits_suffix (read : radix.read? digits = some n) :
    radixAndDigits (digits ++ [radix.suffix]) = (radix, digits) := by
  unfold radixAndDigits
  split
  · rename_i rest marked
    exact absurd (marked ▸ by simp) (not_mem_of_read? read (c := 'x') (by simp))
  · rename_i rest marked
    exact absurd (marked ▸ by simp) (not_mem_of_read? read (c := 'X') (by simp))
  · rw [List.getLast?_concat, List.dropLast_concat]
    cases radix with
    | decimal => rfl
    | hexadecimal => rfl
    | binary =>
      change (if (Radix.binary.read? digits).isSome then _ else _) = _
      rw [read]
      rfl

theorem unsigned?_suffix (read : radix.read? digits = some n) :
    unsigned? (digits ++ [radix.suffix]) = some n := by
  rw [unsigned?, radixAndDigits_suffix read]
  exact read

theorem value?_minus (body : List Char) :
    value? ('-' :: body) = (unsigned? body).map fun n : Nat => -(n : Int) := rfl

theorem value?_plus (body : List Char) : value? ('+' :: body) = (unsigned? body).map Int.ofNat := rfl

theorem value?_of_head? {body : List Char} (minus : body.head? ≠ some '-')
    (plus : body.head? ≠ some '+') : value? body = (unsigned? body).map Int.ofNat := by
  unfold value?
  split
  · exact absurd rfl minus
  · exact absurd rfl plus
  · rfl

theorem value?_unsigned {body : List Char} (minus : '-' ∉ body) (plus : '+' ∉ body) :
    value? body = (unsigned? body).map Int.ofNat :=
  value?_of_head? (fun first => minus (List.mem_of_mem_head? first))
    fun first => plus (List.mem_of_mem_head? first)

theorem value?_format (radix : Radix) (v : Int) :
    value? (radix.format v).toList = some v := by
  have read := radix.read?_magnitude v.natAbs
  rw [Radix.format, String.toList_ofList]
  split
  · rename_i negative
    change value? ('-' :: (radix.magnitude v.natAbs ++ [radix.suffix])) = some v
    rw [value?_minus, unsigned?_suffix read, Option.map_some, Option.some.injEq]
    omega
  · rename_i positive
    rw [List.nil_append, value?_unsigned (not_mem_of_read? read (by simp))
      (not_mem_of_read? read (by simp)), unsigned?_suffix read, Option.map_some, Option.some.injEq]
    change (v.natAbs : Int) = v
    omega

theorem radixAndDigits_digits {body : List Char} (plain : ∀ c ∈ body, c.isDigit = true) :
    radixAndDigits body = (.decimal, body) := by
  unfold radixAndDigits
  split
  · exact absurd (plain 'x' (by simp)) (by decide)
  · exact absurd (plain 'X' (by simp)) (by decide)
  · cases last : body.getLast? with
    | none => rfl
    | some c =>
      have digit := plain c (List.mem_of_getLast? last)
      rw [Option.map_some, Text.toLower_of_isDigit digit]
      split
      all_goals first
        | rfl
        | (rename_i mark; cases Option.some.inj mark; exact absurd digit (by decide))

theorem unsigned?_toDigits (n : Nat) : unsigned? (Nat.toDigits 10 n) = some n := by
  rw [unsigned?, radixAndDigits_digits fun c => isDigit_of_mem_toDigits]
  exact Radix.decimal.read?_toDigits n

theorem value?_decimal (v : Int) : value? (decimal v) = some v := by
  unfold decimal
  split
  · rename_i negative
    change value? ('-' :: Nat.toDigits 10 v.natAbs) = some v
    rw [value?_minus, unsigned?_toDigits, Option.map_some, Option.some.injEq]
    omega
  · rename_i positive
    have unmarked : ∀ c ∈ ['-', '+'], c ∉ Nat.toDigits 10 v.natAbs := by
      intro c mark member
      have digit := isDigit_of_mem_toDigits member
      have every : ∀ c ∈ ['-', '+'], ¬ c.isDigit := Text.forall_mem_of_all (by decide)
      exact every c mark digit
    rw [List.nil_append, value?_unsigned (unmarked '-' (by simp)) (unmarked '+' (by simp)),
      unsigned?_toDigits, Option.map_some, Option.some.injEq]
    change (v.natAbs : Int) = v
    omega

end Numeral

theorem Word.ofInt?_toInt (v : Word) : Word.ofInt? v.toInt = some v := by
  rw [Word.ofInt?, if_pos ⟨v.minValue_le_toInt, v.toInt_le⟩, Int64.ofInt_toInt]

theorem Operand.readNumber_of_value? {token : List Char} {v : Word}
    (told : Numeral.value? token = some v.toInt) : readNumber token = .ok v := by
  rw [readNumber, told]
  simp only [Word.ofInt?_toInt]

theorem Operand.readNumber_format (radix : Radix) (v : Word) :
    readNumber (radix.format v.toInt).toList = .ok v :=
  readNumber_of_value? (Numeral.value?_format radix v.toInt)

theorem Operand.readNumber_decimal (v : Word) :
    readNumber (Numeral.decimal v.toInt) = .ok v :=
  readNumber_of_value? (Numeral.value?_decimal v.toInt)

/-- Hexadecimal digits come in pairs, the first of them behind a zero if it has no partner. -/
theorem Radix.exists_magnitude_hexadecimal (n : Nat) :
    ∃ zeros ≤ 1, hexadecimal.magnitude n = List.replicate zeros '0' ++ Nat.toDigits 16 n ∧
      (zeros + (Nat.toDigits 16 n).length) % 2 = 0 := by
  by_cases odd : (Nat.toDigits 16 n).length % 2 = 1
  · exact ⟨1, Nat.le_refl 1, if_pos ⟨rfl, odd⟩, by omega⟩
  · exact ⟨0, Nat.zero_le 1, if_neg fun paired => odd paired.2, by omega⟩

theorem Radix.eq_of_format_eq {first second : Radix} {v w : Int}
    (same : first.format v = second.format w) : v = w := by
  have read := Numeral.value?_format first v
  rw [same, Numeral.value?_format] at read
  exact (Option.some.inj read).symm

/-- What is shown of a word can be typed back in every radix, as a number and, behind `#`, as an
operand. So words that have a text in common are the same. In hexadecimal the digits of the
magnitude stand behind one zero at most, which makes them even in number. -/
theorem Operand.reads_what_is_shown (v : Word) :
    (∀ radix : Radix, readNumber (radix.format v.toInt).toList = .ok v ∧
      read ('#' :: (radix.format v.toInt).toList) = .ok (.immediate v)) ∧
    (∀ w : Word, (∃ first second : Radix, first.format v.toInt = second.format w.toInt) ↔ v = w) ∧
    ∃ zeros ≤ 1,
      Radix.hexadecimal.format v.toInt = String.ofList ((if v.toInt < 0 then ['-'] else []) ++
        (List.replicate zeros '0' ++ Nat.toDigits 16 v.toInt.natAbs) ++ ['h']) ∧
      (zeros + (Nat.toDigits 16 v.toInt.natAbs).length) % 2 = 0 := by
  refine ⟨fun radix => ?_, fun w => ?_, ?_⟩
  · have number := readNumber_format radix v
    refine ⟨number, ?_⟩
    change (readNumber _).map immediate = _
    rw [number]
    rfl
  · constructor
    · rintro ⟨first, second, same⟩
      exact Int64.toInt_inj.mp (Radix.eq_of_format_eq same)
    · rintro rfl
      exact ⟨.decimal, .decimal, rfl⟩
  · obtain ⟨zeros, few, digits, even⟩ := Radix.exists_magnitude_hexadecimal v.toInt.natAbs
    refine ⟨zeros, few, ?_, even⟩
    rw [Radix.format, digits]
    rfl

end DspChip
