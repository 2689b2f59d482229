import DspChip.Proofs.Json.Lexing
import DspChip.Proofs.Json.Tokens
/-! The texts of JSON as a grammar of their own: between tokens there may be blanks, and a character
of a string may be written in several ways. Whatever a text spells is read from it. -/

namespace DspChip.Json

def IsUnit (digits : List Char) (n : Nat) : Prop :=
  digits.length = 4 ∧ Radix.hexadecimal.read? digits = some n

def letters : List (Char × Char) :=
  [('"', '"'), ('\\', '\\'), ('/', '/'), ('b', '\x08'), ('f', '\x0c'), ('n', '\n'), ('r', '\r'),
    ('t', '\t')]

/-- A character of a string is written as it is, as a letter behind a backslash, or by its number:
as one unit of 16 bits, or as a surrogate pair if it lies beyond them. -/
inductive SpellsChar : List Char → Char → Prop
  | plain {c : Char} (quote : c ≠ '"') (backslash : c ≠ '\\') (control : ¬ c.toNat < 0x20) :
    SpellsChar [c] c
  | letter {letter c : Char} (means : (letter, c) ∈ letters) : SpellsChar ['\\', letter] c
  | unit {digits : List Char} {c : Char} (within : c.toNat < 0x10000)
    (number : IsUnit digits c.toNat) : SpellsChar ('\\' :: 'u' :: digits) c
  | pair {lead trail : List Char} {c : Char} (beyond : 0x10000 ≤ c.toNat)
    (high : IsUnit lead (0xD800 + (c.toNat - 0x10000) / 0x400))
    (low : IsUnit trail (0xDC00 + (c.toNat - 0x10000) % 0x400)) :
    SpellsChar ('\\' :: 'u' :: lead ++ '\\' :: 'u' :: trail) c

inductive SpellsString : List Char → List Char → Prop
  | nil : SpellsString [] []
  | cons {spelling others text : List Char} {c : Char} (first : SpellsChar spelling c)
    (rest : SpellsString others text) : SpellsString (spelling ++ others) (c :: text)

inductive SpellsMark : Char → Token → Prop
  | openArray : SpellsMark '[' .openArray
  | closeArray : SpellsMark ']' .closeArray
  | openObject : SpellsMark '\x7b' .openObject
  | closeObject : SpellsMark '\x7d' .closeObject
  | comma : SpellsMark ',' .comma
  | colon : SpellsMark ':' .colon

inductive SpellsWord : List Char → Json → Prop
  | null : SpellsWord "null".toList null
  | true : SpellsWord "true".toList (bool true)
  | false : SpellsWord "false".toList (bool false)
  | integer (value : Int) : SpellsWord (Numeral.decimal value) (integer value)
  | decimal {spelling : String} (read : bare? spelling.toList = some (decimal spelling))
    (plain : ∀ c ∈ spelling.toList, ¬ Lexer.EndsBare c) :
    SpellsWord spelling.toList (decimal spelling)

/-- A text spells tokens one by one. A word ends where a blank, a quote or a mark follows. Half a
surrogate pair stands for no character, and a string of it for no text. -/
inductive Spells : List Char → List Token → Prop
  | nil : Spells [] []
  | space {c : Char} {text : List Char} {tokens : List Token} (space : Lexer.IsSpace c)
    (rest : Spells text tokens) : Spells (c :: text) tokens
  | mark {c : Char} {token : Token} {text : List Char} {tokens : List Token}
    (mark : SpellsMark c token) (rest : Spells text tokens) : Spells (c :: text) (token :: tokens)
  | string {spelling inner text : List Char} {tokens : List Token}
    (spells : SpellsString spelling inner) (rest : Spells text tokens) :
    Spells ('"' :: spelling ++ '"' :: text) (.string (some (String.ofList inner)) :: tokens)
  | half {digits text : List Char} {n : Nat} {tokens : List Token} (number : IsUnit digits n)
    (half : 0xD800 ≤ n ∧ n < 0xE000) (rest : Spells text tokens) :
    Spells ('"' :: '\\' :: 'u' :: digits ++ '"' :: text) (.string none :: tokens)
  | word {spelling text : List Char} {v : Json} {tokens : List Token} (word : SpellsWord spelling v)
    (ended : Lexer.Ended text) (rest : Spells text tokens) :
    Spells (spelling ++ text) (.bare v :: tokens)

namespace Spells

variable {first second : List Char} {made others : List Token}

theorem blank {blank : List Char} (spaces : ∀ c ∈ blank, Lexer.IsSpace c)
    (spells : Spells second others) : Spells (blank ++ second) others := by
  induction blank with
  | nil => exact spells
  | cons c rest ih =>
    exact .space (spaces c List.mem_cons_self)
      (ih fun d member => spaces d (List.mem_cons_of_mem c member))

theorem append (spells : Spells first made) (behind : Spells second others)
    (apart : Lexer.Ended second) : Spells (first ++ second) (made ++ others) := by
  induction spells with
  | nil => exact behind
  | space space _ ih => exact .space space ih
  | mark mark _ ih => exact .mark mark ih
  | string spells _ ih =>
    simp only [List.cons_append, List.append_assoc]
    exact .string spells ih
  | half number half _ ih =>
    simp only [List.cons_append, List.append_assoc]
    exact .half number half ih
  | word word ended _ ih =>
    rw [List.append_assoc]
    exact .word word (ended.append apart) ih

end Spells

namespace Piece

variable {c : Char}

theorem join?_unit (within : c.toNat < 0x10000) (rest : List Piece) :
    join? (unit c.toNat :: rest) = (join? rest).map (c :: ·) := by
  have valid : c.toNat < 0xD800 ∨ 0xDFFF < c.toNat ∧ c.toNat < 0x110000 := c.valid
  have lead : ¬ IsLead c.toNat := fun lead => by
    unfold IsLead at lead
    omega
  have trail : ¬ IsTrail c.toNat := fun trail => by
    unfold IsTrail at trail
    omega
  -- a unit is joined by itself or with the next piece, so the next piece is looked at first
  cases rest with
  | nil => simp only [join?, lead, trail, or_self, if_false, Char.ofNat_toNat]
  | cons next others =>
    cases next with
    | char d => simp only [join?, lead, trail, or_self, if_false, Char.ofNat_toNat]
    | unit n => simp only [join?, lead, trail, if_false, Char.ofNat_toNat]

theorem join?_pair (beyond : 0x10000 ≤ c.toNat) (rest : List Piece) :
    join? (unit (0xD800 + (c.toNat - 0x10000) / 0x400) ::
      unit (0xDC00 + (c.toNat - 0x10000) % 0x400) :: rest) = (join? rest).map (c :: ·) := by
  have valid : c.toNat < 0xD800 ∨ 0xDFFF < c.toNat ∧ c.toNat < 0x110000 := c.valid
  have lead : IsLead (0xD800 + (c.toNat - 0x10000) / 0x400) := by
    unfold IsLead
    omega
  have trail : IsTrail (0xDC00 + (c.toNat - 0x10000) % 0x400) := by
    unfold IsTrail
    omega
  have whole : 0x10000 + (0xD800 + (c.toNat - 0x10000) / 0x400 - 0xD800) * 0x400 +
      (0xDC00 + (c.toNat - 0x10000) % 0x400 - 0xDC00) = c.toNat := by
    omega
  rw [join?, if_pos lead, if_pos trail, whole, Char.ofNat_toNat]

end Piece

namespace Lexer

variable {tokens : List Token} {rest : List Char} {seen : List Piece}

theorem step_digit {c : Char} {digit count value : Nat} (more : count ≠ 3)
    (read : Radix.hexadecimal.digit? c = some digit) :
    step ⟨tokens, .unit seen count value⟩ c =
      some ⟨tokens, .unit seen (count + 1) (value * 16 + digit)⟩ := by
  change (Radix.hexadecimal.digit? c).map _ = _
  rw [read, Option.map_some, if_neg more]

theorem step_lastDigit {c : Char} {digit value : Nat}
    (read : Radix.hexadecimal.digit? c = some digit) :
    step ⟨tokens, .unit seen 3 value⟩ c =
      some ⟨tokens, .string (.unit (value * 16 + digit) :: seen)⟩ := by
  change (Radix.hexadecimal.digit? c).map _ = _
  rw [read, Option.map_some, if_pos rfl]

def Collects (spelling : List Char) (pieces : List Piece) : Prop :=
  ∀ tokens seen rest, scan? ⟨tokens, .string seen⟩ (spelling ++ rest) =
    scan? ⟨tokens, .string (pieces.reverse ++ seen)⟩ rest

theorem Collects.append {first second : List Char} {pieces others : List Piece}
    (collects : Collects first pieces) (behind : Collects second others) :
    Collects (first ++ second) (pieces ++ others) := by
  intro tokens seen rest
  rw [List.append_assoc, collects, behind, List.reverse_append, List.append_assoc]

theorem collects_unit {digits : List Char} {n : Nat} (number : IsUnit digits n) :
    Collects ('\\' :: 'u' :: digits) [.unit n] := by
  intro tokens seen rest
  obtain ⟨four, read⟩ := number
  obtain ⟨-, values, told, rfl⟩ := Radix.read?_eq_some_iff.mp read
  match digits, four with
  | [a, b, c, d], _ =>
    simp only [List.mapM_cons, List.mapM_nil, Option.bind_eq_bind, Option.bind_eq_some_iff,
      Option.pure_def, Option.some.injEq] at told
    obtain ⟨first, readFirst, _, ⟨second, readSecond, _, ⟨third, readThird, _,
      ⟨fourth, readFourth, _, rfl, rfl⟩, rfl⟩, rfl⟩, rfl⟩ := told
    have opened : scan? ⟨tokens, .string seen⟩ ('\\' :: 'u' :: [a, b, c, d] ++ rest) =
        scan? ⟨tokens, .unit seen 0 0⟩ (a :: b :: c :: d :: rest) := rfl
    rw [opened, scan?_of_step (step_digit (by decide) readFirst),
      scan?_of_step (step_digit (by decide) readSecond),
      scan?_of_step (step_digit (by decide) readThird), scan?_of_step (step_lastDigit readFourth)]
    rfl

theorem collects_letter {letter c : Char} (means : (letter, c) ∈ letters) :
    Collects ['\\', letter] [.char c] := by
  have every : ∀ p ∈ letters, p.1 ≠ 'u' ∧ unescape? p.1 = some p.2 := by decide
  obtain ⟨other, read⟩ := every _ means
  intro tokens seen rest
  have opens : step ⟨tokens, .string seen⟩ '\\' = some ⟨tokens, .escape seen⟩ := rfl
  have closes : step ⟨tokens, .escape seen⟩ letter = some ⟨tokens, .string (.char c :: seen)⟩ := by
    simp only [step, if_neg other, read, Option.map_some]
  rw [List.cons_append, scan?_of_step opens, List.singleton_append, scan?_of_step closes]
  rfl

/-- A spelled character is taken for pieces that are joined to the character. -/
theorem exists_pieces_of_spellsChar {spelling : List Char} {c : Char}
    (spells : SpellsChar spelling c) :
    ∃ pieces, Collects spelling pieces ∧
      ∀ others, Piece.join? (pieces ++ others) = (Piece.join? others).map (c :: ·) := by
  cases spells with
  | plain quote backslash control =>
    exact ⟨[.char c], fun _ _ _ => scan?_of_step (step_plain quote backslash control), fun _ => rfl⟩
  | letter means => exact ⟨[.char c], collects_letter means, fun _ => rfl⟩
  | unit within number => exact ⟨[.unit c.toNat], collects_unit number, Piece.join?_unit within⟩
  | pair beyond high low =>
    exact ⟨_, (collects_unit high).append (collects_unit low), Piece.join?_pair beyond⟩

theorem exists_pieces_of_spellsString {spelling text : List Char}
    (spells : SpellsString spelling text) :
    ∃ pieces, Collects spelling pieces ∧ Piece.join? pieces = some text := by
  induction spells with
  | nil => exact ⟨[], fun _ _ _ => rfl, rfl⟩
  | cons first _ ih =>
    obtain ⟨piece, collects, joins⟩ := exists_pieces_of_spellsChar first
    obtain ⟨pieces, remaining, joined⟩ := ih
    exact ⟨piece ++ pieces, collects.append remaining, by rw [joins, joined, Option.map_some]⟩

theorem scan?_string {pieces : List Piece} {spelling : List Char}
    (collects : Collects spelling pieces) :
    scan? ⟨tokens, .between⟩ ('"' :: spelling ++ '"' :: rest) =
      scan? ⟨.string ((Piece.join? pieces).map String.ofList) :: tokens, .between⟩ rest := by
  have opens : step ⟨tokens, .between⟩ '"' = some ⟨tokens, .string []⟩ := rfl
  have closes : step ⟨tokens, .string (pieces.reverse ++ [])⟩ '"' =
      some ⟨.string ((Piece.join? pieces).map String.ofList) :: tokens, .between⟩ := by
    simp only [step, if_true, List.append_nil, List.reverse_reverse]
  rw [List.cons_append, scan?_of_step opens, collects, scan?_of_step closes]

theorem punctuation?_of_spellsMark {c : Char} {token : Token} (mark : SpellsMark c token) :
    punctuation? c = some token := by
  cases mark <;> rfl

/-- Nothing in a word ends it. -/
theorem bare?_of_spellsWord {spelling : List Char} {v : Json} (word : SpellsWord spelling v) :
    bare? spelling = some v ∧ ∀ c ∈ spelling, ¬ EndsBare c := by
  cases word with
  | null => exact ⟨rfl, Text.forall_mem_of_all (by decide)⟩
  | true => exact ⟨rfl, Text.forall_mem_of_all (by decide)⟩
  | false => exact ⟨rfl, Text.forall_mem_of_all (by decide)⟩
  | integer value =>
    refine ⟨bare?_decimal value, fun c member => ?_⟩
    rcases Numeral.mark_of_mem_decimal member with rfl | digit
    · decide
    · exact not_endsBare_of_isDigit digit
  | decimal read plain => exact ⟨read, plain⟩

/-- The lexer cuts a text into the tokens that it spells, behind any that it has already. -/
theorem scan?_of_spells {text : List Char} {made : List Token} (spells : Spells text made)
    (tokens : List Token) : scan? ⟨tokens, .between⟩ text = some (tokens.reverse ++ made) := by
  induction spells generalizing tokens with
  | nil =>
    rw [List.append_nil]
    rfl
  | @space c _ _ space _ ih =>
    have stays : step ⟨tokens, .between⟩ c = some ⟨tokens, .between⟩ :=
      congrArg some (start_space space)
    rw [scan?_of_step stays, ih]
  | mark mark _ ih =>
    rw [scan?_punctuation (punctuation?_of_spellsMark mark), ih, List.reverse_cons,
      List.append_assoc]
    rfl
  | string spells _ ih =>
    obtain ⟨pieces, collects, joined⟩ := exists_pieces_of_spellsString spells
    rw [scan?_string collects, joined, ih, List.reverse_cons, List.append_assoc]
    rfl
  | @half _ _ n _ number half _ ih =>
    have broken : Piece.join? [.unit n] = none := by
      have bad : Piece.IsLead n ∨ Piece.IsTrail n := by
        unfold Piece.IsLead Piece.IsTrail
        omega
      simp only [Piece.join?, if_pos bad]
    rw [scan?_string (collects_unit number), broken, ih, List.reverse_cons, List.append_assoc]
    rfl
  | word word ended _ ih =>
    obtain ⟨read, plain⟩ := bare?_of_spellsWord word
    rw [scan?_bare read plain ended, ih, List.reverse_cons, List.append_assoc]
    rfl

end Lexer

theorem parse?_of_spells {text : String} {v : Json} (spells : Spells text.toList v.tokens) :
    parse? text = some v := by
  have tokens : tokens? text.toList = some v.tokens := Lexer.scan?_of_spells spells []
  rw [parse?, tokens, Option.bind_some, ofTokens?_tokens]

end DspChip.Json
