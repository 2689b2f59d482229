import DspChip.Json.Parser
import DspChip.Proofs.Number.Format
import Mathlib.Data.List.TakeDrop
import Mathlib.Data.List.TakeWhile
/-! JSON integers are read back, and written text is cut into its tokens. -/

namespace DspChip.Json

variable {n : Nat}

theorem digits?_of_forall {text : List Char} (digits : ∀ c ∈ text, c.isDigit)
    (present : text ≠ []) : digits? text = some (text, []) := by
  have whole : text.span Char.isDigit = (text, []) := by
    rw [List.span_eq_takeWhile_dropWhile, List.takeWhile_eq_self_iff.mpr digits,
      List.dropWhile_eq_nil_iff.mpr digits]
  unfold digits?
  rw [whole]
  cases text with
  | nil => exact absurd rfl present
  | cons first rest => rfl

/-- Decimal digits have no zero in front, unless that is all. -/
theorem whole?_toDigits (n : Nat) :
    whole? (Nat.toDigits 10 n) = some (Nat.toDigits 10 n, []) := by
  unfold whole?
  rw [digits?_of_forall (fun c => Numeral.isDigit_of_mem_toDigits) Nat.toDigits_ne_nil,
    Option.filter_some, if_pos]
  by_cases zero : (Nat.toDigits 10 n).head? = some '0'
  · obtain rfl : n = 0 := @Radix.eq_zero_of_head?_toDigits .decimal n zero
    decide
  · simp [zero]

theorem head?_decimal (v : Int) : (Numeral.decimal v).head? = some '-' ↔ v < 0 := by
  unfold Numeral.decimal
  split
  · rename_i negative
    simp [negative]
  · rename_i positive
    refine ⟨fun minus => ?_, fun negative => absurd negative positive⟩
    have digit := Numeral.isDigit_of_mem_toDigits (List.mem_of_mem_head? minus)
    exact absurd digit (by decide)

theorem number?_decimal (v : Int) : number? (Numeral.decimal v) = some (.integer v) := by
  have read : Radix.decimal.read? (Nat.toDigits 10 v.natAbs) = some v.natAbs :=
    Radix.decimal.read?_toDigits v.natAbs
  unfold number?
  by_cases negative : v < 0
  · have minus : (Numeral.decimal v).head? = some '-' := (head?_decimal v).mpr negative
    have digits : (Numeral.decimal v).tail = Nat.toDigits 10 v.natAbs := by
      rw [Numeral.decimal, if_pos negative]
      rfl
    have nonzero : Nat.toDigits 10 v.natAbs ≠ ['0'] := by
      intro zero
      have := @Radix.eq_zero_of_head?_toDigits .decimal v.natAbs (congrArg List.head? zero)
      omega
    have value : -(v.natAbs : Int) = v := by omega
    simp only [minus, decide_true, if_true, digits, whole?_toDigits, Option.bind_eq_bind,
      Option.bind_some, nonzero, and_false, not_false_eq_true, and_self, read, value]
    rfl
  · have minus : (Numeral.decimal v).head? ≠ some '-' := mt (head?_decimal v).mp negative
    have digits : Numeral.decimal v = Nat.toDigits 10 v.natAbs := by
      rw [Numeral.decimal, if_neg negative]
      rfl
    have value : (v.natAbs : Int) = v := by omega
    rw [digits] at minus ⊢
    simp only [minus, decide_false, Bool.false_eq_true, if_false, whole?_toDigits,
      Option.bind_eq_bind, Option.bind_some, false_and, not_false_eq_true, and_self, if_true, read,
      value]
    rfl

theorem bare?_decimal (v : Int) : bare? (Numeral.decimal v) = some (.integer v) := by
  have named : ∀ first rest, ¬ (first = '-' ∨ first.isDigit) →
      Numeral.decimal v ≠ first :: rest := by
    intro first rest letter same
    apply letter
    apply @Numeral.mark_of_mem_decimal v
    rw [same]
    exact List.mem_cons_self
  have null : Numeral.decimal v ≠ "null".toList := named 'n' _ (by decide)
  have yes : Numeral.decimal v ≠ "true".toList := named 't' _ (by decide)
  have no : Numeral.decimal v ≠ "false".toList := named 'f' _ (by decide)
  rw [bare?, if_neg null, if_neg yes, if_neg no, number?_decimal]

/-! Cutting written text into tokens. A token that is written at the start of a text is the first
one that is cut off. -/

def Lexer.scan? (lexer : Lexer) (text : List Char) : Option (List Token) :=
  (text.foldlM step lexer).bind finish?

namespace Lexer

variable {tokens : List Token} {c : Char} {rest : List Char}

theorem scan?_cons (lexer : Lexer) (c : Char) (rest : List Char) :
    lexer.scan? (c :: rest) = (lexer.step c).bind fun next => next.scan? rest := by
  unfold scan?
  rw [List.foldlM_cons]
  exact Option.bind_assoc _ _ _

theorem scan?_of_step {lexer next : Lexer} (stepped : lexer.step c = some next) :
    lexer.scan? (c :: rest) = next.scan? rest := by
  rw [scan?_cons, stepped, Option.bind_some]

theorem start_space (space : IsSpace c) : start tokens c = ⟨tokens, .between⟩ :=
  if_pos space

theorem start_punctuation {token : Token} (told : punctuation? c = some token) :
    start tokens c = ⟨token :: tokens, .between⟩ := by
  have other : ¬ IsSpace c ∧ c ≠ '"' := by
    constructor
    · intro space
      have every : ∀ c ∈ [' ', '\t', '\n', '\r'], ¬ (punctuation? c).isSome :=
        Text.forall_mem_of_all (by decide)
      exact every c space (told ▸ rfl)
    · intro same
      subst same
      cases told
  rw [start, if_neg other.1, if_neg other.2, told]

theorem start_bare (plain : ¬ EndsBare c) : start tokens c = ⟨tokens, .bare [c]⟩ := by
  simp only [EndsBare, not_or] at plain
  obtain ⟨space, quote, mark⟩ := plain
  rw [start, if_neg space, if_neg quote, Option.not_isSome_iff_eq_none.mp mark]

theorem scan?_punctuation {token : Token} (told : punctuation? c = some token) :
    scan? ⟨tokens, .between⟩ (c :: rest) = scan? ⟨token :: tokens, .between⟩ rest :=
  scan?_of_step (congrArg some (start_punctuation told))

def Ended (rest : List Char) : Prop :=
  ∀ c ∈ rest.head?, EndsBare c

theorem Ended.append {first second : List Char} (begins : Ended first) (ends : Ended second) :
    Ended (first ++ second) := by
  cases first with
  | nil => exact ends
  | cons c rest => exact begins

theorem ended_nil : Ended [] := fun _ head => nomatch head

theorem ended_cons {c : Char} (ends : EndsBare c) (rest : List Char) : Ended (c :: rest) := by
  intro d head
  rwa [← Option.some.inj head]

theorem ended_of_spaces {blank : List Char} (spaces : ∀ c ∈ blank, IsSpace c) : Ended blank :=
  fun c head => Or.inl (spaces c (List.mem_of_mem_head? head))

theorem not_endsBare_of_isDigit {c : Char} (digit : c.isDigit) : ¬ EndsBare c := by
  have every : ∀ c ∈ [' ', '\t', '\n', '\r', '"', '[', ']', '\x7b', '\x7d', ',', ':'],
      ¬ c.isDigit :=
    Text.forall_mem_of_all (by decide)
  intro ends
  refine every c ?_ digit
  rcases ends with space | rfl | mark
  · exact List.mem_append_left _ space
  · decide
  · unfold punctuation? at mark
    split at mark
    all_goals first | decide | cases mark

theorem scan?_seen {seen others : List Char} (plain : ∀ c ∈ others, ¬ EndsBare c) :
    scan? ⟨tokens, .bare seen⟩ (others ++ rest) =
      scan? ⟨tokens, .bare (others.reverse ++ seen)⟩ rest := by
  induction others generalizing seen with
  | nil => rfl
  | cons c others ih =>
    have first : step ⟨tokens, .bare seen⟩ c = some ⟨tokens, .bare (c :: seen)⟩ :=
      if_neg (plain c List.mem_cons_self)
    rw [List.cons_append, scan?_of_step first,
      ih fun d member => plain d (List.mem_cons_of_mem c member), List.reverse_cons,
      List.append_assoc]
    rfl

theorem scan?_close {seen : List Char} {closed : List Token}
    (ends : close? tokens seen = some closed) (ended : Ended rest) :
    scan? ⟨tokens, .bare seen⟩ rest = scan? ⟨closed, .between⟩ rest := by
  cases rest with
  | nil =>
    change (close? tokens seen).map List.reverse = some closed.reverse
    rw [ends, Option.map_some]
  | cons c rest =>
    have bare : step ⟨tokens, .bare seen⟩ c = some (start closed c) := by
      change (if EndsBare c then (close? tokens seen).map (start · c) else _) = _
      rw [if_pos (ended c rfl), ends, Option.map_some]
    have between : step ⟨closed, .between⟩ c = some (start closed c) := rfl
    rw [scan?_of_step bare, scan?_of_step between]

theorem scan?_bare {spelling : List Char} {value : Json} (read : bare? spelling = some value)
    (plain : ∀ c ∈ spelling, ¬ EndsBare c) (ended : Ended rest) :
    scan? ⟨tokens, .between⟩ (spelling ++ rest) = scan? ⟨.bare value :: tokens, .between⟩ rest := by
  cases spelling with
  | nil => cases read
  | cons first others =>
    have begins : step ⟨tokens, .between⟩ first = some ⟨tokens, .bare [first]⟩ :=
      congrArg some (start_bare (plain first List.mem_cons_self))
    have closes : close? tokens (others.reverse ++ [first]) = some (.bare value :: tokens) := by
      rw [close?, List.reverse_append, List.reverse_reverse]
      exact congrArg (Option.map (.bare · :: tokens)) read
    rw [List.cons_append, scan?_of_step begins,
      scan?_seen fun c member => plain c (List.mem_cons_of_mem first member),
      scan?_close closes ended]

theorem step_plain {seen : List Piece} {c : Char} (quote : c ≠ '"') (backslash : c ≠ '\\')
    (control : ¬ c.toNat < 0x20) :
    step ⟨tokens, .string seen⟩ c = some ⟨tokens, .string (.char c :: seen)⟩ := by
  simp only [step, if_neg quote, if_neg backslash, if_neg control]

end Lexer

end DspChip.Json
