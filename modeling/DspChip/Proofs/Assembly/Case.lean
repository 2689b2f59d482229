import DspChip.Proofs.Assembly.Operand
import DspChip.Proofs.Number.Case
/-! Lines in lower case. A line in lower case is read as the line is, but for the case of what is
quoted from it: names of registers, the mnemonic and the label, and what a fault blames. -/

namespace DspChip

open Text (fold lower)

def Operand.fold : Operand → Operand
  | register name => register (Text.fold name)
  | immediate value => immediate value

def Statement.fold (statement : Statement) : Statement where
  label := statement.label.map Text.fold
  mnemonic := Text.fold statement.mnemonic
  operands := statement.operands.map Operand.fold

/-- The fault with what it quotes from a line in lower case. Registers and instructions are told by
the names under which they were added, so these stay. -/
def Fault.fold : Fault → Fault
  | unknownMnemonic mnemonic => unknownMnemonic (Text.fold mnemonic)
  | operandParse token reason => operandParse (Text.fold token) reason
  | invalidLabel label => invalidLabel (Text.fold label)
  | invalidOperand mnemonic index expected found =>
    invalidOperand mnemonic index expected (Text.fold found)
  | unknownRegister name => unknownRegister (Text.fold name)
  | fault => fault

def folded {α β : Type} (rule : α → β) (result : Except Fault α) : Except Fault β :=
  (result.map rule).mapError Fault.fold

section Folded

variable {α β γ δ : Type} {rule : α → β} {outer : γ → δ}

theorem folded_map (result : Except Fault α) (make : α → γ) (other : β → δ)
    (same : ∀ a, other (rule a) = outer (make a)) :
    (folded rule result).map other = folded outer (result.map make) := by
  cases result with
  | error fault => rfl
  | ok a => exact congrArg Except.ok (same a)

theorem folded_bind {first : Except Fault α} {next : α → Except Fault γ}
    {other : β → Except Fault δ} (continues : ∀ a, other (rule a) = folded outer (next a)) :
    (folded rule first >>= other) = folded outer (first >>= next) := by
  cases first with
  | error fault => rfl
  | ok a => exact continues a

theorem folded_mapM {read : α → Except Fault γ} {again : β → Except Fault δ}
    (every : ∀ a, again (rule a) = folded outer (read a)) (items : List α) :
    (items.map rule).mapM again = folded (List.map outer) (items.mapM read) := by
  induction items with
  | nil => rfl
  | cons item rest ih =>
    rw [List.map_cons, List.mapM_cons, List.mapM_cons, every, ih]
    apply folded_bind
    intro value
    apply folded_bind
    intro others
    rfl

end Folded

theorem isIdentifier_lower (text : List Char) : IsIdentifier (lower text) ↔ IsIdentifier text := by
  have underscore : ∀ c : Char, c.toLower = '_' ↔ c = '_' := fun _ => Text.toLower_eq_iff rfl
  cases text with
  | nil => exact Iff.rfl
  | cons first rest =>
    simp only [lower, List.map_cons, IsIdentifier, List.forall_mem_map,
      Char.isAlpha_toLower_eq_isAlpha, Text.isAlphanum_toLower, underscore]

namespace Operand

theorem readNumber_lower (token : List Char) :
    readNumber (lower token) = folded id (readNumber token) := by
  unfold readNumber
  rw [Numeral.value?_lower, ← Text.fold_ofList]
  split
  · rfl
  · split <;> rfl

theorem read_lower (token : List Char) : read (lower token) = folded fold (read token) := by
  cases token with
  | nil => rfl
  | cons first rest =>
    have immediates : ∀ number, (readNumber (lower number)).map immediate =
        folded fold ((readNumber number).map immediate) := by
      intro number
      rw [readNumber_lower]
      exact folded_map _ _ _ fun _ => rfl
    by_cases marked : first = '#'
    · subst marked
      exact immediates rest
    · have unmarked : first.toLower ≠ '#' := mt (Text.toLower_eq_iff rfl).mp marked
      have begins : BeginsNumber first.toLower ↔ BeginsNumber first := by
        unfold BeginsNumber
        rw [Text.isDigit_toLower, Text.toLower_eq_iff rfl, Text.toLower_eq_iff rfl]
      have small : lower (first :: rest) = first.toLower :: lower rest := rfl
      rw [small, read_cons unmarked, read_cons marked, ← small]
      simp only [begins, isIdentifier_lower, ← Text.fold_ofList]
      split
      · exact immediates _
      · split <;> rfl

theorem readAll_lower (text : List Char) :
    readAll (lower text) = folded (List.map fold) (readAll text) := by
  unfold readAll
  rw [Text.splitOn_lower rfl]
  simp only [lower, List.map_eq_nil_iff]
  split
  · rfl
  · apply folded_mapM
    intro item
    rw [Text.trim_lower, read_lower]

end Operand

namespace Grammar

theorem code_lower (grammar : Grammar) (line : List Char) :
    grammar.code (lower line) = lower (grammar.code line) := by
  have plain : grammar.comment.isAlpha = false := by
    by_contra letter
    have alpha : grammar.comment.isAlpha = true := by simpa using letter
    exact grammar.free (Or.inl (by rw [Char.isAlphanum, alpha, Bool.true_or]))
  rw [code, Text.takeWhile_ne_lower plain, Text.trim_lower, code]

theorem readInstruction_lower (label : Option String) (text : List Char) :
    readInstruction (label.map fold) (lower text) =
      folded (Option.map Statement.fold) (readInstruction label text) := by
  unfold readInstruction
  by_cases empty : text = []
  · subst empty
    rfl
  · have present : lower text ≠ [] := by simpa [lower] using empty
    rw [if_neg empty, if_neg present, Text.nextWord_lower]
    dsimp only
    rw [Operand.readAll_lower, ← Text.fold_ofList]
    apply folded_bind
    intro operands
    rfl

theorem readCode_lower (text : List Char) :
    readCode (lower text) = folded (Option.map Statement.fold) (readCode text) := by
  have labelled : ∀ first : List Char,
      (lower first).getLast? = some ':' ↔ first.getLast? = some ':' :=
    Text.getLast?_lower_eq_iff rfl
  unfold readCode
  simp only [Text.nextWord_lower, labelled, Text.dropLast_lower, isIdentifier_lower,
    ← Text.fold_ofList]
  split
  · split
    · exact readInstruction_lower (some _) _
    · rfl
  · exact readInstruction_lower none text

theorem decode_lower (grammar : Grammar) (line : List Char) :
    grammar.decode (lower line) = folded (Option.map Statement.fold) (grammar.decode line) := by
  rw [decode, code_lower, readCode_lower, decode]

end Grammar

end DspChip
