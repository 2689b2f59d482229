import DspChip.Proofs.Assembly.Grammar
import DspChip.Proofs.Text.Case
/-! Listings and decoding as inverses. What is decoded is well formed, and the text of a well-formed
statement is laid out as a line of that statement. A listing is the text of the statement with its
mnemonic in upper case. -/

namespace DspChip

def IsListed (c : Char) : Prop :=
  c.isAlphanum = true ∨ c ∈ ['#', ',', ':', '-', '_', ' ']

instance (c : Char) : Decidable (IsListed c) :=
  inferInstanceAs (Decidable (_ ∨ _))

theorem IsListed.reserved {c : Char} (listed : IsListed c) : IsReserved c := by
  rcases listed with alphanum | mark
  · exact Or.inl alphanum
  · have every : ∀ c ∈ ['#', ',', ':', '-', '_', ' '], IsReserved c :=
      Text.forall_mem_of_all (by decide)
    exact every c mark

theorem IsListed.eq_space {c : Char} (listed : IsListed c) (blank : Text.IsBlank c) : c = ' ' := by
  rcases listed with alphanum | mark
  · exact absurd blank (Text.not_isBlank_of_isAlphanum alphanum)
  · have every : ∀ c ∈ ['#', ',', ':', '-', '_', ' '], ¬ Text.IsBlank c ∨ c = ' ' :=
      Text.forall_mem_of_all (by decide)
    exact (every c mark).resolve_left (not_not_intro blank)

theorem IsIdentifier.listed {name : List Char} (identifier : IsIdentifier name) :
    ∀ c ∈ name, IsListed c := by
  intro c member
  rcases identifier.alphanum c member with alphanum | rfl
  · exact Or.inl alphanum
  · exact Or.inr (by decide)

namespace Operand

def IsNamed : Operand → Prop
  | register name => IsIdentifier name.toList
  | immediate _ => True

variable {operand : Operand} {token : List Char}

theorem isNamed_of_spells (spells : Spells token operand) : operand.IsNamed := by
  cases spells with
  | register identifier =>
    rw [IsNamed, String.toList_ofList]
    exact identifier
  | marked => trivial
  | number => trivial

theorem spells_text (named : operand.IsNamed) : Spells operand.text.toList operand := by
  cases operand with
  | register name =>
    have spells := Spells.register named
    rwa [String.ofList_toList] at spells
  | immediate value =>
    rw [text, String.toList_ofList]
    exact .marked (readNumber_decimal value)

theorem ne_nil_of_spells (spells : Spells token operand) : token ≠ [] := by
  rintro rfl
  cases spells with
  | register identifier => exact identifier

theorem mem_text (named : operand.IsNamed) {c : Char} (member : c ∈ operand.text.toList) :
    c.isAlphanum = true ∨ c ∈ ['#', '-', '_'] := by
  cases operand with
  | register name =>
    exact (IsIdentifier.alphanum named c member).imp_right fun line => by simp [line]
  | immediate value =>
    rw [text, String.toList_ofList, List.mem_cons] at member
    rcases member with rfl | written
    · exact Or.inr (by simp)
    · rcases Numeral.mark_of_mem_decimal written with rfl | digit
      · exact Or.inr (by simp)
      · exact Or.inl (by rw [Char.isAlphanum, digit, Bool.or_true])

theorem listed_text (named : operand.IsNamed) : ∀ c ∈ operand.text.toList, IsListed c := by
  intro c member
  refine (mem_text named member).imp_right fun mark => ?_
  have every : ∀ c ∈ ['#', '-', '_'], c ∈ ['#', ',', ':', '-', '_', ' '] :=
    Text.forall_mem_of_all (by decide)
  exact every c mark

theorem solid_text (named : operand.IsNamed) :
    ∀ c ∈ operand.text.toList, ¬ Text.IsBlank c ∧ c ≠ ',' := by
  intro c member
  rcases mem_text named member with alphanum | mark
  · refine ⟨Text.not_isBlank_of_isAlphanum alphanum, ?_⟩
    rintro rfl
    exact absurd alphanum (by decide)
  · have every : ∀ c ∈ ['#', '-', '_'], ¬ Text.IsBlank c ∧ c ≠ ',' :=
      Text.forall_mem_of_all (by decide)
    exact every c mark

end Operand

namespace Statement

def items (statement : Statement) : List (List Char) :=
  statement.operands.map fun operand => operand.text.toList

theorem toList_operandText (statement : Statement) :
    statement.operandText.toList =
      if statement.items = [] then [] else ' ' :: [',', ' '].intercalate statement.items := by
  unfold operandText items
  cases statement.operands with
  | nil => rfl
  | cons first others =>
    rw [String.toList_append, String.toList_intercalate, List.map_map, if_neg (by simp)]
    rfl

def text (statement : Statement) : String :=
  statement.labelText ++ statement.mnemonic ++ statement.operandText

def upper (statement : Statement) : Statement :=
  { statement with mnemonic := Text.upper statement.mnemonic }

theorem text_upper (statement : Statement) : statement.upper.text = statement.listing := rfl

variable {statement : Statement} {p : List Char → Prop}

theorem forall_mem_items (every : ∀ operand ∈ statement.operands, p operand.text.toList) :
    ∀ item ∈ statement.items, p item := by
  intro item member
  obtain ⟨operand, present, rfl⟩ := List.mem_map.mp member
  exact every operand present

end Statement

namespace Grammar

/-- The statements that can stand on a line: the label is an identifier, so is every register that
is named, and the mnemonic is a word without the comment mark, which does not pass for a label. -/
structure Admits (grammar : Grammar) (statement : Statement) : Prop where
  label : ∀ name, statement.label = some name → IsIdentifier name.toList
  nonempty : statement.mnemonic ≠ ""
  solid : ∀ c ∈ statement.mnemonic.toList, ¬ Text.IsBlank c ∧ c ≠ grammar.comment
  unlabelled : statement.label = none → statement.mnemonic.toList.getLast? ≠ some ':'
  operands : ∀ operand ∈ statement.operands, operand.IsNamed

variable {grammar : Grammar} {statement : Statement} {line : List Char}

theorem admits_of_decode (read : grammar.decode line = .ok (some statement)) :
    grammar.Admits statement := by
  obtain ⟨items, layout, spells⟩ := reads_some_iff.mp (readCode_iff.mp read)
  obtain ⟨front, head, tail, back, split, _, labelPart, _⟩ := layout.parts
  refine ⟨?_, ?_, ?_, layout.unlabelled, ?_⟩
  · intro name labelled
    rw [labelled] at labelPart
    cases labelPart with
    | present identifier =>
      rw [String.toList_ofList]
      exact identifier
  · intro empty
    exact layout.nonempty (String.toList_eq_nil_iff.mpr empty)
  · intro c member
    have inCode : c ∈ line.takeWhile (· ≠ grammar.comment) := by
      rw [split]
      simp [member]
    exact ⟨layout.solid c member, by simpa using List.mem_takeWhile_imp inCode⟩
  · have named : List.Forall₂ (fun operand item => operand.IsNamed ∧ Operand.Spells item operand)
        statement.operands items :=
      (spells.imp fun _ _ told => ⟨Operand.isNamed_of_spells told, told⟩).flip
    exact ((List.forall₂_and_left _ _).mp named).1

theorem Admits.upper (admits : grammar.Admits statement) : grammar.Admits statement.upper where
  label := admits.label
  nonempty := mt Text.upper_eq_empty_iff.mp admits.nonempty
  solid := by
    intro c member
    rcases Text.mem_upper member with old | letter
    · exact admits.solid c old
    · refine ⟨Text.not_isBlank_of_isAlphanum letter, ?_⟩
      rintro rfl
      exact grammar.free (Or.inl letter)
  unlabelled := by
    intro none last
    rcases Text.getLast?_upper last with old | letter
    · exact admits.unlabelled none old
    · exact absurd letter (by decide)
  operands := admits.operands

theorem Admits.mem_text (admits : grammar.Admits statement) :
    ∀ c ∈ statement.text.toList, IsListed c ∨ c ∈ statement.mnemonic.toList := by
  have label : ∀ c ∈ statement.labelText.toList, IsListed c := by
    unfold Statement.labelText
    split
    · rename_i name labelled
      rw [String.toList_append]
      exact List.forall_mem_append.mpr ⟨(admits.label name labelled).listed,
        Text.forall_mem_of_all (by decide)⟩
    · simp
  have operands : ∀ c ∈ statement.operandText.toList, IsListed c := by
    rw [Statement.toList_operandText]
    split
    · simp
    · refine List.forall_mem_cons.mpr ⟨by decide, ?_⟩
      have apart : ∀ c ∈ [',', ' '], IsListed c := Text.forall_mem_of_all (by decide)
      apply Text.forall_mem_intercalate apart
      exact Statement.forall_mem_items fun operand present =>
        Operand.listed_text (admits.operands operand present)
  rw [Statement.text, String.toList_append, String.toList_append]
  refine List.forall_mem_append.mpr ⟨List.forall_mem_append.mpr ⟨?_, ?_⟩, ?_⟩
  · exact fun c member => Or.inl (label c member)
  · exact fun c member => Or.inr member
  · exact fun c member => Or.inl (operands c member)

theorem Admits.labelPart (admits : grammar.Admits statement) :
    LabelPart statement.label statement.labelText.toList := by
  cases labelled : statement.label with
  | none =>
    rw [Statement.labelText, labelled]
    exact .absent
  | some name =>
    have space : Text.AllBlank [' '] := Text.forall_mem_of_all (by decide)
    have part := LabelPart.present (admits.label name labelled) space (by simp)
    rw [Statement.labelText, labelled, String.toList_append]
    rwa [String.ofList_toList] at part

theorem Admits.itemPart (admits : grammar.Admits statement) :
    ItemPart statement.items statement.operandText.toList := by
  have bare : Text.AllBlank [] := by simp [Text.AllBlank]
  have space : Text.AllBlank [' '] := Text.forall_mem_of_all (by decide)
  have solid : ∀ item ∈ statement.items, ∀ c ∈ item, ¬ Text.IsBlank c ∧ c ≠ ',' :=
    Statement.forall_mem_items fun operand present =>
      Operand.solid_text (admits.operands operand present)
  have filled : ∀ item ∈ statement.items, item ≠ [] :=
    Statement.forall_mem_items fun operand present =>
      Operand.ne_nil_of_spells (Operand.spells_text (admits.operands operand present))
  rw [Statement.toList_operandText]
  cases listed : statement.items with
  | nil => exact .absent
  | cons first others =>
    rw [listed] at solid filled
    rw [if_neg (List.cons_ne_nil first others)]
    refine .present space (by simp) (Text.Lists.joined bare space (by decide) solid) ?_
    intro alone
    exact filled first List.mem_cons_self (List.cons.inj alone).1

theorem Admits.layout (admits : grammar.Admits statement) :
    Layout statement.text.toList statement.label statement.mnemonic.toList statement.items where
  parts := by
    refine ⟨[], _, _, [], ?_, by simp [Text.AllBlank], admits.labelPart, admits.itemPart,
      by simp [Text.AllBlank]⟩
    simp [Statement.text]
  nonempty := mt String.toList_eq_nil_iff.mp admits.nonempty
  solid := fun c member => (admits.solid c member).1
  unlabelled := admits.unlabelled

theorem Admits.spells_items (admits : grammar.Admits statement) :
    List.Forall₂ Operand.Spells statement.items statement.operands := by
  rw [Statement.items, List.forall₂_map_left_iff, List.forall₂_same]
  exact fun operand present => Operand.spells_text (admits.operands operand present)

theorem Admits.takeWhile_text (admits : grammar.Admits statement) :
    statement.text.toList.takeWhile (· ≠ grammar.comment) = statement.text.toList := by
  rw [List.takeWhile_eq_self_iff]
  intro c member
  rw [decide_eq_true_eq]
  rcases admits.mem_text c member with listed | inside
  · rintro rfl
    exact grammar.free listed.reserved
  · exact (admits.solid c inside).2

theorem Admits.eq_space_of_mem_text (admits : grammar.Admits statement) {c : Char}
    (member : c ∈ statement.text.toList) (blank : Text.IsBlank c) : c = ' ' := by
  rcases admits.mem_text c member with listed | inside
  · exact listed.eq_space blank
  · exact absurd blank (admits.solid c inside).1

theorem Admits.decode_text (admits : grammar.Admits statement) :
    grammar.decode statement.text.toList = .ok (some statement) := by
  rw [decode, code, admits.takeWhile_text, readCode_iff, reads_some_iff]
  exact ⟨statement.items, admits.layout, admits.spells_items⟩

theorem Admits.decode_listing (admits : grammar.Admits statement) :
    grammar.decode statement.listing.toList = .ok (some statement.upper) := by
  rw [← Statement.text_upper]
  exact admits.upper.decode_text

/-- Listing and decoding are inverse for every grammar. What a line is decoded to is well formed,
and the listing of any well-formed statement is decoded to that statement, its mnemonic in upper
case. -/
theorem decode_inverts_listing (grammar : Grammar) :
    (∀ line statement, grammar.decode line = .ok (some statement) → grammar.Admits statement) ∧
    ∀ statement, grammar.Admits statement → grammar.decode statement.listing.toList =
      .ok (some { statement with mnemonic := Text.upper statement.mnemonic }) :=
  ⟨fun _ _ => admits_of_decode, fun _ => Admits.decode_listing⟩

theorem decode_inverts_listing_odd :
    let grammar : Grammar := ⟨'!', by decide⟩
    let statement : Statement :=
      ⟨some "go_1", "mo,v:é", [.immediate Int64.minValue, .register "R0"]⟩
    grammar.decode " go_1:\tmo,v:é -9223372036854775808 , R0! R1".toList = .ok (some statement) ∧
    statement.listing = "go_1: MO,V:é #-9223372036854775808, R0" ∧
    grammar.decode statement.listing.toList =
      .ok (some { statement with mnemonic := Text.upper statement.mnemonic }) := by
  intro grammar statement
  have read : grammar.decode " go_1:\tmo,v:é -9223372036854775808 , R0! R1".toList =
      .ok (some statement) := by cbv
  have inverse := decode_inverts_listing grammar
  exact ⟨read, by cbv, inverse.2 statement (inverse.1 _ statement read)⟩

end Grammar

end DspChip
