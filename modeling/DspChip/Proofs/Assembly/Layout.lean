import DspChip.Proofs.Assembly.Operand
/-! The layout of a line, told apart from how it is read: `blanks [label ':' blanks] mnemonic
[blanks item {',' item}] blanks`. Every line is vacant, mislabelled or laid out in one way, and what
is read of it follows from that. -/

namespace DspChip.Grammar

open Text (AllBlank FirstWord)

/-- Code without a statement: blanks, or a label and its colon between blanks. -/
inductive Vacant : List Char → Prop where
  | blank {code : List Char} (blank : AllBlank code) : Vacant code
  | labelled {front name back : List Char} (before : AllBlank front)
      (identifier : IsIdentifier name) (behind : AllBlank back) :
      Vacant (front ++ (name ++ ':' :: back))

def Mislabelled (code name : List Char) : Prop :=
  ∃ rest, FirstWord code (name ++ [':']) rest ∧ ¬ IsIdentifier name

/-- `[label ':' blanks]` -/
inductive LabelPart : Option String → List Char → Prop where
  | absent : LabelPart none []
  | present {name gap : List Char} (identifier : IsIdentifier name) (blank : AllBlank gap)
      (wide : gap ≠ []) : LabelPart (some (String.ofList name)) (name ++ ':' :: gap)

/-- `[blanks item {',' item}]`, where a lone item is not empty, since that is no more than blanks.
-/
inductive ItemPart : List (List Char) → List Char → Prop where
  | absent : ItemPart [] []
  | present {gap text : List Char} {items : List (List Char)} (blank : AllBlank gap)
      (wide : gap ≠ []) (lists : Text.Lists ',' text items) (filled : items ≠ [[]]) :
      ItemPart items (gap ++ text)

/-- `blanks [label ':' blanks] mnemonic [blanks item {',' item}] blanks` -/
structure Layout (code : List Char) (label : Option String) (mnemonic : List Char)
    (items : List (List Char)) : Prop where
  parts : ∃ front head tail back, code = front ++ (head ++ (mnemonic ++ (tail ++ back))) ∧
    AllBlank front ∧ LabelPart label head ∧ ItemPart items tail ∧ AllBlank back
  nonempty : mnemonic ≠ []
  solid : ∀ c ∈ mnemonic, ¬ Text.IsBlank c
  unlabelled : label = none → mnemonic.getLast? ≠ some ':'

variable {code word rest tail back mnemonic : List Char} {label : Option String}
  {items : List (List Char)}

theorem readInstruction_of_blank (label : Option String) (blank : AllBlank rest) :
    readInstruction label (Text.trim rest) = .ok none := by
  rw [readInstruction, if_pos (Text.trim_eq_nil_iff.mpr blank)]

theorem readInstruction_of_firstWord (label : Option String) (first : FirstWord code mnemonic rest) :
    readInstruction label (Text.trim code) = (Operand.readAll (Text.trim rest)).map fun operands =>
      some ⟨label, String.ofList mnemonic, operands⟩ := by
  have present : Text.trim code ≠ [] := by
    intro trimmed
    have word := first.nextWord_trim
    rw [trimmed] at word
    exact first.nonempty (congrArg Prod.fst word).symm
  rw [readInstruction, if_neg present, first.nextWord_trim]
  dsimp only
  cases Operand.readAll (Text.trim rest) <;> rfl

theorem readCode_of_firstWord (first : FirstWord code word rest) :
    readCode (Text.trim code) =
      if word.getLast? = some ':' then
        if IsIdentifier word.dropLast then
          readInstruction (some (String.ofList word.dropLast)) (Text.trim rest)
        else .error (.invalidLabel (String.ofList word.dropLast))
      else readInstruction none (Text.trim code) := by
  rw [readCode, first.nextWord_trim]

theorem firstWord_of_identifier {front name : List Char} (before : AllBlank front)
    (identifier : IsIdentifier name) (ended : ∀ c, rest.head? = some c → Text.IsBlank c) :
    FirstWord (front ++ (name ++ ':' :: rest)) (name ++ [':']) rest where
  stands := ⟨front, before, by simp⟩
  nonempty := by simp
  solid := List.forall_mem_append.mpr ⟨identifier.solid, Text.forall_mem_of_all (by decide)⟩
  ended := ended

theorem ItemPart.ended (part : ItemPart items tail) (blank : AllBlank back) :
    ∀ c, (tail ++ back).head? = some c → Text.IsBlank c := by
  intro c head
  cases part with
  | absent => exact blank c (List.mem_of_mem_head? head)
  | @present gap text _ spaces wide lists filled =>
    rw [List.append_assoc, List.head?_append, List.head?_eq_some_head wide, Option.some_or] at head
    exact spaces c (Option.some.inj head ▸ List.head_mem wide)

theorem ItemPart.readAll (part : ItemPart items tail) (blank : AllBlank back) :
    Operand.readAll (Text.trim (tail ++ back)) = items.mapM Operand.read := by
  have comma : ¬ Text.IsBlank ',' := by decide
  cases part with
  | absent =>
    rw [List.nil_append, Text.trim_eq_nil_iff.mpr blank]
    rfl
  | @present gap text _ spaces wide lists filled =>
    have listed := (lists.prepend comma spaces).append comma blank
    have present : Text.trim (gap ++ text ++ back) ≠ [] := by
      rw [ne_eq, Text.trim_eq_nil_iff, ← listed.eq_singleton_nil_iff comma]
      exact filled
    exact Operand.readAll_of_lists present ((Text.lists_trim_iff comma).mpr listed)

/-- What a line with a layout is read as depends on its items only. -/
theorem Layout.readCode (layout : Layout code label mnemonic items) :
    readCode (Text.trim code) = (items.mapM Operand.read).map fun operands =>
      some ⟨label, String.ofList mnemonic, operands⟩ := by
  obtain ⟨front, head, tail, back, split, before, labelPart, itemPart, behind⟩ := layout.parts
  have ended := itemPart.ended behind
  rw [← itemPart.readAll behind]
  cases labelPart with
  | absent =>
    have first : FirstWord code mnemonic (tail ++ back) :=
      ⟨⟨front, before, split⟩, layout.nonempty, layout.solid, ended⟩
    rw [readCode_of_firstWord first, if_neg (layout.unlabelled rfl),
      readInstruction_of_firstWord none first]
  | @present name gap identifier blank wide =>
    have second : FirstWord (gap ++ (mnemonic ++ (tail ++ back))) mnemonic (tail ++ back) :=
      ⟨⟨gap, blank, rfl⟩, layout.nonempty, layout.solid, ended⟩
    have begins : ∀ c, (gap ++ (mnemonic ++ (tail ++ back))).head? = some c → Text.IsBlank c := by
      intro c head
      rw [List.head?_append, List.head?_eq_some_head wide, Option.some_or] at head
      exact blank c (Option.some.inj head ▸ List.head_mem wide)
    have first : FirstWord code (name ++ [':']) (gap ++ (mnemonic ++ (tail ++ back))) := by
      rw [split, List.append_assoc, List.cons_append]
      exact firstWord_of_identifier before identifier begins
    rw [readCode_of_firstWord first, List.getLast?_concat, List.dropLast_concat, if_pos rfl,
      if_pos identifier, readInstruction_of_firstWord _ second]

theorem Vacant.readCode (vacant : Vacant code) : readCode (Text.trim code) = .ok none := by
  cases vacant with
  | blank blank =>
    rw [Text.trim_eq_nil_iff.mpr blank]
    rfl
  | labelled before identifier behind =>
    have ended := fun c head => behind c (List.mem_of_mem_head? head)
    rw [readCode_of_firstWord (firstWord_of_identifier before identifier ended),
      List.getLast?_concat, List.dropLast_concat, if_pos rfl, if_pos identifier,
      readInstruction_of_blank _ behind]

theorem Mislabelled.readCode {name : List Char} (mislabelled : Mislabelled code name) :
    readCode (Text.trim code) = .error (.invalidLabel (String.ofList name)) := by
  obtain ⟨rest, first, noName⟩ := mislabelled
  rw [readCode_of_firstWord first, List.getLast?_concat, List.dropLast_concat, if_pos rfl,
    if_neg noName]

theorem exists_itemPart (ended : ∀ c, rest.head? = some c → Text.IsBlank c) :
    ∃ items tail back, rest = tail ++ back ∧ ItemPart items tail ∧ AllBlank back := by
  by_cases blank : AllBlank rest
  · exact ⟨[], [], rest, rfl, .absent, blank⟩
  · cases rest with
    | nil => exact absurd (by simp [AllBlank]) blank
    | cons space text =>
      have own : AllBlank [space] := by simpa [AllBlank] using ended space rfl
      have listed := Text.Lists.splitOn ',' text
      refine ⟨_, [space] ++ text, [], by simp, .present own (by simp) listed ?_, by simp [AllBlank]⟩
      rw [ne_eq, listed.eq_singleton_nil_iff (by decide)]
      exact fun others => blank (List.forall_mem_append.mpr ⟨own, others⟩)

theorem exists_layout (first : FirstWord code mnemonic rest)
    (unlabelled : mnemonic.getLast? ≠ some ':') : ∃ items, Layout code none mnemonic items := by
  obtain ⟨front, before, split⟩ := first.stands
  obtain ⟨items, tail, back, rfl, itemPart, behind⟩ := exists_itemPart first.ended
  exact ⟨items, ⟨front, [], tail, back, split, before, .absent, itemPart, behind⟩, first.nonempty,
    first.solid, fun _ => unlabelled⟩

theorem exists_layout_of_label {name between : List Char}
    (first : FirstWord code (name ++ [':']) between) (identifier : IsIdentifier name)
    (second : FirstWord between mnemonic rest) :
    ∃ items, Layout code (some (String.ofList name)) mnemonic items := by
  obtain ⟨front, before, split⟩ := first.stands
  obtain ⟨gap, blank, rfl⟩ := second.stands
  obtain ⟨items, tail, back, rfl, itemPart, behind⟩ := exists_itemPart second.ended
  have wide : gap ≠ [] := by
    rintro rfl
    obtain ⟨letter, others, rfl⟩ := List.exists_cons_of_ne_nil second.nonempty
    exact second.solid letter List.mem_cons_self (first.ended letter rfl)
  refine ⟨items, ⟨front, name ++ ':' :: gap, tail, back, ?_, before, .present identifier blank wide,
    itemPart, behind⟩, second.nonempty, second.solid, fun none => by cases none⟩
  rw [split]
  simp

theorem vacant_or_mislabelled_or_layout (code : List Char) :
    Vacant code ∨ (∃ name, Mislabelled code name) ∨
      ∃ label mnemonic items, Layout code label mnemonic items := by
  by_cases blank : AllBlank code
  · exact Or.inl (.blank blank)
  obtain ⟨word, rest, first⟩ := Text.exists_firstWord blank
  by_cases colon : word.getLast? = some ':'
  · obtain ⟨name, rfl⟩ := List.getLast?_eq_some_iff.mp colon
    by_cases identifier : IsIdentifier name
    · by_cases vacant : AllBlank rest
      · obtain ⟨front, before, rfl⟩ := first.stands
        rw [List.append_assoc]
        exact Or.inl (.labelled before identifier vacant)
      · obtain ⟨mnemonic, behind, second⟩ := Text.exists_firstWord vacant
        obtain ⟨items, layout⟩ := exists_layout_of_label first identifier second
        exact Or.inr (Or.inr ⟨_, _, items, layout⟩)
    · exact Or.inr (Or.inl ⟨name, rest, first, identifier⟩)
  · obtain ⟨items, layout⟩ := exists_layout first colon
    exact Or.inr (Or.inr ⟨_, _, items, layout⟩)

end DspChip.Grammar
