import DspChip.Proofs.Json.Spelling
/-! What is printed spells the value, in any style that puts blanks between the tokens; so it is
read back. -/

namespace DspChip.Json

structure Style.Blank (style : Style) : Prop where
  lineBreak : ∀ depth, ∀ c ∈ style.lineBreak depth, Lexer.IsSpace c
  gap : ∀ c ∈ style.gap, Lexer.IsSpace c

theorem Style.blank_indented : Style.indented.Blank where
  lineBreak := by
    intro depth c member
    rcases List.mem_cons.mp member with rfl | space
    · decide
    · rw [(List.mem_replicate.mp space).2]
      decide
  gap := Text.forall_mem_of_all (by decide)

theorem Style.blank_compact : Style.compact.Blank where
  lineBreak := fun _ _ member => absurd member List.not_mem_nil
  gap := fun _ member => absurd member List.not_mem_nil

inductive WellSpelled : Json → Prop where
  | null : WellSpelled null
  | bool (value : Bool) : WellSpelled (bool value)
  | integer (value : Int) : WellSpelled (integer value)
  | decimal {spelling : String} (read : bare? spelling.toList = some (decimal spelling))
      (plain : ∀ c ∈ spelling.toList, ¬ Lexer.EndsBare c) : WellSpelled (decimal spelling)
  | string (text : Option String) : WellSpelled (string text)
  | array {items : List Json} (every : ∀ item ∈ items, WellSpelled item) : WellSpelled (array items)
  | object {members : List (Option String × Json)}
      (every : ∀ member ∈ members, WellSpelled member.2) : WellSpelled (object members)

namespace WellSpelled

theorem text (value : String) : WellSpelled (text value) := string (some value)

theorem record {members : List (String × Json)} (every : ∀ member ∈ members, WellSpelled member.2) :
    WellSpelled (record members) := by
  refine object ?_
  intro member given
  obtain ⟨named, inside, rfl⟩ := List.mem_map.mp given
  exact every named inside

theorem map {α : Type} {write : α → Json} (every : ∀ a, WellSpelled (write a)) (items : List α) :
    WellSpelled (.array (items.map write)) := by
  refine array ?_
  intro item given
  obtain ⟨a, _, rfl⟩ := List.mem_map.mp given
  exact every a

end WellSpelled

theorem isUnit_of_small {n : Nat} (small : n < 0x100) :
    IsUnit ['0', '0', Nat.digitChar (n / 16), Nat.digitChar (n % 16)] n := by
  have zero : Radix.hexadecimal.digit? '0' = some 0 := by decide
  have high : Radix.hexadecimal.digit? (Nat.digitChar (n / 16)) = some (n / 16) :=
    Radix.digit?_digitChar (show n / 16 < 16 by omega)
  have low : Radix.hexadecimal.digit? (Nat.digitChar (n % 16)) = some (n % 16) :=
    Radix.digit?_digitChar (show n % 16 < 16 by omega)
  refine ⟨rfl, Radix.read?_eq_some_iff.mpr ⟨List.cons_ne_nil _ _, [0, 0, n / 16, n % 16], ?_, ?_⟩⟩
  · simp [zero, high, low]
  · simp only [Radix.weigh, Radix.size, List.foldl_cons, List.foldl_nil]
    omega

theorem spells_escape (c : Char) : SpellsChar (escape c) c := by
  unfold escape
  -- first the seven characters that have a letter
  iterate 7
    split
    · subst c
      exact .letter (by decide)
  rename_i quote backslash _ _ _ _ _
  split
  · rename_i control
    have small : c.toNat < 0x100 := Nat.lt_trans control (by decide)
    exact .unit (Nat.lt_trans small (by decide)) (isUnit_of_small small)
  · rename_i printable
    exact .plain quote backslash printable

theorem spells_escapes (text : List Char) : SpellsString (text.flatMap escape) text := by
  induction text with
  | nil => exact .nil
  | cons c rest ih => exact .cons (spells_escape c) ih

theorem spells_quote (text : Option String) : Spells (quote text) [.string text] := by
  cases text with
  | none =>
    have number : IsUnit "d800".toList 0xD800 := ⟨rfl, by decide⟩
    exact .half number (by decide) .nil
  | some text =>
    have spells := Spells.string (spells_escapes text.toList) .nil
    rwa [String.ofList_toList] at spells

namespace Spells

variable {style : Style} {depth : Nat}

theorem alone {spelling : List Char} {v : Json} (word : SpellsWord spelling v) :
    Spells spelling [.bare v] := by
  have spells := Spells.word word Lexer.ended_nil .nil
  rwa [List.append_nil] at spells

theorem closing (blank : style.Blank) (depth : Nat) {c : Char} {token : Token}
    (mark : SpellsMark c token) :
    Spells (style.lineBreak depth ++ [c]) [token] ∧ Lexer.Ended (style.lineBreak depth ++ [c]) := by
  have ends : Lexer.EndsBare c := Or.inr (Or.inr (Lexer.punctuation?_of_spellsMark mark ▸ rfl))
  exact ⟨Spells.blank (blank.lineBreak depth) (.mark mark .nil),
    (Lexer.ended_of_spaces (blank.lineBreak depth)).append (Lexer.ended_cons ends [])⟩

theorem ended_items (style : Style) (depth : Nat) (items : List Json) :
    Lexer.Ended (printItems style depth items) := by
  cases items with
  | nil => exact Lexer.ended_nil
  | cons item rest => exact Lexer.ended_cons (by decide) _

theorem ended_members (style : Style) (depth : Nat) (members : List (Option String × Json)) :
    Lexer.Ended (printMembers style depth members) := by
  cases members with
  | nil => exact Lexer.ended_nil
  | cons member rest => exact Lexer.ended_cons (by decide) _

theorem items (blank : style.Blank) {items : List Json}
    (every : ∀ item ∈ items, Spells (print style depth item) item.tokens) :
    Spells (printItems style depth items) (tokensOfItems items) := by
  induction items with
  | nil => exact .nil
  | cons item items ih =>
    have behind := ih fun other member => every other (List.mem_cons_of_mem item member)
    have first := every item List.mem_cons_self
    simp only [printItems, tokensOfItems, List.cons_append, List.append_assoc]
    exact .mark .comma <| .blank (blank.lineBreak depth) <|
      first.append behind (ended_items style depth items)

theorem member (blank : style.Blank) {member : Option String × Json}
    (spells : Spells (print style depth member.2) member.2.tokens) :
    Spells (printMember style depth member) (tokensOfMember member) := by
  obtain ⟨key, value⟩ := member
  have behind : Spells (':' :: (style.gap ++ print style depth value)) (.colon :: value.tokens) :=
    .mark .colon (.blank blank.gap spells)
  rw [printMember, tokensOfMember, List.append_assoc]
  exact (spells_quote key).append behind (Lexer.ended_cons (by decide) _)

theorem members (blank : style.Blank) {members : List (Option String × Json)}
    (every : ∀ member ∈ members, Spells (print style depth member.2) member.2.tokens) :
    Spells (printMembers style depth members) (tokensOfMembers members) := by
  induction members with
  | nil => exact .nil
  | cons member members ih =>
    have behind := ih fun other present => every other (List.mem_cons_of_mem member present)
    have first := Spells.member blank (every member List.mem_cons_self)
    simp only [printMembers, tokensOfMembers, List.cons_append, List.append_assoc]
    exact .mark .comma <| .blank (blank.lineBreak depth) <|
      first.append behind (ended_members style depth members)

end Spells

theorem spells_print {style : Style} (blank : style.Blank) {v : Json} (spelled : v.WellSpelled)
    (depth : Nat) : Spells (print style depth v) v.tokens := by
  induction spelled generalizing depth with
  | null => exact .alone .null
  | bool value =>
    cases value with
    | true => exact .alone .true
    | false => exact .alone .false
  | integer value => exact .alone (.integer value)
  | decimal read plain => exact .alone (.decimal read plain)
  | string text => exact spells_quote text
  | @array items every ih =>
    cases items with
    | nil => exact .mark .openArray (.mark .closeArray .nil)
    | cons item items =>
      have first := ih item List.mem_cons_self (depth + 1)
      have behind := Spells.items blank fun other member =>
        ih other (List.mem_cons_of_mem item member) (depth + 1)
      obtain ⟨closing, apart⟩ := Spells.closing blank depth .closeArray
      simp only [print, Json.tokens, List.cons_append, List.append_assoc]
      exact .mark .openArray <| .blank (blank.lineBreak (depth + 1)) <|
        first.append (behind.append closing apart)
          ((Spells.ended_items style (depth + 1) items).append apart)
  | @object members every ih =>
    cases members with
    | nil => exact .mark .openObject (.mark .closeObject .nil)
    | cons member members =>
      have first := Spells.member blank (ih member List.mem_cons_self (depth + 1))
      have behind := Spells.members blank fun other present =>
        ih other (List.mem_cons_of_mem member present) (depth + 1)
      obtain ⟨closing, apart⟩ := Spells.closing blank depth .closeObject
      simp only [print, Json.tokens, List.cons_append, List.append_assoc]
      exact .mark .openObject <| .blank (blank.lineBreak (depth + 1)) <|
        first.append (behind.append closing apart)
          ((Spells.ended_members style (depth + 1) members).append apart)

theorem parse?_print {style : Style} (blank : style.Blank) {v : Json} (spelled : v.WellSpelled) :
    parse? (String.ofList (print style 0 v)) = some v := by
  apply parse?_of_spells
  rw [String.toList_ofList]
  exact spells_print blank spelled 0

theorem parse?_indented {v : Json} (spelled : v.WellSpelled) : parse? v.indented = some v :=
  parse?_print Style.blank_indented spelled

end DspChip.Json
