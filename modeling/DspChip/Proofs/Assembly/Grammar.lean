import DspChip.Proofs.Assembly.Layout
/-! What a line is read as: nothing, a statement or a fault, each told by the layout of its code. -/

namespace DspChip

variable {kind : Fault → Prop}

theorem Operand.readNumber_faults (parse : ∀ token reason, kind (.operandParse token reason))
    (token : List Char) : FaultsIn kind (readNumber token) := by
  unfold readNumber
  split
  · exact FaultsIn.error (parse _ _)
  · split
    · exact FaultsIn.error (parse _ _)
    · exact FaultsIn.ok _

theorem Operand.read_faults (parse : ∀ token reason, kind (.operandParse token reason))
    (token : List Char) : FaultsIn kind (read token) := by
  unfold read
  split
  · exact FaultsIn.error (parse _ _)
  · exact (readNumber_faults parse _).map _
  · split
    · exact (readNumber_faults parse _).map _
    · split
      · exact FaultsIn.ok _
      · exact FaultsIn.error (parse _ _)

theorem Grammar.decode_faults (parse : ∀ token reason, kind (.operandParse token reason))
    (label : ∀ text, kind (.invalidLabel text)) (grammar : Grammar) (line : List Char) :
    FaultsIn kind (grammar.decode line) := by
  have instruction : ∀ label text, FaultsIn kind (readInstruction label text) := by
    intro label text
    unfold readInstruction Operand.readAll
    split
    · exact FaultsIn.ok _
    · dsimp only
      split
      · exact FaultsIn.ok _
      · exact (FaultsIn.mapM (fun item => Operand.read_faults parse _) _).bind
          fun operands _ => FaultsIn.ok _
  unfold decode readCode
  dsimp only
  split
  · split
    · exact instruction _ _
    · exact FaultsIn.error (label _)
  · exact instruction _ _

namespace Grammar

/-- What code is read as. Vacant code holds nothing, a layout whose items all spell operands is a
statement, and all other code is a fault: that of the label, or else that of the first item that
spells no operand. -/
inductive Reads (code : List Char) : Except Fault (Option Statement) → Prop where
  | nothing (vacant : Vacant code) : Reads code (.ok none)
  | statement {label : Option String} {mnemonic : List Char} {items : List (List Char)}
      {operands : List Operand} (layout : Layout code label mnemonic items)
      (spells : List.Forall₂ Operand.Spells items operands) :
      Reads code (.ok (some ⟨label, String.ofList mnemonic, operands⟩))
  | mislabelled {name : List Char} (mislabelled : Mislabelled code name) :
      Reads code (.error (.invalidLabel (String.ofList name)))
  | refused {label : Option String} {mnemonic : List Char} {items : List (List Char)}
      {part : String} {reason : TokenFault} (layout : Layout code label mnemonic items)
      (refused : Operand.FirstRefused items part reason) :
      Reads code (.error (.operandParse part reason.text))

variable {code : List Char} {result : Except Fault (Option Statement)} {statement : Statement}
  {fault : Fault}

theorem Reads.readCode (reads : Reads code result) : readCode (Text.trim code) = result := by
  cases reads with
  | nothing vacant => exact vacant.readCode
  | statement layout spells =>
    rw [layout.readCode, Operand.mapM_read_eq_ok_iff.mpr spells]
    rfl
  | mislabelled mislabelled => exact mislabelled.readCode
  | refused layout refused =>
    rw [layout.readCode, Operand.mapM_read_eq_error_iff.mpr ⟨_, _, refused, rfl⟩]
    rfl

theorem exists_reads (code : List Char) : ∃ result, Reads code result := by
  rcases vacant_or_mislabelled_or_layout code with
    vacant | ⟨name, mislabelled⟩ | ⟨label, mnemonic, items, layout⟩
  · exact ⟨_, .nothing vacant⟩
  · exact ⟨_, .mislabelled mislabelled⟩
  · cases read : items.mapM Operand.read with
    | ok operands => exact ⟨_, .statement layout (Operand.mapM_read_eq_ok_iff.mp read)⟩
    | error fault =>
      obtain ⟨part, reason, refused, _⟩ := Operand.mapM_read_eq_error_iff.mp read
      exact ⟨_, .refused layout refused⟩

theorem readCode_iff : readCode (Text.trim code) = result ↔ Reads code result := by
  constructor
  · rintro rfl
    obtain ⟨result, reads⟩ := exists_reads code
    rw [reads.readCode]
    exact reads
  · exact Reads.readCode

theorem reads_some_iff :
    Reads code (.ok (some statement)) ↔
      ∃ items, Layout code statement.label statement.mnemonic.toList items ∧
        List.Forall₂ Operand.Spells items statement.operands := by
  constructor
  · rintro (_ | ⟨layout, spells⟩)
    refine ⟨_, ?_, spells⟩
    rw [String.toList_ofList]
    exact layout
  · rintro ⟨items, layout, spells⟩
    have reads := Reads.statement layout spells
    rwa [String.ofList_toList] at reads

theorem reads_error_iff :
    Reads code (.error fault) ↔
      (∃ name, Mislabelled code name ∧ fault = .invalidLabel (String.ofList name)) ∨
      ∃ label mnemonic items part reason, Layout code label mnemonic items ∧
        Operand.FirstRefused items part reason ∧ fault = .operandParse part reason.text := by
  constructor
  · rintro (_ | _ | mislabelled | ⟨layout, refused⟩)
    · exact Or.inl ⟨_, mislabelled, rfl⟩
    · exact Or.inr ⟨_, _, _, _, _, layout, refused, rfl⟩
  · rintro (⟨name, mislabelled, rfl⟩ | ⟨label, mnemonic, items, part, reason, layout, refused, rfl⟩)
    · exact .mislabelled mislabelled
    · exact .refused layout refused

/-- The grammar of a line, in both directions. The code of a line is what stands before its first
comment mark. The line holds nothing if its code is vacant, it is a statement if the code is laid
out with that label and that mnemonic and with items that spell its operands, and any other line is
a fault: of the label where the first word ends in a colon behind no identifier, and otherwise of
the first item that spells no operand. -/
theorem decode_obeys_layout (grammar : Grammar) (line : List Char) :
    let code := line.takeWhile (· ≠ grammar.comment)
    (grammar.decode line = .ok none ↔ Vacant code) ∧
    (∀ statement, grammar.decode line = .ok (some statement) ↔
      ∃ items, Layout code statement.label statement.mnemonic.toList items ∧
        List.Forall₂ Operand.Spells items statement.operands) ∧
    (∀ fault, grammar.decode line = .error fault ↔
      (∃ name, Mislabelled code name ∧ fault = .invalidLabel (String.ofList name)) ∨
      ∃ label mnemonic items part reason, Layout code label mnemonic items ∧
        Operand.FirstRefused items part reason ∧ fault = .operandParse part reason.text) := by
  intro code
  have told : ∀ result, grammar.decode line = result ↔ Reads code result := fun _ => readCode_iff
  refine ⟨?_, fun statement => ?_, fun fault => ?_⟩
  · rw [told]
    exact ⟨fun reads => by cases reads with | nothing vacant => exact vacant, .nothing⟩
  · rw [told, reads_some_iff]
  · rw [told, reads_error_iff]

end Grammar

end DspChip
