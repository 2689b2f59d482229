import DspChip.Proofs.Number.Format
import DspChip.Proofs.Result
import DspChip.Proofs.Text.Items
/-! The text of access rights is read back, also where bits without a name are set. -/

namespace DspChip.Access

def IsSolid (c : Char) : Prop := ¬ Text.IsBlank c ∧ c ≠ '|'

instance (c : Char) : Decidable (IsSolid c) := inferInstanceAs (Decidable (_ ∧ _))

theorem isSolid_of_digit? {radix : Radix} {c : Char} (digit : (radix.digit? c).isSome) :
    IsSolid c := by
  have ranges : (48 ≤ c.toNat ∧ c.toNat ≤ 57) ∨ (97 ≤ c.toNat ∧ c.toNat ≤ 102) ∨
      (65 ≤ c.toNat ∧ c.toNat ≤ 70) := by
    unfold Radix.digit? at digit
    dsimp only at digit
    split at digit
    · rename_i range
      exact Or.inl range
    split at digit
    · rename_i range
      exact Or.inr (Or.inl range)
    split at digit
    · rename_i range
      exact Or.inr (Or.inr range)
    · cases digit
  constructor
  · simp only [Text.IsBlank, Text.blankPoints, List.mem_cons, List.not_mem_nil, or_false]
    omega
  · intro same
    subst same
    revert ranges
    decide

theorem readBits?_toDigits {n : Nat} (small : n < 256) :
    readBits? (Nat.toDigits 16 n) = some (UInt8.ofNat n) := by
  have read : Radix.hexadecimal.read? (Nat.toDigits 16 n) = some n :=
    Radix.hexadecimal.read?_toDigits n
  have unsigned : (Nat.toDigits 16 n).head? ≠ some '+' := by
    intro plus
    have digit := Radix.isSome_digit?_of_read? read (List.mem_of_mem_head? plus)
    exact absurd digit (by decide)
  simp [readBits?, unsigned, read, Option.filter_some, small]

variable (access : Access)

def partBits : List UInt8 :=
  (Right.all.filter access.Allows).map Right.flag ++
    if access.unnamed = 0 then [] else [access.unnamed]

theorem mapM_readPart?_parts : access.parts.mapM readPart? = some access.partBits := by
  have named : ∀ right : Right, readPart? right.name.toList = some right.flag := by
    intro right
    cases right <;> decide
  have rights : ((Right.all.filter access.Allows).map (·.name.toList)).mapM readPart? =
      some ((Right.all.filter access.Allows).map Right.flag) := by
    rw [List.mapM_map]
    exact mapM_eq_some_map fun right _ => named right
  have unnamed : readPart? ('0' :: 'x' :: Nat.toDigits 16 access.unnamed.toNat) =
      some access.unnamed := by
    change readBits? _ = _
    rw [readBits?_toDigits access.unnamed.toNat_lt, UInt8.ofNat_toNat]
  rw [parts, partBits, List.mapM_append, rights]
  split
  · simp
  · simp [unnamed]

theorem foldl_partBits : access.partBits.foldl (· ||| ·) 0 = access.flags := by
  have every : ∀ n < 256,
      (partBits ⟨UInt8.ofNat n⟩).foldl (· ||| ·) 0 = UInt8.ofNat n := by
    decide +kernel
  obtain ⟨flags⟩ := access
  simpa using every flags.toNat flags.toNat_lt

theorem isSolid_parts : ∀ part ∈ access.parts, part ≠ [] ∧ ∀ c ∈ part, IsSolid c := by
  intro part member
  rcases List.mem_append.mp member with named | unnamed
  · obtain ⟨right, _, rfl⟩ := List.mem_map.mp named
    cases right <;> exact ⟨by decide, Text.forall_mem_of_all (by decide)⟩
  · split at unnamed
    · cases unnamed
    · obtain rfl := List.mem_singleton.mp unnamed
      refine ⟨List.cons_ne_nil _ _, ?_⟩
      intro c member
      rcases List.mem_cons.mp member with rfl | behind
      · decide
      rcases List.mem_cons.mp behind with rfl | digit
      · decide
      · exact isSolid_of_digit? <|
          Radix.isSome_digit?_of_read? (Radix.hexadecimal.read?_toDigits access.unnamed.toNat) digit

theorem ofText?_text : ofText? access.text = some access := by
  have bits := mapM_readPart?_parts access
  have solid := isSolid_parts access
  have whole : (⟨access.partBits.foldl (· ||| ·) 0⟩ : Access) = access :=
    congrArg Access.mk (foldl_partBits access)
  rw [ofText?, text, String.toList_ofList]
  cases split : access.parts with
  | nil =>
    have none : access.partBits = [] := by
      rw [split] at bits
      exact (Option.some.inj bits).symm
    rw [none] at whole
    rw [if_pos (by decide)]
    exact congrArg some whole
  | cons part parts =>
    rw [split] at bits solid
    obtain ⟨present, ink⟩ := solid part List.mem_cons_self
    have inked : Text.trim ([' ', '|', ' '].intercalate (part :: parts)) ≠ [] := by
      intro trimmed
      obtain ⟨c, rest, rfl⟩ := List.exists_cons_of_ne_nil present
      refine (ink c List.mem_cons_self).1 (Text.trim_eq_nil_iff.mp trimmed c ?_)
      rw [List.intercalate_cons_cons_left]
      exact List.mem_cons_self
    have space : Text.AllBlank [' '] := Text.forall_mem_of_all (by decide)
    have lists : Text.Lists '|' ([' ', '|', ' '].intercalate (part :: parts)) (part :: parts) :=
      Text.Lists.joined space space (by decide) fun p member => (solid p member).2
    have read := congrArg (List.mapM readPart?) lists.map_trim_splitOn
    rw [List.mapM_map, bits] at read
    rw [if_neg inked]
    change Option.map _ (List.mapM (readPart? ∘ Text.trim) _) = _
    rw [read, Option.map_some, whole]

end DspChip.Access
