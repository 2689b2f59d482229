import DspChip.Proofs.Register.Lookup
/-! Aligned register files: place by place, their registers are related. If the relation keeps names
and rights, both files find, grant and store alike. -/

namespace DspChip

structure Register.KeepsNames (related : Register → Register → Prop) : Prop where
  name : ∀ {r s}, related r s → s.name = r.name
  shortName : ∀ {r s}, related r s → s.shortName = r.shortName
  access : ∀ {r s}, related r s → s.access = r.access

namespace Register.KeepsNames

variable {related : Register → Register → Prop}

theorem answers_iff (keeps : KeepsNames related) {r s : Register} (alike : related r s)
    (ident : String) : s.Answers ident ↔ r.Answers ident := by
  unfold Register.Shape.Answers
  rw [keeps.name alike, keeps.shortName alike]

end Register.KeepsNames

namespace RegisterFile

def Aligned (related : Register → Register → Prop) (first second : RegisterFile) : Prop :=
  List.Forall₂ related first.registers second.registers

variable {related : Register → Register → Prop} {excused : Fault → Prop}
  {first second : RegisterFile} {ident : String}

theorem Aligned.members (aligned : Aligned related first second) :
    List.Forall₂ (fun r s => related r s ∧ r ∈ first.registers ∧ s ∈ second.registers)
      first.registers second.registers := by
  obtain ⟨same, pairs⟩ := List.forall₂_iff_zip.mp aligned
  exact List.forall₂_iff_zip.mpr ⟨same, fun pair => ⟨pairs pair, List.of_mem_zip pair⟩⟩

theorem Aligned.getElem? {place : Nat} {r s : Register} (aligned : Aligned related first second)
    (held : first.registers[place]? = some r) (also : second.registers[place]? = some s) :
    related r s := by
  apply (List.forall₂_iff_zip.mp aligned).2
  exact List.mem_of_getElem? (List.getElem?_zip_eq_some.mpr ⟨held, also⟩)

theorem Aligned.find? (keeps : Register.KeepsNames related) (aligned : Aligned related first second)
    (ident : String) : Option.Rel related (first.find? ident) (second.find? ident) := by
  unfold RegisterFile.find?
  unfold Aligned at aligned
  generalize first.registers = list at aligned ⊢
  generalize second.registers = other at aligned ⊢
  induction aligned with
  | nil => exact .none
  | @cons r s _ _ alike _ ih =>
    have answers := keeps.answers_iff alike ident
    by_cases answering : r.Answers ident
    · rw [List.find?_cons_of_pos (by simpa using answering),
        List.find?_cons_of_pos (by simpa using answers.mpr answering)]
      exact .some alike
    · rw [List.find?_cons_of_neg (by simpa using answering),
        List.find?_cons_of_neg (by simpa using fun also => answering (answers.mp also))]
      exact ih

theorem Aligned.get (keeps : Register.KeepsNames related) (aligned : Aligned related first second)
    (ident : String) :
    Agrees excused
      (fun r s => related r s ∧ first.find? ident = some r ∧ second.find? ident = some s)
      (first.get ident) (second.get ident) := by
  have found := aligned.find? keeps ident
  unfold RegisterFile.get
  cases left : first.find? ident with
  | none =>
    rw [left] at found
    cases right : second.find? ident with
    | none => exact Or.inr rfl
    | some s =>
      rw [right] at found
      cases found
  | some r =>
    rw [left] at found
    cases right : second.find? ident with
    | none =>
      rw [right] at found
      cases found
    | some s =>
      rw [right] at found
      cases found with
      | some alike => exact ⟨alike, rfl, rfl⟩

theorem Aligned.claim (keeps : Register.KeepsNames related)
    (aligned : Aligned related first second) (right : Right) (ident : String) :
    Agrees excused
      (fun r s => related r s ∧ first.find? ident = some r ∧ second.find? ident = some s ∧
        r.access.Allows right)
      (first.claim right ident) (second.claim right ident) := by
  refine (aligned.get keeps ident).bind ?_
  intro r s ⟨alike, found, also⟩
  by_cases allowed : r.access.Allows right
  · rw [if_pos allowed, if_pos (by rwa [keeps.access alike])]
    exact ⟨alike, found, also, allowed⟩
  · rw [if_neg allowed, if_neg (by rwa [keeps.access alike]), keeps.name alike]
    exact Or.inr rfl

theorem Aligned.put (keeps : Register.KeepsNames related) (aligned : Aligned related first second)
    {r s : Register} {contents other : Word} (found : first.find? ident = some r)
    (also : second.find? ident = some s) (puts : related (r.put contents) (s.put other)) :
    Aligned related (first.put ident contents) (second.put ident other) := by
  unfold Aligned RegisterFile.put mapValues
  rw [List.forall₂_map_left_iff, List.forall₂_map_right_iff]
  refine aligned.members.imp ?_
  intro r' s' ⟨alike, present, member⟩
  beta_reduce
  by_cases answering : r'.Answers ident
  · have answers := (keeps.answers_iff alike ident).mpr answering
    -- only one register of each file answers to the name
    have here := find?_eq_some_of_answers present answering
    have there := find?_eq_some_of_answers member answers
    obtain rfl : r = r' := Option.some.inj (found.symm.trans here)
    obtain rfl : s = s' := Option.some.inj (also.symm.trans there)
    rw [if_pos answering, if_pos answers]
    exact puts
  · rw [if_neg answering, if_neg (mt (keeps.answers_iff alike ident).mp answering),
      Register.put_value, Register.put_value]
    exact alike

theorem Aligned.store (keeps : Register.KeepsNames related)
    (aligned : Aligned related first second) (ident : String) (value : Word) (amount : Int)
    (tries : ∀ r s, related r s →
      Agrees excused related (r.tryWrite value amount) (s.tryWrite value amount)) :
    Agrees excused (Aligned related) (first.store ident value amount)
      (second.store ident value amount) := by
  refine (aligned.claim keeps .write ident).bind ?_
  intro r s ⟨alike, found, also, _⟩
  have tried := tries r s alike
  cases left : r.tryWrite value amount with
  | error fault =>
    rw [left] at tried
    rcases tried with allowed | same
    · exact Or.inl allowed
    · rw [same]
      exact Or.inr rfl
  | ok written =>
    rw [left] at tried
    cases right : s.tryWrite value amount with
    | error fault =>
      rw [right] at tried
      exact tried.elim
    | ok other =>
      rw [right] at tried
      apply aligned.put keeps found also
      rw [Register.put_value_of_toShape_eq (Register.toShape_of_tryWrite left),
        Register.put_value_of_toShape_eq (Register.toShape_of_tryWrite right)]
      exact tried

end RegisterFile

end DspChip
