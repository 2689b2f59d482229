import DspChip.Proofs.Result
import DspChip.Register.File
/-! Looking registers up and storing into them. A name answers for one register at most, so a store
changes one place of a file and nothing else. -/

namespace DspChip

theorem Register.Shape.answers_name (shape : Register.Shape) : shape.Answers shape.name :=
  Or.inl rfl

theorem Register.Shape.answers_shortName (shape : Register.Shape) :
    shape.Answers shape.shortName :=
  Or.inr rfl

theorem Register.Shape.not_apart_of_answers {first second : Register.Shape} {ident : String}
    (left : first.Answers ident) (right : second.Answers ident) : ¬ first.Apart second := by
  intro apart
  rcases right with name | shortName
  · apply apart.1
    rcases left with same | same
    · exact Or.inl (same.trans name.symm)
    · exact Or.inr (same.trans name.symm)
  · apply apart.2
    rcases left with same | same
    · exact Or.inl (same.trans shortName.symm)
    · exact Or.inr (same.trans shortName.symm)

namespace Register

theorem put_value_of_toShape_eq {r written : Register} (same : written.toShape = r.toShape) :
    r.put written.value = written := by
  obtain ⟨shape, value, within⟩ := written
  subst same
  simp [put, bitMask, within]

theorem put_congr {r s : Register} (same : s.toShape = r.toShape) (contents : Word) :
    s.put contents = r.put contents := by
  obtain ⟨shape, _, _⟩ := s
  subst same
  rfl

theorem settle_congr {r s : Register} (same : s.toShape = r.toShape) (result : Int) :
    s.settle result = r.settle result := by
  obtain ⟨shape, _, _⟩ := s
  subst same
  rfl

theorem tryWrite_congr {r s : Register} (same : s.toShape = r.toShape) (value : Word)
    (amount : Int) : s.tryWrite value amount = r.tryWrite value amount := by
  obtain ⟨shape, _, _⟩ := s
  subst same
  rfl

theorem toShape_of_tryWrite {r written : Register} {value : Word} {amount : Int}
    (tried : r.tryWrite value amount = .ok written) : written.toShape = r.toShape := by
  unfold tryWrite at tried
  split at tried
  · cases tried
  · rw [← Except.ok.inj tried, toShape_write]

end Register

namespace RegisterFile

theorem eq_of_registers {file other : RegisterFile} (same : other.registers = file.registers) :
    other = file := by
  cases file
  cases other
  cases same
  rfl

def shapes (file : RegisterFile) : List Register.Shape :=
  file.registers.map Register.toShape

variable {file next : RegisterFile} {ident : String} {r : Register}

theorem exists_getElem?_of_shapes {place : Nat} (same : next.shapes = file.shapes)
    (held : file.registers[place]? = some r) :
    ∃ after, next.registers[place]? = some after ∧ after.toShape = r.toShape := by
  have shape : next.shapes[place]? = some r.toShape := by
    rw [same, shapes, List.getElem?_map, held, Option.map_some]
  rwa [shapes, List.getElem?_map, Option.map_eq_some_iff] at shape

theorem not_answers_of_split {front back : List Register}
    (split : file.registers = front ++ r :: back) (answers : r.Answers ident) :
    ∀ other ∈ front ++ back, ¬ other.Answers ident := by
  intro other member also
  have distinct := file.distinct
  rw [split, List.map_append, List.map_cons, List.pairwise_append, List.pairwise_cons] at distinct
  rcases List.mem_append.mp member with inFront | inBack
  · have apart := distinct.2.2 other.toShape (List.mem_map.mpr ⟨other, inFront, rfl⟩) r.toShape
      List.mem_cons_self
    exact Register.Shape.not_apart_of_answers also answers apart
  · have apart := distinct.2.1.1 other.toShape (List.mem_map.mpr ⟨other, inBack, rfl⟩)
    exact Register.Shape.not_apart_of_answers answers also apart

/-- The register found stands at one place, and no other place answers to its name. -/
theorem exists_split_of_find? (found : file.find? ident = some r) :
    ∃ front back, file.registers = front ++ r :: back ∧
      ∀ other ∈ front ++ back, ¬ other.Answers ident := by
  obtain ⟨_, front, back, split, _⟩ := List.find?_eq_some_iff_append.mp found
  exact ⟨front, back, split, not_answers_of_split split (answers_of_find?_eq_some found)⟩

theorem find?_eq_some_of_split {front back : List Register}
    (split : file.registers = front ++ r :: back) (answers : r.Answers ident) :
    file.find? ident = some r := by
  rw [find?, List.find?_eq_some_iff_append]
  refine ⟨by simpa using answers, front, back, split, ?_⟩
  intro other member
  simpa using not_answers_of_split split answers other (List.mem_append_left back member)

theorem find?_eq_some_of_answers (present : r ∈ file.registers) (answers : r.Answers ident) :
    file.find? ident = some r := by
  obtain ⟨front, back, split⟩ := List.append_of_mem present
  exact find?_eq_some_of_split split answers

theorem mem_of_find?_eq_some (found : file.find? ident = some r) : r ∈ file.registers :=
  List.mem_of_find?_eq_some found

theorem registers_put_of_split {front back : List Register} (contents : Word)
    (split : file.registers = front ++ r :: back) (answers : r.Answers ident)
    (others : ∀ other ∈ front ++ back, ¬ other.Answers ident) :
    (file.put ident contents).registers = front ++ r.put contents :: back := by
  have unchanged : ∀ list : List Register, (∀ other ∈ list, ¬ other.Answers ident) →
      list.map (fun s => s.put (if s.Answers ident then contents else s.value)) = list := by
    intro list absent
    calc
      _ = list.map id := by
        apply List.map_congr_left
        intro other member
        rw [if_neg (absent other member), Register.put_value, id]
      _ = list := List.map_id list
  change file.registers.map (fun s => s.put (if s.Answers ident then contents else s.value)) = _
  rw [split, List.map_append, List.map_cons, if_pos answers,
    unchanged front fun other member => others other (List.mem_append_left back member),
    unchanged back fun other member => others other (List.mem_append_right front member)]

theorem find?_put (found : file.find? ident = some r) (contents : Word) :
    (file.put ident contents).find? ident = some (r.put contents) := by
  obtain ⟨front, back, split, others⟩ := exists_split_of_find? found
  have answers := answers_of_find?_eq_some found
  exact find?_eq_some_of_split (registers_put_of_split contents split answers others) answers

theorem registers_of_add (added : file.add r = .ok next) :
    next.registers = file.registers ++ [r] := by
  unfold add at added
  split at added
  · split at added
    · cases added
      rfl
    · cases added
  · cases added

theorem get_eq_ok_iff : file.get ident = .ok r ↔ file.find? ident = some r := by
  unfold get
  cases file.find? ident <;> simp

theorem claim_eq_ok_iff {right : Right} :
    file.claim right ident = .ok r ↔ file.find? ident = some r ∧ r.access.Allows right := by
  simp only [claim, bind_eq_ok_iff, get_eq_ok_iff]
  constructor
  · intro ⟨s, found, granted⟩
    split at granted
    · rename_i allowed
      cases granted
      exact ⟨found, allowed⟩
    · cases granted
  · intro ⟨found, allowed⟩
    exact ⟨r, found, if_pos allowed⟩

theorem store_eq_ok_iff {value : Word} {amount : Int} :
    file.store ident value amount = .ok next ↔
      ∃ r written, file.find? ident = some r ∧ r.access.Allows .write ∧
        r.tryWrite value amount = .ok written ∧ next = file.put ident written.value := by
  simp only [store, bind_eq_ok_iff, claim_eq_ok_iff, pure, Except.pure, Except.ok.injEq]
  constructor
  · intro ⟨r, ⟨found, allowed⟩, written, tried, same⟩
    subst same
    exact ⟨r, written, found, allowed, tried, rfl⟩
  · intro ⟨r, written, found, allowed, tried, same⟩
    subst same
    exact ⟨r, ⟨found, allowed⟩, written, tried, rfl⟩

/-- From one file to the next only the contents of one register change. -/
def ChangesOnly (file : RegisterFile) (r : Register) (next : RegisterFile) : Prop :=
  ∃ front back written, file.registers = front ++ r :: back ∧
    next.registers = front ++ written :: back ∧ written.toShape = r.toShape

theorem changesOnly_of_store {value : Word} {amount : Int}
    (stored : file.store ident value amount = .ok next) :
    ∃ r, file.find? ident = some r ∧ r.access.Allows .write ∧ file.ChangesOnly r next := by
  obtain ⟨r, written, found, allowed, tried, rfl⟩ := store_eq_ok_iff.mp stored
  obtain ⟨front, back, split, others⟩ := exists_split_of_find? found
  have shape := Register.toShape_of_tryWrite tried
  refine ⟨r, found, allowed, front, back, written, split, ?_, shape⟩
  rw [registers_put_of_split written.value split (answers_of_find?_eq_some found) others,
    Register.put_value_of_toShape_eq shape]

theorem ChangesOnly.shapes_eq (changes : file.ChangesOnly r next) :
    next.shapes = file.shapes := by
  obtain ⟨front, back, written, before, after, shape⟩ := changes
  simp only [shapes, before, after, List.map_append, List.map_cons, shape]

theorem ChangesOnly.getElem?_eq {place : Nat} {s : Register} (changes : file.ChangesOnly r next)
    (held : file.registers[place]? = some s) (other : s ≠ r) :
    next.registers[place]? = some s := by
  obtain ⟨front, back, written, before, after, _⟩ := changes
  rw [before] at held
  rw [after]
  rcases Nat.lt_trichotomy place front.length with inFront | here | inBack
  · rw [List.getElem?_append_left inFront] at held ⊢
    exact held
  · subst here
    simp only [List.getElem?_append_right (Nat.le_refl _), Nat.sub_self, List.getElem?_cons_zero,
      Option.some.injEq] at held
    exact absurd held.symm other
  · obtain ⟨k, rfl⟩ := Nat.exists_eq_add_of_lt inBack
    have offset : front.length + k + 1 - front.length = k + 1 := by omega
    rw [List.getElem?_append_right (by omega), offset, List.getElem?_cons_succ] at held ⊢
    exact held

end RegisterFile

end DspChip
