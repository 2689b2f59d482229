import DspChip.Proofs.Register.Representation
/-! What names stand for in a register file. Whatever was asked of the file, a name stands for one
place at most, and it keeps that place whatever is asked later. -/

namespace DspChip

theorem Register.Shape.answers_congr {shape other : Register.Shape} (same : other.frame = shape.frame)
    (ident : String) : other.Answers ident ↔ shape.Answers ident := by
  obtain ⟨name, shortName, _, _⟩ := Register.Frame.mk.inj same
  rw [Answers, Answers, name, shortName]

namespace RegisterFile

inductive Request where
  | add (r : Register)
  | amend (ident : String) (request : Register.Request)
  | store (ident : String) (value : Word) (amount : Int)
  | reset

def serve (file : RegisterFile) : Request → RegisterFile
  | .add r => (file.add r).toOption.getD file
  | .amend ident request => file.amend ident request
  | .store ident value amount => (file.store ident value amount).toOption.getD file
  | .reset => file.reset

def session (file : RegisterFile) (history : List Request) : RegisterFile :=
  history.foldl serve file

structure Resolves (file : RegisterFile) (ident : String) (place : Nat) (r : Register) : Prop where
  held : file.registers[place]? = some r
  answers : r.Answers ident

def Takes (file : RegisterFile) (ident : String) : Prop :=
  ∃ r ∈ file.registers, r.Answers ident

instance (file : RegisterFile) (ident : String) : Decidable (file.Takes ident) :=
  inferInstanceAs (Decidable (∃ r ∈ file.registers, _))

variable {file next : RegisterFile} {ident : String} {place : Nat} {r s : Register} {fault : Fault}

/-! One request. -/

/-- A request leaves the registers where they are, and others may come behind them. -/
theorem exists_frames_serve (file : RegisterFile) (request : Request) :
    ∃ more, (file.serve request).frames = file.frames ++ more := by
  cases request with
  | add r =>
    rw [serve]
    cases added : file.add r with
    | error fault => exact ⟨[], (List.append_nil _).symm⟩
    | ok next => exact ⟨[r.frame], frames_of_add added⟩
  | amend ident request => exact ⟨[], by rw [serve, frames_amend, List.append_nil]⟩
  | store ident value amount =>
    rw [serve]
    cases stored : file.store ident value amount with
    | error fault => exact ⟨[], (List.append_nil _).symm⟩
    | ok next =>
      have same : next.frames = file.frames := StoredInto.frames_eq (.single ⟨_, _, _, stored⟩)
      exact ⟨[], by rw [List.append_nil]; exact same⟩
  | reset => exact ⟨[], by rw [serve, frames_reset, List.append_nil]⟩

namespace Resolves

theorem serve (resolves : file.Resolves ident place r) (request : Request) :
    ∃ after, (file.serve request).Resolves ident place after ∧ after.frame = r.frame := by
  have framed : file.frames[place]? = some r.frame := by
    rw [frames, List.getElem?_map, resolves.held, Option.map_some]
  obtain ⟨more, grown⟩ := file.exists_frames_serve request
  obtain ⟨inside, _⟩ := List.getElem?_eq_some_iff.mp framed
  have kept : (file.serve request).frames[place]? = some r.frame := by
    rw [grown, List.getElem?_append_left inside, framed]
  rw [frames, List.getElem?_map] at kept
  obtain ⟨after, held, same⟩ := Option.map_eq_some_iff.mp kept
  exact ⟨after, ⟨held, (Register.Shape.answers_congr same ident).mpr resolves.answers⟩, same⟩

/-- A name stands for one place at most: registers at two places are apart. -/
theorem unique {i j : Nat} (first : file.Resolves ident i r) (second : file.Resolves ident j s) :
    i = j ∧ r = s := by
  have apart {m n : Nat} {a b : Register} (before : m < n) (left : file.Resolves ident m a)
      (right : file.Resolves ident n b) : False := by
    obtain ⟨_, heldLeft⟩ := List.getElem?_eq_some_iff.mp left.held
    obtain ⟨inside, heldRight⟩ := List.getElem?_eq_some_iff.mp right.held
    have distinct := List.pairwise_iff_getElem.mp (List.pairwise_map.mp file.distinct) m n
      (before.trans inside) inside before
    rw [heldLeft, heldRight] at distinct
    exact Register.Shape.not_apart_of_answers left.answers right.answers distinct
  rcases Nat.lt_trichotomy i j with before | rfl | behind
  · exact (apart before first second).elim
  · exact ⟨rfl, Option.some.inj (first.held.symm.trans second.held)⟩
  · exact (apart behind second first).elim

end Resolves

theorem takes_iff : file.Takes ident ↔ ∃ place r, file.Resolves ident place r := by
  constructor
  · rintro ⟨r, present, answers⟩
    obtain ⟨place, held⟩ := List.mem_iff_getElem?.mp present
    exact ⟨place, r, held, answers⟩
  · rintro ⟨place, r, held, answers⟩
    exact ⟨r, List.mem_of_getElem? held, answers⟩

theorem find?_eq_some_iff : file.find? ident = some r ↔ ∃ place, file.Resolves ident place r := by
  constructor
  · intro found
    obtain ⟨place, held⟩ := List.mem_iff_getElem?.mp (mem_of_find?_eq_some found)
    exact ⟨place, held, answers_of_find?_eq_some found⟩
  · rintro ⟨place, held, answers⟩
    exact find?_eq_some_of_answers (List.mem_of_getElem? held) answers

theorem find?_eq_none_iff : file.find? ident = none ↔ ¬ file.Takes ident := by
  rw [takes_iff]
  constructor
  · rintro absent ⟨place, r, resolves⟩
    cases absent.symm.trans (find?_eq_some_iff.mpr ⟨place, resolves⟩)
  · intro free
    cases found : file.find? ident with
    | none => rfl
    | some r =>
      obtain ⟨place, resolves⟩ := find?_eq_some_iff.mp found
      exact absurd ⟨place, r, resolves⟩ free

theorem Resolves.registers_amend (resolves : file.Resolves ident place r)
    (request : Register.Request) :
    (file.amend ident request).registers = file.registers.set place (r.serve request) := by
  apply List.ext_getElem?
  intro i
  rw [amend, List.getElem?_map, List.getElem?_set]
  split
  · rename_i here
    subst here
    obtain ⟨inside, _⟩ := List.getElem?_eq_some_iff.mp resolves.held
    rw [resolves.held, Option.map_some, if_pos resolves.answers, if_pos inside]
  · rename_i other
    cases held : file.registers[i]? with
    | none => rfl
    | some s =>
      have silent : ¬ s.Answers ident := fun answers => other (resolves.unique ⟨held, answers⟩).1
      rw [Option.map_some, if_neg silent]

/-- An addition fails if one of the names is taken, and blames the name before the short name. -/
theorem add_eq_error_iff :
    file.add r = .error fault ↔
      (file.Takes r.name ∧ fault = .duplicateRegister r.name) ∨
        (¬ file.Takes r.name ∧ file.Takes r.shortName ∧
          fault = .duplicateRegister r.shortName) := by
  have blamed (given : Fault) : (Except.error given : Except Fault RegisterFile) = .error fault ↔
      fault = given := by
    rw [Except.error.injEq, eq_comm]
  unfold add
  by_cases name : file.Takes r.name
  · rw [dif_neg (mt find?_eq_none_iff.mp (not_not_intro name)), blamed]
    simp [name]
  · rw [dif_pos (find?_eq_none_iff.mpr name)]
    by_cases shortName : file.Takes r.shortName
    · rw [dif_neg (mt find?_eq_none_iff.mp (not_not_intro shortName)), blamed]
      simp [name, shortName]
    · rw [dif_pos (find?_eq_none_iff.mpr shortName)]
      simp [name, shortName]

theorem Resolves.of_add (resolves : file.Resolves ident place s) (added : file.add r = .ok next) :
    next.Resolves ident place s := by
  obtain ⟨inside, _⟩ := List.getElem?_eq_some_iff.mp resolves.held
  refine ⟨?_, resolves.answers⟩
  rw [registers_of_add added, List.getElem?_append_left inside, resolves.held]

/-! Many requests. -/

theorem Resolves.session (resolves : file.Resolves ident place r) (later : List Request) :
    ∃ after, (file.session later).Resolves ident place after ∧ after.frame = r.frame := by
  induction later generalizing file r with
  | nil => exact ⟨r, resolves, rfl⟩
  | cons request rest ih =>
    obtain ⟨between, found, same⟩ := resolves.serve request
    obtain ⟨after, kept, also⟩ := ih found
    exact ⟨after, kept, also.trans same⟩

/-- What a register file promises about names. -/
structure ResolvesUniquely (file : RegisterFile) : Prop where
  unique : ∀ ident i j r s, file.Resolves ident i r → file.Resolves ident j s → i = j ∧ r = s
  find : ∀ ident r, file.find? ident = some r ↔ ∃ place, file.Resolves ident place r
  overwrite : ∀ ident input amount next word, file.overwrite ident input amount = some (next, word) ↔
    ∃ place r, file.Resolves ident place r ∧ word = (r.write input amount).value ∧
      next.registers = file.registers.set place (r.write input amount)
  named : ∀ r ∈ file.registers, ∀ spelling,
    Text.SameName spelling r.name ∨ Text.SameName spelling r.shortName → file.find? spelling = some r
  add_fails_iff : ∀ r fault, file.add r = .error fault ↔
    (file.Takes r.name ∧ fault = .duplicateRegister r.name) ∨
      (¬ file.Takes r.name ∧ file.Takes r.shortName ∧ fault = .duplicateRegister r.shortName)
  of_add_failed : ∀ r fault, file.add r = .error fault → file.serve (.add r) = file
  of_added : ∀ r next, file.add r = .ok next → file.serve (.add r) = next ∧
    next.registers = file.registers ++ [r] ∧
      ∀ ident place s, file.Resolves ident place s → next.Resolves ident place s

theorem overwrite_eq_some_iff {input word : Word} {amount : Int} :
    file.overwrite ident input amount = some (next, word) ↔
      ∃ place r, file.Resolves ident place r ∧ word = (r.write input amount).value ∧
        next.registers = file.registers.set place (r.write input amount) := by
  rw [overwrite_eq_amend, Option.map_eq_some_iff]
  constructor
  · rintro ⟨r, found, same⟩
    cases same
    obtain ⟨place, resolves⟩ := find?_eq_some_iff.mp found
    exact ⟨place, r, resolves, rfl, resolves.registers_amend (.write input amount)⟩
  · rintro ⟨place, r, resolves, rfl, registers⟩
    refine ⟨r, find?_eq_some_iff.mpr ⟨place, resolves⟩, ?_⟩
    have same := registers.trans (resolves.registers_amend (.write input amount)).symm
    rw [eq_of_registers same]

/-- Names are resolved uniquely in every file that requests leave of an empty one, whether they
succeed or fail. A register is found under its names in any case and overwritten in its place; an
addition is refused for a name that is taken, and otherwise changes the meaning of no name. So what
a name stands for, it stands for as long as requests are made. -/
theorem session_resolves_uniquely (history : List Request) :
    (empty.session history).ResolvesUniquely ∧
      ∀ ident place r, (empty.session history).Resolves ident place r → ∀ later, ∃ after,
        (empty.session (history ++ later)).Resolves ident place after ∧ after.frame = r.frame := by
  refine ⟨⟨?_, ?_, ?_, ?_, ?_, ?_, ?_⟩, ?_⟩
  · exact fun ident i j r s first second => first.unique second
  · exact fun ident r => find?_eq_some_iff
  · exact fun ident input amount next word => overwrite_eq_some_iff
  · intro r present spelling own
    exact find?_eq_some_of_answers present (own.imp Eq.symm Eq.symm)
  · exact fun r fault => add_eq_error_iff
  · intro r fault failed
    rw [serve, failed]
    rfl
  · intro r next added
    refine ⟨?_, registers_of_add added, fun ident place s resolves => resolves.of_add added⟩
    rw [serve, added]
    rfl
  · intro ident place r resolves later
    rw [session, List.foldl_append]
    exact resolves.session later

/-- One register is written, and another is refused, for its short name is in use in other letters.
-/
theorem session_resolves_uniquely_crowded :
    let acc : Register :=
      ⟨⟨"Accumulator", "ACC", 24, 8, .wrap, .full, by decide, by decide, by decide⟩, 0, by simp⟩
    let x : Register :=
      ⟨⟨"X", "accumulator", 8, 8, .wrap, .full, by decide, by decide, by decide⟩, 0, by simp⟩
    let history : List Request := [.add acc, .add x, .amend "acc" (.write 5 0)]
    (empty.session history).find? "ACCUMULATOR" = some (acc.write 5 0) ∧
      (empty.session history).add x = .error (.duplicateRegister "accumulator") ∧
      ∃ place r, (empty.session history).Resolves "ACCUMULATOR" place r ∧
        ∃ after, (empty.session (history ++ [.add x, .reset])).Resolves "ACCUMULATOR" place after ∧
          after.frame = r.frame := by
  intro acc x history
  obtain ⟨resolves, keeps⟩ := session_resolves_uniquely history
  have found : (empty.session history).find? "ACCUMULATOR" = some (acc.write 5 0) := by decide
  have free : ¬ (empty.session history).Takes x.name := by decide
  have taken : (empty.session history).Takes x.shortName := by decide
  obtain ⟨place, held⟩ := (resolves.find _ _).mp found
  exact ⟨found, (resolves.add_fails_iff x _).mpr (.inr ⟨free, taken, rfl⟩), place, _, held,
    keeps _ _ _ held _⟩

end RegisterFile

end DspChip
