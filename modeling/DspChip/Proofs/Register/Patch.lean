import DspChip.Proofs.Register.Lookup
/-! Patches: other contents for one register of a file, or for none. Looking up another register
does not see a patch, storing into it commutes with the patch, and so do patches of two registers.
-/

namespace DspChip.RegisterFile

abbrev Patch := Option (String × Word)

def patch (file : RegisterFile) : Patch → RegisterFile
  | none => file
  | some (ident, contents) => file.put ident contents

def Spares (file : RegisterFile) (patch : Patch) (name : String) : Prop :=
  ∀ ident contents, patch = some (ident, contents) →
    ∀ r ∈ file.registers, r.Answers name → ¬ r.Answers ident

variable {file : RegisterFile} {patch : Patch} {name : String}

theorem registers_put (file : RegisterFile) (ident : String) (contents : Word) :
    (file.put ident contents).registers =
      file.registers.map fun r => r.put (if r.Answers ident then contents else r.value) := rfl

theorem put_put (file : RegisterFile) (ident : String) (before contents : Word) :
    (file.put ident before).put ident contents = file.put ident contents := by
  apply eq_of_registers
  rw [registers_put, registers_put, registers_put, List.map_map]
  apply List.map_congr_left
  intro r _
  rw [Function.comp_apply]
  by_cases named : r.Answers ident
  · rw [if_pos named, if_pos (by exact named), if_pos named]
    rfl
  · rw [if_neg named, Register.put_value, if_neg named, Register.put_value]

theorem find?_patch (spares : file.Spares patch name) :
    (file.patch patch).find? name = file.find? name := by
  cases patch with
  | none => rfl
  | some entry =>
    obtain ⟨ident, contents⟩ := entry
    rw [RegisterFile.patch, find?, registers_put, List.find?_map]
    change (file.find? name).map _ = file.find? name
    cases found : file.find? name with
    | none => rfl
    | some r =>
      have other := spares ident contents rfl r (mem_of_find?_eq_some found)
        (answers_of_find?_eq_some found)
      simp only [Option.map_some, if_neg other, Register.put_value]

theorem put_patch (spares : file.Spares patch name) (contents : Word) :
    (file.patch patch).put name contents = (file.put name contents).patch patch := by
  cases patch with
  | none => rfl
  | some entry =>
    obtain ⟨ident, word⟩ := entry
    apply eq_of_registers
    simp only [RegisterFile.patch, registers_put, List.map_map]
    apply List.map_congr_left
    intro r present
    have apart := spares ident word rfl r present
    -- a register that answers to neither name keeps its value on both ways
    rw [Function.comp_apply, Function.comp_apply]
    by_cases named : r.Answers name
    · simp only [if_pos named, if_neg (apart named), Register.put_value, Register.toShape_put]
    · have unnamed : ¬ (r.put (if r.Answers ident then word else r.value)).Answers name := named
      rw [if_neg unnamed, if_neg named, Register.put_value, Register.put_value]

theorem patch_comm {other : Patch}
    (spares : ∀ ident contents, other = some (ident, contents) → file.Spares patch ident) :
    (file.patch patch).patch other = (file.patch other).patch patch := by
  cases other with
  | none => rfl
  | some entry => exact put_patch (spares entry.1 entry.2 rfl) entry.2

theorem get_patch (spares : file.Spares patch name) : (file.patch patch).get name = file.get name := by
  rw [get, get, find?_patch spares]

theorem claim_patch (spares : file.Spares patch name) (right : Right) :
    (file.patch patch).claim right name = file.claim right name := by
  rw [claim, claim, get_patch spares]

theorem store_patch (spares : file.Spares patch name) (value : Word) (amount : Int) :
    (file.patch patch).store name value amount =
      (file.store name value amount).map (·.patch patch) := by
  rw [store, store, claim_patch spares]
  simp only [put_patch spares]
  cases file.claim .write name with
  | error fault => rfl
  | ok r =>
    simp only [bind, Except.bind]
    cases r.tryWrite value amount <;> rfl

end DspChip.RegisterFile
