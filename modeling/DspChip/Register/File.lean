import DspChip.Register.Basic
/-! A register file: registers in the order they were added, each with names of its own. With it
come the actions of instructions on a file, and the dump of its contents. -/

namespace DspChip

structure RegisterFile where
  registers : List Register := []
  distinct : (registers.map Register.toShape).Pairwise Register.Shape.Apart := by
    exact List.Pairwise.nil

namespace RegisterFile

def empty : RegisterFile := {}

def find? (file : RegisterFile) (ident : String) : Option Register :=
  file.registers.find? fun r => decide (r.Answers ident)

def values (file : RegisterFile) : List Word :=
  file.registers.map (·.value)

theorem answers_of_find?_eq_some {file : RegisterFile} {ident : String} {r : Register}
    (found : file.find? ident = some r) : r.Answers ident := by
  simpa using List.find?_some found

theorem not_answers_of_find?_eq_none {file : RegisterFile} {ident : String}
    (absent : file.find? ident = none) (r : Register) (present : r ∈ file.registers) :
    ¬ r.Answers ident := by
  simpa using List.find?_eq_none.mp absent r present

theorem pairwise_apart_append {file : RegisterFile} {r : Register}
    (name : file.find? r.name = none) (shortName : file.find? r.shortName = none) :
    ((file.registers ++ [r]).map Register.toShape).Pairwise Register.Shape.Apart := by
  rw [List.map_append, List.pairwise_append]
  refine ⟨file.distinct, List.pairwise_singleton _ _, ?_⟩
  intro first present second last
  obtain ⟨old, member, rfl⟩ := List.mem_map.mp present
  obtain rfl : second = r.toShape := by simpa using last
  exact ⟨not_answers_of_find?_eq_none name old member,
    not_answers_of_find?_eq_none shortName old member⟩

def add (file : RegisterFile) (r : Register) : Except Fault RegisterFile :=
  if name : file.find? r.name = none then
    if shortName : file.find? r.shortName = none then
      .ok ⟨file.registers ++ [r], pairwise_apart_append name shortName⟩
    else .error (.duplicateRegister r.shortName)
  else .error (.duplicateRegister r.name)

def mapValues (file : RegisterFile) (contents : Register → Word) : RegisterFile where
  registers := file.registers.map fun r => r.put (contents r)
  distinct := by
    rw [List.map_map]
    exact file.distinct

@[simp] theorem shapes_mapValues (file : RegisterFile) (contents : Register → Word) :
    (file.mapValues contents).registers.map Register.toShape =
      file.registers.map Register.toShape := by
  simp [mapValues]

def put (file : RegisterFile) (ident : String) (contents : Word) : RegisterFile :=
  file.mapValues fun r => if r.Answers ident then contents else r.value

def get (file : RegisterFile) (ident : String) : Except Fault Register :=
  match file.find? ident with
  | some r => .ok r
  | none => .error (.unknownRegister ident)

def claim (file : RegisterFile) (right : Right) (ident : String) : Except Fault Register := do
  let r ← file.get ident
  if r.access.Allows right then .ok r else .error (.accessDenied r.name (.only right))

def fetch (file : RegisterFile) (ident : String) (amount : Int) : Except Fault Word := do
  let r ← file.claim .read ident
  return r.read amount

def fetchSigned (file : RegisterFile) (ident : String) : Except Fault Word := do
  let r ← file.claim .read ident
  return r.signed

def settle (file : RegisterFile) (ident : String) (result : Int) : Except Fault Word := do
  let r ← file.get ident
  r.settle result

def store (file : RegisterFile) (ident : String) (value : Word) (amount : Int) :
    Except Fault RegisterFile := do
  let r ← file.claim .write ident
  let written ← r.tryWrite value amount
  return file.put ident written.value

/-- Writes a register whatever its rights and its policy, and gives its new contents. -/
def overwrite (file : RegisterFile) (ident : String) (value : Word) (amount : Int) :
    Option (RegisterFile × Word) :=
  (file.find? ident).map fun r =>
    let written := r.write value amount
    (file.put ident written.value, written.value)

def reset (file : RegisterFile) : RegisterFile :=
  file.mapValues fun r => (r.write 0 0).value

end RegisterFile

/-! Actions on a register file. An action may fail, and what it has changed by then stays. -/

abbrev Action (α : Type) := EStateM Fault RegisterFile α

namespace Action

def ask {α : Type} (question : RegisterFile → Except Fault α) : Action α := fun file =>
  match question file with
  | .ok answer => .ok answer file
  | .error fault => .error fault file

/-- Changes the register file, unless the change itself fails. -/
def change (next : RegisterFile → Except Fault RegisterFile) : Action Unit := fun file =>
  match next file with
  | .ok changed => .ok () changed
  | .error fault => .error fault file

def fetch (ident : String) (amount : Int) : Action Word := ask (·.fetch ident amount)

def fetchSigned (ident : String) : Action Word := ask (·.fetchSigned ident)

def settle (ident : String) (result : Int) : Action Word := ask (·.settle ident result)

def store (ident : String) (value : Word) (amount : Int) : Action Unit :=
  change (·.store ident value amount)

end Action

/-! Register dumps: one line a register, its short name and its value. -/

def Register.dumpLine (r : Register) (radix : Radix) (width : Nat) : String :=
  String.ofList (Text.padRight width r.shortName.toList) ++ " " ++ radix.format r.value.toInt

structure Snapshot where
  name : String
  shortName : String
  bits : Nat
  busWidth : Nat
  value : Word
  deriving DecidableEq, Repr

def Register.snapshot (r : Register) : Snapshot :=
  ⟨r.name, r.shortName, r.bits, r.busWidth, r.value⟩

namespace RegisterFile

def snapshot (file : RegisterFile) : List Snapshot :=
  file.registers.map Register.snapshot

/-- The width of the column of short names, counted in bytes of UTF-8. -/
def nameWidth (file : RegisterFile) : Nat :=
  file.registers.foldl (fun width r => max width r.shortName.utf8ByteSize) 0

def dump (file : RegisterFile) (radix : Radix) : String :=
  "\n".intercalate (file.registers.map (·.dumpLine radix file.nameWidth))

end RegisterFile

end DspChip
