import DspChip.Proofs.Instruction.Outcome
import DspChip.Proofs.Text.Case
/-! The index against a linear scan. Whatever was added to an instruction table, looking a mnemonic
up in the index finds what trying the instructions one after the other finds. -/

namespace DspChip

/-- The mnemonic of the instruction is the other one, character by character, but for the case of
letters. -/
def Instruction.Matches (i : Instruction) (mnemonic : String) : Prop :=
  List.Forall₂ Text.SameLetter i.mnemonic.toList mnemonic.toList

instance (i : Instruction) (mnemonic : String) : Decidable (i.Matches mnemonic) :=
  inferInstanceAs (Decidable (List.Forall₂ _ _ _))

namespace Instruction

variable {i other : Instruction} {mnemonic : String}

theorem matches_iff : i.Matches mnemonic ↔ i.Answers mnemonic := Text.sameName_iff.symm

theorem Matches.trans (first : other.Matches i.mnemonic) (second : i.Matches mnemonic) :
    other.Matches mnemonic :=
  matches_iff.mpr ((matches_iff.mp first).trans (matches_iff.mp second))

end Instruction

namespace InstructionTable

def serve (table : InstructionTable) (i : Instruction) : InstructionTable :=
  (table.add i).toOption.getD table

def session (table : InstructionTable) (history : List Instruction) : InstructionTable :=
  history.foldl serve table

def scan (instructions : List Instruction) (mnemonic : String) : Option Instruction :=
  instructions.find? fun i => decide (i.Matches mnemonic)

variable {table next : InstructionTable} {mnemonic : String} {i j : Instruction}

theorem scan_eq_none_iff {instructions : List Instruction} :
    scan instructions mnemonic = none ↔ ∀ i ∈ instructions, ¬ i.Matches mnemonic := by
  simp [scan]

theorem scan_append (front back : List Instruction) (mnemonic : String) :
    scan (front ++ back) mnemonic = (scan front mnemonic).or (scan back mnemonic) :=
  List.find?_append

theorem lookup?_eq_scan (table : InstructionTable) (mnemonic : String) :
    table.lookup? mnemonic = scan table.instructions mnemonic := by
  cases scanned : scan table.instructions mnemonic with
  | some i =>
    have matched : i.Matches mnemonic := by simpa using List.find?_some scanned
    exact lookup?_eq_some_iff.mpr
      ⟨List.mem_of_find?_eq_some scanned, Instruction.matches_iff.mp matched⟩
  | none =>
    cases found : table.lookup? mnemonic with
    | none => rfl
    | some i =>
      obtain ⟨present, answers⟩ := lookup?_eq_some_iff.mp found
      exact absurd (Instruction.matches_iff.mpr answers) (scan_eq_none_iff.mp scanned i present)

theorem place_unique {p q : Nat} (first : table.instructions[p]? = some i)
    (second : table.instructions[q]? = some j) (left : i.Matches mnemonic)
    (right : j.Matches mnemonic) : p = q := by
  have indexed {place : Nat} {k : Instruction} (held : table.instructions[place]? = some k)
      (matched : k.Matches mnemonic) : table.index[Text.fold mnemonic]? = some place := by
    rw [table.index_eq_some_iff, held, Option.map_some, Instruction.matches_iff.mp matched]
  exact Option.some.inj ((indexed first left).symm.trans (indexed second right))

theorem add_eq_error_iff {fault : Fault} :
    table.add i = .error fault ↔
      (∃ old ∈ table.instructions, old.Matches i.mnemonic) ∧ fault = .duplicateMnemonic i.mnemonic := by
  by_cases silent : ∀ old ∈ table.instructions, ¬ old.Answers i.mnemonic
  · obtain ⟨next, added, _⟩ := exists_add silent
    have free : ¬ ∃ old ∈ table.instructions, old.Matches i.mnemonic := by
      rintro ⟨old, present, matched⟩
      exact silent old present (Instruction.matches_iff.mp matched)
    simp [added, free]
  · rw [add_of_taken silent]
    have taken : ∃ old ∈ table.instructions, old.Matches i.mnemonic := by
      simpa [Instruction.matches_iff] using silent
    simp only [taken, true_and, Except.error.injEq]
    exact eq_comm

/-! One addition. -/

theorem scan_eq_some_of_matches {instructions : List Instruction} (present : i ∈ instructions)
    (matched : i.Matches mnemonic) : ∃ first, scan instructions mnemonic = some first := by
  cases scanned : scan instructions mnemonic with
  | some first => exact ⟨first, rfl⟩
  | none => exact absurd matched (scan_eq_none_iff.mp scanned i present)

/-- What was found before is found still. A mnemonic that was unknown finds the new instruction, if
that matches it. -/
theorem scan_serve (table : InstructionTable) (i : Instruction) (mnemonic : String) :
    scan (table.serve i).instructions mnemonic =
      (scan table.instructions mnemonic).or (scan [i] mnemonic) := by
  rw [serve]
  cases added : table.add i with
  | ok next =>
    have extended : next.instructions = table.instructions ++ [i] := instructions_of_add added
    exact extended ▸ scan_append table.instructions [i] mnemonic
  | error fault =>
    obtain ⟨⟨old, present, taken⟩, _⟩ := add_eq_error_iff.mp added
    change scan table.instructions mnemonic = _
    by_cases matched : i.Matches mnemonic
    · -- the instruction in the way matches all that the refused one matches
      obtain ⟨first, scanned⟩ := scan_eq_some_of_matches present (taken.trans matched)
      rw [scanned, Option.some_or]
    · have silent : scan [i] mnemonic = none := scan_eq_none_iff.mpr (by simpa using matched)
      rw [silent, Option.or_none]

/-! Many additions. -/

theorem scan_session (table : InstructionTable) (history : List Instruction) (mnemonic : String) :
    scan (table.session history).instructions mnemonic =
      (scan table.instructions mnemonic).or (scan history mnemonic) := by
  induction history generalizing table with
  | nil => exact Option.or_none.symm
  | cons i rest ih =>
    have served : table.session (i :: rest) = (table.serve i).session rest := rfl
    have parts : i :: rest = [i] ++ rest := rfl
    rw [served, ih, scan_serve, Option.or_assoc, ← scan_append, ← parts]

/-- What an instruction table promises about mnemonics, told without its index. -/
structure RefinesScan (table : InstructionTable) : Prop where
  lookup : ∀ mnemonic, table.lookup? mnemonic =
    table.instructions.find? fun i => decide (i.Matches mnemonic)
  lookup_none : ∀ mnemonic, table.lookup? mnemonic = none ↔
    ∀ i ∈ table.instructions, ¬ i.Matches mnemonic
  unique : ∀ (mnemonic : String) (p q : Nat) (i j : Instruction),
    table.instructions[p]? = some i → table.instructions[q]? = some j →
      i.Matches mnemonic → j.Matches mnemonic → p = q
  add_fails_iff : ∀ i fault, table.add i = .error fault ↔
    (∃ old ∈ table.instructions, old.Matches i.mnemonic) ∧ fault = .duplicateMnemonic i.mnemonic
  of_add_failed : ∀ i fault, table.add i = .error fault → table.serve i = table
  of_added : ∀ i next, table.add i = .ok next → table.serve i = next ∧
    next.instructions = table.instructions ++ [i]

/-- The index refines a linear scan. After any history of additions to an empty table, whether they
succeed or fail, a look-up finds the first instruction of the table that matches, which is the first
one of the history that does, and nothing if none matches. No two instructions of the table match
one mnemonic; an addition is refused exactly if its mnemonic is matched already, and then leaves the
table as it was. -/
theorem session_refines_scan (history : List Instruction) :
    (empty.session history).RefinesScan ∧
      ∀ mnemonic, (empty.session history).lookup? mnemonic =
        history.find? fun i => decide (i.Matches mnemonic) := by
  refine ⟨⟨?_, ?_, ?_, ?_, ?_, ?_⟩, ?_⟩
  · exact fun mnemonic => lookup?_eq_scan _ mnemonic
  · intro mnemonic
    rw [lookup?_eq_scan, scan_eq_none_iff]
  · exact fun mnemonic p q i j => place_unique
  · exact fun i fault => add_eq_error_iff
  · intro i fault failed
    rw [serve, failed]
    rfl
  · intro i next added
    refine ⟨?_, instructions_of_add added⟩
    rw [serve, added]
    rfl
  · intro mnemonic
    rw [lookup?_eq_scan]
    exact scan_session empty history mnemonic

/-- Three additions, of which the second is refused for a mnemonic in other letters, and letters
outside A to Z, which have no case here. -/
theorem session_refines_scan_refused :
    let shout : Instruction := ⟨"ADD", .primitive { operation := .combine .add }⟩
    let quiet : Instruction := ⟨"add", .primitive { operation := .nop }⟩
    let accent : Instruction := ⟨"Été", .primitive { operation := .nop }⟩
    let table := empty.session [shout, quiet, accent]
    table.lookup? "aDD" = some shout ∧ table.lookup? "ÉTé" = some accent ∧
      table.lookup? "été" = none ∧
      table.add quiet = .error (.duplicateMnemonic "add") ∧ table.serve quiet = table := by
  intro shout quiet accent table
  obtain ⟨refines, finds⟩ := session_refines_scan [shout, quiet, accent]
  have loud : table.lookup? "aDD" = some shout := by
    rw [finds]
    exact List.find?_cons_of_pos (by decide)
  have mixed : table.lookup? "ÉTé" = some accent := by
    rw [finds, List.find?_cons_of_neg (by decide), List.find?_cons_of_neg (by decide)]
    exact List.find?_cons_of_pos (by decide)
  have foreign : table.lookup? "été" = none := by
    rw [finds, List.find?_cons_of_neg (by decide), List.find?_cons_of_neg (by decide)]
    exact List.find?_cons_of_neg (by decide)
  have present : shout ∈ table.instructions := by
    rw [refines.lookup] at loud
    exact List.mem_of_find?_eq_some loud
  have refused : table.add quiet = .error (.duplicateMnemonic "add") :=
    (refines.add_fails_iff quiet _).mpr ⟨⟨shout, present, by decide⟩, rfl⟩
  exact ⟨loud, mixed, foreign, refused, refines.of_add_failed quiet _ refused⟩

end InstructionTable

end DspChip
