import DspChip.Chip
import DspChip.Proofs.Instruction.Outcome
/-! One line and many. Executing a line on a chip of primitives is one attempt that fails as a whole
or replaces the registers; what a line keeps, a run keeps. -/

namespace DspChip.Chip

def IsPrimitive (chip : Chip) : Prop :=
  ∀ i ∈ chip.instructions.instructions, i.IsPrimitive

def outcome (chip : Chip) (statement : Statement) : Except Fault RegisterFile :=
  match chip.instructions.lookup? statement.mnemonic with
  | none => .error (.unknownMnemonic statement.mnemonic)
  | some i => i.outcome statement.operands chip.registers

def attempt (chip : Chip) (line : List Char) :
    Except Fault (Option Statement × RegisterFile) := do
  match ← chip.grammar.decode line with
  | none => return (none, chip.registers)
  | some statement => do
    let registers ← chip.outcome statement
    return (some statement, registers)

variable {chip : Chip}

theorem perform_of_lookup? {statement : Statement} {i : Instruction}
    (found : chip.instructions.lookup? statement.mnemonic = some i) (primitive : i.IsPrimitive) :
    chip.perform statement =
      match i.outcome statement.operands chip.registers with
      | .ok registers => .ok () { chip with registers }
      | .error fault => .error fault chip := by
  unfold perform
  simp only [found, Instruction.execute_eq_change primitive, Action.change]
  cases i.outcome statement.operands chip.registers <;> rfl

theorem perform_eq (builtin : chip.IsPrimitive) (statement : Statement) :
    chip.perform statement =
      match chip.outcome statement with
      | .ok registers => .ok () { chip with registers }
      | .error fault => .error fault chip := by
  unfold outcome
  cases found : chip.instructions.lookup? statement.mnemonic with
  | none => simp only [perform, found]
  | some i =>
    have primitive := builtin i (InstructionTable.lookup?_eq_some_iff.mp found).1
    exact perform_of_lookup? found primitive

/-- A line that fails leaves the chip as it was. -/
theorem execute_eq (builtin : chip.IsPrimitive) (line : List Char) :
    chip.execute line =
      match chip.attempt line with
      | .ok (statement, registers) => .ok statement { chip with registers }
      | .error fault => .error fault chip := by
  unfold execute attempt
  cases chip.grammar.decode line with
  | error fault => rfl
  | ok decoded =>
    cases decoded with
    | none => rfl
    | some statement =>
      simp only [perform_eq builtin, bind, Except.bind, pure, Except.pure]
      cases chip.outcome statement <;> rfl

theorem execute_of_decode (builtin : chip.IsPrimitive) {line : List Char} {statement : Statement}
    (read : chip.grammar.decode line = .ok (some statement)) :
    chip.execute line =
      match chip.outcome statement with
      | .ok registers => .ok (some statement) { chip with registers }
      | .error fault => .error fault chip := by
  unfold execute
  rw [read]
  simp only [perform_eq builtin]
  cases chip.outcome statement <;> rfl

theorem effect_of_outcome (builtin : chip.IsPrimitive) {statement : Statement}
    {registers : RegisterFile} (left : chip.outcome statement = .ok registers) :
    ∃ i primitive effect, chip.instructions.lookup? statement.mnemonic = some i ∧
      i.body = .primitive primitive ∧ primitive.effect statement.operands = .ok effect ∧
      effect.outcome chip.registers = .ok registers := by
  unfold outcome at left
  cases found : chip.instructions.lookup? statement.mnemonic with
  | none =>
    rw [found] at left
    cases left
  | some i =>
    simp only [found] at left
    obtain ⟨primitive, body⟩ := builtin i (InstructionTable.lookup?_eq_some_iff.mp found).1
    obtain ⟨effect, told, done⟩ := Instruction.effect_of_outcome body left
    exact ⟨i, primitive, effect, rfl, body, told, done⟩

theorem attempt_eq_ok_iff {line : List Char} {decoded : Option Statement}
    {registers : RegisterFile} :
    chip.attempt line = .ok (decoded, registers) ↔
      chip.grammar.decode line = .ok decoded ∧
        match decoded with
        | none => registers = chip.registers
        | some statement => chip.outcome statement = .ok registers := by
  simp only [attempt, bind_eq_ok_iff]
  constructor
  · intro ⟨found, read, finished⟩
    cases found with
    | none =>
      cases finished
      exact ⟨read, rfl⟩
    | some statement =>
      obtain ⟨left, done, same⟩ := bind_eq_ok_iff.mp finished
      cases same
      exact ⟨read, done⟩
  · intro ⟨read, finished⟩
    refine ⟨decoded, read, ?_⟩
    cases decoded with
    | none =>
      subst finished
      rfl
    | some statement => exact bind_eq_ok_iff.mpr ⟨registers, finished, rfl⟩

def ofResult {ε α : Type} : EStateM.Result ε Chip α → Chip
  | .ok _ after => after
  | .error _ after => after

def answer {ε α : Type} : EStateM.Result ε Chip α → Except ε α
  | .ok a _ => .ok a
  | .error fault _ => .error fault

theorem ofResult_perform (chip : Chip) (statement : Statement) :
    ∃ registers, ofResult (chip.perform statement) = { chip with registers } := by
  unfold perform
  cases chip.instructions.lookup? statement.mnemonic with
  | none => exact ⟨chip.registers, rfl⟩
  | some i =>
    dsimp only
    cases i.execute statement.operands chip.registers with
    | error fault registers => exact ⟨registers, rfl⟩
    | ok _ registers => exact ⟨registers, rfl⟩

/-- A line replaces the registers of any chip and nothing else. -/
theorem ofResult_execute (chip : Chip) (line : List Char) :
    ∃ registers, ofResult (chip.execute line) = { chip with registers } := by
  unfold execute
  cases chip.grammar.decode line with
  | error fault => exact ⟨chip.registers, rfl⟩
  | ok decoded =>
    cases decoded with
    | none => exact ⟨chip.registers, rfl⟩
    | some statement =>
      obtain ⟨registers, left⟩ := chip.ofResult_perform statement
      refine ⟨registers, ?_⟩
      rw [← left]
      dsimp only
      cases chip.perform statement <;> rfl

theorem execute_eq_ok_iff (builtin : chip.IsPrimitive) {line : List Char}
    {decoded : Option Statement} {next : Chip} :
    chip.execute line = .ok decoded next ↔
      ∃ registers, chip.attempt line = .ok (decoded, registers) ∧
        next = { chip with registers } := by
  rw [execute_eq builtin]
  cases chip.attempt line with
  | error fault => simp
  | ok left =>
    obtain ⟨found, registers⟩ := left
    simp only [EStateM.Result.ok.injEq, Except.ok.injEq, Prod.mk.injEq]
    constructor
    · rintro ⟨rfl, rfl⟩
      exact ⟨registers, ⟨rfl, rfl⟩, rfl⟩
    · rintro ⟨other, ⟨rfl, rfl⟩, rfl⟩
      exact ⟨rfl, rfl⟩

theorem execute_eq_ok_some_iff {line : List Char} {statement : Statement} {next : Chip} :
    chip.execute line = .ok (some statement) next ↔
      chip.grammar.decode line = .ok (some statement) ∧ chip.perform statement = .ok () next := by
  unfold execute
  cases read : chip.grammar.decode line with
  | error fault => simp
  | ok decoded =>
    cases decoded with
    | none => simp
    | some found =>
      simp only [Except.ok.injEq, Option.some.injEq]
      constructor
      · intro done
        cases performed : chip.perform found with
        | error fault left =>
          rw [performed] at done
          cases done
        | ok _ left =>
          rw [performed] at done
          cases done
          exact ⟨rfl, performed⟩
      · rintro ⟨rfl, performed⟩
        rw [performed]

section Equations

variable {next : Chip} {text : List Char} {line executed : Nat}

theorem runLines_of_error {fault : Fault} (result : chip.execute text = .error fault next)
    (rest : List (List Char)) :
    chip.runLines line executed (text :: rest) =
      .error ⟨line, String.ofList text, fault⟩ next := by
  rw [runLines, result]

theorem runLines_of_ok {decoded : Option Statement} (result : chip.execute text = .ok decoded next)
    (rest : List (List Char)) :
    chip.runLines line executed (text :: rest) =
      next.runLines (line + 1) (executed + decoded.toList.length) rest := by
  rw [runLines, result]
  cases decoded <;> rfl

end Equations

/-- What every line keeps, a run keeps. -/
theorem runLines_keeps (kept : Chip → Prop)
    (step : ∀ chip, kept chip → ∀ line, kept (ofResult (chip.execute line)))
    (lines : List (List Char)) (line executed : Nat) (start : kept chip) :
    kept (ofResult (chip.runLines line executed lines)) := by
  induction lines generalizing chip line executed with
  | nil => exact start
  | cons text rest ih =>
    have next := step chip start text
    unfold runLines
    cases result : chip.execute text with
    | error fault after =>
      rw [result] at next
      exact next
    | ok decoded after =>
      rw [result] at next
      cases decoded with
      | none => exact ih _ _ next
      | some statement => exact ih _ _ next

theorem isPrimitive_execute (builtin : chip.IsPrimitive) (line : List Char) :
    (ofResult (chip.execute line)).IsPrimitive := by
  obtain ⟨registers, left⟩ := chip.ofResult_execute line
  rw [left]
  exact builtin

def ResultAgrees {ε α : Type} (excused : ε → Prop) (related : Chip → Chip → Prop) :
    EStateM.Result ε Chip α → EStateM.Result ε Chip α → Prop
  | .ok a after, second => ∃ other, second = .ok a other ∧ related after other
  | .error fault after, second => excused fault ∨ ∃ other, second = .error fault other ∧
      related after other

theorem ResultAgrees.exact {ε α : Type} {related : Chip → Chip → Prop}
    {first second : EStateM.Result ε Chip α}
    (agrees : ResultAgrees (fun _ => False) related first second) :
    answer second = answer first ∧ related (ofResult first) (ofResult second) := by
  cases first with
  | error fault after =>
    obtain ⟨other, rfl, ended⟩ := agrees.resolve_left id
    exact ⟨rfl, ended⟩
  | ok a after =>
    obtain ⟨other, rfl, ended⟩ := agrees
    exact ⟨rfl, ended⟩

theorem runLines_agrees {excused : Fault → Prop} {related : Chip → Chip → Prop}
    (step : ∀ first second, related first second → ∀ line,
      ResultAgrees excused related (first.execute line) (second.execute line))
    (lines : List (List Char)) (line executed : Nat) {first second : Chip}
    (start : related first second) :
    ResultAgrees (fun failure : LineFault => excused failure.fault) related
      (first.runLines line executed lines) (second.runLines line executed lines) := by
  induction lines generalizing first second line executed with
  | nil => exact ⟨second, rfl, start⟩
  | cons text rest ih =>
    have next := step first second start text
    unfold runLines
    cases result : first.execute text with
    | error fault after =>
      rw [result] at next
      rcases next with allowed | ⟨other, same, ended⟩
      · exact Or.inl allowed
      · rw [same]
        exact Or.inr ⟨other, rfl, ended⟩
    | ok decoded after =>
      rw [result] at next
      obtain ⟨other, same, ended⟩ := next
      rw [same]
      cases decoded with
      | none => exact ih _ _ ended
      | some statement => exact ih _ _ ended

/-- A failing run is a successful run of the lines before the one that fails. -/
theorem runLines_before {lines : List (List Char)} {line executed : Nat} {failure : LineFault}
    {after : Chip} (failed : chip.runLines line executed lines = .error failure after) :
    ∃ count n before text, failure.line = line + count ∧ lines[count]? = some text ∧
      failure.text = String.ofList text ∧
      chip.runLines line executed (lines.take count) = .ok n before ∧
      before.execute text = .error failure.fault after := by
  induction lines generalizing chip line executed with
  | nil => cases failed
  | cons text rest ih =>
    simp only [runLines] at failed
    cases result : chip.execute text with
    | error fault next =>
      simp only [result] at failed
      cases failed
      exact ⟨0, executed, chip, text, rfl, rfl, rfl, rfl, result⟩
    | ok decoded next =>
      -- the run goes on behind the line, counting it if it holds a statement
      cases decoded with
      | none =>
        simp only [result] at failed
        obtain ⟨count, n, before, culprit, place, found, told, earlier, faulty⟩ := ih failed
        refine ⟨count + 1, n, before, culprit, by omega, found, told, ?_, faulty⟩
        simpa only [List.take_succ_cons, runLines, result] using earlier
      | some statement =>
        simp only [result] at failed
        obtain ⟨count, n, before, culprit, place, found, told, earlier, faulty⟩ := ih failed
        refine ⟨count + 1, n, before, culprit, by omega, found, told, ?_, faulty⟩
        simpa only [List.take_succ_cons, runLines, result] using earlier

def runBefore (chip : Chip) (source : String) (line : Nat) : EStateM.Result LineFault Chip Nat :=
  chip.runLines 1 0 ((Text.lines source.toList).take (line - 1))

end DspChip.Chip
