import DspChip.Proofs.Register.Representation
import DspChip.Proofs.Trace.Lines
/-! The life of a register: created, asked for writes on its own, added to a chip, and there subject
to all that is asked of the chip. It stays represented as it was created, as long as the
instructions of the chip act on registers by storing into them, which primitives do. -/

namespace DspChip

def Action.left (action : Action Unit) (file : RegisterFile) : RegisterFile :=
  match action file with
  | .ok _ next => next
  | .error _ next => next

theorem Action.storedInto_change {next : RegisterFile → Except Fault RegisterFile}
    {file : RegisterFile} (stores : ∀ after, next file = .ok after → file.StoredInto after) :
    file.StoredInto ((change next).left file) := by
  unfold left change
  cases done : next file with
  | error fault => exact .refl
  | ok after => exact stores after done

theorem Action.left_adaptExcept (action : Action Unit) (name : Fault → Fault)
    (file : RegisterFile) : Action.left (action.adaptExcept name) file = action.left file := by
  unfold left EStateM.adaptExcept
  cases action file <;> rfl

/-- All that the handler does to registers, whether it fails or not, is to store into them. -/
def Handler.StoresOnly (handler : Handler) : Prop :=
  ∀ operands file, RegisterFile.StoredInto file (Action.left (handler operands) file)

/-- A primitive needs to promise nothing; any other handler is to store only. -/
def Instruction.Body.StoresOnly : Instruction.Body → Prop
  | primitive _ => True
  | custom _ handler => handler.StoresOnly

theorem Effect.storedInto_of_outcome {effect : Effect} {file next : RegisterFile}
    (left : effect.outcome file = .ok next) : file.StoredInto next := by
  unfold outcome at left
  cases named : effect.target? with
  | none =>
    rw [named] at left
    exact Except.ok.inj left ▸ .refl
  | some target =>
    simp only [named] at left
    obtain ⟨⟨value, amount⟩, _, stored⟩ := bind_eq_ok_iff.mp left
    exact .single ⟨target, value, amount, stored⟩

theorem Handler.storesOnly_store (ident : String) (value : Word) (amount : Int) :
    Handler.StoresOnly fun _ => Action.store ident value amount := by
  intro _ file
  apply Action.storedInto_change
  intro after stored
  exact .single ⟨ident, value, amount, stored⟩

theorem Primitive.storesOnly_perform (primitive : Primitive) :
    Handler.StoresOnly primitive.perform := by
  intro operands file
  rw [perform_eq_change]
  apply Action.storedInto_change
  intro after done
  obtain ⟨effect, _, left⟩ := bind_eq_ok_iff.mp done
  exact Effect.storedInto_of_outcome left

namespace Instruction

theorem Body.StoresOnly.perform {body : Body} (stores : body.StoresOnly) :
    Handler.StoresOnly body.perform := by
  cases body with
  | primitive primitive => exact primitive.storesOnly_perform
  | custom arity handler => exact stores

theorem storedInto_execute {i : Instruction} (stores : i.body.StoresOnly)
    (operands : List Operand) (file : RegisterFile) :
    file.StoredInto (Action.left (i.execute operands) file) := by
  unfold execute
  split
  · rw [Action.left_adaptExcept]
    exact stores.perform operands file
  · exact .refl

end Instruction

namespace Chip

inductive Request where
  | execute (line : List Char)
  | run (source : String)
  | trace (program : Program) (radix : Radix) (maxSteps : Nat)
  | addRegister (r : Register)
  | addInstruction (i : Instruction)
  | reset
  | store (ident : String) (value : Word) (amount : Int)
  | amend (ident : String) (request : Register.Request)

/-- The chip that a request leaves. An addition or a store that fails leaves the chip as it was. -/
def serve (chip : Chip) : Request → Chip
  | .execute line => ofResult (chip.execute line)
  | .run source => ofResult (chip.run source)
  | .trace program radix maxSteps => (chip.trace program radix maxSteps).1
  | .addRegister r => (chip.addRegister r).toOption.getD chip
  | .addInstruction i => (chip.addInstruction i).toOption.getD chip
  | .reset => chip.reset
  | .store ident value amount =>
    { chip with
      registers := (chip.registers.store ident value amount).toOption.getD chip.registers }
  | .amend ident request => { chip with registers := chip.registers.amend ident request }

def StoresOnly (chip : Chip) : Prop :=
  ∀ i ∈ chip.instructions.instructions, i.body.StoresOnly

def Request.StoresOnly : Request → Prop
  | .addInstruction i => i.body.StoresOnly
  | _ => True

structure Holds (chip : Chip) (place : Nat) (frame : Register.Frame) : Prop where
  stores : chip.StoresOnly
  held : chip.registers.frames[place]? = some frame

variable {chip next : Chip} {place : Nat} {frame : Register.Frame}

theorem perform_stores (stores : chip.StoresOnly) (statement : Statement) :
    ∃ registers, ofResult (chip.perform statement) = { chip with registers } ∧
      chip.registers.StoredInto registers := by
  unfold perform
  cases found : chip.instructions.lookup? statement.mnemonic with
  | none => exact ⟨chip.registers, rfl, .refl⟩
  | some i =>
    have known := stores i (InstructionTable.lookup?_eq_some_iff.mp found).1
    have stored := i.storedInto_execute known statement.operands chip.registers
    refine ⟨_, ?_, stored⟩
    unfold Action.left
    dsimp only
    cases i.execute statement.operands chip.registers <;> rfl

theorem execute_stores (stores : chip.StoresOnly) (line : List Char) :
    ∃ registers, ofResult (chip.execute line) = { chip with registers } ∧
      chip.registers.StoredInto registers := by
  unfold execute
  cases chip.grammar.decode line with
  | error fault => exact ⟨chip.registers, rfl, .refl⟩
  | ok decoded =>
    cases decoded with
    | none => exact ⟨chip.registers, rfl, .refl⟩
    | some statement =>
      obtain ⟨registers, left, stored⟩ := perform_stores stores statement
      refine ⟨registers, ?_, stored⟩
      rw [← left]
      dsimp only
      cases chip.perform statement <;> rfl

theorem instructions_and_frames_of_addRegister {r : Register}
    (added : chip.addRegister r = .ok next) :
    next.instructions = chip.instructions ∧
      next.registers.frames = chip.registers.frames ++ [r.frame] := by
  obtain ⟨registers, extended, same⟩ := bind_eq_ok_iff.mp added
  cases same
  exact ⟨rfl, RegisterFile.frames_of_add extended⟩

namespace Holds

theorem with_registers {registers : RegisterFile} (holds : chip.Holds place frame)
    (same : registers.frames = chip.registers.frames) :
    { chip with registers }.Holds place frame :=
  ⟨holds.stores, same ▸ holds.held⟩

theorem execute (holds : chip.Holds place frame) (line : List Char) :
    (ofResult (chip.execute line)).Holds place frame := by
  obtain ⟨registers, left, stored⟩ := execute_stores holds.stores line
  rw [left]
  exact holds.with_registers stored.frames_eq

theorem addRegister {r : Register} (holds : chip.Holds place frame)
    (added : chip.addRegister r = .ok next) : next.Holds place frame := by
  obtain ⟨same, extended⟩ := instructions_and_frames_of_addRegister added
  obtain ⟨inside, _⟩ := List.getElem?_eq_some_iff.mp holds.held
  constructor
  · rw [StoresOnly, same]
    exact holds.stores
  · rw [extended, List.getElem?_append_left inside]
    exact holds.held

theorem of_addRegister {r : Register} (stores : chip.StoresOnly)
    (added : chip.addRegister r = .ok next) :
    next.Holds chip.registers.registers.length r.frame := by
  obtain ⟨same, extended⟩ := instructions_and_frames_of_addRegister added
  have last : chip.registers.frames.length = chip.registers.registers.length := List.length_map _
  constructor
  · rw [StoresOnly, same]
    exact stores
  · rw [extended, ← last, List.getElem?_concat_length]

theorem addInstruction {i : Instruction} (holds : chip.Holds place frame)
    (stores : i.body.StoresOnly) (added : chip.addInstruction i = .ok next) :
    next.Holds place frame := by
  obtain ⟨table, extended, same⟩ := bind_eq_ok_iff.mp added
  cases same
  refine ⟨?_, holds.held⟩
  intro known present
  rw [InstructionTable.instructions_of_add extended, List.mem_append, List.mem_singleton] at present
  rcases present with old | rfl
  · exact holds.stores known old
  · exact stores

/-- Whatever is asked of the chip, the register stays at its place with its frame. -/
theorem serve {request : Request} (holds : chip.Holds place frame) (stores : request.StoresOnly) :
    (chip.serve request).Holds place frame := by
  cases request with
  | execute line => exact holds.execute line
  | run source =>
    exact runLines_keeps (·.Holds place frame) (fun _ held line => held.execute line) _ _ _ holds
  | trace program radix maxSteps =>
    exact traceLines_keeps (·.Holds place frame) (fun _ held line => held.execute line) _ _ _ holds
  | addRegister r =>
    rw [Chip.serve]
    cases added : chip.addRegister r with
    | error fault => exact holds
    | ok next => exact holds.addRegister added
  | addInstruction i =>
    rw [Chip.serve]
    cases added : chip.addInstruction i with
    | error fault => exact holds
    | ok next => exact holds.addInstruction stores added
  | reset => exact holds.with_registers (RegisterFile.frames_reset chip.registers)
  | store ident value amount =>
    apply holds.with_registers
    cases stored : chip.registers.store ident value amount with
    | error fault => rfl
    | ok registers => exact RegisterFile.StoredInto.frames_eq (.single ⟨_, _, _, stored⟩)
  | amend ident request =>
    exact holds.with_registers (RegisterFile.frames_amend chip.registers ident request)

end Holds

end Chip

namespace Register

/-- Where a register is in its life: on its own, or at a place of a chip. -/
inductive Stage where
  | alone (r : Register)
  | mounted (chip : Chip) (place : Nat)

namespace Stage

def register? : Stage → Option Register
  | alone r => some r
  | mounted chip place => chip.registers.registers[place]?

inductive Step : Stage → Stage → Prop where
  | serve (r : Register) (request : Register.Request) :
      Step (alone r) (alone (r.serve request))
  | mount {r : Register} {chip next : Chip} (stores : chip.StoresOnly)
      (added : chip.addRegister r = .ok next) :
      Step (alone r) (mounted next chip.registers.registers.length)
  | serveChip {chip : Chip} {place : Nat} {request : Chip.Request} (stores : request.StoresOnly) :
      Step (mounted chip place) (mounted (chip.serve request) place)
  | copy {chip : Chip} {place : Nat} {r : Register}
      (held : chip.registers.registers[place]? = some r) :
      Step (mounted chip place) (alone r)

def Keeps (frame : Frame) : Stage → Prop
  | alone r => r.frame = frame
  | mounted chip place => chip.Holds place frame

variable {frame : Frame} {stage next : Stage}

theorem Keeps.step (keeps : stage.Keeps frame) (happened : Step stage next) :
    next.Keeps frame := by
  cases happened with
  | serve r request => exact (r.frame_serve request).trans keeps
  | mount stores added =>
    obtain rfl := keeps
    exact .of_addRegister stores added
  | serveChip stores => exact Chip.Holds.serve keeps stores
  | copy held =>
    have told := keeps.held
    rw [RegisterFile.frames, List.getElem?_map, held] at told
    exact Option.some.inj told

theorem Keeps.steps (keeps : stage.Keeps frame) (history : Relation.ReflTransGen Step stage next) :
    next.Keeps frame := by
  induction history with
  | refl => exact keeps
  | tail _ happened earlier => exact earlier.step happened

theorem Keeps.represents (keeps : stage.Keeps frame) :
    ∃ r, stage.register? = some r ∧ r.Represents frame := by
  cases stage with
  | alone r =>
    subst keeps
    exact ⟨r, rfl, r.represents_frame⟩
  | mounted chip place => exact RegisterFile.represents_of_frames keeps.held

end Stage

/-- A register stays represented as it was created, by the names and widths told then, whatever
happens to it: writes of any word shifted by any amount, other policies and rights, and on a chip
all that the chip executes, runs, traces or takes up. -/
theorem represents_of_create {name shortName : String} {bits busWidth : Nat} {r : Register}
    {stage : Stage} (created : create name shortName bits busWidth = .ok r)
    (history : Relation.ReflTransGen Stage.Step (.alone r) stage) :
    ∃ now, stage.register? = some now ∧ now.Represents ⟨name, shortName, bits, busWidth⟩ := by
  have begins : Stage.Keeps ⟨name, shortName, bits, busWidth⟩ (.alone r) := frame_of_create created
  exact (begins.steps history).represents

/-- A register as wide as a register gets, written with a word that is shifted out of it, and then
on a chip with an instruction of its own that stores as rashly as it can. -/
theorem represents_of_create_widest :
    ∃ r stage, create "Accumulator" "ACC" 63 63 = .ok r ∧
      Relation.ReflTransGen Stage.Step (.alone r) stage ∧
      ∃ now, stage.register? = some now ∧ now.Represents ⟨"Accumulator", "ACC", 63, 63⟩ := by
  let r : Register := {
    name := "Accumulator", shortName := "ACC", bits := 63, busWidth := 63
    one_le_busWidth := by decide
    busWidth_le_bits := by decide
    bits_le := by decide }
  let written := (r.serve (.write (-1) (-2147483648))).serve (.withOverflow .saturate)
  let bare : Chip := { name := "Toy DSP", shortName := "toy" }
  let rash : Instruction :=
    ⟨"RASH", .custom (.exactly 0) fun _ => Action.store "ACC" (-1) 2147483647⟩
  have created : create "Accumulator" "ACC" 63 63 = .ok r := rfl
  have bareStores : bare.StoresOnly := by
    intro i none
    cases none
  have added : bare.addRegister written = .ok { bare with registers := ⟨[written], by simp⟩ } := rfl
  have rashStores : Chip.Request.StoresOnly (.addInstruction rash) :=
    Handler.storesOnly_store "ACC" (-1) 2147483647
  have runStores : Chip.Request.StoresOnly (.run "RASH") := trivial
  have history : Relation.ReflTransGen Stage.Step (.alone r) _ :=
    .head (.serve r _) <| .head (.serve _ _) <| .head (.mount bareStores added) <|
      .head (.serveChip rashStores) <| .single (.serveChip runStores)
  exact ⟨r, _, created, history, represents_of_create created history⟩

end Register

end DspChip
