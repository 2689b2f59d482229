import DspChip.Proofs.Chip.Dispatch
import DspChip.Proofs.Chip.Representation
import DspChip.Proofs.Chip.Reset
import DspChip.Proofs.Instruction.Plain
import DspChip.Proofs.Text.Lines
/-! What the registers of a chip hold, and lines that set one of them. A described chip has its
registers in every state that it reaches, and a line that stores a number shows in one of them only.
-/

namespace DspChip

namespace RegisterFile

/-- The short name stands for a plain register of this width, which holds the number. -/
def Shows (file : RegisterFile) (name : String) (bits : Nat) (number : Int) : Prop :=
  ∃ r, file.find? name = some r ∧ r.shortName = name ∧ r.bits = bits ∧ r.IsPlain ∧
    r.value.toInt = number

def contents? (file : RegisterFile) (name : String) : Option Int :=
  (file.find? name).map (·.value.toInt)

/-- From one file to the next a register comes to hold the number, and all others hold what they
held. -/
structure Sets (file next : RegisterFile) (name : String) (bits : Nat) (number : Int) : Prop where
  shows : next.Shows name bits number
  others : ∀ other, other ≠ name → ∀ width held, file.Shows other width held →
    next.Shows other width held

variable {file next : RegisterFile} {name other : String} {bits width : Nat} {number held : Int}
  {d written : Register}

namespace Shows

theorem contents?_eq (shows : file.Shows name bits number) : file.contents? name = some number := by
  obtain ⟨r, found, _, _, _, holds⟩ := shows
  rw [contents?, found, Option.map_some, holds]

theorem nonneg (shows : file.Shows name bits number) : 0 ≤ number := by
  obtain ⟨r, _, _, _, _, rfl⟩ := shows
  exact r.toInt_value_nonneg

theorem lt (shows : file.Shows name bits number) : number < 2 ^ bits := by
  obtain ⟨r, _, _, rfl, _, rfl⟩ := shows
  exact Int.lt_of_le_sub_one r.toInt_value_le

theorem store (shows : file.Shows name bits held) {value : Word} (nonneg : 0 ≤ value.toInt)
    (below : value.toInt < 2 ^ bits) :
    ∃ after, file.store name value 0 = .ok after ∧ after.Shows name bits value.toInt := by
  obtain ⟨r, found, short, rfl, plain, _⟩ := shows
  have offered : r.offered value 0 = value.toInt := by
    rw [Register.offered, exactShift_zero, plain.whole, Int.emod_eq_of_lt nonneg below]
  have fits : r.fit value.toInt = some value.toInt := Register.fit_of_le nonneg (Int.le_sub_one_of_lt below)
  refine ⟨_, ?_, r.put (Int64.ofInt value.toInt), find?_put found _, short, rfl, plain.congr rfl,
    Register.toInt_put_ofInt nonneg below⟩
  rw [store_eq_fit found (plain.allows .write), offered, fits]

end Shows

theorem sets_of_replaces (found : file.find? name = some d) (own : d.shortName = name)
    (plain : d.IsPlain) (replaces : file.Replaces d written next) :
    file.Sets next name d.bits written.value.toInt where
  shows := by
    have shape := replaces.shape
    have short : written.shortName = name := (congrArg Register.Shape.shortName shape).trans own
    have wide : written.bits = d.bits := congrArg Register.Shape.bits shape
    exact ⟨written, replaces.find?_written found, short, wide, plain.congr shape, rfl⟩
  others := by
    rintro other apart width held ⟨s, stands, short, told⟩
    have elsewhere : s ≠ d := by
      rintro rfl
      exact apart (short.symm.trans own)
    exact ⟨s, replaces.find?_other stands elsewhere, short, told⟩

theorem shapes_amend (file : RegisterFile) (ident : String) {request : Register.Request}
    (keeps : ∀ r : Register, (r.serve request).toShape = r.toShape) :
    (file.amend ident request).shapes = file.shapes := by
  rw [shapes, amend, List.map_map]
  apply List.map_congr_left
  intro r _
  rw [Function.comp_apply]
  split
  · exact keeps r
  · rfl

end RegisterFile

namespace Chip

variable {built chip after : Chip} {line : List Char} {primitive : Primitive} {operands : List Operand}

/-! States. -/

def Request.ContentsOnly : Request → Prop
  | .addRegister _ => False
  | .addInstruction _ => False
  | .amend _ (.withOverflow _) => False
  | .amend _ (.withAccess _) => False
  | _ => True

theorem SameButContents.with_registers {registers : RegisterFile} (same : chip.SameButContents after)
    (shapes : registers.shapes = after.registers.shapes) :
    chip.SameButContents { after with registers } := by
  obtain ⟨before, rfl, kept⟩ := same
  exact ⟨registers, rfl, shapes.trans kept⟩

theorem SameButContents.serve (builtin : chip.IsPrimitive) (same : chip.SameButContents after)
    {request : Request} (plain : request.ContentsOnly) : chip.SameButContents (after.serve request) := by
  cases request with
  | execute line => exact same.execute builtin line
  | run source => exact same.call builtin (.run source)
  | trace program radix maxSteps =>
    exact traceLines_keeps chip.SameButContents (fun _ kept line => kept.execute builtin line) _ _ _ same
  | addRegister r => exact plain.elim
  | addInstruction i => exact plain.elim
  | reset => exact same.with_registers (RegisterFile.shapes_mapValues _ _)
  | store ident value amount =>
    apply same.with_registers
    cases stored : after.registers.store ident value amount with
    | error fault => rfl
    | ok next =>
      obtain ⟨r, _, _, changes⟩ := RegisterFile.changesOnly_of_store stored
      exact changes.shapes_eq
  | amend ident request =>
    apply same.with_registers
    apply RegisterFile.shapes_amend
    intro r
    cases request with
    | write input amount => exact r.toShape_write input amount
    | tryWrite input amount =>
      rw [Register.serve]
      cases tried : r.tryWrite input amount with
      | error fault => rfl
      | ok written => exact Register.toShape_of_tryWrite tried
    | withOverflow overflow => exact plain.elim
    | withAccess access => exact plain.elim

theorem sameButContents_foldl (builtin : chip.IsPrimitive) (same : chip.SameButContents after)
    {history : List Request} (plain : ∀ request ∈ history, request.ContentsOnly) :
    chip.SameButContents (history.foldl Chip.serve after) := by
  induction history generalizing after with
  | nil => exact same
  | cons request rest ih =>
    obtain ⟨first, others⟩ := List.forall_mem_cons.mp plain
    exact ih (same.serve builtin first) others

/-! Lines. -/

def Dispatches (chip : Chip) (line : List Char) (primitive : Primitive) (operands : List Operand) : Prop :=
  ∃ statement i, chip.grammar.decode line = .ok (some statement) ∧ statement.operands = operands ∧
    chip.instructions.lookup? statement.mnemonic = some i ∧ i.body = .primitive primitive ∧
    primitive.arity.Accepts operands.length

structure Puts (chip : Chip) (line : List Char) (name : String) (bits : Nat) (number : Int)
    (next : Chip) : Prop where
  executes : ∃ statement, chip.execute line = .ok (some statement) next
  sets : chip.registers.Sets next.registers name bits number

namespace Puts

variable {name : String} {bits : Nat} {number : Int}

theorem runLines (puts : chip.Puts line name bits number after) (place executed : Nat)
    (rest : List (List Char)) :
    chip.runLines place executed (line :: rest) =
      after.runLines (place + 1) (executed + 1) rest := by
  obtain ⟨_, executes⟩ := puts.executes
  exact runLines_of_ok executes rest

theorem same {built : Chip} (puts : chip.Puts line name bits number after)
    (builtin : built.IsPrimitive) (same : built.SameButContents chip) :
    built.SameButContents after := by
  obtain ⟨_, executes⟩ := puts.executes
  have kept := same.execute builtin line
  rwa [executes] at kept

end Puts

theorem run_intercalate (chip : Chip) {lines : List String}
    (whole : ∀ line ∈ lines, Text.WholeLine line.toList) :
    chip.run ("\n".intercalate lines) = chip.runLines 1 0 (lines.map String.toList) := by
  rw [run, String.toList_intercalate]
  congr 1
  apply Text.lines_intercalate
  intro text member
  obtain ⟨line, present, rfl⟩ := List.mem_map.mp member
  exact whole line present

namespace Dispatches

variable {name source : String} {bits width : Nat} {held number : Int}

theorem puts (dispatches : chip.Dispatches line primitive operands) {d : Register}
    (found : chip.registers.find? name = some d) (own : d.shortName = name) (plain : d.IsPlain)
    (stores : (primitive.perform operands).Stores chip.registers d number) :
    ∃ next, chip.Puts line name d.bits number next := by
  obtain ⟨statement, i, decoded, rfl, listed, body, accepts⟩ := dispatches
  obtain ⟨next, written, done, replaces, rfl⟩ := stores
  have left : primitive.outcome statement.operands chip.registers = .ok next :=
    Action.change_eq_ok_iff.mp (primitive.perform_eq_change _ ▸ done)
  have executed : i.execute statement.operands chip.registers = .ok () next := by
    rw [Instruction.execute_primitive body, Action.change_eq_ok_iff, if_pos accepts, left]
    rfl
  refine ⟨{ chip with registers := next }, ⟨statement, ?_⟩,
    RegisterFile.sets_of_replaces found own plain replaces⟩
  rw [execute_of_lookup? decoded listed, executed]

theorem puts_move (dispatches : chip.Dispatches line primitive operands)
    (operation : primitive.operation = .move) (amount : Option Int32)
    (told : operands = primitive.operandsFor name (.register source) amount)
    (target : chip.registers.Shows name bits held) (given : chip.registers.Shows source width number) :
    ∃ next, chip.Puts line name bits
      (exactShift number (primitive.exactAmount amount) % 2 ^ bits) next := by
  obtain ⟨d, found, own, rfl, plain, _⟩ := target
  obtain ⟨s, also, _, _, other, rfl⟩ := given
  subst told
  exact dispatches.puts found own plain
    (Primitive.move_stores_plain operation found plain also other amount)

theorem puts_or (dispatches : chip.Dispatches line primitive operands)
    (operation : primitive.operation = .combine .or) (unshifted : primitive.amount = 0)
    (told : operands = primitive.operandsFor name (.register source) none)
    (target : chip.registers.Shows name bits held) (given : chip.registers.Shows source width number) :
    ∃ next, chip.Puts line name bits (held.toNat ||| number.toNat % 2 ^ bits : Nat) next := by
  obtain ⟨d, found, own, rfl, plain, rfl⟩ := target
  obtain ⟨s, also, _, _, other, rfl⟩ := given
  subst told
  exact dispatches.puts found own plain
    (Primitive.or_stores_plain operation unshifted found plain also other)

theorem puts_arithmetic (dispatches : chip.Dispatches line primitive operands)
    (operation : primitive.operation = .shift .sign) (amount : Int32)
    (told : operands = [.register name, .ofAmount amount])
    (right : primitive.exactAmount (some amount) < 0)
    (target : chip.registers.Shows name bits held) :
    ∃ next, chip.Puts line name bits
      (exactShift (held.bmod (2 ^ bits)) (primitive.exactAmount (some amount)) % 2 ^ bits) next := by
  obtain ⟨d, found, own, rfl, plain, rfl⟩ := target
  subst told
  apply dispatches.puts found own plain
  apply Primitive.shift_stores operation found plain
  rw [Register.shifted, if_pos ⟨rfl, right⟩, plain.whole, Register.twosComplement_eq_bmod]

end Dispatches

end Chip

/-! Described chips. -/

namespace Descriptor

variable {descriptor : Descriptor} {built chip : Chip}

theorem Describes.exists_register (describes : descriptor.Describes chip) {entry : RegisterEntry}
    (present : entry ∈ descriptor.registers) :
    ∃ r ∈ chip.registers.registers, entry.Describes descriptor.config r := by
  obtain ⟨place, below, rfl⟩ := List.mem_iff_getElem.mp present
  have inside : place < chip.registers.registers.length := describes.registers.length_eq ▸ below
  exact ⟨_, List.getElem_mem inside, describes.registers.get below inside⟩

/-- A register that is described as plain is there in every state of the chip. -/
theorem exists_shows_of_build (made : descriptor.build = .ok built) (same : built.SameButContents chip)
    {entry : RegisterEntry} (present : entry ∈ descriptor.registers) (whole : entry.bus = entry.bits)
    (wraps : entry.overflow.getD descriptor.config.overflow = .wrap) (full : entry.access = .full) :
    ∃ number, chip.registers.Shows entry.shortName entry.bits.toNat number := by
  obtain ⟨_, rfl, shapes⟩ := same
  obtain ⟨r, member, describes⟩ := (describes_of_build made).exists_register present
  obtain ⟨place, held⟩ := List.mem_iff_getElem?.mp member
  obtain ⟨s, stands, shape⟩ := RegisterFile.exists_getElem?_of_shapes shapes held
  have plain : r.IsPlain := {
    whole := by rw [describes.busWidth, describes.bits, whole]
    wraps := describes.overflow.trans wraps
    full := describes.access.trans full }
  have short := (congrArg Register.Shape.shortName shape).trans describes.shortName
  have wide := (congrArg Register.Shape.bits shape).trans describes.bits
  have found := RegisterFile.find?_eq_some_of_answers (List.mem_of_getElem? stands) s.answers_shortName
  exact ⟨s.value.toInt, s, short ▸ found, short, wide, plain.congr shape, rfl⟩

theorem dispatches_of_build (made : descriptor.build = .ok built) (same : built.SameButContents chip)
    {entry : InstructionEntry} (present : entry ∈ descriptor.instructions) {grammar : Grammar}
    (mark : grammar.comment = descriptor.config.comment) {line : List Char} {operands : List Operand}
    (decoded : grammar.decode line = .ok (some ⟨none, entry.mnemonic, operands⟩))
    (accepts : entry.primitive.arity.Accepts operands.length) :
    chip.Dispatches line entry.primitive operands := by
  obtain ⟨registers, rfl, _⟩ := same
  rw [← (describes_of_build made).grammar_eq mark] at decoded
  exact ⟨_, entry.build, decoded, rfl, lookup?_of_build made present, rfl, accepts⟩

end Descriptor

end DspChip
