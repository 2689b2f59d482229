import DspChip.Proofs.Number.Word
import DspChip.Proofs.Register.Lookup
import Mathlib.Logic.Relation
/-! How a register is represented. Its masks are those of its widths and its contents lie within
them; its names and widths are those that it was created with, whatever is asked of it or of the
file that holds it. -/

namespace DspChip

structure Register.Frame where
  name : String
  shortName : String
  bits : Nat
  busWidth : Nat
  deriving DecidableEq

def Register.Shape.frame (shape : Register.Shape) : Register.Frame :=
  ⟨shape.name, shape.shortName, shape.bits, shape.busWidth⟩

theorem Register.Shape.Apart.congr {first second first' second' : Register.Shape}
    (left : first'.frame = first.frame) (right : second'.frame = second.frame)
    (apart : first.Apart second) : first'.Apart second' := by
  obtain ⟨name, shortName, _, _⟩ := Register.Frame.mk.inj left
  obtain ⟨name', shortName', _, _⟩ := Register.Frame.mk.inj right
  unfold Apart Answers
  rw [name, shortName, name', shortName']
  exact apart

namespace Register

inductive Request where
  | write (input : Word) (amount : Int)
  | tryWrite (input : Word) (amount : Int)
  | withOverflow (overflow : Overflow)
  | withAccess (access : Access)
  deriving DecidableEq

/-- The register that a request leaves. A write that fails leaves the register as it was. -/
def serve (r : Register) : Request → Register
  | .write input amount => r.write input amount
  | .tryWrite input amount => (r.tryWrite input amount).toOption.getD r
  | .withOverflow overflow => r.withOverflow overflow
  | .withAccess access => r.withAccess access

/-- The register has the names and the widths of a frame, the masks of these widths, and contents
that are no negative number and no greater than its mask. -/
structure Represents (r : Register) (frame : Frame) : Prop where
  name : r.name = frame.name
  shortName : r.shortName = frame.shortName
  bits : r.bits = frame.bits
  busWidth : r.busWidth = frame.busWidth
  one_le_busWidth : 1 ≤ frame.busWidth
  busWidth_le_bits : frame.busWidth ≤ frame.bits
  bits_le : frame.bits ≤ 63
  bitMask : r.bitMask.toInt = 2 ^ frame.bits - 1
  busMask : r.busMask.toInt = 2 ^ frame.busWidth - 1
  nonneg : 0 ≤ r.value.toInt
  le_bitMask : r.value.toInt ≤ r.bitMask.toInt

variable {r : Register}

theorem toInt_bitMask (r : Register) : r.bitMask.toInt = 2 ^ r.bits - 1 :=
  Word.toInt_mask r.bits_le

theorem toInt_busMask (r : Register) : r.busMask.toInt = 2 ^ r.busWidth - 1 :=
  Word.toInt_mask (r.busWidth_le_bits.trans r.bits_le)

theorem represents_frame (r : Register) : r.Represents r.frame where
  name := rfl
  shortName := rfl
  bits := rfl
  busWidth := rfl
  one_le_busWidth := r.one_le_busWidth
  busWidth_le_bits := r.busWidth_le_bits
  bits_le := r.bits_le
  bitMask := r.toInt_bitMask
  busMask := r.toInt_busMask
  nonneg := r.within ▸ Word.toInt_and_mask_nonneg r.value r.bits_le
  le_bitMask := by
    have below := Word.toInt_and_mask_le r.value r.bits_le
    rwa [r.within] at below

theorem frame_of_create {name shortName : String} {bits busWidth : Nat}
    (created : create name shortName bits busWidth = .ok r) :
    r.frame = ⟨name, shortName, bits, busWidth⟩ := by
  unfold create at created
  split at created
  · split at created
    · cases created
      rfl
    · cases created
  · cases created

theorem frame_serve (r : Register) (request : Request) : (r.serve request).frame = r.frame := by
  cases request with
  | write input amount => rw [serve, toShape_write]
  | tryWrite input amount =>
    rw [serve]
    cases tried : r.tryWrite input amount with
    | error fault => rfl
    | ok written => exact congrArg Shape.frame (toShape_of_tryWrite tried)
  | withOverflow overflow => rfl
  | withAccess access => rfl

end Register

namespace RegisterFile

theorem frame_serve_if (ident : String) (request : Register.Request) (r : Register) :
    (if r.Answers ident then r.serve request else r).frame = r.frame := by
  split
  · exact r.frame_serve request
  · rfl

def amend (file : RegisterFile) (ident : String) (request : Register.Request) : RegisterFile where
  registers := file.registers.map fun r => if r.Answers ident then r.serve request else r
  distinct := by
    have kept := frame_serve_if ident request
    rw [List.pairwise_map, List.pairwise_map]
    exact (List.pairwise_map.mp file.distinct).imp (Register.Shape.Apart.congr (kept _) (kept _))

theorem overwrite_eq_amend (file : RegisterFile) (ident : String) (value : Word) (amount : Int) :
    file.overwrite ident value amount =
      (file.find? ident).map fun r =>
        (file.amend ident (.write value amount), (r.write value amount).value) := by
  unfold overwrite
  cases found : file.find? ident with
  | none => rfl
  | some r =>
    have written : ∀ s ∈ file.registers,
        s.put (if s.Answers ident then (r.write value amount).value else s.value) =
          if s.Answers ident then s.write value amount else s := by
      intro s present
      by_cases answers : s.Answers ident
      · -- the register found is the only one that answers
        obtain rfl : s = r :=
          Option.some.inj ((find?_eq_some_of_answers present answers).symm.trans found)
        rw [if_pos answers, if_pos answers,
          Register.put_value_of_toShape_eq (Register.toShape_write s value amount)]
      · rw [if_neg answers, if_neg answers, Register.put_value]
    simp only [Option.map_some, Option.some.injEq, Prod.mk.injEq, and_true]
    exact eq_of_registers (List.map_congr_left written)

def StoredInto : RegisterFile → RegisterFile → Prop :=
  Relation.ReflTransGen fun file next =>
    ∃ ident value amount, file.store ident value amount = .ok next

def frames (file : RegisterFile) : List Register.Frame :=
  file.registers.map (·.frame)

variable {file next : RegisterFile}

theorem frames_eq_of_shapes (same : next.shapes = file.shapes) : next.frames = file.frames := by
  have framed (file : RegisterFile) : file.frames = file.shapes.map Register.Shape.frame := by
    rw [frames, shapes, List.map_map]
    rfl
  rw [framed, framed, same]

theorem StoredInto.frames_eq (stored : file.StoredInto next) : next.frames = file.frames := by
  apply frames_eq_of_shapes
  induction stored with
  | refl => rfl
  | tail _ step same =>
    obtain ⟨ident, value, amount, stored⟩ := step
    obtain ⟨r, _, _, changes⟩ := changesOnly_of_store stored
    exact changes.shapes_eq.trans same

theorem frames_reset (file : RegisterFile) : file.reset.frames = file.frames :=
  frames_eq_of_shapes (shapes_mapValues file _)

theorem frames_amend (file : RegisterFile) (ident : String) (request : Register.Request) :
    (file.amend ident request).frames = file.frames := by
  rw [frames, amend, List.map_map]
  exact List.map_congr_left fun r _ => frame_serve_if ident request r

theorem frames_of_add {r : Register} (added : file.add r = .ok next) :
    next.frames = file.frames ++ [r.frame] := by
  rw [frames, registers_of_add added, List.map_append, List.map_singleton, frames]

theorem represents_of_frames {place : Nat} {frame : Register.Frame}
    (told : file.frames[place]? = some frame) :
    ∃ r, file.registers[place]? = some r ∧ r.Represents frame := by
  rw [frames, List.getElem?_map, Option.map_eq_some_iff] at told
  obtain ⟨r, held, rfl⟩ := told
  exact ⟨r, held, r.represents_frame⟩

end RegisterFile

end DspChip
