import DspChip.Proofs.Chip.Agreement
import DspChip.Proofs.Chip.Rejection
import DspChip.Proofs.Register.Aligned
/-! Registers that may not be read. What such a register holds shows in no result and in no other
register; and once it is written, nothing is left of what it held. -/

namespace DspChip

namespace Register

def AlikeWhere (known : Shape → Prop) (r s : Register) : Prop :=
  s.toShape = r.toShape ∧ (known r.toShape → s = r)

theorem keepsNames_alikeWhere (known : Shape → Prop) : KeepsNames (AlikeWhere known) where
  name alike := congrArg Shape.name alike.1
  shortName alike := congrArg Shape.shortName alike.1
  access alike := congrArg Shape.access alike.1

abbrev SameIfReadable : Register → Register → Prop :=
  AlikeWhere fun shape => shape.access.Allows .read

def CoversReadable (known : Shape → Prop) : Prop :=
  ∀ shape : Shape, shape.access.Allows .read → known shape

end Register

namespace RegisterFile

open Register

variable {known : Shape → Prop} {first second : RegisterFile}

theorem answersAlike_of_alikeWhere (covers : CoversReadable known)
    (aligned : Aligned (AlikeWhere known) first second) :
    first.AnswersAlike (fun _ => False) second where
  fetch ident amount := by
    apply (aligned.claim (keepsNames_alikeWhere known) .read ident).bind
    intro r s ⟨alike, _, _, allowed⟩
    rw [alike.2 (covers _ allowed)]
    exact Agrees.of_eq rfl
  fetchSigned ident := by
    apply (aligned.claim (keepsNames_alikeWhere known) .read ident).bind
    intro r s ⟨alike, _, _, allowed⟩
    rw [alike.2 (covers _ allowed)]
    exact Agrees.of_eq rfl
  settle ident result := by
    -- settling looks at the policy and the width only, so any register may be the target
    apply (aligned.get (keepsNames_alikeWhere known) ident).bind
    intro r s ⟨alike, _⟩
    exact Agrees.of_eq (settle_congr alike.1 result).symm

theorem outcome_agrees_of_alikeWhere (covers : CoversReadable known)
    (aligned : Aligned (AlikeWhere known) first second) (effect : Effect) :
    Agrees (fun _ => False) (Aligned (AlikeWhere known)) (effect.outcome first)
      (effect.outcome second) := by
  apply effect.outcome_agrees (answersAlike_of_alikeWhere covers aligned) aligned
  intro ident value amount
  apply aligned.store (keepsNames_alikeWhere known)
  intro r s alike
  rw [tryWrite_congr alike.1]
  cases r.tryWrite value amount with
  | error fault => exact Or.inr rfl
  | ok written => exact ⟨rfl, fun _ => rfl⟩

theorem aligned_of_outcome (covers : CoversReadable known)
    (aligned : Aligned (AlikeWhere known) first second) {effect : Effect}
    {after other : RegisterFile} (left : effect.outcome first = .ok after)
    (right : effect.outcome second = .ok other) : Aligned (AlikeWhere known) after other := by
  have agrees := outcome_agrees_of_alikeWhere covers aligned effect
  rw [left, right] at agrees
  exact agrees

theorem Aligned.learns (aligned : Aligned (AlikeWhere known) first second) {ident : String}
    (same : second.find? ident = first.find? ident) :
    Aligned (AlikeWhere fun shape => known shape ∨ shape.Answers ident) first second := by
  apply aligned.members.imp
  intro r s ⟨alike, present, member⟩
  refine ⟨alike.1, fun either => either.elim alike.2 fun answers => ?_⟩
  have also := ((keepsNames_alikeWhere known).answers_iff alike ident).mpr answers
  rw [find?_eq_some_of_answers present answers, find?_eq_some_of_answers member also] at same
  exact Option.some.inj same

theorem find?_store_alike {after other : RegisterFile} {ident : String} {value : Word} {amount : Int}
    (aligned : Aligned (AlikeWhere known) first second)
    (left : first.store ident value amount = .ok after)
    (right : second.store ident value amount = .ok other) :
    other.find? ident = after.find? ident := by
  obtain ⟨r, written, found, _, tried, rfl⟩ := store_eq_ok_iff.mp left
  obtain ⟨s, too, also, _, again, rfl⟩ := store_eq_ok_iff.mp right
  have alike := aligned.find? (keepsNames_alikeWhere known) ident
  rw [found, also] at alike
  cases alike with
  | some alike =>
    rw [tryWrite_congr alike.1, tried] at again
    obtain rfl := Except.ok.inj again
    rw [find?_put found, find?_put also, put_congr alike.1]

theorem learns_of_outcome {effect : Effect} {target : String} {after other : RegisterFile}
    (covers : CoversReadable known) (aligned : Aligned (AlikeWhere known) first second)
    (named : effect.target? = some target) (left : effect.outcome first = .ok after)
    (right : effect.outcome second = .ok other) :
    Aligned (AlikeWhere fun shape => known shape ∨ shape.Answers target) after other := by
  apply (aligned_of_outcome covers aligned left right).learns
  have loads := (effect.load_agrees (answersAlike_of_alikeWhere covers aligned)).eq
  simp only [Effect.outcome, named, bind_eq_ok_iff] at left right
  obtain ⟨⟨value, amount⟩, loaded, stored⟩ := left
  obtain ⟨pair, again, also⟩ := right
  rw [← loads, loaded] at again
  obtain rfl := Except.ok.inj again
  exact find?_store_alike aligned stored also

end RegisterFile

namespace Chip

open Register

variable {known : Shape → Prop} {chip first second : Chip}

def written (chip : Chip) (decoded : Option Statement) : List Shape :=
  ((decoded.bind chip.destination?).map Register.toShape).toList

def writes (chip : Chip) : List (List Char) → List Shape
  | [] => []
  | text :: rest =>
    match chip.execute text with
    | .error _ _ => []
    | .ok decoded next => chip.written decoded ++ next.writes rest

theorem writes_of_ok {text : List Char} {decoded : Option Statement} {next : Chip}
    (result : chip.execute text = .ok decoded next) (rest : List (List Char)) :
    chip.writes (text :: rest) = chip.written decoded ++ next.writes rest := by
  rw [writes, result]

abbrev AlikeWhere (known : Shape → Prop) : Chip → Chip → Prop :=
  Twins (RegisterFile.Aligned (Register.AlikeWhere known))

namespace AlikeWhere

theorem mono {more : Shape → Prop} (alike : AlikeWhere known first second)
    (enough : ∀ shape, more shape → known shape) : AlikeWhere more first second where
  grammar := alike.grammar
  instructions := alike.instructions
  builtin := alike.builtin
  registers := alike.registers.imp fun _ _ same => ⟨same.1, same.2 ∘ enough _⟩

theorem written_eq (alike : AlikeWhere known first second) (decoded : Option Statement) :
    second.written decoded = first.written decoded := by
  have shapes : ∀ name, (second.registers.find? name).map Register.toShape =
      (first.registers.find? name).map Register.toShape := by
    intro name
    have found := alike.registers.find? (keepsNames_alikeWhere known) name
    generalize first.registers.find? name = r at found ⊢
    generalize second.registers.find? name = s at found ⊢
    cases found with
    | none => rfl
    | some same => exact congrArg some same.1
  cases decoded with
  | none => rfl
  | some statement =>
    simp only [written, Option.bind_some, destination?, Option.map_bind, Function.comp_def,
      shapes, destinationName?_congr alike.instructions]

/-- After a statement is carried out on both chips, its destination is known. -/
theorem learns_outcome (covers : CoversReadable known) (alike : AlikeWhere known first second)
    {statement : Statement} {after other : RegisterFile}
    (left : first.outcome statement = .ok after) (right : second.outcome statement = .ok other) :
    RegisterFile.Aligned
      (Register.AlikeWhere fun shape => known shape ∨ shape ∈ first.written (some statement))
      after other := by
  obtain ⟨i, primitive, effect, found, body, told, done⟩ := effect_of_outcome alike.builtin left
  obtain ⟨j, same, also, lookup, again, tells, carried⟩ :=
    effect_of_outcome alike.isPrimitive right
  rw [InstructionTable.lookup?_congr alike.instructions, found] at lookup
  obtain rfl := Option.some.inj lookup
  obtain rfl := Instruction.Body.primitive.inj (body.symm.trans again)
  obtain rfl := Except.ok.inj (told.symm.trans tells)
  have name : first.destinationName? statement = effect.target? :=
    destinationName?_of_effect found body told
  cases named : effect.target? with
  | none =>
    have kept := RegisterFile.aligned_of_outcome covers alike.registers done carried
    have nothing : first.written (some statement) = [] := by
      simp [written, destination?, name, named]
    simpa only [nothing, List.not_mem_nil, or_false] using kept
  | some target =>
    have learnt := RegisterFile.learns_of_outcome covers alike.registers named done carried
    refine learnt.imp fun r s same => ⟨same.1, fun either => same.2 (either.imp_right ?_)⟩
    intro member
    -- whatever the destination resolves to answers to the name of the target
    simp only [written, Option.bind_some, destination?, name, named, Option.mem_toList,
      Option.map_eq_some_iff] at member
    obtain ⟨d, resolved, shape⟩ := member
    rw [← shape]
    exact RegisterFile.answers_of_find?_eq_some resolved

/-- A line is executed alike on both chips, and makes the register that it writes known. -/
theorem execute_agrees (covers : CoversReadable known) (alike : AlikeWhere known first second)
    (text : List Char) :
    match first.execute text with
    | .error fault after => ∃ other, second.execute text = .error fault other ∧
        AlikeWhere known after other
    | .ok decoded after => ∃ other, second.execute text = .ok decoded other ∧
        AlikeWhere (fun shape => known shape ∨ shape ∈ first.written decoded) after other := by
  have agrees : ResultAgrees (fun _ => False) (AlikeWhere known) (first.execute text)
      (second.execute text) :=
    Twins.execute_agrees (fun _ _ => id)
      (fun _ _ aligned effect => RegisterFile.outcome_agrees_of_alikeWhere covers aligned effect)
      alike text
  cases left : first.execute text with
  | error fault after =>
    rw [left] at agrees
    exact agrees.resolve_left id
  | ok decoded after =>
    rw [left] at agrees
    obtain ⟨other, right, kept⟩ := agrees
    refine ⟨other, right, kept.grammar, kept.instructions, kept.builtin, ?_⟩
    obtain ⟨registers, attempted, rfl⟩ := (execute_eq_ok_iff alike.builtin).mp left
    obtain ⟨others, again, rfl⟩ := (execute_eq_ok_iff alike.isPrimitive).mp right
    cases decoded with
    | none => exact kept.registers.imp fun _ _ same =>
        ⟨same.1, fun either => same.2 (either.resolve_right List.not_mem_nil)⟩
    | some statement =>
      exact alike.learns_outcome covers (attempt_eq_ok_iff.mp attempted).2
        (attempt_eq_ok_iff.mp again).2

theorem runLines_agrees (covers : CoversReadable known) (alike : AlikeWhere known first second)
    (lines : List (List Char)) (line executed : Nat) :
    second.writes lines = first.writes lines ∧
      ResultAgrees (fun _ => False)
        (AlikeWhere fun shape => known shape ∨ shape ∈ first.writes lines)
        (first.runLines line executed lines) (second.runLines line executed lines) := by
  induction lines generalizing known first second line executed with
  | nil => exact ⟨rfl, second, rfl, alike.mono fun _ either => either.resolve_right List.not_mem_nil⟩
  | cons text rest ih =>
    have step := alike.execute_agrees covers text
    cases left : first.execute text with
    | error fault after =>
      rw [left] at step
      obtain ⟨other, right, kept⟩ := step
      rw [runLines_of_error left, runLines_of_error right, writes, writes, left, right]
      exact ⟨rfl, Or.inr ⟨other, rfl, kept.mono fun _ either => either.resolve_right List.not_mem_nil⟩⟩
    | ok decoded after =>
      rw [left] at step
      obtain ⟨other, right, learnt⟩ := step
      rw [runLines_of_ok left, runLines_of_ok right, writes_of_ok left, writes_of_ok right,
        alike.written_eq decoded]
      obtain ⟨same, agrees⟩ := ih (fun shape allowed => Or.inl (covers shape allowed)) learnt
        (line + 1) (executed + decoded.toList.length)
      refine ⟨by rw [same], ?_⟩
      simpa only [List.mem_append, or_assoc] using agrees

end AlikeWhere

theorem getElem?_runLines (builtin : chip.IsPrimitive) {place : Nat} {r : Register}
    (held : chip.registers.registers[place]? = some r) {lines : List (List Char)}
    (spared : r.toShape ∉ chip.writes lines) (line executed : Nat) :
    (ofResult (chip.runLines line executed lines)).registers.registers[place]? = some r := by
  induction lines generalizing chip line executed with
  | nil => exact held
  | cons text rest ih =>
    have frame := execute_frame builtin text
    have primitive := isPrimitive_execute builtin text
    cases result : chip.execute text with
    | error fault next =>
      rw [result] at frame
      rw [runLines_of_error result, frame]
      exact held
    | ok decoded next =>
      rw [result] at frame primitive
      rw [writes_of_ok result, List.mem_append, not_or] at spared
      rw [runLines_of_ok result]
      apply ih primitive _ spared.2
      cases decoded with
      | none => rwa [frame]
      | some statement =>
        rcases frame with rfl | ⟨d, registers, rfl, resolved, _, changes⟩
        · exact held
        · apply changes.getElem?_eq held
          rintro rfl
          exact spared.1 (by simp [written, resolved])

/-- The run of a text carries out a statement whose destination is the register of this shape. -/
def Writes (chip : Chip) (source : String) (shape : Shape) : Prop :=
  shape ∈ chip.writes (Text.lines source.toList)

/-- The chips are built alike, and hold the same in every register that may be read. -/
structure SameButUnreadable (first second : Chip) : Prop where
  grammar : second.grammar = first.grammar
  instructions : second.instructions.instructions = first.instructions.instructions
  registers : first.registers.Aligned SameIfReadable second.registers

/-- What a register holds that may not be read stays hidden. Two chips that differ in the contents
of such registers only run every text with the same result. Then every register either stands on
both chips, or is written on both and is the same; one that may be read is the same in any case. -/
theorem run_hides_unreadable (first second : Chip) (builtin : first.IsPrimitive)
    (alike : first.SameButUnreadable second) (source : String) :
    answer (second.run source) = answer (first.run source) ∧
    ∀ (place : Nat) (r s : Register), first.registers.registers[place]? = some r →
      second.registers.registers[place]? = some s →
      ∃ after other, (ofResult (first.run source)).registers.registers[place]? = some after ∧
        (ofResult (second.run source)).registers.registers[place]? = some other ∧
        (r.access.Allows .read → other = after) ∧
        (after = r ∧ other = s ∧ ¬ first.Writes source r.toShape ∧
            ¬ second.Writes source s.toShape ∨
          other = after ∧ first.Writes source r.toShape ∧ second.Writes source s.toShape) := by
  have twins : AlikeWhere (fun shape => shape.access.Allows .read) first second :=
    ⟨alike.grammar, alike.instructions, builtin, alike.registers⟩
  obtain ⟨same, agrees⟩ :=
    twins.runLines_agrees (fun _ => id) (Text.lines source.toList) 1 0
  obtain ⟨told, ended⟩ := agrees.exact
  refine ⟨told, fun place r s held also => ?_⟩
  have start := alike.registers.getElem? held also
  obtain ⟨after, left, shape⟩ := RegisterFile.exists_getElem?_of_shapes
    (shapes_runLines builtin (Text.lines source.toList) 1 0).2 held
  obtain ⟨other, right, _⟩ := RegisterFile.exists_getElem?_of_shapes
    (shapes_runLines twins.isPrimitive (Text.lines source.toList) 1 0).2 also
  have finish := ended.registers.getElem? left right
  refine ⟨after, other, left, right, ?_, ?_⟩
  · intro allowed
    exact finish.2 (Or.inl (by rwa [shape]))
  · unfold Writes
    rw [same, start.1]
    by_cases written : r.toShape ∈ first.writes (Text.lines source.toList)
    · exact Or.inr ⟨finish.2 (Or.inr (by rwa [shape])), written, written⟩
    · have stands := getElem?_runLines builtin held written 1 0
      have stays := getElem?_runLines twins.isPrimitive also (by rwa [same, start.1]) 1 0
      exact Or.inl ⟨Option.some.inj (left.symm.trans stands),
        Option.some.inj (right.symm.trans stays), written, written⟩

def vault : RegisterFile where
  registers :=
    (Register.create "X" "X" 8 8).toOption.toList ++
      ((Register.create "Key" "KEY" 16 16).toOption.map (·.withAccess ⟨Right.write.flag⟩)).toList
  distinct := by decide

theorem run_hides_unreadable_vault :
    ∃ chip, (Descriptor.toy .reject).build = .ok chip ∧
      let first := { chip with registers := vault.put "KEY" 5 }
      let second := { chip with registers := vault.put "KEY" 1000 }
      first.IsPrimitive ∧ first.SameButUnreadable second ∧
      first.registers.values ≠ second.registers.values ∧
      let source := "LDA #7, X\nLDA X, KEY\nADDX KEY, X"
      answer (second.run source) = answer (first.run source) ∧
      ∀ (place : Nat) (r s : Register), first.registers.registers[place]? = some r →
        second.registers.registers[place]? = some s →
        ∃ after other, (ofResult (first.run source)).registers.registers[place]? = some after ∧
          (ofResult (second.run source)).registers.registers[place]? = some other ∧
          (r.access.Allows .read → other = after) ∧
          (after = r ∧ other = s ∧ ¬ first.Writes source r.toShape ∧
              ¬ second.Writes source s.toShape ∨
            other = after ∧ first.Writes source r.toShape ∧ second.Writes source s.toShape) := by
  obtain ⟨chip, built, _⟩ := Descriptor.exists_build_toy .reject
  have builtin := Descriptor.isPrimitive_of_build built
  have alike : SameButUnreadable { chip with registers := vault.put "KEY" 5 }
      { chip with registers := vault.put "KEY" 1000 } :=
    ⟨rfl, rfl, .cons ⟨rfl, fun _ => rfl⟩ (.cons ⟨rfl, fun allowed => absurd allowed (by decide)⟩ .nil)⟩
  have differ : (vault.put "KEY" 5).values ≠ (vault.put "KEY" 1000).values := by decide
  exact ⟨chip, built, builtin, alike, differ,
    run_hides_unreadable { chip with registers := vault.put "KEY" 5 } _ builtin alike _⟩

end Chip

end DspChip
