import DspChip.Catalog
import DspChip.Proofs.Chip.Contents
/-! The words of an accumulator. Two auxiliary registers take the upper and the lower one, and a
load and a disjunction join them again. -/

namespace DspChip.Catalog

def auxiliary (n : Fin 8) : String := s!"AR{n}"

theorem auxiliary_injective : Function.Injective auxiliary := by
  have apart : ∀ m n, auxiliary m = auxiliary n → m = n := by decide
  exact apart

theorem auxiliary_ne_accumulator : ∀ n, "A" ≠ auxiliary n ∧ "B" ≠ auxiliary n := by decide

/-! Arithmetic. -/

def upperWord (n : Int) : Int := n / 2 ^ 16 % 2 ^ 16

def lowerWord (n : Int) : Int := n % 2 ^ 16

theorem exactShift_word_left (n : Int) : exactShift n 16 = n * 2 ^ 16 :=
  exactShift_of_nonneg n (by decide)

theorem exactShift_word_right (n : Int) : exactShift n (-16) = n / 2 ^ 16 :=
  exactShift_of_nonpos n (by decide)

/-- The sign that is filled in lies above both words. -/
theorem upperWord_of_arithmetic {n : Int} (nonneg : 0 ≤ n) (below : n < 2 ^ 40) :
    lowerWord (exactShift (n.bmod (2 ^ 40)) (-16) % 2 ^ 40) = upperWord n := by
  have signed : n.bmod (2 ^ 40) = n ∨ n.bmod (2 ^ 40) = n - 2 ^ 40 := by
    rw [Int.bmod_def]
    split <;> omega
  rw [exactShift_word_right, lowerWord, upperWord]
  rcases signed with same | negative
  · rw [same]
    omega
  · rw [negative]
    omega

/-- The bits of both words, each at its place, are the low 32 bits. -/
theorem upperWord_or_lowerWord (n : Int) :
    (((upperWord n * 2 ^ 16).toNat ||| (lowerWord n).toNat : Nat) : Int) = n % 2 ^ 32 := by
  have least : (lowerWord n).toNat < 2 ^ 16 := by
    unfold lowerWord
    omega
  have shifted : (upperWord n * 2 ^ 16).toNat = (upperWord n).toNat <<< 16 := by
    rw [Nat.shiftLeft_eq]
    unfold upperWord
    omega
  rw [shifted, ← Nat.shiftLeft_add_eq_or_of_lt least, Nat.shiftLeft_eq]
  unfold upperWord lowerWord
  omega

/-! Lines. -/

theorem decode_storeHigh : ∀ x, Grammar.standard.decode s!"STH A, {auxiliary x}".toList =
    .ok (some ⟨none, "STH", [.register "A", .register (auxiliary x)]⟩) := by decide

theorem decode_storeLow : ∀ x, Grammar.standard.decode s!"STL A, {auxiliary x}".toList =
    .ok (some ⟨none, "STL", [.register "A", .register (auxiliary x)]⟩) := by decide

theorem decode_loadHigh : ∀ x, Grammar.standard.decode s!"LD {auxiliary x}, 16, B".toList =
    .ok (some ⟨none, "LD", [.register (auxiliary x), .ofAmount 16, .register "B"]⟩) := by decide

theorem decode_mergeLow : ∀ x, Grammar.standard.decode s!"OR {auxiliary x}, B".toList =
    .ok (some ⟨none, "OR", [.register (auxiliary x), .register "B"]⟩) := by decide

theorem decode_shiftDown : Grammar.standard.decode "SFTA A, -16".toList =
    .ok (some ⟨none, "SFTA", [.register "A", .ofAmount (-16)]⟩) := by decide

/-- The words of A into two registers, and back into B. -/
def splitAndJoin (x y : Fin 8) : List String :=
  [s!"STH A, {auxiliary x}", s!"STL A, {auxiliary y}", s!"LD {auxiliary x}, 16, B",
    s!"OR {auxiliary y}, B"]

/-- The upper word of A into a register, by a shift of A itself. -/
def shiftAndStore (x : Fin 8) : List String := ["SFTA A, -16", s!"STL A, {auxiliary x}"]

theorem whole_splitAndJoin :
    ∀ x y, ∀ line ∈ splitAndJoin x y, Text.WholeLine line.toList := by decide

theorem whole_shiftAndStore : ∀ x, ∀ line ∈ shiftAndStore x, Text.WholeLine line.toList := by decide

theorem whole_storeHigh : ∀ x, ∀ line ∈ [s!"STH A, {auxiliary x}"], Text.WholeLine line.toList := by
  decide

/-! States of the chip. -/

variable {built chip next : Chip} {x y : Fin 8} {a high low b number : Int} {line : List Char}
  {name : String} {bits : Nat}

structure Words (built chip : Chip) (x y : Fin 8) (a high low b : Int) : Prop where
  made : c5441.build = .ok built
  same : built.SameButContents chip
  apart : x ≠ y
  a : chip.registers.Shows "A" 40 a
  high : chip.registers.Shows (auxiliary x) 16 high
  low : chip.registers.Shows (auxiliary y) 16 low
  b : chip.registers.Shows "B" 40 b

theorem exists_shows (made : c5441.build = .ok built) (same : built.SameButContents chip)
    {entry : RegisterEntry} (present : entry ∈ c5441.registers) :
    ∃ number, chip.registers.Shows entry.shortName entry.bits.toNat number := by
  have plain : ∀ entry ∈ c5441.registers, entry.bus = entry.bits ∧
      entry.overflow.getD c5441.config.overflow = .wrap ∧ entry.access = .full := by decide
  obtain ⟨whole, wraps, full⟩ := plain entry present
  exact Descriptor.exists_shows_of_build made same present whole wraps full

theorem exists_words (made : c5441.build = .ok built) (same : built.SameButContents chip)
    (apart : x ≠ y) : ∃ a high low b, Words built chip x y a high low b := by
  have listed (n : Fin 8) :
      ⟨s!"Auxiliary register {n}", auxiliary n, 16, none, none, .full⟩ ∈ c5441.registers := by
    revert n
    decide
  have first : ⟨"Accumulator A", "A", 40, none, none, .full⟩ ∈ c5441.registers := by decide
  have second : ⟨"Accumulator B", "B", 40, none, none, .full⟩ ∈ c5441.registers := by decide
  obtain ⟨a, inA⟩ := exists_shows made same first
  obtain ⟨high, inHigh⟩ := exists_shows made same (listed x)
  obtain ⟨low, inLow⟩ := exists_shows made same (listed y)
  obtain ⟨b, inB⟩ := exists_shows made same second
  exact ⟨a, high, low, b, made, same, apart, inA, inHigh, inLow, inB⟩

namespace Words

section Steps

variable (words : Words built chip x y a high low b)
include words

/-- What is said of the first auxiliary register holds of the second one. -/
theorem swap : Words built chip y x a low high b :=
  { words with apart := words.apart.symm, high := words.low, low := words.high }

theorem kept (puts : chip.Puts line name bits number next) : built.SameButContents next :=
  puts.same (Descriptor.isPrimitive_of_build words.made) words.same

theorem puts_a (puts : chip.Puts line "A" 40 number next) :
    Words built next x y number high low b where
  made := words.made
  same := words.kept puts
  apart := words.apart
  a := puts.sets.shows
  high := puts.sets.others _ (auxiliary_ne_accumulator x).1.symm _ _ words.high
  low := puts.sets.others _ (auxiliary_ne_accumulator y).1.symm _ _ words.low
  b := puts.sets.others "B" (by decide) _ _ words.b

theorem puts_b (puts : chip.Puts line "B" 40 number next) :
    Words built next x y a high low number where
  made := words.made
  same := words.kept puts
  apart := words.apart
  a := puts.sets.others "A" (by decide) _ _ words.a
  high := puts.sets.others _ (auxiliary_ne_accumulator x).2.symm _ _ words.high
  low := puts.sets.others _ (auxiliary_ne_accumulator y).2.symm _ _ words.low
  b := puts.sets.shows

theorem puts_high (puts : chip.Puts line (auxiliary x) 16 number next) :
    Words built next x y a number low b where
  made := words.made
  same := words.kept puts
  apart := words.apart
  a := puts.sets.others "A" (auxiliary_ne_accumulator x).1 _ _ words.a
  high := puts.sets.shows
  low := puts.sets.others _ (auxiliary_injective.ne words.apart.symm) _ _ words.low
  b := puts.sets.others "B" (auxiliary_ne_accumulator x).2 _ _ words.b

/-! The lines. -/

theorem dispatches {entry : InstructionEntry} (present : entry ∈ c5441.instructions)
    {line : List Char} {operands : List Operand}
    (decoded : Grammar.standard.decode line = .ok (some ⟨none, entry.mnemonic, operands⟩))
    (accepts : entry.operation.arity.Accepts operands.length) :
    chip.Dispatches line entry.primitive operands :=
  Descriptor.dispatches_of_build words.made words.same present rfl decoded accepts

theorem store {mnemonic : String} {amount : Int32}
    (present : ⟨mnemonic, .move, .sourceFirst, amount⟩ ∈ c5441.instructions)
    (decoded : Grammar.standard.decode line =
      .ok (some ⟨none, mnemonic, [.register "A", .register (auxiliary x)]⟩))
    (stored : exactShift a amount.toInt % 2 ^ 16 = number) :
    ∃ next, chip.Puts line (auxiliary x) 16 number next ∧ Words built next x y a number low b := by
  have accepts : Operation.move.arity.Accepts 2 := by decide
  have dispatches := words.dispatches present decoded accepts
  obtain ⟨next, puts⟩ := dispatches.puts_move rfl none rfl words.high words.a
  have alone : Primitive.exactAmount ⟨.move, .sourceFirst, amount⟩ none = amount.toInt :=
    Int.add_zero amount.toInt
  rw [InstructionEntry.primitive, alone, stored] at puts
  exact ⟨next, puts, words.puts_high puts⟩

theorem storeHigh :
    ∃ next, chip.Puts s!"STH A, {auxiliary x}".toList (auxiliary x) 16 (upperWord a) next ∧
      Words built next x y a (upperWord a) low b := by
  have present : ⟨"STH", .move, .sourceFirst, -16⟩ ∈ c5441.instructions := by decide
  exact words.store present (decode_storeHigh x) (congrArg (· % 2 ^ 16) (exactShift_word_right a))

theorem storeLow :
    ∃ next, chip.Puts s!"STL A, {auxiliary x}".toList (auxiliary x) 16 (lowerWord a) next ∧
      Words built next x y a (lowerWord a) low b := by
  have present : ⟨"STL", .move, .sourceFirst, 0⟩ ∈ c5441.instructions := by decide
  exact words.store present (decode_storeLow x) (congrArg (· % 2 ^ 16) (exactShift_zero a))

theorem loadHigh :
    ∃ next, chip.Puts s!"LD {auxiliary x}, 16, B".toList "B" 40 (high * 2 ^ 16) next ∧
      Words built next x y a high low (high * 2 ^ 16) := by
  have present : ⟨"LD", .move, .sourceFirst, 0⟩ ∈ c5441.instructions := by decide
  have accepts : Operation.move.arity.Accepts 3 := by decide
  have dispatches := words.dispatches present (decode_loadHigh x) accepts
  obtain ⟨next, puts⟩ : ∃ next, chip.Puts _ "B" 40 (exactShift high 16 % 2 ^ 40) next :=
    dispatches.puts_move rfl (some 16) rfl words.b words.high
  have uncut : high * 2 ^ 16 % 2 ^ 40 = high * 2 ^ 16 := by
    have nonneg := words.high.nonneg
    have below := words.high.lt
    omega
  rw [exactShift_word_left, uncut] at puts
  exact ⟨next, puts, words.puts_b puts⟩

theorem mergeLow :
    ∃ next, chip.Puts s!"OR {auxiliary y}, B".toList "B" 40 (b.toNat ||| low.toNat : Nat) next ∧
      Words built next x y a high low (b.toNat ||| low.toNat : Nat) := by
  have present : ⟨"OR", .combine .or, .sourceFirst, 0⟩ ∈ c5441.instructions := by decide
  have accepts : (Operation.combine .or).arity.Accepts 2 := by decide
  have dispatches := words.dispatches present (decode_mergeLow y) accepts
  obtain ⟨next, puts⟩ := dispatches.puts_or rfl rfl rfl words.b words.low
  have uncut : low.toNat % 2 ^ 40 = low.toNat := by
    have below := words.low.lt
    omega
  rw [uncut] at puts
  exact ⟨next, puts, words.puts_b puts⟩

theorem shiftDown :
    ∃ next shifted, chip.Puts "SFTA A, -16".toList "A" 40 shifted next ∧
      lowerWord shifted = upperWord a ∧ Words built next x y shifted high low b := by
  have present : ⟨"SFTA", .shift .sign, .targetFirst, 0⟩ ∈ c5441.instructions := by decide
  have accepts : (Operation.shift .sign).arity.Accepts 2 := by decide
  have dispatches := words.dispatches present decode_shiftDown accepts
  obtain ⟨next, puts⟩ := dispatches.puts_arithmetic rfl (-16) rfl (by decide) words.a
  exact ⟨next, _, puts, upperWord_of_arithmetic words.a.nonneg words.a.lt, words.puts_a puts⟩

/-! Programs. -/

theorem run_splitAndJoin :
    ∃ next, chip.run ("\n".intercalate (splitAndJoin x y)) = .ok 4 next ∧
      Words built next x y a (upperWord a) (lowerWord a) (a % 2 ^ 32) := by
  obtain ⟨first, sth, words⟩ := words.storeHigh
  obtain ⟨second, stl, words⟩ := words.swap.storeLow
  obtain ⟨third, ld, words⟩ := words.swap.loadHigh
  obtain ⟨last, or, words⟩ := words.mergeLow
  rw [upperWord_or_lowerWord] at words
  refine ⟨last, ?_, words⟩
  rw [chip.run_intercalate (whole_splitAndJoin x y)]
  simp only [splitAndJoin, List.map_cons, List.map_nil]
  rw [sth.runLines, stl.runLines, ld.runLines, or.runLines]
  rfl

theorem run_storeHigh :
    ∃ next, chip.run s!"STH A, {auxiliary x}" = .ok 1 next ∧
      Words built next x y a (upperWord a) low b := by
  obtain ⟨next, sth, words⟩ := words.storeHigh
  refine ⟨next, ?_, words⟩
  have cut := chip.run_intercalate (whole_storeHigh x)
  rw [List.map_cons, List.map_nil, sth.runLines] at cut
  exact cut

theorem run_shiftAndStore :
    ∃ next shifted, chip.run ("\n".intercalate (shiftAndStore x)) = .ok 2 next ∧
      Words built next x y shifted (upperWord a) low b := by
  obtain ⟨between, shifted, sfta, upper, words⟩ := words.shiftDown
  obtain ⟨last, stl, words⟩ := words.storeLow
  rw [upper] at words
  refine ⟨last, shifted, ?_, words⟩
  rw [chip.run_intercalate (whole_shiftAndStore x)]
  simp only [shiftAndStore, List.map_cons, List.map_nil]
  rw [sfta.runLines, stl.runLines]
  rfl

end Steps

end Words

/-- Splitting an accumulator into words and joining them again. In every state of the chip, with any
contents and any two auxiliary registers, four lines put the upper and the lower word of A into the
registers and its low 32 bits into B, and leave A as it is. An arithmetic shift of A and a store of
its lower word put into a register what the store of the upper word puts there. Whatever contents
are asked for, the chip stays in such a state. -/
theorem words_split_and_rejoin (built : Chip) (made : c5441.build = .ok built) :
    (∀ history : List Chip.Request, (∀ request ∈ history, request.ContentsOnly) →
      built.SameButContents (history.foldl Chip.serve built)) ∧
    ∀ (chip : Chip) (x y : Fin 8), built.SameButContents chip → x ≠ y →
      ∃ a, chip.registers.contents? "A" = some a ∧ 0 ≤ a ∧ a < 2 ^ 40 ∧
        (∃ next, chip.run ("\n".intercalate (splitAndJoin x y)) = .ok 4 next ∧
          next.registers.contents? "A" = some a ∧
          next.registers.contents? (auxiliary x) = some (a / 2 ^ 16 % 2 ^ 16) ∧
          next.registers.contents? (auxiliary y) = some (a % 2 ^ 16) ∧
          next.registers.contents? "B" = some (a % 2 ^ 32)) ∧
        ∃ stored shifted, chip.run s!"STH A, {auxiliary x}" = .ok 1 stored ∧
          chip.run ("\n".intercalate (shiftAndStore x)) = .ok 2 shifted ∧
          stored.registers.contents? (auxiliary x) = some (a / 2 ^ 16 % 2 ^ 16) ∧
          shifted.registers.contents? (auxiliary x) = stored.registers.contents? (auxiliary x) := by
  constructor
  · intro history plain
    exact Chip.sameButContents_foldl (Descriptor.isPrimitive_of_build made) (.refl built) plain
  · intro chip x y same apart
    obtain ⟨a, high, low, b, words⟩ := exists_words made same apart
    obtain ⟨next, joined, after⟩ := words.run_splitAndJoin
    obtain ⟨stored, sth, direct⟩ := words.run_storeHigh
    obtain ⟨last, shifted, stl, also⟩ := words.run_shiftAndStore
    exact ⟨a, words.a.contents?_eq, words.a.nonneg, words.a.lt,
      ⟨next, joined, after.a.contents?_eq, after.high.contents?_eq, after.low.contents?_eq,
        after.b.contents?_eq⟩,
      stored, last, sth, stl, direct.high.contents?_eq,
      also.high.contents?_eq.trans direct.high.contents?_eq.symm⟩

theorem words_split_and_rejoin_negative :
    ∃ built : Chip, c5441.build = .ok built ∧
      let chip := built.serve (.store "A" 0xFE12345678 0)
      built.SameButContents chip ∧ chip.registers.contents? "A" = some 0xFE12345678 ∧
        (∃ next,
          chip.run "STH A, AR7\nSTL A, AR0\nLD AR7, 16, B\nOR AR0, B" = .ok 4 next ∧
            next.registers.contents? "AR7" = some 0x1234 ∧ next.registers.contents? "AR0" = some 0x5678 ∧
            next.registers.contents? "B" = some 0x12345678) ∧
        ∃ shifted, chip.run "SFTA A, -16\nSTL A, AR7" = .ok 2 shifted ∧
          shifted.registers.contents? "AR7" = some 0x1234 := by
  have valid : c5441.Valid := by decide +kernel
  obtain ⟨built, made, _⟩ := Descriptor.exists_build valid
  obtain ⟨reach, split⟩ := words_split_and_rejoin built made
  have state : built.SameButContents (built.serve (.store "A" 0xFE12345678 0)) :=
    reach [.store "A" 0xFE12345678 0] (by simp [Chip.Request.ContentsOnly])
  have listed : ⟨"Accumulator A", "A", 40, none, none, .full⟩ ∈ c5441.registers := by decide
  obtain ⟨_, shows⟩ := exists_shows made (.refl built) listed
  obtain ⟨after, stored, holds⟩ := shows.store
    (show 0 ≤ (0xFE12345678 : Word).toInt by decide) (by decide)
  have contents : (built.serve (.store "A" 0xFE12345678 0)).registers.contents? "A" =
      some 0xFE12345678 := by
    rw [Chip.serve, stored]
    exact holds.contents?_eq
  obtain ⟨a, same, _, _, ⟨next, joined, _, high, low, b⟩, _, shifted, _, stl, upper, alike⟩ :=
    split _ 7 0 state (by decide)
  obtain rfl : a = 0xFE12345678 := Option.some.inj (same.symm.trans contents)
  exact ⟨built, made, state, contents, ⟨next, joined, high, low, b⟩, shifted, stl, alike.trans upper⟩

end DspChip.Catalog
