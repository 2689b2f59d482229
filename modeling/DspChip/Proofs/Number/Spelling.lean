import DspChip.Proofs.Number.Case
import DspChip.Proofs.Result
/-! The spelling of numbers: a sign, digits, and a mark that tells their radix. A text has a value
exactly if it is the text of a spelling, and there is one at most. -/

namespace DspChip

theorem Text.forall_ascii {p : Char → Prop} (every : ∀ n < 128, p (Char.ofNat n)) (c : Char)
    (ascii : c.toNat < 128) : p c := by
  have tried := every c.toNat ascii
  rwa [Char.ofNat_toNat] at tried

namespace Radix

/-- The place of a character among the digits of the largest radix, in either case. -/
def rank (c : Char) : Nat := "0123456789abcdef".toList.idxOf c.toLower

def IsDigit (radix : Radix) (c : Char) : Prop := rank c < radix.size

instance (radix : Radix) (c : Char) : Decidable (radix.IsDigit c) :=
  inferInstanceAs (Decidable (_ < _))

def total (radix : Radix) (digits : List Char) : Nat :=
  Nat.ofDigits radix.size (digits.reverse.map rank)

variable {radix : Radix} {digits : List Char} {c : Char} {n : Nat}

theorem isAscii_of_isDigit (digit : radix.IsDigit c) : c.toNat < 128 := by
  have size : radix.size ≤ "0123456789abcdef".toList.length := by cases radix <;> decide
  have member : c.toLower ∈ "0123456789abcdef".toList :=
    List.idxOf_lt_length_iff.mp (Nat.lt_of_lt_of_le digit size)
  have small : c.toLower.toNat < 128 :=
    Text.forall_mem_of_all (p := fun digit => digit.toNat < 128) (by decide) _ member
  exact Text.toLower_cases (motive := fun c small => small.toNat < 128 → c.toNat < 128) (fun _ => id)
    (by decide) c small

theorem digit?_eq (radix : Radix) (c : Char) :
    radix.digit? c = if radix.IsDigit c then some (rank c) else none := by
  by_cases ascii : c.toNat < 128
  · apply Text.forall_ascii (p := fun c =>
      radix.digit? c = if radix.IsDigit c then some (rank c) else none) _ c ascii
    cases radix <;> decide +kernel
  · -- letters and digits all stand before
    have beyond {mark : Char} (small : mark.toNat < 128) : ¬ c ≤ mark := by
      intro below
      have order : c.toNat ≤ mark.toNat := UInt32.le_iff_toNat_le.mp below
      omega
    rw [if_neg (mt isAscii_of_isDigit ascii)]
    unfold digit?
    rw [if_neg fun range => beyond (by decide) range.2, if_neg fun range => beyond (by decide) range.2,
      if_neg fun range => beyond (by decide) range.2]
    rfl

theorem isDigit_of_decimal (digit : decimal.IsDigit c) : c.isDigit = true :=
  Text.forall_ascii (p := fun c => decimal.IsDigit c → c.isDigit = true) (by decide +kernel) c
    (isAscii_of_isDigit digit) digit

theorem isSome_digit?_iff : (radix.digit? c).isSome ↔ radix.IsDigit c := by
  rw [digit?_eq]
  split
  · simpa
  · simpa

theorem weigh_map_rank (radix : Radix) (digits : List Char) :
    radix.weigh (digits.map rank) = radix.total digits := by
  rw [total, Nat.ofDigits_eq_foldr, List.map_reverse, List.foldr_reverse, weigh]
  simp only [Nat.cast_id, Nat.mul_comm, Nat.add_comm]

theorem read?_eq_some_total_iff :
    radix.read? digits = some n ↔
      digits ≠ [] ∧ (∀ c ∈ digits, radix.IsDigit c) ∧ radix.total digits = n := by
  have told (valid : ∀ c ∈ digits, radix.IsDigit c) :
      digits.mapM radix.digit? = some (digits.map rank) :=
    mapM_eq_some_map fun c member => by rw [digit?_eq, if_pos (valid c member)]
  constructor
  · intro read
    have valid : ∀ c ∈ digits, radix.IsDigit c :=
      fun c member => isSome_digit?_iff.mp (isSome_digit?_of_read? read member)
    obtain ⟨present, values, every, weight⟩ := read?_eq_some_iff.mp read
    obtain rfl := Option.some.inj ((told valid).symm.trans every)
    exact ⟨present, valid, (weigh_map_rank radix digits).symm.trans weight⟩
  · intro ⟨present, valid, number⟩
    exact read?_eq_some_iff.mpr
      ⟨present, digits.map rank, told valid, (weigh_map_rank radix digits).trans number⟩

end Radix

namespace Numeral

inductive Sign where
  | absent
  | plus
  | minus
  deriving DecidableEq, Repr

namespace Sign

def text : Sign → List Char
  | absent => []
  | plus => ['+']
  | minus => ['-']

def apply (n : Nat) : Sign → Int
  | absent => n
  | plus => n
  | minus => -n

end Sign

/-- What tells the radix of a number: `0x` before the digits, or a letter behind them, either one
small or capital. Without a mark digits are decimal. -/
inductive Mark where
  | absent
  | before (capital : Bool)
  | behind (radix : Radix) (capital : Bool)
  deriving DecidableEq, Repr

namespace Mark

def radix : Mark → Radix
  | absent => .decimal
  | before _ => .hexadecimal
  | behind radix _ => radix

def letter (small : Char) (capital : Bool) : Char :=
  if capital then small.toUpper else small

def attach (digits : List Char) : Mark → List Char
  | absent => digits
  | before capital => '0' :: letter 'x' capital :: digits
  | behind radix capital => digits ++ [letter radix.suffix capital]

variable {digits : List Char}

theorem exists_letter (c : Char) : ∃ capital, letter c.toLower capital = c := by
  have capitals : ∀ n < 26, letter (Char.ofNat (n + 97)) true = Char.ofNat (n + 65) := by decide
  exact Text.toLower_cases (motive := fun c small => ∃ capital, letter small capital = c)
    (fun c => ⟨false, rfl⟩) (fun n letter => ⟨true, capitals n letter⟩) c

/-- What is taken for the digits of a text is the text without a mark. -/
theorem exists_attach (body : List Char) :
    ∃ mark : Mark, mark.radix = (radixAndDigits body).1 ∧ mark.attach (radixAndDigits body).2 = body := by
  by_cases marked : IsMarkedBefore body
  · obtain ⟨letter, digits, rfl, marks⟩ := marked
    rcases eq_of_toLower_eq_x marks with rfl | rfl
    · exact ⟨.before false, rfl, rfl⟩
    · exact ⟨.before true, rfl, rfl⟩
  · rw [radixAndDigits_of_unmarked marked]
    have ended {small : Char} (last : body.getLast?.map Char.toLower = some small) :
        ∃ capital, body.dropLast ++ [letter small capital] = body := by
      obtain ⟨c, ends, rfl⟩ := Option.map_eq_some_iff.mp last
      obtain ⟨capital, same⟩ := exists_letter c
      refine ⟨capital, ?_⟩
      rw [same]
      exact List.dropLast_append_getLast? c ends
    unfold markedBehind
    split
    · rename_i last
      obtain ⟨capital, whole⟩ := ended last
      exact ⟨.behind .hexadecimal capital, rfl, whole⟩
    · rename_i last
      obtain ⟨capital, whole⟩ := ended last
      split
      · exact ⟨.behind .binary capital, rfl, whole⟩
      · exact ⟨.absent, rfl, rfl⟩
    · rename_i last
      obtain ⟨capital, whole⟩ := ended last
      exact ⟨.behind .decimal capital, rfl, whole⟩
    · exact ⟨.absent, rfl, rfl⟩

def width : Mark → Nat
  | absent => 0
  | before _ => 2
  | behind _ _ => 1

theorem length_attach (mark : Mark) : (mark.attach digits).length = digits.length + mark.width := by
  cases mark <;> simp [attach, width]

/-- Marks of one radix differ in their width, or in the case of their letter. -/
theorem eq_of_attach {mark other : Mark} (radix : mark.radix = other.radix)
    (same : mark.attach digits = other.attach digits) : mark = other := by
  have widths : mark.width = other.width := by
    have lengths := congrArg List.length same
    rw [length_attach, length_attach] at lengths
    exact Nat.add_left_cancel lengths
  cases mark with
  | absent =>
    cases other with
    | absent => rfl
    | before | behind => cases widths
  | before capital =>
    cases other with
    | before other =>
      have letters := (List.cons.inj (List.cons.inj same).2).1
      cases capital <;> cases other <;> first | rfl | exact absurd letters (by decide)
    | absent | behind => cases widths
  | behind own capital =>
    cases other with
    | behind also other =>
      obtain rfl : own = also := radix
      have letters := (List.cons.inj (List.append_cancel_left same)).1
      cases own <;> cases capital <;> cases other <;> first | rfl | exact absurd letters (by decide)
    | absent | before => cases widths

end Mark

/-- A number as it is written: one or more digits of its radix, with a mark and a sign. -/
structure Spelling where
  sign : Sign
  mark : Mark
  digits : List Char
  present : digits ≠ []
  valid : ∀ c ∈ digits, mark.radix.IsDigit c

namespace Spelling

def body (spelling : Spelling) : List Char := spelling.mark.attach spelling.digits

def text (spelling : Spelling) : List Char := spelling.sign.text ++ spelling.body

def value (spelling : Spelling) : Int :=
  spelling.sign.apply (spelling.mark.radix.total spelling.digits)

theorem read?_digits (spelling : Spelling) :
    spelling.mark.radix.read? spelling.digits = some (spelling.mark.radix.total spelling.digits) :=
  Radix.read?_eq_some_total_iff.mpr ⟨spelling.present, spelling.valid, rfl⟩

theorem head?_body (spelling : Spelling) {c : Char} (sign : c = '-' ∨ c = '+') :
    spelling.body.head? ≠ some c := by
  obtain ⟨_, mark, digits, present, valid⟩ := spelling
  have other (radix : Radix) : ¬ radix.IsDigit c := by
    rcases sign with rfl | rfl <;> cases radix <;> decide
  obtain ⟨first, rest, rfl⟩ := List.exists_cons_of_ne_nil present
  intro same
  cases mark with
  | absent =>
    obtain rfl := Option.some.inj same
    exact other _ (valid _ List.mem_cons_self)
  | before capital =>
    obtain rfl := Option.some.inj same
    exact other .hexadecimal (by decide)
  | behind radix capital =>
    obtain rfl := Option.some.inj same
    exact other _ (valid _ List.mem_cons_self)

/-- The letter of the mark before the digits is neither a digit nor the letter of another mark. -/
theorem not_isMarkedBefore (spelling : Spelling) (unmarked : ∀ capital, spelling.mark ≠ .before capital) :
    ¬ IsMarkedBefore spelling.body := by
  rintro ⟨letter, rest, same, marks⟩
  have member : letter ∈ spelling.body := same ▸ List.mem_cons_of_mem _ List.mem_cons_self
  obtain ⟨_, mark, digits, present, valid⟩ := spelling
  have other (radix : Radix) : ¬ radix.IsDigit letter := by
    rcases eq_of_toLower_eq_x marks with rfl | rfl <;> cases radix <;> decide
  cases mark with
  | absent => exact other _ (valid letter member)
  | before capital => exact unmarked capital rfl
  | behind radix capital =>
    rcases List.mem_append.mp member with digit | last
    · exact other _ (valid letter digit)
    · obtain rfl := List.mem_singleton.mp last
      cases radix <;> cases capital <;> exact absurd marks (by decide)

theorem radixAndDigits_body (spelling : Spelling) :
    radixAndDigits spelling.body = (spelling.mark.radix, spelling.digits) := by
  have read := spelling.read?_digits
  have unmarked := spelling.not_isMarkedBefore
  obtain ⟨sign, mark, digits, present, valid⟩ := spelling
  cases mark with
  | before capital => cases capital <;> rfl
  | behind radix capital =>
    rw [radixAndDigits_of_unmarked (unmarked (by simp)), body, Mark.attach, markedBehind,
      List.getLast?_concat, List.dropLast_concat]
    cases radix with
    | decimal => cases capital <;> rfl
    | hexadecimal => cases capital <;> rfl
    | binary =>
      have binary : Radix.binary.read? digits = some (Radix.binary.total digits) := read
      cases capital
      all_goals
        change (if (Radix.binary.read? digits).isSome then _ else _) = _
        rw [binary]
        rfl
  | absent =>
    exact radixAndDigits_digits fun c member => Radix.isDigit_of_decimal (valid c member)

theorem unsigned?_body (spelling : Spelling) :
    unsigned? spelling.body = some (spelling.mark.radix.total spelling.digits) := by
  rw [unsigned?, radixAndDigits_body]
  exact spelling.read?_digits

theorem value?_text (spelling : Spelling) : value? spelling.text = some spelling.value := by
  have told := spelling.unsigned?_body
  have minus := spelling.head?_body (.inl rfl)
  have plus := spelling.head?_body (.inr rfl)
  unfold text value
  generalize spelling.body = body at told minus plus
  generalize spelling.mark.radix.total spelling.digits = n at told
  cases spelling.sign with
  | absent =>
    change value? body = some (n : Int)
    rw [value?_of_head? minus plus, told]
    rfl
  | plus =>
    change (unsigned? body).map _ = some (n : Int)
    rw [told]
    rfl
  | minus =>
    change (unsigned? body).map _ = some (-(n : Int))
    rw [told]
    rfl

theorem eq_of_sign_append {first second : Sign} {left right : List Char}
    (bare : ∀ c, c = '-' ∨ c = '+' → left.head? ≠ some c)
    (other : ∀ c, c = '-' ∨ c = '+' → right.head? ≠ some c)
    (same : first.text ++ left = second.text ++ right) : first = second ∧ left = right := by
  have heads := congrArg List.head? same
  cases first with
  | absent =>
    cases second with
    | absent => exact ⟨rfl, same⟩
    | plus => exact absurd heads (bare '+' (.inr rfl))
    | minus => exact absurd heads (bare '-' (.inl rfl))
  | plus =>
    cases second with
    | absent => exact absurd heads.symm (other '+' (.inr rfl))
    | plus => exact ⟨rfl, (List.cons.inj same).2⟩
    | minus => cases Option.some.inj heads
  | minus =>
    cases second with
    | absent => exact absurd heads.symm (other '-' (.inl rfl))
    | plus => cases Option.some.inj heads
    | minus => exact ⟨rfl, (List.cons.inj same).2⟩

theorem text_injective : Function.Injective text := by
  intro first second same
  obtain ⟨sign, bodies⟩ := eq_of_sign_append (fun _ => first.head?_body) (fun _ => second.head?_body) same
  have told := first.radixAndDigits_body
  rw [bodies, second.radixAndDigits_body, Prod.mk.injEq] at told
  obtain ⟨radix, digits⟩ := told
  have mark : first.mark = second.mark := by
    rw [body, body, digits] at bodies
    exact Mark.eq_of_attach radix.symm bodies
  obtain ⟨_, _, _, _, _⟩ := first
  obtain ⟨_, _, _, _, _⟩ := second
  cases sign
  cases mark
  cases digits
  rfl

theorem exists_of_unsigned? {body : List Char} {n : Nat} (told : unsigned? body = some n) (sign : Sign) :
    ∃ spelling : Spelling, spelling.text = sign.text ++ body ∧ spelling.value = sign.apply n := by
  obtain ⟨mark, radix, whole⟩ := Mark.exists_attach body
  rw [unsigned?, ← radix] at told
  obtain ⟨present, valid, number⟩ := Radix.read?_eq_some_total_iff.mp told
  exact ⟨⟨sign, mark, _, present, valid⟩, congrArg (sign.text ++ ·) whole, congrArg sign.apply number⟩

theorem value?_eq_some_iff {number : List Char} {v : Int} :
    value? number = some v ↔ ∃ spelling : Spelling, spelling.text = number ∧ spelling.value = v := by
  constructor
  · intro told
    by_cases minus : number.head? = some '-'
    · obtain ⟨body, rfl⟩ := List.head?_eq_some_iff.mp minus
      obtain ⟨n, unsigned, rfl⟩ := Option.map_eq_some_iff.mp (value?_minus body ▸ told)
      exact exists_of_unsigned? unsigned .minus
    by_cases plus : number.head? = some '+'
    · obtain ⟨body, rfl⟩ := List.head?_eq_some_iff.mp plus
      obtain ⟨n, unsigned, rfl⟩ := Option.map_eq_some_iff.mp (value?_plus body ▸ told)
      exact exists_of_unsigned? unsigned .plus
    · rw [value?_of_head? minus plus] at told
      obtain ⟨n, unsigned, rfl⟩ := Option.map_eq_some_iff.mp told
      exact exists_of_unsigned? unsigned .absent
  · rintro ⟨spelling, rfl, rfl⟩
    exact spelling.value?_text

end Spelling

end Numeral

end DspChip
