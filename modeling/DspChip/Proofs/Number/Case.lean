import DspChip.Proofs.Number.Format
import DspChip.Proofs.Text.Case
/-! Numbers in lower case: neither a mark nor a digit depends on the case of its letter. -/

namespace DspChip

open Text (lower toLower_cases toLower_eq_iff head?_lower_eq_iff dropLast_lower)

namespace Radix

theorem digit?_toLower (radix : Radix) (c : Char) : radix.digit? c.toLower = radix.digit? c := by
  cases radix
  all_goals
    exact toLower_cases (motive := fun c small => digit? _ small = digit? _ c) (fun _ => rfl)
      (by decide) c

theorem read?_lower (radix : Radix) (digits : List Char) :
    radix.read? (lower digits) = radix.read? digits := by
  simp only [read?, lower, List.map_eq_nil_iff, List.mapM_map, Function.comp_def, digit?_toLower]

end Radix

namespace Numeral

def IsMarkedBefore (body : List Char) : Prop :=
  ∃ mark digits, body = '0' :: mark :: digits ∧ mark.toLower = 'x'

theorem eq_of_toLower_eq_x {c : Char} (marks : c.toLower = 'x') : c = 'x' ∨ c = 'X' :=
  toLower_cases (motive := fun c small => small = 'x' → c = 'x' ∨ c = 'X') (fun _ => Or.inl)
    (by decide) c marks

theorem isMarkedBefore_of_lower {body : List Char} (marked : IsMarkedBefore (lower body)) :
    IsMarkedBefore body := by
  obtain ⟨mark, digits, small, marks⟩ := marked
  obtain ⟨zero, others, rfl, first, rest⟩ := List.map_eq_cons_iff.mp small
  obtain ⟨second, later, rfl, same, -⟩ := List.map_eq_cons_iff.mp rest
  obtain rfl := (toLower_eq_iff (by decide)).mp first
  refine ⟨second, later, rfl, ?_⟩
  rw [← marks, ← same, Char.toLower_toLower_eq_toLower]

def markedBehind (body : List Char) : Radix × List Char :=
  match body.getLast?.map Char.toLower with
  | some 'h' => (.hexadecimal, body.dropLast)
  | some 'b' =>
    if (Radix.binary.read? body.dropLast).isSome then (.binary, body.dropLast)
    else (.decimal, body)
  | some 'd' => (.decimal, body.dropLast)
  | _ => (.decimal, body)

theorem radixAndDigits_of_unmarked {body : List Char} (unmarked : ¬ IsMarkedBefore body) :
    radixAndDigits body = markedBehind body := by
  unfold radixAndDigits
  split
  · exact absurd ⟨'x', _, rfl, rfl⟩ unmarked
  · exact absurd ⟨'X', _, rfl, rfl⟩ unmarked
  · rfl

theorem markedBehind_lower (body : List Char) :
    markedBehind (lower body) = ((markedBehind body).1, lower (markedBehind body).2) := by
  have last : (lower body).getLast?.map Char.toLower = body.getLast?.map Char.toLower := by
    rw [lower, List.getLast?_map, Option.map_map]
    exact congrArg (body.getLast?.map ·) (funext Char.toLower_toLower_eq_toLower)
  unfold markedBehind
  rw [last, dropLast_lower, Radix.read?_lower]
  split
  · rfl
  · split <;> rfl
  · rfl
  · rfl

theorem radixAndDigits_lower (body : List Char) :
    radixAndDigits (lower body) = ((radixAndDigits body).1, lower (radixAndDigits body).2) := by
  by_cases marked : IsMarkedBefore body
  · obtain ⟨mark, digits, rfl, marks⟩ := marked
    rcases eq_of_toLower_eq_x marks with rfl | rfl
    · rfl
    · rfl
  · rw [radixAndDigits_of_unmarked marked,
      radixAndDigits_of_unmarked (mt isMarkedBefore_of_lower marked), markedBehind_lower]

theorem unsigned?_lower (body : List Char) : unsigned? (lower body) = unsigned? body := by
  rw [unsigned?, radixAndDigits_lower, Radix.read?_lower, unsigned?]

theorem value?_lower (number : List Char) : value? (lower number) = value? number := by
  by_cases minus : number.head? = some '-'
  · obtain ⟨body, rfl⟩ := List.head?_eq_some_iff.mp minus
    change (unsigned? (lower body)).map _ = (unsigned? body).map _
    rw [unsigned?_lower]
  by_cases plus : number.head? = some '+'
  · obtain ⟨body, rfl⟩ := List.head?_eq_some_iff.mp plus
    change (unsigned? (lower body)).map _ = (unsigned? body).map _
    rw [unsigned?_lower]
  · rw [value?_of_head? minus plus, value?_of_head? (mt (head?_lower_eq_iff rfl number).mp minus)
      (mt (head?_lower_eq_iff rfl number).mp plus), unsigned?_lower]

end Numeral

end DspChip
