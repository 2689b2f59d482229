import DspChip.Fault
import Mathlib.Data.List.Forall2
/-! Results that may be faults: taking them apart, and comparing those of two runs. -/

namespace DspChip

theorem bind_eq_ok_iff {ε α β : Type} {first : Except ε α} {next : α → Except ε β} {b : β} :
    (first >>= next) = .ok b ↔ ∃ a, first = .ok a ∧ next a = .ok b := by
  cases first with
  | error fault => simp [bind, Except.bind]
  | ok a => simp [bind, Except.bind]

theorem mapError_bind {ε α β : Type} (first : Except ε α) (next : α → Except ε β) (name : ε → ε) :
    (first >>= next).mapError name = first.mapError name >>= fun a => (next a).mapError name := by
  cases first <;> rfl

theorem mapM_eq_some_of_forall₂ {α β : Type} {read : α → Option β} {items : List α}
    {values : List β} (every : List.Forall₂ (fun item value => read item = some value) items values) :
    items.mapM read = some values := by
  induction every with
  | nil => rfl
  | cons first _ ih =>
    rw [List.mapM_cons, first, ih]
    rfl

theorem mapM_eq_some_map {α β : Type} {read : α → Option β} {value : α → β} {items : List α}
    (every : ∀ item ∈ items, read item = some (value item)) :
    items.mapM read = some (items.map value) :=
  mapM_eq_some_of_forall₂ (List.forall₂_map_right_iff.mpr (List.forall₂_same.mpr every))

theorem forall_mem_iff_of_forall₂ {α β : Type} {related : α → β → Prop} {p : α → Prop}
    {q : β → Prop} (alike : ∀ a b, related a b → (p a ↔ q b)) {left : List α} {right : List β}
    (lists : List.Forall₂ related left right) : (∀ a ∈ left, p a) ↔ ∀ b ∈ right, q b := by
  induction lists with
  | nil => simp
  | cons first _ ih => rw [List.forall_mem_cons, List.forall_mem_cons, ih, alike _ _ first]

section Readings

variable {ε α β : Type} {read : α → Except ε β} {items : List α} {values : List β} {fault : ε}

theorem mapM_eq_ok_iff :
    items.mapM read = .ok values ↔
      List.Forall₂ (fun item value => read item = .ok value) items values := by
  induction items generalizing values with
  | nil =>
    rw [List.mapM_nil, List.forall₂_nil_left_iff]
    exact ⟨fun same => (Except.ok.inj same).symm, fun empty => empty ▸ rfl⟩
  | cons item rest ih =>
    rw [List.mapM_cons, bind_eq_ok_iff, List.forall₂_cons_left_iff]
    constructor
    · intro ⟨value, first, remaining⟩
      obtain ⟨others, later, same⟩ := bind_eq_ok_iff.mp remaining
      exact ⟨value, others, first, ih.mp later, (Except.ok.inj same).symm⟩
    · intro ⟨value, others, first, later, same⟩
      exact ⟨value, first, bind_eq_ok_iff.mpr ⟨others, ih.mpr later, same ▸ rfl⟩⟩

/-- The first reading that fails decides the fault of them all. -/
theorem mapM_eq_error_iff :
    items.mapM read = .error fault ↔ ∃ good bad later values, items = good ++ bad :: later ∧
      List.Forall₂ (fun item value => read item = .ok value) good values ∧
        read bad = .error fault := by
  induction items with
  | nil => simp [pure, Except.pure]
  | cons item rest ih =>
    rw [List.mapM_cons]
    cases first : read item with
    | error other =>
      change Except.error other = Except.error fault ↔ _
      rw [Except.error.injEq]
      constructor
      · rintro rfl
        exact ⟨[], item, rest, [], rfl, .nil, first⟩
      · rintro ⟨good, bad, later, values, split, fine, failed⟩
        cases fine with
        | nil =>
          obtain ⟨rfl, rfl⟩ := List.cons.inj split
          exact Except.error.inj (first.symm.trans failed)
        | cons read others =>
          obtain ⟨rfl, _⟩ := List.cons.inj split
          cases first.symm.trans read
    | ok value =>
      have remaining : (rest.mapM read >>= fun others => pure (value :: others)) = .error fault ↔
          rest.mapM read = .error fault := by
        cases rest.mapM read with
        | error other => simp [bind, Except.bind]
        | ok others => simp [bind, Except.bind, pure, Except.pure]
      refine remaining.trans (ih.trans ?_)
      constructor
      · rintro ⟨good, bad, later, values, rfl, fine, failed⟩
        exact ⟨item :: good, bad, later, value :: values, rfl, .cons first fine, failed⟩
      · rintro ⟨good, bad, later, values, split, fine, failed⟩
        cases fine with
        | nil =>
          obtain ⟨rfl, _⟩ := List.cons.inj split
          cases first.symm.trans failed
        | cons read others =>
          obtain ⟨_, rfl⟩ := List.cons.inj split
          exact ⟨_, bad, later, _, rfl, others, failed⟩

end Readings

def FaultsIn {α : Type} (kind : Fault → Prop) (result : Except Fault α) : Prop :=
  ∀ fault, result = .error fault → kind fault

namespace FaultsIn

variable {α β : Type} {kind : Fault → Prop}

theorem ok (a : α) : FaultsIn kind (.ok a) := by
  intro fault failed
  cases failed

theorem error {fault : Fault} (known : kind fault) : FaultsIn kind (.error fault : Except Fault α) := by
  intro other failed
  cases failed
  exact known

theorem bind {first : Except Fault α} {next : α → Except Fault β} (begins : FaultsIn kind first)
    (continues : ∀ a, first = .ok a → FaultsIn kind (next a)) : FaultsIn kind (first >>= next) := by
  cases first with
  | error fault => exact error (begins fault rfl)
  | ok a => exact continues a rfl

theorem mapM {read : α → Except Fault β} (every : ∀ a, FaultsIn kind (read a)) (items : List α) :
    FaultsIn kind (items.mapM read) := by
  induction items with
  | nil => exact ok []
  | cons item rest ih =>
    rw [List.mapM_cons]
    exact (every item).bind fun first _ => ih.bind fun others _ => ok (first :: others)

theorem map {first : Except Fault α} (begins : FaultsIn kind first) (make : α → β) :
    FaultsIn kind (first.map make) := by
  cases first with
  | error fault => exact error (begins fault rfl)
  | ok a => exact ok (make a)

theorem mapError {named : Fault → Prop} {first : Except Fault α} {name : Fault → Fault}
    (begins : FaultsIn kind first) (kept : ∀ fault, kind fault → named (name fault)) :
    FaultsIn named (first.mapError name) := by
  cases first with
  | error fault => exact error (kept fault (begins fault rfl))
  | ok a => exact ok a

theorem mapError_eq {result : Except Fault α} {name : Fault → Fault}
    (untouched : FaultsIn (fun fault => name fault = fault) result) : result.mapError name = result := by
  cases result with
  | error fault => exact congrArg Except.error (untouched fault rfl)
  | ok a => rfl

end FaultsIn

/-- Unless the first result is an excused fault, the second is the same up to a relation between
the values. -/
def Agrees {α β : Type} (excused : Fault → Prop) (related : α → β → Prop) :
    Except Fault α → Except Fault β → Prop
  | .ok a, .ok b => related a b
  | .ok _, .error _ => False
  | .error fault, second => excused fault ∨ second = .error fault

namespace Agrees

variable {α β γ δ : Type} {excused : Fault → Prop} {related : α → β → Prop}

theorem bind {outer : γ → δ → Prop} {first : Except Fault α} {second : Except Fault β}
    {next : α → Except Fault γ} {other : β → Except Fault δ}
    (agrees : Agrees excused related first second)
    (continues : ∀ a b, related a b → Agrees excused outer (next a) (other b)) :
    Agrees excused outer (first >>= next) (second >>= other) := by
  cases first with
  | error fault =>
    rcases agrees with allowed | rfl
    · exact Or.inl allowed
    · exact Or.inr rfl
  | ok a =>
    cases second with
    | error fault => exact agrees.elim
    | ok b => exact continues a b agrees

theorem of_eq {first second : Except Fault α} (same : first = second) :
    Agrees excused Eq first second := by
  subst same
  cases first with
  | error fault => exact Or.inr rfl
  | ok a => rfl

theorem eq {first second : Except Fault α} (agrees : Agrees (fun _ => False) Eq first second) :
    first = second := by
  cases first with
  | error fault =>
    rcases agrees with never | same
    · exact never.elim
    · exact same.symm
  | ok a =>
    cases second with
    | error fault => exact agrees.elim
    | ok b => exact congrArg Except.ok agrees

theorem mapError {first : Except Fault α} {second : Except Fault β} {name : Fault → Fault}
    (agrees : Agrees excused related first second)
    (kept : ∀ fault, excused fault → excused (name fault)) :
    Agrees excused related (first.mapError name) (second.mapError name) := by
  cases first with
  | error fault =>
    rcases agrees with allowed | rfl
    · exact Or.inl (kept fault allowed)
    · exact Or.inr rfl
  | ok a =>
    cases second with
    | error fault => exact agrees
    | ok b => exact agrees

end Agrees

end DspChip
