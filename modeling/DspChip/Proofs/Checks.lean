import DspChip.Proofs.Result
/-! Checks made in order. A result obeys its checks if it is there where all of them hold, and is
otherwise the fault of the first one that is violated. -/

namespace DspChip

structure Check where
  holds : Prop
  fault : Fault

namespace Check

def AllHold (checks : List Check) : Prop := ∀ check ∈ checks, check.holds

inductive FirstViolated : List Check → Fault → Prop where
  | here {check : Check} {rest : List Check} (violated : ¬ check.holds) :
      FirstViolated (check :: rest) check.fault
  | behind {check : Check} {rest : List Check} {fault : Fault} (holds : check.holds)
      (violated : FirstViolated rest fault) : FirstViolated (check :: rest) fault

/-- The result is there if all checks hold, with a property then, and else it is the fault of the
first that is violated. -/
def Decide {α : Type} (checks : List Check) (made : α → Prop) : Except Fault α → Prop
  | .ok a => AllHold checks ∧ made a
  | .error fault => FirstViolated checks fault

/-- The checks of each item, which look at the items before it. -/
def inOrder {α : Type} (checks : List α → α → List Check) : List α → List α → List Check
  | _, [] => []
  | earlier, item :: rest => checks earlier item ++ inOrder checks (earlier ++ [item]) rest

variable {α β : Type} {check : Check} {first second checks : List Check} {fault other : Fault}

@[simp] theorem allHold_nil : AllHold [] := by
  intro check none
  cases none

@[simp] theorem allHold_cons : AllHold (check :: checks) ↔ check.holds ∧ AllHold checks :=
  List.forall_mem_cons

@[simp] theorem allHold_append : AllHold (first ++ second) ↔ AllHold first ∧ AllHold second :=
  List.forall_mem_append

namespace FirstViolated

theorem not_allHold (violated : FirstViolated checks fault) : ¬ AllHold checks := by
  induction violated with
  | here violated => exact fun all => violated (allHold_cons.mp all).1
  | behind _ _ ih => exact fun all => ih (allHold_cons.mp all).2

theorem unique (violated : FirstViolated checks fault) (also : FirstViolated checks other) :
    fault = other := by
  induction violated with
  | here violated =>
    cases also with
    | here => rfl
    | behind holds => exact absurd holds violated
  | behind holds _ ih =>
    cases also with
    | here violated => exact absurd holds violated
    | behind _ later => exact ih later

theorem append (violated : FirstViolated first fault) (second : List Check) :
    FirstViolated (first ++ second) fault := by
  induction violated with
  | here violated => exact .here violated
  | behind holds _ ih => exact .behind holds ih

theorem of_allHold_append (all : AllHold first) (violated : FirstViolated second fault) :
    FirstViolated (first ++ second) fault := by
  induction first with
  | nil => exact violated
  | cons check rest ih =>
    obtain ⟨holds, others⟩ := allHold_cons.mp all
    exact .behind holds (ih others)

end FirstViolated

namespace Decide

variable {made : α → Prop} {result : Except Fault α}

theorem of_holds {a : α} (holds : check.holds) (made_a : made a) :
    Decide [check] made (.ok a) :=
  ⟨by simpa using holds, made_a⟩

theorem of_violated (violated : ¬ check.holds) : Decide [check] made (.error check.fault) :=
  .here violated

theorem bind {also : β → Prop} {next : α → Except Fault β} (begins : Decide first made result)
    (continues : ∀ a, made a → Decide second also (next a)) :
    Decide (first ++ second) also (result >>= next) := by
  cases result with
  | error fault => exact begins.append second
  | ok a =>
    change Decide (first ++ second) also (next a)
    have later := continues a begins.2
    cases left : next a with
    | error fault =>
      rw [left] at later
      exact .of_allHold_append begins.1 later
    | ok b =>
      rw [left] at later
      exact ⟨allHold_append.mpr ⟨begins.1, later.1⟩, later.2⟩

/-- A step that obeys the checks of its item makes a fold that obeys those of all items. -/
theorem foldlM (checks : List α → α → List Check) (made : List α → β → Prop)
    {step : β → α → Except Fault β}
    (steps : ∀ earlier item b, made earlier b →
      Decide (checks earlier item) (made (earlier ++ [item])) (step b item))
    (items : List α) {earlier : List α} {start : β} (begins : made earlier start) :
    Decide (inOrder checks earlier items) (made (earlier ++ items))
      (items.foldlM step start) := by
  induction items generalizing earlier start with
  | nil =>
    rw [List.append_nil]
    exact ⟨by simp [inOrder], begins⟩
  | cons item rest ih =>
    rw [List.foldlM_cons, inOrder]
    apply (steps earlier item start begins).bind
    intro next made_next
    simpa using ih made_next

theorem exists_ok_iff (decides : Decide checks made result) :
    (∃ a, result = .ok a) ↔ AllHold checks := by
  cases result with
  | error fault => simpa using decides.not_allHold
  | ok a => exact ⟨fun _ => decides.1, fun _ => ⟨a, rfl⟩⟩

theorem error_iff (decides : Decide checks made result) :
    result = .error fault ↔ FirstViolated checks fault := by
  cases result with
  | error found =>
    refine ⟨?_, fun violated => congrArg Except.error (decides.unique violated)⟩
    rintro ⟨⟩
    exact decides
  | ok a => simpa using fun violated : FirstViolated checks fault =>
      violated.not_allHold decides.1

theorem made_of_ok {a : α} (decides : Decide checks made (.ok a)) : made a := decides.2

end Decide

/-- Checks that ask something of each item, and of each item with every earlier one, all hold if
the items have it one by one and two by two. -/
theorem allHold_inOrder_iff {checks : List α → α → List Check} {own : α → Prop}
    {apart : α → α → Prop}
    (asks : ∀ earlier item, AllHold (checks earlier item) ↔
      own item ∧ ∀ old ∈ earlier, apart old item)
    (earlier items : List α) :
    AllHold (inOrder checks earlier items) ↔
      (∀ item ∈ items, own item) ∧ items.Pairwise apart ∧
        ∀ old ∈ earlier, ∀ item ∈ items, apart old item := by
  induction items generalizing earlier with
  | nil => simp [inOrder]
  | cons item rest ih =>
    rw [inOrder, allHold_append, asks, ih, List.pairwise_cons]
    simp only [List.forall_mem_append, List.forall_mem_cons, forall_and]
    tauto

end Check

end DspChip
