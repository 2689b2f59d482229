import DspChip.Json.Members
import DspChip.Proofs.Result
import Mathlib.Data.List.Nodup
/-! Reading what was written: members of an object by their names, values by their kinds. -/

namespace DspChip.Json

def present (slots : List (String × Option Json)) : List (String × Json) :=
  slots.filterMap fun (name, value) => value.map (name, ·)

variable {slots : List (String × Option Json)}

theorem mem_names_of_mem_present {member : String × Json} (given : member ∈ present slots) :
    member.1 ∈ slots.map Prod.fst := by
  obtain ⟨⟨name, value⟩, slot, named⟩ := List.mem_filterMap.mp given
  obtain ⟨_, _, rfl⟩ := Option.map_eq_some_iff.mp named
  exact List.mem_map_of_mem slot

theorem member?_present {front back : List (String × Option Json)} {name : String}
    {value : Option Json} (split : slots = front ++ (name, value) :: back)
    (others : name ∉ (front ++ back).map Prod.fst) :
    member? ((present slots).map fun (key, value) => (some key, value)) name = some value := by
  have absent : ∀ side : List (String × Option Json), name ∉ side.map Prod.fst →
      ((present side).map fun (key, value) => (some key, value)).filter
        (fun member : Option String × Json => member.1 = some name) = [] := by
    intro side missing
    rw [List.filter_eq_nil_iff]
    intro member given
    obtain ⟨⟨key, held⟩, here, rfl⟩ := List.mem_map.mp given
    simp only [decide_eq_true_eq, Option.some.injEq]
    intro same
    subst same
    exact missing (mem_names_of_mem_present here)
  rw [List.map_append, List.mem_append, not_or] at others
  have inside : present slots =
      present front ++ (value.map (name, ·)).toList ++ present back := by
    rw [split, present, List.filterMap_append, List.append_assoc]
    cases value with
    | none => rfl
    | some value => rfl
  unfold member?
  rw [inside, List.map_append, List.map_append, List.filter_append, List.filter_append,
    absent front others.1, absent back others.2]
  cases value with
  | none => rfl
  | some value => simp

theorem member?_perm {members others : List (Option String × Json)} (same : members.Perm others)
    (name : String) : member? members name = member? others name := by
  have found := same.filter fun member => decide (member.1 = some name)
  unfold member?
  -- what counts is whether none, one or several members have the name
  generalize members.filter _ = first at found ⊢
  generalize others.filter _ = second at found ⊢
  match first, found with
  | [], found => rw [List.nil_perm.mp found]
  | [member], found => rw [List.singleton_perm.mp found]
  | _ :: _ :: _, found =>
    match second, found.length_eq with
    | _ :: _ :: _, _ => rfl

/-- An object has just these members, in some order. -/
def Holds (value : Json) (slots : List (String × Option Json)) : Prop :=
  ∃ members, members.Perm (present slots) ∧ value = record members

theorem holds_record (slots : List (String × Option Json)) : (record (present slots)).Holds slots :=
  ⟨present slots, List.Perm.refl _, rfl⟩

theorem members?_of_holds {value : Json} (holds : value.Holds slots)
    (distinct : (slots.map Prod.fst).Nodup) :
    value.members? (slots.map Prod.fst) = some (slots.map Prod.snd) := by
  obtain ⟨members, order, rfl⟩ := holds
  have texts : (members.map fun (key, value) => ((some key, value) : Option String × Json)).all
      (·.1.isSome) := by
    simp
  have every : ∀ slot ∈ slots,
      member? (members.map fun (key, value) => (some key, value)) slot.1 = some slot.2 := by
    intro slot member
    obtain ⟨front, back, split⟩ := List.append_of_mem member
    rw [member?_perm (order.map _)]
    refine member?_present split ?_
    rw [split, List.map_append, List.map_cons, List.nodup_middle] at distinct
    rw [List.map_append]
    exact (List.nodup_cons.mp distinct).1
  rw [record, members?, if_pos texts, List.mapM_map]
  exact mapM_eq_some_map every

@[simp] theorem text?_text (value : String) : text? (text value) = some value := rfl

theorem natural32?_integer (n : UInt32) : natural32? (.integer n.toNat) = some n := by
  have fits : (0 : Int) ≤ n.toNat ∧ (n.toNat : Int).toNat < UInt32.size := by
    rw [Int.toNat_natCast]
    exact ⟨Int.natCast_nonneg n.toNat, n.toNat_lt⟩
  rw [natural32?, integer?, Option.filter_some, if_pos (decide_eq_true fits), Option.map_some,
    Int.toNat_natCast, UInt32.ofNat_toNat]

theorem integer32?_integer (n : Int32) : integer32? (.integer n.toInt) = some n := by
  have fits := And.intro n.minValue_le_toInt n.toInt_le
  rw [integer32?, integer?, Option.filter_some, if_pos (decide_eq_true fits), Option.map_some,
    Int32.ofInt_toInt]

theorem character?_text (c : Char) : character? (text c.toString) = some c := by
  simp [character?, text?, text]

theorem choice?_text {α : Type} {all : List α} {name : α → String} {a : α} (known : a ∈ all)
    (distinct : (all.map name).Nodup) : choice? all name (text (name a)) = some a := by
  obtain ⟨front, back, split⟩ := List.append_of_mem known
  rw [split, List.map_append, List.map_cons, List.nodup_middle] at distinct
  have others := (List.nodup_cons.mp distinct).1
  rw [text, choice?, split, List.find?_eq_some_iff_append]
  refine ⟨by simp, front, back, rfl, ?_⟩
  intro other member
  have apart : name other ≠ name a := fun same =>
    others (same ▸ List.mem_append_left _ (List.mem_map_of_mem member))
  simpa using apart

section Written

/-! Values as they may be written. A reader that reads whatever is written of a value also reads it
from a list, and where it may be left out. -/

variable {α : Type} {writes : α → Json → Prop} {read : Json → Option α}

def Writes (write : α → Json) (a : α) (value : Json) : Prop :=
  value = write a

theorem reads_of_writes {write : α → Json} (every : ∀ a, read (write a) = some a) :
    ∀ a value, Writes write a value → read value = some a := by
  rintro a _ rfl
  exact every a

inductive OrDefault (default : α) (writes : α → Json → Prop) : α → Option Json → Prop
  | given {a : α} {value : Json} (written : writes a value) :
    OrDefault default writes a (some value)
  | omitted : OrDefault default writes default none

inductive OrAbsent (writes : α → Json → Prop) : Option α → Option Json → Prop
  | given {a : α} {value : Json} (written : writes a value) : OrAbsent writes (some a) (some value)
  | null : OrAbsent writes none (some null)
  | omitted : OrAbsent writes none none

def Lists (writes : α → Json → Prop) (items : List α) (value : Json) : Prop :=
  ∃ values, List.Forall₂ writes items values ∧ value = array values

theorem OrAbsent.of_map {write : α → Json} (a : Option α) :
    OrAbsent (Writes write) a (a.map write) := by
  cases a with
  | none => exact .omitted
  | some a => exact .given rfl

theorem Lists.of_map {write : α → Json} (every : ∀ a, writes a (write a)) (items : List α) :
    Lists writes items (array (items.map write)) :=
  ⟨_, List.forall₂_map_right_iff.mpr (List.forall₂_same.mpr fun a _ => every a), rfl⟩

variable (reads : ∀ a value, writes a value → read value = some a)
include reads

theorem orDefault_of_written {default a : α} {slot : Option Json}
    (written : OrDefault default writes a slot) : orDefault default read slot = some a := by
  cases written with
  | given written => exact reads _ _ written
  | omitted => rfl

theorem orAbsent_of_written {a : Option α} {slot : Option Json}
    (given : ∀ a, ¬ writes a null) (written : OrAbsent writes a slot) :
    orAbsent read slot = some a := by
  cases written with
  | @given a value written =>
    unfold orAbsent
    -- null is taken before anything is read
    split
    · contradiction
    · rename_i absent
      exact absurd (Option.some.inj absent ▸ written) (given a)
    · rename_i held _ same
      rw [← Option.some.inj same, reads a value written, Option.map_some]
  | null => rfl
  | omitted => rfl

theorem list?_of_lists (items : List α) (value : Json) (written : Lists writes items value) :
    list? read value = some items := by
  obtain ⟨values, every, rfl⟩ := written
  exact mapM_eq_some_of_forall₂ (every.imp reads).flip

end Written

end DspChip.Json
