import DspChip.Json.Value
/-! Reading structures from JSON values: their members by name, or in order in an array. -/

namespace DspChip.Json

def text? : Json → Option String
  | string text => text
  | _ => none

def character? (value : Json) : Option Char :=
  match value.text?.map String.toList with
  | some [c] => some c
  | _ => none

def integer? : Json → Option Int
  | integer value => some value
  | _ => none

def natural32? (value : Json) : Option UInt32 :=
  (value.integer?.filter fun n => 0 ≤ n ∧ n.toNat < UInt32.size).map fun n => UInt32.ofNat n.toNat

def integer32? (value : Json) : Option Int32 :=
  (value.integer?.filter fun n => Int32.minValue.toInt ≤ n ∧ n ≤ Int32.maxValue.toInt).map
    Int32.ofInt

/-- One of several values by its name, which may also be the only key of an object with the value
`null`. -/
def choice? {α : Type} (all : List α) (name : α → String) : Json → Option α
  | string (some text) => all.find? (name · = text)
  | object [(some text, null)] => all.find? (name · = text)
  | _ => none

def list? {α : Type} (read : Json → Option α) : Json → Option (List α)
  | array items => items.mapM read
  | _ => none

/-- The value of a member, or nothing if it is left out. A member may not be given twice. -/
def member? (members : List (Option String × Json)) (name : String) : Option (Option Json) :=
  match members.filter (·.1 = some name) with
  | [] => some none
  | [(_, value)] => some (some value)
  | _ => none

/-- The values of the members with these names. In an object other members are ignored, but every
key has to be a text. In an array the values stand in order and the last ones may be left out. -/
def members? (names : List String) : Json → Option (List (Option Json))
  | object members =>
    if members.all (·.1.isSome) then names.mapM (member? members) else none
  | array items =>
    if items.length ≤ names.length then
      some (items.map some ++ List.replicate (names.length - items.length) none)
    else none
  | _ => none

def orDefault {α : Type} (default : α) (read : Json → Option α) : Option Json → Option α
  | none => some default
  | some value => read value

def orAbsent {α : Type} (read : Json → Option α) : Option Json → Option (Option α)
  | none => some none
  | some null => some none
  | some value => (read value).map some

end DspChip.Json
