import DspChip.Number
/-! JSON values, and how they are written: all on one line, or one member a line with two spaces for
each level. -/

namespace DspChip

/-- A string is absent where its escapes name half of a surrogate pair, which is no character. A
number with a fraction or an exponent is kept as it is spelled, and so is minus zero. -/
inductive Json where
  | null
  | bool (value : Bool)
  | integer (value : Int)
  | decimal (spelling : String)
  | string (text : Option String)
  | array (items : List Json)
  | object (members : List (Option String × Json))

namespace Json

def text (value : String) : Json := string (some value)

def record (members : List (String × Json)) : Json :=
  object (members.map fun (key, value) => (some key, value))

inductive Token where
  | openArray
  | closeArray
  | openObject
  | closeObject
  | comma
  | colon
  | string (text : Option String)
  /-- A number or a literal name. -/
  | bare (value : Json)

structure Style where
  /-- A line break at a depth. -/
  lineBreak : Nat → List Char
  /-- What stands behind a colon. -/
  gap : List Char

def Style.compact : Style := ⟨fun _ => [], []⟩

def Style.indented : Style := ⟨fun depth => '\n' :: List.replicate (2 * depth) ' ', [' ']⟩

/-- Quotes, backslashes and control characters are escaped, all else is written as it is. -/
def escape (c : Char) : List Char :=
  if c = '"' then ['\\', '"']
  else if c = '\\' then ['\\', '\\']
  else if c = '\x08' then ['\\', 'b']
  else if c = '\x0c' then ['\\', 'f']
  else if c = '\n' then ['\\', 'n']
  else if c = '\r' then ['\\', 'r']
  else if c = '\t' then ['\\', 't']
  else if c.toNat < 0x20 then
    ['\\', 'u', '0', '0', Nat.digitChar (c.toNat / 16), Nat.digitChar (c.toNat % 16)]
  else [c]

/-- A string that is no text is written as half a surrogate pair. -/
def quote : Option String → List Char
  | some text => '"' :: text.toList.flatMap escape ++ ['"']
  | none => '"' :: "\\ud800".toList ++ ['"']

mutual

def print (style : Style) (depth : Nat) : Json → List Char
  | null => "null".toList
  | bool value => if value then "true".toList else "false".toList
  | integer value => Numeral.decimal value
  | decimal spelling => spelling.toList
  | string text => quote text
  | array [] => ['[', ']']
  | array (item :: items) =>
    '[' :: style.lineBreak (depth + 1) ++ print style (depth + 1) item ++
      printItems style (depth + 1) items ++ style.lineBreak depth ++ [']']
  | object [] => ['\x7b', '\x7d']
  | object (member :: members) =>
    '\x7b' :: style.lineBreak (depth + 1) ++ printMember style (depth + 1) member ++
      printMembers style (depth + 1) members ++ style.lineBreak depth ++ ['\x7d']

def printItems (style : Style) (depth : Nat) : List Json → List Char
  | [] => []
  | item :: items =>
    ',' :: style.lineBreak depth ++ print style depth item ++ printItems style depth items

def printMember (style : Style) (depth : Nat) : Option String × Json → List Char
  | (key, value) => quote key ++ ':' :: style.gap ++ print style depth value

def printMembers (style : Style) (depth : Nat) : List (Option String × Json) → List Char
  | [] => []
  | member :: members =>
    ',' :: style.lineBreak depth ++ printMember style depth member ++
      printMembers style depth members

end

def indented (value : Json) : String := String.ofList (print .indented 0 value)

end Json

end DspChip
