/-! Text as assembly and reports need it: blanks, letters of either case, columns and lines.

Blanks are the characters with the Unicode property White_Space. -/

namespace DspChip.Text

def blankPoints : List Nat :=
  [0x20, 0x85, 0xA0, 0x1680, 0x2028, 0x2029, 0x202F, 0x205F, 0x3000]

def IsBlank (c : Char) : Prop :=
  (0x09 ≤ c.toNat ∧ c.toNat ≤ 0x0D) ∨ (0x2000 ≤ c.toNat ∧ c.toNat ≤ 0x200A) ∨
    c.toNat ∈ blankPoints

instance (c : Char) : Decidable (IsBlank c) :=
  inferInstanceAs (Decidable ((0x09 ≤ c.toNat ∧ c.toNat ≤ 0x0D) ∨
    (0x2000 ≤ c.toNat ∧ c.toNat ≤ 0x200A) ∨ c.toNat ∈ blankPoints))

def trimLeft (text : List Char) : List Char :=
  text.dropWhile (fun c => decide (IsBlank c))

def trimRight (text : List Char) : List Char :=
  (trimLeft text.reverse).reverse

def trim (text : List Char) : List Char :=
  trimRight (trimLeft text)

/-- The text before the first blank, and what follows the blanks after it. -/
def nextWord (text : List Char) : List Char × List Char :=
  (text.takeWhile (fun c => !decide (IsBlank c)),
    trimLeft (text.dropWhile (fun c => !decide (IsBlank c))))

/-! Names and mnemonics are compared without regard to the case of the letters A to Z. -/

def fold (name : String) : String :=
  String.ofList (name.toList.map Char.toLower)

def upper (name : String) : String :=
  String.ofList (name.toList.map Char.toUpper)

abbrev SameName (first second : String) : Prop :=
  fold first = fold second

/-! Columns: text padded with spaces to a width counted in characters. -/

def padRight (width : Nat) (text : List Char) : List Char :=
  text.rightpad width ' '

def padLeft (width : Nat) (text : List Char) : List Char :=
  text.leftpad width ' '

/-! The lines of a text.

A line ends at a line feed, and one carriage return directly before the line feed belongs to the
line end. A last line without a line feed is kept as it stands; after a final line feed there is
no further line. -/

def dropReturn (line : List Char) : List Char :=
  if line.getLast? = some '\r' then line.dropLast else line

def endLines : List (List Char) → List (List Char)
  | [] => []
  -- an empty last piece is no line
  | [last] => if last = [] then [] else [last]
  | line :: next :: rest => dropReturn line :: endLines (next :: rest)

def lines (text : List Char) : List (List Char) :=
  endLines (text.splitOn '\n')

example : lines "a\r\n\nb\r".toList = ["a".toList, [], "b\r".toList] := by decide

end DspChip.Text
