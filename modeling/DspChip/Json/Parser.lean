import DspChip.Json.Value
/-! Reading JSON: numbers, the tokens of a text, and the value that they make. -/

namespace DspChip.Json

def digits? (text : List Char) : Option (List Char × List Char) :=
  match text.span Char.isDigit with
  | ([], _) => none
  | (digits, rest) => some (digits, rest)

/-- Digits that do not start with a zero, unless that is all. -/
def whole? (text : List Char) : Option (List Char × List Char) :=
  (digits? text).filter fun (digits, _) => digits.head? ≠ some '0' ∨ digits.length = 1

def isExponent : List Char → Bool
  | [] => true
  | mark :: rest =>
    let unsigned := if rest.head? = some '+' ∨ rest.head? = some '-' then rest.tail else rest
    (mark = 'e' ∨ mark = 'E') && (digits? unsigned).any (·.2.isEmpty)

def isFraction : List Char → Bool
  | '.' :: rest => (digits? rest).any fun (_, behind) => isExponent behind
  | text => isExponent text

def number? (text : List Char) : Option Json := do
  let negative := decide (text.head? = some '-')
  let (digits, rest) ← whole? (if negative then text.tail else text)
  if rest = [] ∧ ¬ (negative = true ∧ digits = ['0']) then
    let magnitude ← Radix.decimal.read? digits
    return .integer (if negative then -(magnitude : Int) else magnitude)
  else if isFraction rest then return .decimal (String.ofList text)
  else none

def bare? (text : List Char) : Option Json :=
  if text = "null".toList then some .null
  else if text = "true".toList then some (.bool true)
  else if text = "false".toList then some (.bool false)
  else number? text

/-! Tokens, cut off one character at a time. -/

/-- A character of a string, or a 16-bit unit written as an escape. -/
inductive Piece where
  | char (c : Char)
  | unit (n : Nat)
  deriving DecidableEq, Repr

namespace Piece

def IsLead (n : Nat) : Prop := 0xD800 ≤ n ∧ n < 0xDC00

def IsTrail (n : Nat) : Prop := 0xDC00 ≤ n ∧ n < 0xE000

instance (n : Nat) : Decidable (IsLead n) := inferInstanceAs (Decidable (_ ∧ _))

instance (n : Nat) : Decidable (IsTrail n) := inferInstanceAs (Decidable (_ ∧ _))

/-- Joins surrogate pairs; half a pair makes the whole no text. -/
def join? : List Piece → Option (List Char)
  | [] => some []
  | .char c :: rest => (join? rest).map (c :: ·)
  | .unit lead :: .unit trail :: rest =>
    if IsLead lead then
      if IsTrail trail then
        (join? rest).map
          (Char.ofNat (0x10000 + (lead - 0xD800) * 0x400 + (trail - 0xDC00)) :: ·)
      else none
    else if IsTrail lead then none
    else (join? (.unit trail :: rest)).map (Char.ofNat lead :: ·)
  | .unit n :: rest =>
    if IsLead n ∨ IsTrail n then none else (join? rest).map (Char.ofNat n :: ·)

end Piece

/-- Where the lexer stands. What it has seen of an unfinished token is kept in reverse. -/
inductive Lexer.Mode where
  | between
  | bare (seen : List Char)
  | string (seen : List Piece)
  | escape (seen : List Piece)
  /-- Inside the four digits of an escape. -/
  | unit (seen : List Piece) (digits value : Nat)

structure Lexer where
  tokens : List Token := []
  mode : Lexer.Mode := .between

namespace Lexer

def IsSpace (c : Char) : Prop := c ∈ [' ', '\t', '\n', '\r']

instance (c : Char) : Decidable (IsSpace c) := inferInstanceAs (Decidable (_ ∈ _))

def punctuation? : Char → Option Token
  | '[' => some .openArray
  | ']' => some .closeArray
  | '\x7b' => some .openObject
  | '\x7d' => some .closeObject
  | ',' => some .comma
  | ':' => some .colon
  | _ => none

def unescape? : Char → Option Char
  | '"' => some '"'
  | '\\' => some '\\'
  | '/' => some '/'
  | 'b' => some '\x08'
  | 'f' => some '\x0c'
  | 'n' => some '\n'
  | 'r' => some '\r'
  | 't' => some '\t'
  | _ => none

def start (tokens : List Token) (c : Char) : Lexer :=
  if IsSpace c then ⟨tokens, .between⟩
  else if c = '"' then ⟨tokens, .string []⟩
  else
    match punctuation? c with
    | some token => ⟨token :: tokens, .between⟩
    | none => ⟨tokens, .bare [c]⟩

def close? (tokens : List Token) (seen : List Char) : Option (List Token) :=
  (bare? seen.reverse).map (.bare · :: tokens)

def EndsBare (c : Char) : Prop := IsSpace c ∨ c = '"' ∨ (punctuation? c).isSome = true

instance (c : Char) : Decidable (EndsBare c) := inferInstanceAs (Decidable (_ ∨ _ ∨ _))

def step (lexer : Lexer) (c : Char) : Option Lexer :=
  match lexer.mode with
  | .between => some (start lexer.tokens c)
  | .bare seen =>
    if EndsBare c then (close? lexer.tokens seen).map (start · c)
    else some ⟨lexer.tokens, .bare (c :: seen)⟩
  | .string seen =>
    if c = '"' then
      some ⟨.string ((Piece.join? seen.reverse).map String.ofList) :: lexer.tokens, .between⟩
    else if c = '\\' then some ⟨lexer.tokens, .escape seen⟩
    else if c.toNat < 0x20 then none
    else some ⟨lexer.tokens, .string (.char c :: seen)⟩
  | .escape seen =>
    if c = 'u' then some ⟨lexer.tokens, .unit seen 0 0⟩
    else (unescape? c).map fun meant => ⟨lexer.tokens, .string (.char meant :: seen)⟩
  | .unit seen digits value =>
    (Radix.hexadecimal.digit? c).map fun digit =>
      if digits = 3 then ⟨lexer.tokens, .string (.unit (value * 16 + digit) :: seen)⟩
      else ⟨lexer.tokens, .unit seen (digits + 1) (value * 16 + digit)⟩

def finish? (lexer : Lexer) : Option (List Token) :=
  match lexer.mode with
  | .between => some lexer.tokens.reverse
  | .bare seen => (close? lexer.tokens seen).map List.reverse
  | _ => none

end Lexer

def tokens? (text : List Char) : Option (List Token) :=
  (text.foldlM Lexer.step {}).bind Lexer.finish?

/-! Values, put together with the open arrays and objects on a stack. -/

abbrev Member := Option String × Json

/-- An array or an object that waits for a value. What it holds already is kept in reverse. -/
inductive Parser.Frame where
  | array (items : List Json)
  | member (key : Option String) (members : List Member)

inductive Parser where
  | value (stack : List Parser.Frame)
  /-- An array has been opened. -/
  | item (stack : List Parser.Frame)
  /-- An object has been opened, or a comma in it read. -/
  | key (opened : Bool) (members : List Member) (stack : List Parser.Frame)
  | colon (key : Option String) (members : List Member) (stack : List Parser.Frame)
  /-- A value is complete. -/
  | complete (value : Json) (stack : List Parser.Frame)

namespace Parser

def begin (stack : List Frame) : Token → Option Parser
  | .openArray => some (item stack)
  | .openObject => some (key true [] stack)
  | .string text => some (complete (.string text) stack)
  | .bare v => some (complete v stack)
  | _ => none

def step : Parser → Token → Option Parser
  | value stack, token => begin stack token
  | item stack, .closeArray => some (complete (.array []) stack)
  | item stack, token => begin (.array [] :: stack) token
  | key true [] stack, .closeObject => some (complete (.object []) stack)
  | key _ members stack, .string text => some (colon text members stack)
  | colon k members stack, .colon => some (value (.member k members :: stack))
  | complete v (.array items :: stack), .comma => some (value (.array (v :: items) :: stack))
  | complete v (.array items :: stack), .closeArray =>
    some (complete (.array (v :: items).reverse) stack)
  | complete v (.member k members :: stack), .comma =>
    some (key false ((k, v) :: members) stack)
  | complete v (.member k members :: stack), .closeObject =>
    some (complete (.object ((k, v) :: members).reverse) stack)
  | _, _ => none

def finish? : Parser → Option Json
  | complete v [] => some v
  | _ => none

end Parser

def ofTokens? (tokens : List Token) : Option Json :=
  (tokens.foldlM Parser.step (.value [])).bind Parser.finish?

def parse? (text : String) : Option Json :=
  (tokens? text.toList).bind ofTokens?

end DspChip.Json
