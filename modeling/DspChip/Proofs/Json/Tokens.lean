import DspChip.Json.Parser
/-! The tokens of a JSON value, and the parser that puts the value together from them. -/

namespace DspChip.Json

mutual

def tokens : Json → List Token
  | null => [.bare null]
  | bool value => [.bare (bool value)]
  | integer value => [.bare (integer value)]
  | decimal spelling => [.bare (decimal spelling)]
  | string text => [.string text]
  | array [] => [.openArray, .closeArray]
  | array (item :: items) => .openArray :: tokens item ++ tokensOfItems items ++ [.closeArray]
  | object [] => [.openObject, .closeObject]
  | object (member :: members) =>
    .openObject :: tokensOfMember member ++ tokensOfMembers members ++ [.closeObject]

def tokensOfItems : List Json → List Token
  | [] => []
  | item :: items => .comma :: tokens item ++ tokensOfItems items

def tokensOfMember : Option String × Json → List Token
  | (key, value) => .string key :: .colon :: tokens value

def tokensOfMembers : List (Option String × Json) → List Token
  | [] => []
  | member :: members => .comma :: tokensOfMember member ++ tokensOfMembers members

end

namespace Parser

def run? (parser : Parser) (tokens : List Token) : Option Json :=
  (tokens.foldlM step parser).bind finish?

variable {stack : List Frame} {rest : List Token}

theorem run?_of_step {parser next : Parser} {token : Token}
    (stepped : parser.step token = some next) :
    parser.run? (token :: rest) = next.run? rest := by
  unfold run?
  rw [List.foldlM_cons, stepped]
  rfl

/-- The first token of a value is not the end of an array. -/
theorem run?_item (v : Json) :
    (item stack).run? (v.tokens ++ rest) = (value (.array [] :: stack)).run? (v.tokens ++ rest) := by
  cases v with
  | null => rfl
  | bool value => rfl
  | integer value => rfl
  | decimal spelling => rfl
  | string text => rfl
  | array items => cases items <;> rfl
  | object members => cases members <;> rfl

mutual

theorem run?_tokens (v : Json) (stack : List Frame) (rest : List Token) :
    (value stack).run? (v.tokens ++ rest) = (complete v stack).run? rest := by
  match v with
  | .null => rfl
  | .bool _ => rfl
  | .integer _ => rfl
  | .decimal _ => rfl
  | .string _ => rfl
  | .array [] => rfl
  | .array (first :: items) =>
    have opened : step (value stack) .openArray = some (item stack) := rfl
    simp only [tokens, List.cons_append, List.append_assoc, List.nil_append]
    rw [run?_of_step opened, run?_item, run?_tokens first, run?_items items]
    rfl
  | .object [] => rfl
  | .object ((name, first) :: members) =>
    have opened : step (value stack) .openObject = some (key true [] stack) := rfl
    simp only [tokens, List.cons_append, List.append_assoc, List.nil_append]
    rw [run?_of_step opened, run?_member name first, run?_members members]
    rfl

theorem run?_items (items : List Json) (v : Json) (seen : List Json) (stack : List Frame)
    (rest : List Token) :
    (complete v (.array seen :: stack)).run? (tokensOfItems items ++ .closeArray :: rest) =
      (complete (.array ((v :: seen).reverse ++ items)) stack).run? rest := by
  match items with
  | [] =>
    rw [List.append_nil]
    rfl
  | next :: items =>
    have comma : step (complete v (.array seen :: stack)) .comma =
      some (value (.array (v :: seen) :: stack)) := rfl
    simp only [tokensOfItems, List.cons_append, List.append_assoc]
    rw [run?_of_step comma, run?_tokens next, run?_items items, List.reverse_cons,
      List.append_assoc]
    rfl

theorem run?_member (name : Option String) (v : Json) (opened : Bool) (seen : List Member)
    (stack : List Frame) (rest : List Token) :
    (key opened seen stack).run? (tokensOfMember (name, v) ++ rest) =
      (complete v (.member name seen :: stack)).run? rest := by
  have string : step (key opened seen stack) (.string name) = some (colon name seen stack) := by
    cases opened <;> cases seen <;> rfl
  have mark : step (colon name seen stack) .colon = some (value (.member name seen :: stack)) := rfl
  simp only [tokensOfMember, List.cons_append]
  rw [run?_of_step string, run?_of_step mark, run?_tokens v]

theorem run?_members (members : List Member) (name : Option String) (v : Json)
    (seen : List Member) (stack : List Frame) (rest : List Token) :
    (complete v (.member name seen :: stack)).run?
        (tokensOfMembers members ++ .closeObject :: rest) =
      (complete (.object (((name, v) :: seen).reverse ++ members)) stack).run? rest := by
  match members with
  | [] =>
    rw [List.append_nil]
    rfl
  | (other, next) :: members =>
    have comma : step (complete v (.member name seen :: stack)) .comma =
      some (key false ((name, v) :: seen) stack) := rfl
    simp only [tokensOfMembers, List.cons_append, List.append_assoc]
    rw [run?_of_step comma, run?_member other next, run?_members members, List.reverse_cons,
      List.append_assoc]
    rfl

end

end Parser

theorem ofTokens?_tokens (v : Json) : ofTokens? v.tokens = some v := by
  have run := Parser.run?_tokens v [] []
  rw [List.append_nil] at run
  exact run

end DspChip.Json
