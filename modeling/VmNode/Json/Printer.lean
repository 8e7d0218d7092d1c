import VmNode.Json.Value
import VmNode.Text.Decimal

/-!
# Writing JSON

Two layouts: `Json.compact` without any blank, and `Json.pretty` with a member
or item a line, indented by two spaces. Both escape the quote, the backslash and
the control characters and leave every other character as it is.
-/

namespace VmNode.Json

/-- The hexadecimal digit of a number below sixteen. -/
def hexDigit (n : Nat) : Char := if n < 10 then Text.Decimal.digitChar n else Char.ofNat (87 + n)

/-- How a character is written between quotes. -/
def escape (c : Char) : List Char :=
  if c = '"' then ['\\', '"']
  else if c = '\\' then ['\\', '\\']
  else if c.toNat < 32 then
    match c.toNat with
    | 8 => ['\\', 'b']
    | 9 => ['\\', 't']
    | 10 => ['\\', 'n']
    | 12 => ['\\', 'f']
    | 13 => ['\\', 'r']
    | n => ['\\', 'u', '0', '0', hexDigit (n / 16), hexDigit (n % 16)]
  else [c]

/-- A text between quotes. -/
def quote (s : String) : List Char := '"' :: s.toList.flatMap escape ++ ['"']

/-- An integer. -/
def writeInt : Int → List Char
  | .ofNat n => Text.Decimal.digits n
  | .negSucc n => '-' :: Text.Decimal.digits (n + 1)

/-! ### Compact layout -/

mutual

/-- The compact text of a value. -/
def compactChars : Json → List Char
  | .null => "null".toList
  | .bool true => "true".toList
  | .bool false => "false".toList
  | .int n => writeInt n
  | .str s => quote s
  | .arr [] => ['[', ']']
  | .arr (v :: rest) => '[' :: compactChars v ++ compactItems rest
  | .obj [] => ['{', '}']
  | .obj ((k, v) :: rest) => '{' :: quote k ++ ':' :: compactChars v ++ compactMembers rest

/-- The items after the first, with the closing bracket. -/
def compactItems : List Json → List Char
  | [] => [']']
  | v :: rest => ',' :: compactChars v ++ compactItems rest

/-- The members after the first, with the closing brace. -/
def compactMembers : List (String × Json) → List Char
  | [] => ['}']
  | (k, v) :: rest => ',' :: quote k ++ ':' :: compactChars v ++ compactMembers rest

end

/-- The compact text of a value. -/
def compact (v : Json) : String := String.ofList v.compactChars

/-! ### Indented layout -/

/-- The start of a line at a depth. -/
def newline (depth : Nat) : List Char := '\n' :: List.replicate (2 * depth) ' '

mutual

/-- The indented text of a value at a depth. -/
def prettyChars (depth : Nat) : Json → List Char
  | .null => "null".toList
  | .bool true => "true".toList
  | .bool false => "false".toList
  | .int n => writeInt n
  | .str s => quote s
  | .arr [] => ['[', ']']
  | .arr (v :: rest) =>
    '[' :: newline (depth + 1) ++ prettyChars (depth + 1) v ++ prettyItems depth rest
  | .obj [] => ['{', '}']
  | .obj ((k, v) :: rest) =>
    '{' :: newline (depth + 1) ++ quote k ++ ':' :: ' ' :: prettyChars (depth + 1) v ++
      prettyMembers depth rest

/-- The items after the first, with the closing bracket. -/
def prettyItems (depth : Nat) : List Json → List Char
  | [] => newline depth ++ [']']
  | v :: rest =>
    ',' :: newline (depth + 1) ++ prettyChars (depth + 1) v ++ prettyItems depth rest

/-- The members after the first, with the closing brace. -/
def prettyMembers (depth : Nat) : List (String × Json) → List Char
  | [] => newline depth ++ ['}']
  | (k, v) :: rest =>
    ',' :: newline (depth + 1) ++ quote k ++ ':' :: ' ' :: prettyChars (depth + 1) v ++
      prettyMembers depth rest

end

/-- The indented text of a value. -/
def pretty (v : Json) : String := String.ofList (v.prettyChars 0)

end VmNode.Json
