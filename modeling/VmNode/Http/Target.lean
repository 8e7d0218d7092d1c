import VmNode.Text.Split
import VmNode.Text.Utf8

/-!
# Request targets

The target of a request is a path, and a query after a question mark. A scheme and
the name of a host may stand before the path; then the path may be missing. Bytes
that a target cannot hold are written as `%` and two hexadecimal digits.
-/

namespace VmNode.Http

/-- The value of a hexadecimal digit. -/
def hexValue? (b : UInt8) : Option UInt8 :=
  if 0x30 ≤ b && b ≤ 0x39 then some (b - 0x30)
  else if 0x41 ≤ b && b ≤ 0x46 then some (b - 0x37)
  else if 0x61 ≤ b && b ≤ 0x66 then some (b - 0x57)
  else none

/-- The bytes with every `%` and two digits replaced by the byte that they stand
    for. A `%` without two digits stands for itself. -/
def percentDecode : List UInt8 → List UInt8
  | [] => []
  | [b] => [b]
  | [b, c] => [b, c]
  | b :: c :: d :: rest =>
    if b = 0x25 then
      match hexValue? c, hexValue? d with
      | some high, some low => (16 * high + low) :: percentDecode rest
      | _, _ => b :: percentDecode (c :: d :: rest)
    else b :: percentDecode (c :: d :: rest)

/-- A part of a path as text, if its bytes are one. -/
def decodePart? (part : List Char) : Option String :=
  Text.Utf8.decode? (percentDecode (Text.Utf8.encode (String.ofList part)))

/-- A name or a value of a query as text. A plus sign stands for a space. -/
def decodeField (field : List Char) : String :=
  Text.Utf8.lossy (percentDecode (Text.Utf8.encode (String.ofList
    (field.map fun c => if c = '+' then ' ' else c))))

/-- The target of a request. -/
structure Target where
  /-- The path. -/
  path : List Char
  /-- The query. -/
  query : List Char

namespace Target

/-- The characters of a scheme. -/
def isSchemeChar (c : Char) : Bool := c.isAlphanum || c = '+' || c = '-' || c = '.'

/-- The path of a target and what follows it, without the scheme and the host. A
    host without a scheme leaves nothing. -/
def withoutHost (s : List Char) : List Char :=
  if s.head? = some '/' ∨ s = ['*'] then s
  else
    match s.dropWhile isSchemeChar with
    | ':' :: '/' :: '/' :: rest =>
      match rest.dropWhile fun c => c ≠ '/' && c ≠ '?' && c ≠ '#' with
      | rest@('/' :: _) => rest
      | rest => '/' :: rest
    | _ => []

/-- The parts of a target. What follows a number sign stays with the client. -/
def ofText (text : String) : Target :=
  let (path, query) := Text.cut '?' (Text.cut '#' (withoutHost text.toList)).1
  ⟨path, query.getD []⟩

/-- The parts of the path after its first slash. -/
def segments (t : Target) : List (List Char) := (Text.split '/' t.path).drop 1

/-- The names and values of the query. -/
def fields (t : Target) : List (String × String) :=
  ((Text.split '&' t.query).filter (· ≠ [])).map fun field =>
    let (name, value) := Text.cut '=' field
    (decodeField name, decodeField (value.getD []))

end Target

end VmNode.Http
