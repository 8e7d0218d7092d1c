/-!
# JSON values

The JSON values that the node writes. Numbers are integers, and the members of
an object keep the order in which they are written.
-/

namespace VmNode

/-- A JSON value. -/
inductive Json where
  /-- The value `null`. -/
  | null
  /-- A truth value. -/
  | bool (b : Bool)
  /-- An integer. -/
  | int (n : Int)
  /-- A text. -/
  | str (s : String)
  /-- A list of values. -/
  | arr (items : List Json)
  /-- A list of named values. -/
  | obj (members : List (String × Json))
  deriving Inhabited

namespace Json

/-- A natural number as a value. -/
def nat (n : Nat) : Json := .int n

/-- A value that may be absent, `null` if it is. -/
def option {α : Type} (f : α → Json) : Option α → Json
  | none => .null
  | some a => f a

/-- A list of texts. -/
def texts (l : List String) : Json := .arr (l.map .str)

end Json

end VmNode
