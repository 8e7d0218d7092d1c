import VmNode.Json.Value

/-!
# JSON documents as read

A document is what a reader has seen of a text, in the order of the text, up to
the place where the text stops being JSON: there stands `Doc.broken`, or a list
of items or entries that ends in `broken` instead of `done`. A decoder walks the
document in that order and reports the first thing wrong, be it the text or what
it says (`Fault`).

What only matters to a decoder that looks at it is recorded and not refused: a
number that no machine number holds (`Doc.huge`), a text that spells no
characters (`Doc.text none`). A decoder that skips a value does not look.
-/

namespace VmNode

/-- Why a document cannot be decoded. -/
inductive Fault where
  /-- The text is not JSON. -/
  | malformed
  /-- The text is JSON, but not of the wanted shape. -/
  | mismatch
  deriving DecidableEq, Repr

mutual

/-- A document, as far as its text is JSON. -/
inductive Doc where
  /-- The text is not JSON from here on. -/
  | broken
  /-- The value `null`. -/
  | null
  /-- A truth value. -/
  | bool (b : Bool)
  /-- An integer of 64 bits, with or without a sign. -/
  | int (n : Int)
  /-- Any other number that a floating-point number can come near. -/
  | real
  /-- A number beyond all floating-point numbers. -/
  | huge
  /-- A text, if it spells characters. -/
  | text (s : Option String)
  /-- A list of values. -/
  | arr (items : Doc.Items)
  /-- A list of named values. -/
  | obj (entries : Doc.Entries)

/-- The items of a list, as far as the text is JSON. -/
inductive Doc.Items where
  /-- The list is closed. -/
  | done
  /-- The text is not JSON from here on. -/
  | broken
  /-- An item and those after it. -/
  | cons (head : Doc) (tail : Doc.Items)

/-- The entries of an object, as far as the text is JSON. -/
inductive Doc.Entries where
  /-- The object is closed. -/
  | done
  /-- The text is not JSON from here on. -/
  | broken
  /-- An entry and those after it. -/
  | cons (key : Option String) (value : Doc) (tail : Doc.Entries)

end

instance : Inhabited Doc := ⟨.broken⟩

namespace Doc

/-! ### Documents of values -/

mutual

/-- The document that the text of a value is read as. -/
def ofJson : Json → Doc
  | .null => .null
  | .bool b => .bool b
  | .int n => .int n
  | .str s => .text (some s)
  | .arr items => .arr (itemsOf items)
  | .obj members => .obj (entriesOf members)

/-- The items that a list of values is read as. -/
def itemsOf : List Json → Items
  | [] => .done
  | v :: rest => .cons (ofJson v) (itemsOf rest)

/-- The entries that a list of named values is read as. -/
def entriesOf : List (String × Json) → Entries
  | [] => .done
  | (k, v) :: rest => .cons (some k) (ofJson v) (entriesOf rest)

end

/-! ### Skipped values -/

mutual

/-- Skipping a value fails only where the text is not JSON. -/
def isWhole : Doc → Bool
  | .broken => false
  | .arr items => items.isWhole
  | .obj entries => entries.isWhole
  | _ => true

/-- The items are JSON to the closing bracket. -/
def Items.isWhole : Items → Bool
  | .done => true
  | .broken => false
  | .cons head tail => head.isWhole && tail.isWhole

/-- The entries are JSON to the closing brace. -/
def Entries.isWhole : Entries → Bool
  | .done => true
  | .broken => false
  | .cons _ value tail => value.isWhole && tail.isWhole

end

/-! ### Kept values -/

mutual

/-- A value can be kept for later if all its numbers and texts are good and it
    is nested less than `room` deep. -/
def isKeepable (room : Nat) : Doc → Bool
  | .broken | .huge | .text none => false
  | .arr items => 0 < room && items.isKeepable (room - 1)
  | .obj entries => 0 < room && entries.isKeepable (room - 1)
  | _ => true

/-- Every item can be kept. -/
def Items.isKeepable (room : Nat) : Items → Bool
  | .done => true
  | .broken => false
  | .cons head tail => head.isKeepable room && tail.isKeepable room

/-- Every entry can be kept. -/
def Entries.isKeepable (room : Nat) : Entries → Bool
  | .done => true
  | .broken => false
  | .cons key value tail => key.isSome && value.isKeepable room && tail.isKeepable room

end

end Doc

end VmNode
