import VmNode.Json.Doc

/-!
# Decoding documents

Decoders of documents into values. A structure is decoded from an object, whose
entries may stand in any order and may be more than the structure has fields, or
from a list of its fields in order (`Layout`). A field without a default must be
there; a field that may be absent is absent when its entry is; no known field may
be given twice.

The faults come in the order of the text: a wrong value in an early entry is
reported even if a later entry is not JSON.
-/

namespace VmNode.Doc

/-- Decodes a document. -/
abbrev Decoder (α : Type) := Doc → Except Fault α

/-- The fault of a document that is not of the wanted shape. -/
def refuse {α : Type} : Decoder α
  | .broken | .huge | .text none => .error .malformed
  | _ => .error .mismatch

/-- A text. -/
def string : Decoder String
  | .text (some s) => .ok s
  | d => refuse d

/-- A text that `f` accepts. -/
def parsed {α : Type} (f : String → Option α) (d : Doc) : Except Fault α := do
  match f (← string d) with
  | some a => .ok a
  | none => .error .mismatch

/-- An integer that `f` accepts. -/
def integer {α : Type} (f : Int → Option α) : Decoder α
  | .int n => match f n with
    | some a => .ok a
    | none => .error .mismatch
  | d => refuse d

/-- A truth value. -/
def boolean : Decoder Bool
  | .bool b => .ok b
  | d => refuse d

/-- A value that may be `null`. -/
def nullable {α : Type} (f : Decoder α) : Decoder (Option α)
  | .null => .ok none
  | d => some <$> f d

/-- A natural number below `bound`. -/
def natBelow (bound : Nat) (n : Int) : Option Nat :=
  if 0 ≤ n ∧ n < bound then some n.toNat else none

/-- A number of eight bits. -/
def uint8 : Decoder UInt8 := integer fun n => (natBelow UInt8.size n).map UInt8.ofNat

/-- A number of sixteen bits. -/
def uint16 : Decoder UInt16 := integer fun n => (natBelow UInt16.size n).map UInt16.ofNat

/-- A number of thirty-two bits. -/
def uint32 : Decoder UInt32 := integer fun n => (natBelow UInt32.size n).map UInt32.ofNat

/-- A number of sixty-four bits. -/
def uint64 : Decoder UInt64 := integer fun n => (natBelow UInt64.size n).map UInt64.ofNat

/-- A signed number of thirty-two bits. -/
def int32 : Decoder Int32 := integer fun n =>
  if Int32.minValue.toInt ≤ n ∧ n ≤ Int32.maxValue.toInt then some (Int32.ofInt n) else none

/-- A signed number of sixty-four bits. -/
def int64 : Decoder Int64 := integer fun n =>
  if Int64.minValue.toInt ≤ n ∧ n ≤ Int64.maxValue.toInt then some (Int64.ofInt n) else none

/-- The items of a list, each decoded. -/
def Items.decode {α : Type} (f : Decoder α) : Items → Except Fault (List α)
  | .done => .ok []
  | .broken => .error .malformed
  | .cons head tail => do
    let a ← f head
    let rest ← tail.decode f
    .ok (a :: rest)

/-- A list. -/
def list {α : Type} (f : Decoder α) : Decoder (List α)
  | .arr items => items.decode f
  | d => refuse d

/-- The entries of an object, each decoded, in the order of the text. -/
def Entries.decode {α : Type} (f : Decoder α) : Entries → Except Fault (List (String × α))
  | .done => .ok []
  | .broken => .error .malformed
  | .cons none _ _ => .error .malformed
  | .cons (some key) value tail => do
    let a ← f value
    let rest ← tail.decode f
    .ok ((key, a) :: rest)

/-- An object with any keys, as its entries in the order of the text. -/
def members {α : Type} (f : Decoder α) : Decoder (List (String × α))
  | .obj entries => entries.decode f
  | d => refuse d

/-- One of a few words. A word may also be the key of an object with `null` as
    its only value. -/
def choice {α : Type} (f : String → Option α) : Decoder α
  | .text (some word) => match f word with
    | some a => .ok a
    | none => .error .mismatch
  | .obj (.cons (some word) value tail) =>
    match f word with
    | none => .error .mismatch
    | some a =>
      match value with
      | .null => match tail with
        | .done => .ok a
        | _ => .error .malformed
      | d => refuse d
  | _ => .error .malformed

/-! ### Structures -/

/-- The value of the first entry with a key. -/
def Entries.find? (key : String) : Entries → Option Doc
  | .cons (some k) value tail => if k = key then some value else tail.find? key
  | .cons none _ tail => tail.find? key
  | _ => none

/-- How the fields of a structure are decoded. -/
structure Layout (α : Type) where
  /-- The known keys with a check of their values. -/
  known : List (String × (Doc → Except Fault Unit))
  /-- The structure from the values of its keys. -/
  ofKeys : (String → Option Doc) → Except Fault α
  /-- The structure from the first items of a list, with the items left over. -/
  ofItems : Items → Except Fault (α × Items)

namespace Layout

/-- A structure without fields. -/
def pure {α : Type} (a : α) : Layout α := ⟨[], fun _ => .ok a, fun items => .ok (a, items)⟩

/-- The fields of two structures together. -/
def seq {α β : Type} (f : Layout (α → β)) (x : Layout α) : Layout β where
  known := f.known ++ x.known
  ofKeys find := do
    let g ← f.ofKeys find
    let a ← x.ofKeys find
    .ok (g a)
  ofItems items := do
    let (g, items) ← f.ofItems items
    let (a, items) ← x.ofItems items
    .ok (g a, items)

/-- A field: what stands for it when its entry is missing, and when the list
    ends before it. -/
def fieldWith {α : Type} (key : String) (f : Decoder α) (absent short : Option α) : Layout α where
  known := [(key, fun d => discard (f d))]
  ofKeys find :=
    match find key, absent with
    | some d, _ => f d
    | none, some a => .ok a
    | none, none => .error .mismatch
  ofItems
    | .cons head tail => do
      let a ← f head
      .ok (a, tail)
    | .broken => .error .malformed
    | .done =>
      match short with
      | some a => .ok (a, .done)
      | none => .error .mismatch

/-- A field that must be given. -/
def field {α : Type} (key : String) (f : Decoder α) : Layout α := fieldWith key f none none

/-- A field with a default. -/
def fieldOr {α : Type} (key : String) (f : Decoder α) (default : α) : Layout α :=
  fieldWith key f (some default) (some default)

/-- A field that may be left out of an object or be `null`. -/
def optional {α : Type} (key : String) (f : Decoder α) : Layout (Option α) :=
  fieldWith key (nullable f) (some none) none

/-- A field that may be left out of an object or a list or be `null`. -/
def optionalOr {α : Type} (key : String) (f : Decoder α) : Layout (Option α) :=
  fieldOr key (nullable f) none

end Layout

/-- Checks the entries in the order of the text. -/
def Entries.check (known : List (String × (Doc → Except Fault Unit))) (seen : List String) :
    Entries → Except Fault Unit
  | .done => .ok ()
  | .broken => .error .malformed
  | .cons none _ _ => .error .malformed
  | .cons (some key) value tail =>
    match known.lookup key with
    | none => if value.isWhole then tail.check known seen else .error .malformed
    | some test =>
      if key ∈ seen then .error .mismatch
      else do
        test value
        tail.check known (key :: seen)

/-- A structure, from an object or from a list of its fields. -/
def record {α : Type} (layout : Layout α) : Decoder α
  | .obj entries => do
    entries.check layout.known []
    layout.ofKeys fun key => entries.find? key
  | .arr items => do
    let (a, rest) ← layout.ofItems items
    match rest with
    | .done => .ok a
    | _ => .error .malformed
  | d => refuse d

end VmNode.Doc
