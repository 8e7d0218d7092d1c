import VmNode.Json.Doc
import VmNode.Json.Magnitude
import VmNode.Text.Decimal
import VmNode.Text.Utf8

/-!
# Reading JSON

Reading the bytes of a JSON text into a document. Only the grammar is checked
here; what the numbers and texts are worth is recorded in the document
(`Doc.ofBytes`).
-/

namespace VmNode.Doc

/-- The byte of an ASCII character. -/
def ascii (c : Char) : UInt8 := c.toNat.toUInt8

/-- Blank, tabulator, line feed and carriage return separate tokens. -/
def isGap (b : UInt8) : Bool := b == 0x20 || b == 0x09 || b == 0x0a || b == 0x0d

/-- What stands after a gap. -/
def skipGap (s : List UInt8) : List UInt8 := s.dropWhile isGap

/-! ### Texts -/

/-- A part of a text between quotes. -/
inductive Piece where
  /-- A byte as it stands, or of a short escape. -/
  | byte (b : UInt8)
  /-- The sixteen bits of a numbered escape. -/
  | unit (n : Nat)

/-- The value of a hexadecimal digit. -/
def hexValue? (b : UInt8) : Option Nat :=
  let n := b.toNat
  if 48 ≤ n ∧ n ≤ 57 then some (n - 48)
  else if 97 ≤ n ∧ n ≤ 102 then some (n - 87)
  else if 65 ≤ n ∧ n ≤ 70 then some (n - 55)
  else none

/-- The bytes of the short escapes. -/
def shortEscape? (b : UInt8) : Option UInt8 :=
  if b == ascii '"' || b == ascii '\\' || b == ascii '/' then some b
  else if b == ascii 'b' then some 8
  else if b == ascii 'f' then some 12
  else if b == ascii 'n' then some 10
  else if b == ascii 'r' then some 13
  else if b == ascii 't' then some 9
  else none

/-- The pieces of a text up to its closing quote, and what follows. There are
    none if the text is not closed, holds a bare control character or a wrong
    escape. -/
def scanText (acc : List Piece) : List UInt8 → Option (List Piece × List UInt8)
  | [] => none
  | 0x22 :: rest => some (acc.reverse, rest)
  | 0x5c :: 0x75 :: a :: b :: c :: d :: rest =>
    match hexValue? a, hexValue? b, hexValue? c, hexValue? d with
    | some a, some b, some c, some d =>
      scanText (.unit (((a * 16 + b) * 16 + c) * 16 + d) :: acc) rest
    | _, _, _, _ => none
  | 0x5c :: e :: rest => (shortEscape? e).bind fun b => scanText (.byte b :: acc) rest
  | b :: rest => if b < 0x20 || b == 0x5c then none else scanText (.byte b :: acc) rest

/-- The bytes that the pieces spell. A numbered escape of half a pair needs the
    other half after it. -/
def assemble : List Piece → Option (List UInt8)
  | [] => some []
  | .byte b :: rest => (assemble rest).map (b :: ·)
  | .unit hi :: rest =>
    if 0xd800 ≤ hi ∧ hi < 0xdc00 then
      match rest with
      | .unit lo :: rest =>
        if 0xdc00 ≤ lo ∧ lo < 0xe000 then
          let c := Char.ofNat (0x10000 + (hi - 0xd800) * 0x400 + (lo - 0xdc00))
          (assemble rest).map (Text.Utf8.encode (String.singleton c) ++ ·)
        else none
      | _ => none
    else if 0xdc00 ≤ hi ∧ hi < 0xe000 then none
    else (assemble rest).map (Text.Utf8.encode (String.singleton (Char.ofNat hi)) ++ ·)

/-- The text of the pieces, if they spell one. -/
def textOf (pieces : List Piece) : Option String := (assemble pieces).bind Text.Utf8.decode?

/-! ### Numbers -/

/-- Whether a byte is a decimal digit. -/
def isDigit (b : UInt8) : Bool := ascii '0' ≤ b && b ≤ ascii '9'

/-- The values of digits. -/
def digitValues (digits : List UInt8) : List Nat := digits.map fun b => b.toNat - 48

/-- The number that the digits spell. -/
def digitsValue (digits : List UInt8) : Nat := (digitValues digits).foldl (fun n d => 10 * n + d) 0

/-- A number with a fraction or an exponent, or an integer beyond 64 bits: the
    digits before and after the point, and the exponent of ten. -/
def realOf (whole fraction : List UInt8) (exponent : Int) : Doc :=
  let (n, scale) := Magnitude.scientific (digitValues whole) (digitValues fraction) exponent
  if Magnitude.isTooLarge n scale then .huge else .real

/-- An integer as it is written. Minus zero is no integer. -/
def integerOf (negative : Bool) (digits : List UInt8) : Doc :=
  let n := digitsValue digits
  if negative then
    if 0 < n ∧ Int64.minValue.toInt ≤ -(n : Int) then .int (-(n : Int)) else realOf digits [] 0
  else if n < UInt64.size then .int n
  else realOf digits [] 0

/-- The exponent at the start of `s`, and what follows. -/
def scanExponent (s : List UInt8) : Option (Int × List UInt8) :=
  let (negative, digits) :=
    match s with
    | 0x2b :: r => (false, r)
    | 0x2d :: r => (true, r)
    | r => (false, r)
  let (ds, rest) := digits.span isDigit
  if ds.isEmpty then none
  else
    let n := digitsValue ds
    some (if negative then -(n : Int) else n, rest)

/-- The number at the start of `s` after its sign, and what follows. -/
def scanNumber (negative : Bool) (s : List UInt8) : Option (Doc × List UInt8) :=
  let (whole, rest) := s.span isDigit
  if whole.isEmpty || (whole.head? == some (ascii '0') && 1 < whole.length) then none
  else
    let fractionPart : Option (Option (List UInt8) × List UInt8) :=
      match rest with
      | 0x2e :: r =>
        let (ds, r) := r.span isDigit
        if ds.isEmpty then none else some (some ds, r)
      | r => some (none, r)
    fractionPart.bind fun (fraction, rest) =>
      match rest with
      | 0x65 :: r | 0x45 :: r =>
        (scanExponent r).map fun (e, r) => (realOf whole (fraction.getD []) e, r)
      | r =>
        match fraction with
        | some ds => some (realOf whole ds 0, r)
        | none => some (integerOf negative whole, r)

/-! ### Values -/

/-- What follows a word. -/
def afterWord? (word : String) (s : List UInt8) : Option (List UInt8) :=
  (word.toList.map ascii).isPrefixOf? s

/-- A word and the document that it stands for. -/
def scanWord (word : String) (d : Doc) (s : List UInt8) : Doc × Option (List UInt8) :=
  match afterWord? word s with
  | some rest => (d, some rest)
  | none => (.broken, none)

mutual

/-- The value at the start of `s`, and what follows unless the text breaks. -/
def readValue : Nat → List UInt8 → Doc × Option (List UInt8)
  | 0, _ => (.broken, none)
  | fuel + 1, s =>
    match skipGap s with
    | [] => (.broken, none)
    | 0x22 :: rest =>
      match scanText [] rest with
      | some (pieces, rest) => (.text (textOf pieces), some rest)
      | none => (.broken, none)
    | 0x5b :: rest =>
      match skipGap rest with
      | 0x5d :: rest => (.arr .done, some rest)
      | rest =>
        let (items, after) := readItems fuel rest
        (.arr items, after)
    | 0x7b :: rest =>
      match skipGap rest with
      | 0x7d :: rest => (.obj .done, some rest)
      | rest =>
        let (entries, after) := readEntries fuel rest
        (.obj entries, after)
    | 0x6e :: rest => scanWord "ull" .null rest
    | 0x74 :: rest => scanWord "rue" (.bool true) rest
    | 0x66 :: rest => scanWord "alse" (.bool false) rest
    | b :: rest =>
      let number := if b == ascii '-' then scanNumber true rest else scanNumber false (b :: rest)
      match number with
      | some (d, rest) => (d, some rest)
      | none => (.broken, none)

/-- The items from the one at the start of `s`, and what follows the bracket. -/
def readItems : Nat → List UInt8 → Doc.Items × Option (List UInt8)
  | 0, _ => (.broken, none)
  | fuel + 1, s =>
    match readValue fuel s with
    | (d, none) => (.cons d .broken, none)
    | (d, some rest) =>
      match skipGap rest with
      | 0x5d :: rest => (.cons d .done, some rest)
      | 0x2c :: rest =>
        let (items, after) := readItems fuel rest
        (.cons d items, after)
      | _ => (.cons d .broken, none)

/-- The entries from the one at the start of `s`, and what follows the brace. -/
def readEntries : Nat → List UInt8 → Doc.Entries × Option (List UInt8)
  | 0, _ => (.broken, none)
  | fuel + 1, s =>
    match skipGap s with
    | 0x22 :: rest =>
      match scanText [] rest with
      | none => (.broken, none)
      | some (pieces, rest) =>
        match skipGap rest with
        | 0x3a :: rest =>
          match readValue fuel rest with
          | (d, none) => (.cons (textOf pieces) d .broken, none)
          | (d, some rest) =>
            match skipGap rest with
            | 0x7d :: rest => (.cons (textOf pieces) d .done, some rest)
            | 0x2c :: rest =>
              let (entries, after) := readEntries fuel rest
              (.cons (textOf pieces) d entries, after)
            | _ => (.cons (textOf pieces) d .broken, none)
        | _ => (.cons (textOf pieces) .broken .broken, none)
    | _ => (.broken, none)

end

/-- The document at the start of the bytes, and what follows it. -/
def ofBytes (bytes : List UInt8) : Doc × Option (List UInt8) :=
  readValue (2 * bytes.length + 1) bytes

end VmNode.Doc
