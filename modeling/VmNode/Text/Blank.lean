/-!
# Blank characters

The characters of the Unicode property `White_Space`, and texts without them at
their ends.
-/

namespace VmNode.Text

/-- The Unicode property `White_Space`. -/
def isBlank (c : Char) : Bool :=
  let n := c.toNat
  (0x09 ≤ n && n ≤ 0x0d) || n == 0x20 || n == 0x85 || n == 0xa0 || n == 0x1680 ||
    (0x2000 ≤ n && n ≤ 0x200a) || n == 0x2028 || n == 0x2029 || n == 0x202f || n == 0x205f ||
    n == 0x3000

/-- Leaves out the blanks at the end. -/
def trimEndChars (s : List Char) : List Char := (s.reverse.dropWhile isBlank).reverse

/-- Leaves out the blanks at both ends. -/
def trimChars (s : List Char) : List Char := trimEndChars (s.dropWhile isBlank)

/-- Leaves out the blanks at both ends of a text. -/
def trim (s : String) : String := String.ofList (trimChars s.toList)

end VmNode.Text
