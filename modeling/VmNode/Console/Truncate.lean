/-!
# Long messages

A message longer than allowed is cut, between two characters, so far that a mark
fits behind it: `truncate max s` is `s` itself or the longest start of `s` that
leaves room for the mark, with the mark.
-/

namespace VmNode.Console

/-- The mark behind a message that was cut. -/
def truncationMark : String := " [truncated]"

/-- The bytes of some characters. -/
def byteLength : List Char → Nat
  | [] => 0
  | c :: rest => c.utf8Size + byteLength rest

/-- The longest start of at most `room` bytes that ends between characters. -/
def fitting (room : Nat) : List Char → List Char
  | [] => []
  | c :: rest => if c.utf8Size ≤ room then c :: fitting (room - c.utf8Size) rest else []

/-- A message of at most `max` bytes, or its start with the mark. -/
def truncate (max : Nat) (s : String) : String :=
  if s.utf8ByteSize ≤ max then s
  else String.ofList (fitting (max - truncationMark.utf8ByteSize) s.toList) ++ truncationMark

end VmNode.Console
