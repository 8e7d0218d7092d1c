/-!
# Texts within texts
-/

namespace VmNode.Text

/-- Whether `pattern` stands anywhere in `s`. -/
def containsChars (pattern : List Char) : List Char → Bool
  | [] => pattern.isEmpty
  | c :: rest => pattern.isPrefixOf (c :: rest) || containsChars pattern rest

/-- Whether `pattern` stands anywhere in `s`. -/
def contains (s pattern : String) : Bool := containsChars pattern.toList s.toList

end VmNode.Text
