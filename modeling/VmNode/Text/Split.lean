/-!
# Splitting text

A text is cut at every occurrence of a character, or at the first one.
-/

namespace VmNode.Text

/-- The parts of a text between the separators; one more than there are. -/
def split (separator : Char) : List Char → List (List Char)
  | [] => [[]]
  | c :: rest =>
    if c = separator then [] :: split separator rest
    else match split separator rest with
      | part :: parts => (c :: part) :: parts
      | [] => [[c]]

/-- What stands before the first separator, and what stands after it, if there is
    one. -/
def cut (separator : Char) : List Char → List Char × Option (List Char)
  | [] => ([], none)
  | c :: rest =>
    if c = separator then ([], some rest)
    else
      let (before, after) := cut separator rest
      (c :: before, after)

end VmNode.Text
