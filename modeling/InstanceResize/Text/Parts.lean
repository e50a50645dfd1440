/-!
# Parts of a text

A separator divides a text into parts: one more than it occurs, and some of them may be empty.
-/

namespace InstanceResize.Text

/-- The parts of a text between separators. -/
def splitOn (sep : Char) : List Char → List (List Char)
  | [] => [[]]
  | c :: rest =>
    if c = sep then [] :: splitOn sep rest
    else
      match splitOn sep rest with
      | part :: parts => (c :: part) :: parts
      | [] => [[c]]

end InstanceResize.Text
