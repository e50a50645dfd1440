import InstanceResize.Files.System
import InstanceResize.Text.Parts

/-!
# Paths

A path is a text. Slashes divide it into parts, and each part is a step from a folder to what is in
it, except that an empty part and a dot stay where they are and two dots lead back.

* `Path.parts` and `Path.names`: all parts, and those that are neither empty nor a dot.
* `Path.check`: what a path has to be like, whatever files there are.
-/

namespace InstanceResize.Path

/-- How many bytes a path may have. -/
def longest : Nat := 4095

/-- How many bytes a name may have. -/
def longestName : Nat := 255

/-- Whether a path begins at the top, and not in the working folder. -/
def isAbsolute (path : String) : Bool := path.toList.head? == some '/'

/-- The parts between slashes. -/
def parts (path : String) : List String :=
  (Text.splitOn '/' path.toList).map String.ofList

/-- The parts that lead somewhere. -/
def names (path : String) : List String := (parts path).filter fun s => s ≠ "" ∧ s ≠ "."

/-- The parts up to the last one that is not empty. -/
def untilLast (path : String) : List String :=
  ((parts path).reverse.dropWhile (· == "")).reverse

/-- No path has a null character, and none is too long. -/
def check (path : String) : Except FileFault Unit :=
  if path.toList.contains '\x00' then .error .badCharacter
  else if longest < path.utf8ByteSize then .error .tooLong
  else .ok ()

end InstanceResize.Path
