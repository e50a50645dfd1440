import InstanceResize.Text.Utf8

/-!
# What is needed of a file system

* `FileFault`: why something cannot be done with a file.
* `FileSystem`: the operations, in some monad.
-/

namespace InstanceResize

/-- Why something cannot be done with a file. -/
inductive FileFault where
  /-- There is nothing of that name. -/
  | missing
  | isDirectory
  | notDirectory
  /-- There is something of that name, and it is no folder. -/
  | alreadyThere
  /-- The path or one of its names is too long. -/
  | tooLong
  /-- The path has a character that no path can have. -/
  | badCharacter
  /-- The bytes of the file are no text. -/
  | noText
deriving Repr, DecidableEq

/-- What the program needs of a file system. -/
structure FileSystem (m : Type → Type) where
  /-- Whether there is a file or a folder. -/
  has : String → m Bool
  read : String → m (Except FileFault (List UInt8))
  /-- Makes the folders that a path leads through. -/
  makeParents : String → m (Except FileFault Unit)
  write : String → List UInt8 → m (Except FileFault Unit)

namespace FileSystem

/-- The text of a file. -/
def readText {m : Type → Type} [Monad m] (fs : FileSystem m) (path : String) :
    m (Except FileFault String) := do
  match ← fs.read path with
  | .error fault => return .error fault
  | .ok bytes =>
    match Text.Utf8.decode? bytes with
    | some text => return .ok text
    | none => return .error .noText

/-- Writes a text into a file. -/
def writeText {m : Type → Type} (fs : FileSystem m) (path text : String) :
    m (Except FileFault Unit) :=
  fs.write path (Text.Utf8.encode text)

end FileSystem

end InstanceResize
