import InstanceResize.Files.Path

/-!
# A file system that is a value

* `Entry`: a file, or a folder with what it contains.
* `Entry.walk`: where the parts of a path lead.
* `Entry.makeFolders`: the folders of a path are made, one after the other.
* `Entry.system`: the operations of a file system.

A tree of entries begins at the top folder. The working folder lies below it, in folders whose names
no path can spell, so that a path may lead out of it and only comes back by two dots.
-/

namespace InstanceResize

/-- A file, or a folder with what it contains. -/
inductive Entry where
  | file (bytes : List UInt8)
  | folder (entries : List (String × Entry))
deriving Inhabited

namespace Entry

/-- What is at the end of a row of names. -/
def find? : List String → Entry → Option Entry
  | [], e => some e
  | name :: rest, folder entries => (entries.lookup name).bind (find? rest)
  | _ :: _, file _ => none

/-- Puts something into a folder, in the place of what has its name there. -/
def put (name : String) (e : Entry) (entries : List (String × Entry)) : List (String × Entry) :=
  if (entries.lookup name).isSome then
    entries.map fun entry => if entry.1 = name then (name, e) else entry
  else entries ++ [(name, e)]

/-- Puts something at the end of a row of names, all of which but the last lead to folders. -/
def set : List String → Entry → Entry → Entry
  | [], _, e => e
  | name :: rest, folder entries, e =>
    folder (put name (set rest ((entries.lookup name).getD (folder [])) e) entries)
  | _ :: _, file bytes, _ => file bytes

/-- The names that lead to the working folder. -/
def here : List String := ["", ""]

/-- A tree with nothing in the working folder. -/
def fresh : Entry := set here (folder []) (folder [])

/-- Where a path begins. -/
def start (path : String) : List String := if Path.isAbsolute path then [] else here

/-! ## Walking -/

/-- Where a part leads from a place, which has to be a folder. -/
def step (top : Entry) (place : List String) (part : String) : Except FileFault (List String) :=
  match top.find? place with
  | some (folder entries) =>
    if part = "" ∨ part = "." then .ok place
    else if part = ".." then .ok place.dropLast
    else if Path.longestName < part.utf8ByteSize then .error .tooLong
    else if (entries.lookup part).isSome then .ok (place ++ [part])
    else .error .missing
  | some (file _) => .error .notDirectory
  | none => .error .missing

/-- Where parts lead from a place, one after the other. -/
def walk (top : Entry) : List String → List String → Except FileFault (List String)
  | place, [] => .ok place
  | place, part :: rest => do walk top (← top.step place part) rest

/-- Where a path leads. -/
def locate (path : String) (top : Entry) : Except FileFault (List String) := do
  Path.check path
  top.walk (start path) (Path.parts path)

/-- Whether there is something at the end of a path. -/
def has (path : String) (top : Entry) : Bool := (top.locate path).isOk

/-- The bytes of a file. -/
def read (path : String) (top : Entry) : Except FileFault (List UInt8) := do
  let place ← top.locate path
  match top.find? place with
  | some (file bytes) => .ok bytes
  | some (folder _) => .error .isDirectory
  | none => .error .missing

/-! ## Changing -/

/-- Makes the folders that names lead through from a place. What was made stays if a later one
cannot be made. A file in the way is noticed by the step behind it, or at once when a folder had to
be made before. -/
def makeFolders (made : Bool) :
    List String → List String → Entry → Except FileFault Unit × Entry
  | _, [], top => (.ok (), top)
  | place, name :: names, top =>
    match top.step place name with
    | .ok next =>
      match made, top.find? next with
      | true, some (file _) => (.error .alreadyThere, top)
      | _, _ => makeFolders made next names top
    | .error .missing =>
      makeFolders true (place ++ [name]) names (top.set (place ++ [name]) (folder []))
    | .error fault => (.error fault, top)

/-- Makes a folder and those that lead to it, if the names can be those of a path. -/
def makePath (place names : List String) (top : Entry) : Except FileFault Unit × Entry :=
  match Path.check ("/".intercalate names) with
  | .ok () => makeFolders false place names top
  | .error fault => (.error fault, top)

/-- Makes a folder, and those that lead to it. -/
def makeFolder (path : String) (top : Entry) : Except FileFault Unit × Entry :=
  makePath (start path) (Path.names path) top

/-- Makes the folders that a path leads through. -/
def makeParents (path : String) (top : Entry) : Except FileFault Unit × Entry :=
  makePath (start path) (Path.names path).dropLast top

/-- Writes a file; its folder has to be there. A path that ends like that of a folder names no
file. -/
def write (path : String) (bytes : List UInt8) (top : Entry) : Except FileFault Entry := do
  Path.check path
  let parts := Path.untilLast path
  match parts.getLast? with
  | none => .error .isDirectory
  | some name =>
    let place ← top.walk (start path) (parts.dropLast ++ ["."])
    if name = "." ∨ name = ".." ∨ parts ≠ Path.parts path then .error .isDirectory
    else
      match top.step place name with
      | .ok next =>
        match top.find? next with
        | some (folder _) => .error .isDirectory
        | _ => .ok (top.set next (file bytes))
      | .error .missing => .ok (top.set (place ++ [name]) (file bytes))
      | .error fault => .error fault

/-! ## As a file system -/

/-- Writes a file; an error changes nothing. -/
def writing (path : String) (bytes : List UInt8) (top : Entry) : Except FileFault Unit × Entry :=
  match top.write path bytes with
  | .ok top => (.ok (), top)
  | .error fault => (.error fault, top)

/-- The operations on a file system that is a value. -/
def system : FileSystem (StateM Entry) where
  has path := return (← get).has path
  read path := return (← get).read path
  makeParents path := modifyGet (makeParents path)
  write path bytes := modifyGet (writing path bytes)

end Entry

end InstanceResize
