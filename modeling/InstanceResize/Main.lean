import InstanceResize.CommandLine.Run
import InstanceResize.Rehearsal.Scene

/-!
# The program

Reads and writes real files. A running server takes requests from its input, one a line: a method
and a target.
-/

namespace InstanceResize

/-- What the error of an operation on a file means. Any other error counts as a missing file. -/
def faultOf : IO.Error → FileFault
  | .inappropriateType _ 20 _ => .notDirectory
  | .inappropriateType _ 21 _ => .isDirectory
  | .alreadyExists .. => .alreadyThere
  | .invalidArgument _ 36 _ => .tooLong
  | .invalidArgument .. => .badCharacter
  | _ => .missing

/-- Does something with a file. -/
def attempt {α : Type} (action : IO α) : IO (Except FileFault α) := do
  try return .ok (← action)
  catch e => return .error (faultOf e)

/-- The folder that a path leads to. -/
def folderOf (path : String) : String :=
  String.intercalate "/" (path.splitOn "/").dropLast

/-- The files of this machine. -/
def realFiles : FileSystem IO where
  has path := do
    match ← attempt (IO.FS.readBinFile path) with
    | .ok _ | .error .isDirectory => return true
    | .error _ => return false
  read path := do
    return (← attempt (IO.FS.readBinFile path)).map ByteArray.toList
  makeParents path := do
    let folder := folderOf path
    if folder = "" then return .ok () else attempt (IO.FS.createDirAll folder)
  write path bytes := attempt (IO.FS.writeBinFile path (ByteArray.mk bytes.toArray))

/-- Answers requests from the input until it ends. -/
partial def serveLines (scene : Scene) (input output : IO.FS.Stream) : IO Unit := do
  let line ← input.getLine
  if line.isEmpty then return ()
  let words := ((line.dropEndWhile Char.isWhitespace).toString).splitOn " "
  let request : Server.HttpRequest := ⟨words.headD "", words.getD 1 "", []⟩
  let (response?, scene) := scene.request request
  if let some response := response? then
    output.putStrLn (toString response.status ++ " " ++ response.body)
    output.flush
  serveLines scene input output

/-- Prints what a command leaves behind. -/
def report (outcome : CommandLine.Outcome) : IO UInt32 := do
  (← IO.getStdout).putStr outcome.output
  (← IO.getStderr).putStr outcome.errors
  return UInt32.ofNat outcome.code

end InstanceResize

open InstanceResize in
def main (arguments : List String) : IO UInt32 := do
  match CommandLine.Invocation.parse arguments with
  | .run path (.serve port) =>
    match ← CommandLine.startServer realFiles path port with
    | .error outcome => report outcome
    | .ok config =>
      let output ← IO.getStdout
      output.putStr (CommandLine.banner config.bindAddress)
      output.flush
      serveLines (Scene.ofConfig config) (← IO.getStdin) output
      return 0
  | _ => report (← CommandLine.run realFiles arguments)
