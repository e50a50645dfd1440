import InstanceResize.CommandLine.Help
import InstanceResize.Server.Config
import InstanceResize.Server.Host

/-!
# Running a command

* `Outcome`: what a command leaves behind: its exit code and what it printed.
* `startServer`: the configuration that a server is started with, and what it prints then.
* `run`: a whole command, up to the moment when a server is stopped.
-/

namespace InstanceResize.CommandLine

/-- What a command leaves behind. -/
structure Outcome where
  code : Nat
  output : String
  errors : String
deriving Repr, DecidableEq

namespace Outcome

/-- Everything went well. -/
def success (output : String) : Outcome := ⟨0, output, ""⟩

/-- Something could not be done. -/
def failure (reason : String) : Outcome := ⟨1, "", "Error: " ++ reason ++ "\n"⟩

/-- The arguments were not understood. -/
def misuse (e : UsageError) : Outcome := ⟨2, "", "error: " ++ e.message ++ "\n"⟩

end Outcome

/-- Lines with their ends. -/
def lines (texts : List String) : String := String.join (texts.map (· ++ "\n"))

/-- Writes a configuration file, unless there is one that must stay. -/
def writeStandard {m : Type → Type} [Monad m] (fs : FileSystem m) (path : String) (force : Bool) :
    m Outcome := do
  if (← fs.has path) && !force then
    return .success (lines ["Config already exists at " ++ path, "Use --force to overwrite it."])
  else
    match ← ServerConfig.standard.save fs path with
    | .error _ => return .failure ("Failed to write " ++ path)
    | .ok _ =>
      return .success (lines
        ["Wrote default config to " ++ path, "", "Next steps:",
          "  1. Adjust [workflow] polling and [simulated] instances as needed",
          "  2. Run 'resize serve' to start the server"])

/-- What a server prints when it starts. -/
def banner (address : String) : String :=
  lines ["", "  API Server:  http://" ++ address,
    "  OpenAPI:     http://" ++ address ++ "/api/openapi.json",
    "  Resize:      ws://" ++ address ++ "/api/instances/\x7bid\x7d/resize?state=running", "",
    "Press Ctrl+C to stop", ""]

/-- The configuration of a server that can listen where it is told to. -/
def startServer {m : Type → Type} [Monad m] (fs : FileSystem m) (path : String)
    (port : Option UInt16) : m (Except Outcome ServerConfig) := do
  match ← ServerConfig.load fs path with
  | .error _ => return .error (.failure ("Failed to load " ++ path))
  | .ok config =>
    let config := { config with port := port.getD config.port }
    if Server.Host.isLocal config.host then return .ok config
    else return .error (.failure ("Failed to bind " ++ config.bindAddress))

/-- Runs a command; a server is stopped as soon as it listens. -/
def run {m : Type → Type} [Monad m] (fs : FileSystem m) (arguments : List String) :
    m Outcome := do
  match Invocation.parse arguments with
  | .error e => return .misuse e
  | .help topic => return .success topic.text
  | .version => return .success versionText
  | .run path (.init force) => writeStandard fs path force
  | .run path (.serve port) =>
    match ← startServer fs path port with
    | .ok config => return .success (banner config.bindAddress)
    | .error outcome => return outcome

end InstanceResize.CommandLine
