import InstanceResize.Engine.Policy
import InstanceResize.Files.System
import InstanceResize.Provider.Account
import InstanceResize.Toml.Parse
import InstanceResize.Toml.Print
import InstanceResize.Document.Read
import InstanceResize.Document.Write

/-!
# The configuration of the server

* `ServerConfig`: where to listen, how workflows are run, and the account that is simulated.
* `ServerConfig.parse`: the configuration that a file says. What it does not say is as usual; the
  declared state of an instance is checked unless the file says that it is not.
* `ServerConfig.print?`: the file of a configuration.
* `ServerConfig.load` and `ServerConfig.save`: the same with a file system.
-/

namespace InstanceResize

/-- The configuration of the server. -/
structure ServerConfig where
  host : String
  port : UInt16
  workflow : EngineConfig
  simulated : Account.Setup
deriving Repr, DecidableEq

/-- Why a configuration cannot be had. -/
inductive ConfigError where
  | file (fault : FileFault)
  /-- The file is not written correctly, or does not say what it should. -/
  | parse
  /-- A number is too large to be written. -/
  | serialize
  | invalid (r : Refusal)
deriving Repr, DecidableEq

/-- The text of an error. -/
def ConfigError.message : ConfigError → String
  | file _ => "Failed to read config file"
  | parse => "Failed to parse config file"
  | serialize => "Failed to serialize config"
  | invalid r => "Invalid configuration: " ++ r.message

namespace ServerConfig

/-- How the server runs workflows unless a file says otherwise. -/
def standardWorkflow : EngineConfig := { EngineConfig.standard with verifyOrigin := true }

/-- The configuration unless a file says otherwise. -/
def standard : ServerConfig := ⟨"127.0.0.1", 3001, standardWorkflow, .standard⟩

/-- The part of a file about workflows. -/
def workflowSchema : Schema EngineConfig :=
  (Schema.section "verify_origin_state" <| .field "stop_poll" PollPolicy.schema (some .forStop) <|
    .field "start_poll" PollPolicy.schema (some .forStart) <|
    .optional "verify_origin_state" .flag .none).iso
    (fun (stop, start, verify, _) => ⟨stop, start, verify.getD true⟩)
    (fun c => (c.stopPoll, c.startPoll, some c.verifyOrigin, ()))

def schema : Schema ServerConfig :=
  (Schema.record <| .field "host" .text (some standard.host) <|
    .field "port" .uint16 (some standard.port) <|
    .field "workflow" workflowSchema (some standard.workflow) <|
    .field "simulated" Account.Setup.schema (some standard.simulated) .none).iso
    (fun (host, port, workflow, simulated, _) => ⟨host, port, workflow, simulated⟩)
    (fun c => (c.host, c.port, c.workflow, c.simulated, ()))

/-- The policies have to be valid. -/
def validate (c : ServerConfig) : Except Refusal Unit := c.workflow.validate

/-- In a configuration file, a list may be longer than the record that it stands for. -/
def dialect : Dialect where
  isUnit
    | .table [] | .list [] => true
    | _ => false
  surplus := true

/-- The configuration that a file says. -/
def parse (text : String) : Except ConfigError ServerConfig :=
  match (Toml.parse? text).bind (schema.ofDocument? dialect) with
  | none => .error .parse
  | some c =>
    match c.validate with
    | .ok () => .ok c
    | .error r => .error (.invalid r)

/-- The file of a configuration, if it can be written. -/
def print? (c : ServerConfig) : Option String := Toml.print? (schema.document c)

/-- The configuration in a file; without a file it is as usual. -/
def load {m : Type → Type} [Monad m] (fs : FileSystem m) (path : String) :
    m (Except ConfigError ServerConfig) := do
  if ← fs.has path then
    match ← fs.readText path with
    | .ok text => return parse text
    | .error fault => return .error (.file fault)
  else return .ok standard

/-- Writes a configuration into a file, for which folders are made where they are missing. If it
cannot be written the file stays as it is. -/
def save {m : Type → Type} [Monad m] (fs : FileSystem m) (path : String) (c : ServerConfig) :
    m (Except ConfigError String) := do
  match ← fs.makeParents path with
  | .error fault => return .error (.file fault)
  | .ok () =>
    match c.print? with
    | none => return .error .serialize
    | some text =>
      match ← fs.writeText path text with
      | .error fault => return .error (.file fault)
      | .ok () => return .ok text

/-- Where the server listens. -/
def bindAddress (c : ServerConfig) : String := c.host ++ ":" ++ toString c.port.toNat

end ServerConfig

end InstanceResize
