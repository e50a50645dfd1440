import InstanceResize.Text.Digits
import InstanceResize.Text.Visible

/-!
# Arguments

* `Switch`: what may be given with one or two hyphens.
* `Level`: the program itself or one of its commands; each knows some switches.
* `UsageError`: why arguments are not understood.
* `Invocation`: what the arguments ask for.
* `Invocation.parse`: reads the arguments from left to right.

A value that belongs to a switch may stand behind an equals sign or in the next argument. It is only
looked at when the next switch is known or when the arguments end, so that an argument nobody knows
is reported first.
-/

namespace InstanceResize.CommandLine

/-- What may be given with one or two hyphens. -/
inductive Switch where
  | config
  | port
  | force
  | help
  | version
deriving Repr, DecidableEq

namespace Switch

/-- The name behind two hyphens. -/
def long : Switch → String
  | config => "config"
  | port => "port"
  | force => "force"
  | help => "help"
  | version => "version"

/-- The letter behind one hyphen. -/
def short? : Switch → Option Char
  | config => some 'c'
  | port => some 'p'
  | force => none
  | help => some 'h'
  | version => some 'V'

/-- Whether a value belongs to the switch. -/
def takesValue : Switch → Bool
  | config | port => true
  | _ => false

/-- How a switch is shown. -/
def shown : Switch → String
  | config => "--config <CONFIG>"
  | port => "--port <PORT>"
  | s => "--" ++ s.long

end Switch

/-- The program itself, or one of its commands. -/
inductive Level where
  | root
  | init
  | serve
deriving Repr, DecidableEq

namespace Level

/-- The switches that a level knows. -/
def switches : Level → List Switch
  | root => [.config, .help, .version]
  | init => [.force, .config, .help]
  | serve => [.port, .config, .help]

/-- The command that has the given name. -/
def command? : String → Option Level
  | "init" => some init
  | "serve" => some serve
  | _ => none

end Level

/-- Why arguments are not understood. -/
inductive UsageError where
  | unexpected (argument : String)
  | unknownCommand (name : String)
  | missingValue (switch : Switch)
  | invalidValue (value : String) (switch : Switch) (reason : String)
  | repeated (switch : Switch)
  | surplusValue (value : String) (switch : Switch)
deriving Repr, DecidableEq

/-- The text of an error. It shows what is visible of the arguments. -/
def UsageError.message : UsageError → String
  | unexpected argument => "unexpected argument '" ++ Text.visible argument ++ "' found"
  | unknownCommand name => "unrecognized subcommand '" ++ Text.visible name ++ "'"
  | missingValue s => "a value is required for '" ++ s.shown ++ "' but none was supplied"
  | invalidValue value s reason =>
    "invalid value '" ++ Text.visible value ++ "' for '" ++ s.shown ++ "': " ++ reason
  | repeated s => "the argument '" ++ s.shown ++ "' cannot be used multiple times"
  | surplusValue value s =>
    "unexpected value '" ++ Text.visible value ++ "' for '" ++ s.shown ++
      "' found; no more were expected"

/-- What a help text is about. -/
inductive Topic where
  | level (l : Level)
  /-- The command that prints help texts. -/
  | help
deriving Repr, DecidableEq

/-- What is done. -/
inductive Command where
  | init (force : Bool)
  | serve (port : Option UInt16)
deriving Repr, DecidableEq

/-- What the arguments ask for. -/
inductive Invocation where
  | run (config : String) (command : Command)
  | help (topic : Topic)
  | version
  | error (e : UsageError)
deriving Repr, DecidableEq

/-- The configuration file unless another one is named. -/
def standardFile : String := "resize.toml"

/-! ## Numbers -/

/-- The whole number of 64 bits that a text stands for, or why it stands for none. -/
def parseWhole (text : String) : Except String Int :=
  let (negative, digits) :=
    match text.toList with
    | '-' :: cs => (true, cs)
    | '+' :: cs => (false, cs)
    | cs => (false, cs)
  if text = "" then .error "cannot parse integer from empty string"
  else if digits.isEmpty ∨ ¬ digits.all Char.isDigit then .error "invalid digit found in string"
  else
    let n : Int := Text.decimal digits
    if negative then
      if n ≤ 0x8000000000000000 then .ok (-n) else .error "number too small to fit in target type"
    else if n < 0x8000000000000000 then .ok n
    else .error "number too large to fit in target type"

/-- The port that a text stands for, or why it stands for none. -/
def parsePort (text : String) : Except String UInt16 := do
  let n ← parseWhole text
  if 0 ≤ n ∧ n ≤ 65535 then return UInt16.ofNat n.toNat
  else throw (toString n ++ " is not in 0..=65535")

/-! ## Reading -/

/-- What has been found on a level. -/
structure Found where
  config : Option String
  port : Option UInt16
  force : Bool
  /-- A switch that was not looked at yet, with its value if that is there. -/
  pending : Option (Switch × Option String)

/-- Nothing has been found. -/
def Found.nothing : Found := ⟨none, none, false, none⟩

/-- What ends the reading early. -/
abbrev Reading := Except Invocation

/-- The arguments are not understood. -/
def refuse {α : Type} (e : UsageError) : Reading α := .error (.error e)

namespace Found

/-- Takes a switch with its value. -/
def accept (f : Found) (s : Switch) (value : String) : Reading Found :=
  match s with
  | .config =>
    if f.config.isSome then refuse (.repeated s)
    else if value = "" then refuse (.missingValue s)
    else .ok { f with config := some value }
  | .port =>
    if f.port.isSome then refuse (.repeated s)
    else
      match parsePort value with
      | .ok port => .ok { f with port := some port }
      | .error reason => refuse (.invalidValue value s reason)
  | _ => refuse (.surplusValue value s)

/-- Looks at the switch that is pending. -/
def settle (f : Found) : Reading Found :=
  match f.pending with
  | none => .ok f
  | some (s, none) => refuse (.missingValue s)
  | some (s, some value) => { f with pending := none }.accept s value

/-- Takes a switch without a value. -/
def flag (f : Found) (level : Level) (s : Switch) : Reading Found := do
  let f ← f.settle
  match s with
  | .force => if f.force then refuse (.repeated s) else return { f with force := true }
  | .help => throw (.help (.level level))
  | _ => throw .version

/-- Takes a switch given by its name, and the value behind an equals sign. -/
def long (f : Found) (level : Level) (name : String) (value? : Option String) : Reading Found :=
  match level.switches.find? (·.long == name) with
  | none => refuse (.unexpected ("--" ++ name))
  | some s =>
    match s.takesValue, value? with
    | true, some value => do (← f.settle).accept s value
    | true, none => do return { ← f.settle with pending := some (s, none) }
    | false, some value => refuse (.surplusValue value s)
    | false, none => f.flag level s

/-- Takes switches given by their letters, the last of which may have a value behind it. -/
def letters (level : Level) : List Char → Found → Reading Found
  | [], f => .ok f
  | c :: rest, f =>
    match level.switches.find? (·.short? == some c) with
    | none => refuse (.unexpected (String.ofList ['-', c]))
    | some s =>
      if s.takesValue then
        match rest with
        | [] => do return { ← f.settle with pending := some (s, none) }
        | '=' :: value => do (← f.settle).accept s (String.ofList value)
        | value => do (← f.settle).accept s (String.ofList value)
      else do letters level rest (← f.flag level s)

end Found

/-- The error of an argument that is no switch and nobody's value. -/
def surplus (level : Level) (afterHyphens : Bool) (argument : String) : UsageError :=
  let isCommand := (Level.command? argument).isSome || argument == "help"
  if level = .root ∧ ¬ (afterHyphens ∧ isCommand) then .unknownCommand argument
  else .unexpected argument

/-- Takes an argument; none if it is no switch and nobody's value. -/
def takeSwitch (level : Level) (f : Found) (argument : String) : Option (Reading Found) :=
  match argument.toList with
  | '-' :: '-' :: cs =>
    let value? := match cs.dropWhile (· ≠ '=') with
      | _ :: value => some (String.ofList value)
      | [] => none
    some (f.long level (String.ofList (cs.takeWhile (· ≠ '='))) value?)
  | '-' :: c :: cs => some (Found.letters level (c :: cs) f)
  | _ =>
    match f.pending with
    | some (s, none) => some (.ok { f with pending := some (s, some argument) })
    | _ => none

/-- Reads the arguments of a command. -/
def readCommand (level : Level) : List String → Found → Reading Found
  | [], f => f.settle
  | "--" :: rest, f =>
    match rest with
    | [] => f.settle
    | argument :: _ => refuse (surplus level true argument)
  | argument :: rest, f =>
    match takeSwitch level f argument with
    | some found => do readCommand level rest (← found)
    | none => refuse (surplus level false argument)

/-- What a command does with what was found, given what was found before its name. -/
def toInvocation (level : Level) (outer inner : Found) : Invocation :=
  let config := ((inner.config <|> outer.config).getD standardFile)
  match level with
  | .init => .run config (.init inner.force)
  | _ => .run config (.serve inner.port)

/-- The help text that names ask for. -/
def helpOn : List String → Invocation
  | [] => .help (.level .root)
  | name :: rest =>
    match Level.command? name, rest with
    | some level, [] => .help (.level level)
    | some _, surplus :: _ => .error (.unknownCommand surplus)
    | none, [] => if name = "help" then .help .help else .error (.unknownCommand name)
    | none, surplus :: _ => .error (.unknownCommand (if name = "help" then surplus else name))

/-- Reads the arguments of the program. -/
def readRoot : List String → Found → Reading Invocation
  | [], f => do
    let f ← f.settle
    return toInvocation .root f .nothing
  | "--" :: rest, f =>
    match rest with
    | [] => do
      let f ← f.settle
      return toInvocation .root f .nothing
    | argument :: _ => refuse (surplus .root true argument)
  | argument :: rest, f =>
    let awaiting := match f.pending with
      | some (_, none) => true
      | _ => false
    match (if awaiting then none else Level.command? argument) with
    | some level => do
      let inner ← readCommand level rest .nothing
      let outer ← f.settle
      return toInvocation level outer inner
    | none =>
      if ¬ awaiting ∧ argument = "help" then return helpOn rest
      else
        match takeSwitch .root f argument with
        | some found => do readRoot rest (← found)
        | none => refuse (surplus .root false argument)

/-- What the arguments ask for. -/
def Invocation.parse (arguments : List String) : Invocation :=
  match readRoot arguments .nothing with
  | .ok invocation => invocation
  | .error invocation => invocation

end InstanceResize.CommandLine
