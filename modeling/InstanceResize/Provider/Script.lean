import InstanceResize.Provider.Call

/-!
# Providers that follow a script

* `Script`: answers status readings from a queue of states and errors, and every other call from a
  fixed answer. It keeps a log of its calls.
* `Replay`: answers status readings from a queue of raw readings, which may be of any kind, even one
  that brings its caller down. Every other call succeeds.
-/

namespace InstanceResize

/-- A provider with scripted answers. -/
structure Script where
  /-- The next readings, used up one by one. -/
  statuses : List (Except ProviderError State)
  /-- The reading when the queue is used up. -/
  otherwise : Option (Except ProviderError State)
  stopError : Option ProviderError
  startError : Option ProviderError
  mutationError : Option ProviderError
  listingError : Option ProviderError
  addresses : List Address
  instances : List Summary
  instanceTypes : List InstanceType
  /-- The calls so far, the last one first. -/
  log : List Call

namespace Script

/-- The error of a change that the script declines. -/
def declined : ProviderError := .rejected "mutation" "bad response from provider"

/-- The calls so far. -/
def calls (s : Script) : List Call := s.log.reverse

/-- How many calls of a name there were. -/
def count (s : Script) (name : String) : Nat := s.log.countP (·.name == name)

/-- Succeeds unless there is an error. -/
def result {α : Type} (error : Option ProviderError) (a : α) : Except ProviderError α :=
  match error with
  | some e => .error e
  | none => .ok a

/-- The next reading. -/
def read (s : Script) (id : String) : Except ProviderError Status × Script :=
  let reading (answer : Except ProviderError State) := answer.map (Status.of id)
  match s.statuses with
  | answer :: statuses => (reading answer, { s with statuses })
  | [] => ((s.otherwise.map reading).getD (.error (.notFound id)), s)

/-- The answer to a call, and the script after it. -/
def answer (s : Script) (c : Call) : c.Reply × Script :=
  let s := { s with log := c :: s.log }
  match c with
  | .status id => s.read id
  | .stop _ => (result s.stopError (), s)
  | .start _ => (result s.startError (), s)
  | .modify _ _ => (result s.mutationError (), s)
  | .associate _ _ => (result s.mutationError (), s)
  | .addresses => (result s.listingError s.addresses, s)
  | .instances => (result s.listingError s.instances, s)
  | .instanceTypes => (result s.listingError s.instanceTypes, s)

end Script

/-- What a replay does at a status reading. -/
inductive Replay.Reading where
  | status (code : Int32) (name : String)
  | error (e : ProviderError)
  /-- Whoever made the call comes to an end. -/
  | crash
deriving Repr, DecidableEq

/-- A provider that replays raw readings. -/
structure Replay where
  statuses : List Replay.Reading
  otherwise : Option Replay.Reading

namespace Replay

/-- The answer of a reading, unless it is a crash. -/
def Reading.reply (id : String) : Reading → Option (Except ProviderError Status)
  | status code name => some (.ok ⟨id, code, name⟩)
  | error e => some (.error e)
  | crash => none

/-- The next reading. -/
def read (r : Replay) (id : String) : Option (Except ProviderError Status) × Replay :=
  match r.statuses with
  | reading :: statuses => (reading.reply id, { r with statuses })
  | [] =>
    match r.otherwise with
    | some reading => (reading.reply id, r)
    | none => (some (.error (.notFound id)), r)

/-- The answer to a call, unless it is a crash, and the replay after it. -/
def answer (r : Replay) : (c : Call) → Option c.Reply × Replay
  | .status id => r.read id
  | .stop _ | .start _ | .modify _ _ | .associate _ _ => (some (.ok ()), r)
  | .addresses => (some (.ok []), r)
  | .instances => (some (.ok []), r)
  | .instanceTypes => (some (.ok []), r)

end Replay

end InstanceResize
