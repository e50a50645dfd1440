import InstanceResize.Engine.Program
import InstanceResize.Progress.Sink
import InstanceResize.Rehearsal.World

/-!
# Running a program in virtual time

* `Cancellation`: when the program is cancelled: at a time, or when a certain call begins.
* `Stage`: the world, the sink of the events, and the time of the cancellation once it is known.
* `Stage.handler`: answers what a program asks, on a stage.
-/

namespace InstanceResize

/-- A sink of either kind. -/
inductive Sink where
  | collector (c : Collector)
  | channel (c : Channel)
deriving Repr, DecidableEq

namespace Sink

/-- The sink after an event. -/
def emit : Sink → Event → Sink
  | collector c, e => collector (c.emit e)
  | channel c, e => channel (c.emit e)

/-- Whether a terminal event has come. -/
def terminated : Sink → Bool
  | collector c => c.terminated
  | channel c => c.terminated

/-- The events that came, or that a listener gets. -/
def events : Sink → List Event
  | collector c => c.events
  | channel c => (c.drain (c.queue.length + 1)).1

end Sink

/-- A stage on which a program runs. -/
structure Stage where
  world : World
  sink : Sink
  /-- When the program is or was cancelled, if that is known. -/
  cancelAt : Option Nat
  /-- A call name, and how many calls of that name come before the one that cancels. -/
  trigger : Option (String × Nat)

namespace Stage

/-- Whether the program is cancelled by now. -/
def isCancelled (s : Stage) : Bool := s.cancelAt.any (· ≤ s.world.now)

/-- The program is cancelled now, unless it is already. -/
def cancelNow (s : Stage) : Stage :=
  { s with cancelAt := some (min (s.cancelAt.getD s.world.now) s.world.now) }

/-- A call begins, which may be the one that cancels the program. -/
def begin (s : Stage) (c : Call) : Stage :=
  let s := { s with world := s.world.begin c }
  match s.trigger with
  | some (name, before) =>
    if name = c.name then
      match before with
      | 0 => { s.cancelNow with trigger := none }
      | before + 1 => { s with trigger := some (name, before) }
    else s
  | none => s

/-- A whole call. -/
def call (s : Stage) (c : Call) : Option c.Reply × Stage :=
  let s := s.begin c
  let (reply, world) := (s.world.elapse (s.world.duration c)).finish c
  (reply, { s with world })

/-- Waits; a cancellation ends it early. -/
def wait (s : Stage) (ms : Nat) : Bool × Stage :=
  if s.isCancelled then (true, s)
  else
    let wake := s.world.after ms
    match s.cancelAt with
    | some t =>
      if t ≤ wake then (true, { s with world := { s.world with now := t } })
      else (false, { s with world := s.world.elapse ms })
    | none => (false, { s with world := s.world.elapse ms })

/-- What runs on a stage, unless a call brings it down. -/
abbrev Playing := OptionT (StateM Stage)

/-- Answers what a program asks. -/
def handler : Handler Playing where
  call c := OptionT.mk fun s => s.call c
  wait ms := OptionT.mk fun s => let (b, s) := s.wait ms.toNat; (some b, s)
  cancelled := OptionT.mk fun s => (some s.isCancelled, s)
  emit e := OptionT.mk fun s => (some (), { s with sink := s.sink.emit e })

/-- The result of a program, unless a call brings it down, and the stage after it. -/
def play {α : Type} (s : Stage) (p : Program α) : Option α × Stage :=
  ((p.interpret handler : Playing α).run s)

end Stage

end InstanceResize
