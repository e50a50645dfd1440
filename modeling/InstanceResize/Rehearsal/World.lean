import InstanceResize.Engine.Program
import InstanceResize.Provider.Basic

/-!
# Virtual time

A provider whose calls take time on a clock that only moves when somebody waits. No single wait is
longer than thirty years.

* `World`: the provider, the clock, and the calls so far with their times.
* `World.after`: when a wait is over.
* `World.begin` and `World.finish`: a call is noted when it begins, and acts once its time is over.
-/

namespace InstanceResize

/-- A provider in virtual time. -/
structure World where
  /-- Milliseconds. -/
  now : Nat
  provider : Provider
  /-- How long the calls of a name take. -/
  latency : List (String × Nat)
  /-- The calls so far with the times when they began, the last one first. -/
  log : List (Nat × Call)

namespace World

/-- How long a call takes. -/
def duration (w : World) (c : Call) : Nat := (w.latency.lookup c.name).getD 0

/-- How long a single wait can be: thirty years of 365 days, in milliseconds. -/
def longestWait : Nat := 946080000000

/-- When a wait that begins now is over. -/
def after (w : World) (ms : Nat) : Nat := w.now + min ms longestWait

/-- Time passes. -/
def elapse (w : World) (ms : Nat) : World := { w with now := w.after ms }

/-- A call begins. -/
def begin (w : World) (c : Call) : World := { w with log := (w.now, c) :: w.log }

/-- A call acts; without an answer whoever made it comes to an end. -/
def finish (w : World) (c : Call) : Option c.Reply × World :=
  let (reply, provider) := w.provider.answer c
  (reply, { w with provider })

/-- A whole call. -/
def call (w : World) (c : Call) : Option c.Reply × World :=
  ((w.begin c).elapse (w.duration c)).finish c

/-- The calls since the log had the given length, in their order. -/
def callsSince (w : World) (length : Nat) : List (Nat × Call) :=
  (w.log.take (w.log.length - length)).reverse

end World

end InstanceResize
