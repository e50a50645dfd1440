import InstanceResize.Progress.Event

/-!
# Sinks

A sink takes the events of a workflow in their order and lets none through after a terminal one.

* `Collector`: keeps the events.
* `Channel`: hands them to a listener, who takes them off one by one.

The end of a channel that can be written to may be dropped before the end that is read, and the
other way round.
-/

namespace InstanceResize

/-- A sink that keeps its events. -/
structure Collector where
  events : List Event
  terminated : Bool
deriving Repr, DecidableEq

namespace Collector

/-- A sink without events. -/
def empty : Collector := ⟨[], false⟩

/-- The sink after an event. -/
def emit (c : Collector) (e : Event) : Collector :=
  if c.terminated then c else ⟨c.events ++ [e], e.isTerminal⟩

/-- The last event. -/
def last? (c : Collector) : Option Event := c.events.getLast?

end Collector

/-- What a listener gets. -/
inductive Listened where
  | event (e : Event)
  /-- Nothing yet. -/
  | pending
  /-- Nothing any more. -/
  | ended
deriving Repr, DecidableEq

/-- A sink whose events are taken off by a listener. -/
structure Channel where
  /-- The events that were not taken off yet. -/
  queue : List Event
  terminated : Bool
  /-- Whether events can still be put in. -/
  writable : Bool
  /-- Whether there is a listener. -/
  readable : Bool
  /-- Whether the listener has come to the end. -/
  finished : Bool
deriving Repr, DecidableEq

namespace Channel

/-- A channel without events. -/
def empty : Channel := ⟨[], false, true, true, false⟩

/-- The channel after an event. Without a listener it is lost, but still ends the channel if it is
terminal. -/
def emit (c : Channel) (e : Event) : Channel :=
  if c.terminated then c
  else
    { c with
      queue := if c.readable then c.queue ++ [e] else c.queue
      terminated := e.isTerminal }

/-- Takes an event off. The listener has come to the end after a terminal event, and when there is
nothing left and nothing can be put in. -/
def next (c : Channel) : Listened × Channel :=
  if c.finished then (.ended, c)
  else
    match c.queue with
    | e :: queue => (.event e, { c with queue, finished := e.isTerminal })
    | [] => if c.writable then (.pending, c) else (.ended, { c with finished := true })

/-- The channel when nothing can be put in any more. -/
def dropSink (c : Channel) : Channel := { c with writable := false }

/-- The channel without a listener. -/
def dropStream (c : Channel) : Channel := { c with readable := false, queue := [] }

/-- All events that a listener can take off now, and the channel without them. -/
def drain : (fuel : Nat) → Channel → List Event × Channel
  | 0, c => ([], c)
  | fuel + 1, c =>
    match c.next with
    | (.event e, c) =>
      let (events, c) := drain fuel c
      (e :: events, c)
    | (_, c) => ([], c)

end Channel

end InstanceResize
