import InstanceResize.Json.Print
import InstanceResize.Progress.Sink
import InstanceResize.Rehearsal.World

/-!
# A connection to a client

* `Frame`: what is sent to the client.
* `Arrival`: what comes from the client.
* `Link`: the connection in virtual time, with what is still to come from the client and how much
  it still accepts.
* `Link.elapseTo`: the time until something else happens. Arrivals are taken in, and a sign of life
  is sent at a fixed interval. A client that goes away ends it.
-/

namespace InstanceResize.Relay

/-- What is sent to a client. -/
inductive Frame where
  | text (s : String)
  | ping
  | close
  /-- The connection is not written to any more. -/
  | ended
deriving Repr, DecidableEq

/-- What comes from a client. -/
inductive Arrival where
  | text (s : String)
  | binary
  | ping
  | pong
  | close
  /-- The connection breaks. -/
  | error
  /-- The client is gone without a word. -/
  | leave
deriving Repr, DecidableEq

/-- Whether nothing comes from the client after an arrival. -/
def Arrival.isFarewell : Arrival → Bool
  | close | error | leave => true
  | _ => false

/-- A connection in virtual time. -/
structure Link where
  world : World
  /-- What is still to come from the client, with its times. -/
  arrivals : List (Nat × Arrival)
  /-- What was sent, with its times, the last first. -/
  sent : List (Nat × Frame)
  /-- How many frames the client still accepts, if there is a bound. -/
  budget : Option Nat
  /-- The events of the workflow. -/
  events : Channel
  /-- When the next sign of life is due. -/
  pingAt : Nat
  /-- When the client was found to be gone. -/
  goneAt : Option Nat

namespace Link

/-- How often a sign of life is sent. -/
def heartbeat : Nat := 30000

/-- How long a client may take to name its target. -/
def patience : Nat := 10000

/-- A connection that begins now; the times of the arrivals are counted from now. -/
def new (world : World) (arrivals : List (Nat × Arrival)) (budget : Option Nat) : Link where
  world
  arrivals := arrivals.map fun (at_, a) => (world.now + at_, a)
  sent := []
  budget
  events := .empty
  pingAt := world.now + heartbeat
  goneAt := none

/-- Whether the client is gone. -/
def isGone (l : Link) : Bool := l.goneAt.isSome

/-- The client is found to be gone. -/
def lose (l : Link) : Link := { l with goneAt := l.goneAt <|> some l.world.now }

/-- Notes a frame. -/
def note (l : Link) (f : Frame) : Link := { l with sent := (l.world.now, f) :: l.sent }

/-- Sends a frame; whether the client accepted it. -/
def send (l : Link) (f : Frame) : Bool × Link :=
  match l.budget with
  | none => (true, l.note f)
  | some 0 => (false, l)
  | some (n + 1) => (true, { l.note f with budget := some n })

/-- The text of an event on the wire. -/
def encodeEvent (e : Event) : String := Json.encode Event.schema e

/-- Sends an event; whether the client accepted it. -/
def sendEvent (l : Link) (e : Event) : Bool × Link := l.send (.text (encodeEvent e))

/-- Closes the connection, whether the client accepts that or not. -/
def close (l : Link) : Link := (l.send .close).2.note .ended

/-- Takes the next arrival in. -/
def takeIn (l : Link) (time : Nat) (a : Arrival) (rest : List (Nat × Arrival)) : Link :=
  let l := { l with
    arrivals := rest, world := { l.world with now := max l.world.now time } }
  if a.isFarewell then l.lose else l

/-- Sends a sign of life. -/
def beat (l : Link) : Link :=
  let l := { l with
    world := { l.world with now := max l.world.now l.pingAt }, pingAt := l.pingAt + heartbeat }
  match l.send .ping with
  | (true, l) => l
  | (false, l) => l.lose

/-- What happens before a time, one thing after the other, as long as the client is there and was
not told how the workflow ended. An arrival comes before a sign of life that is due at the same
time. -/
def happenings (wake : Nat) : (fuel : Nat) → Link → Link
  | 0, l => l
  | fuel + 1, l =>
    if l.isGone || l.events.finished then l
    else
      match l.arrivals with
      | (time, a) :: rest =>
        if time < wake ∧ time ≤ l.pingAt then happenings wake fuel (l.takeIn time a rest)
        else if l.pingAt < wake then happenings wake fuel l.beat
        else l
      | [] => if l.pingAt < wake then happenings wake fuel l.beat else l

/-- A bound on what can happen before a time. -/
def bound (l : Link) (wake : Nat) : Nat := l.arrivals.length + (wake - l.pingAt) / heartbeat + 1

/-- The time until something else happens, or until the client goes away. -/
def elapseTo (l : Link) (wake : Nat) : Link :=
  let l := happenings wake (l.bound wake) l
  if l.isGone then l else { l with world := { l.world with now := wake } }

/-- Sends the events that are waiting, up to a terminal one; the client is gone if it does not
accept one. -/
def flush : (fuel : Nat) → Link → Link
  | 0, l => l
  | fuel + 1, l =>
    if l.isGone then l
    else
      match l.events.next with
      | (.event e, events) =>
        match { l with events }.sendEvent e with
        | (true, l) => flush fuel l
        | (false, l) => l.lose
      | _ => l

/-- Sends all events that are waiting. -/
def flushAll (l : Link) : Link := l.flush (l.events.queue.length + 1)

end Link

end InstanceResize.Relay
