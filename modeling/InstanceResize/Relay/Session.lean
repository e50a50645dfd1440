import InstanceResize.Engine.Run
import InstanceResize.Relay.Link
import InstanceResize.Relay.Target

/-!
# Relaying a workflow to a client

A client connects for one workflow. It names the target, the workflow runs, and each of its events
goes to the client as a frame. The terminal event ends the connection. If the client goes away
before, the workflow is cancelled.

* `Session`: what the client connected for.
* `greet`: what comes before the workflow, or instead of it.
* `handler`: answers what the engine asks. While the engine waits, the connection goes on.
* `relay`: the whole connection.
-/

namespace InstanceResize.Relay

/-- What a client connected for. -/
structure Session where
  instanceId : String
  declaredState : String
  kind : Mutation.Kind
deriving Repr, DecidableEq

/-- What the client does first. -/
inductive Opening where
  | message (text : String)
  | gone
  | silent
deriving Repr, DecidableEq

/-- Waits for the first text, at most to the given time; other messages do not count. -/
def awaitText (limit : Nat) (l : Link) : List (Nat × Arrival) → Opening × Link
  | [] => (.silent, { l with arrivals := [], world := { l.world with now := limit } })
  | (time, a) :: rest =>
    if limit ≤ time then
      (.silent, { l with arrivals := (time, a) :: rest, world := { l.world with now := limit } })
    else
      let l := { l with
        arrivals := rest, world := { l.world with now := max l.world.now time } }
      match a with
      | .text s => (.message s, l)
      | .close | .error | .leave => (.gone, l.lose)
      | .binary | .ping | .pong => awaitText limit l rest

/-- What runs over a connection, unless a call brings it down. -/
abbrev Running := OptionT (StateM Link)

/-- The time that a call takes. If it takes any, the events so far are sent and the connection goes
on meanwhile. -/
def outlast (l : Link) (duration : Nat) : Link :=
  if duration = 0 then l
  else
    let wake := l.world.after duration
    let l := l.flushAll.elapseTo wake
    { l with world := { l.world with now := wake } }

/-- A call of the engine. -/
def call (l : Link) (c : Call) : Option c.Reply × Link :=
  let l := outlast { l with world := l.world.begin c } (l.world.duration c)
  let (reply, world) := l.world.finish c
  (reply, { l with world })

/-- A pause of the engine. The events so far are sent and the connection goes on; the pause is over
at once when the client is gone. -/
def pause (l : Link) (ms : Nat) : Bool × Link :=
  if l.isGone then (true, l)
  else
    let l := l.flushAll
    let l := if l.isGone then l else l.elapseTo (l.world.after ms)
    (l.isGone, l)

/-- Answers what the engine asks over a connection. It is cancelled when the client is gone. -/
def handler : Handler Running where
  call c := OptionT.mk fun l => call l c
  wait ms := OptionT.mk fun l => let (b, l) := pause l ms.toNat; (some b, l)
  cancelled := OptionT.mk fun l => (some l.isGone, l)
  emit e := OptionT.mk fun l => (some (), { l with events := l.events.emit e })

/-- Ends a connection with a failure. -/
def fail (cause : FailureCause) (text : String) (l : Link) : Link :=
  (l.sendEvent (.failure text (some cause))).2.close

/-- Takes in what the client had sent by now. -/
def catchUp (l : Link) : Link :=
  l.happenings (l.world.now + 1) (l.arrivals.length + 1)

/-- Ends a connection over which the engine ran. Without a terminal event the engine was brought
down. -/
def finish (l : Link) : Link :=
  let l := l.flushAll
  if l.isGone then l
  else if l.events.finished then l.close
  else fail .transport "workflow ended without a result" l

/-- Runs a workflow over a connection. -/
def serve (config : EngineConfig) (request : Request) (l : Link) : Link :=
  let l := catchUp { l with events := .empty, pingAt := l.world.now + Link.heartbeat }
  finish (((Engine.execute config request).interpret handler : Running _).run l).2

/-- The change that a client asks for, and the connection when it has done so. The connection is
over if the client does not name a target, or names one that is not valid. -/
def greet (session : Session) (l : Link) : Except Link (Mutation × Link) :=
  match awaitText (l.world.now + Link.patience) l l.arrivals with
  | (.gone, l) => .error l
  | (.silent, l) => .error (fail .transport "no target received within 10s" l)
  | (.message text, l) =>
    match Target.parse text with
    | .error reason => .error (fail .invalidPrecondition reason l)
    | .ok target =>
      match session.kind.withTarget target.text with
      | .error r => .error (fail .invalidPrecondition r.message l)
      | .ok mutation => .ok (mutation, l)

/-- The whole connection. -/
def relay (config : EngineConfig) (session : Session) (l : Link) : Link :=
  match greet session l with
  | .error l => l
  | .ok (mutation, l) => serve config ⟨session.instanceId, session.declaredState, mutation⟩ l

end InstanceResize.Relay
