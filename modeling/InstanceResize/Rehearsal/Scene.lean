import InstanceResize.Rehearsal.Stage
import InstanceResize.Relay.Session
import InstanceResize.Server.Config
import InstanceResize.Server.Respond

/-!
# Scenes

A scene is a provider in virtual time together with an engine configuration. Things happen in it
one after the other, and each leaves the scene as the next one finds it.

* `Scene.perform`: a program of the engine, watched and perhaps cancelled.
* `Scene.request`: a request to the server.
* `Scene.relay` and `Scene.socket`: a connection for a workflow, directly or by way of the server.
-/

namespace InstanceResize

/-- A provider in virtual time, and how workflows are run on it. -/
structure Scene where
  world : World
  config : EngineConfig

/-- How a program is watched and cancelled. -/
structure Watch where
  /-- Whether the events go through a channel. -/
  viaChannel : Bool
  /-- Events that were there before. -/
  before : List Event
  /-- After how many milliseconds the program is cancelled. -/
  cancelAfter : Option Nat
  /-- The name of a call, and which call of that name cancels the program, counted from one. -/
  cancelOn : Option (String × Nat)

/-- What came of a program. -/
structure Performance (α : Type) where
  outcome : α
  events : List Event
  terminated : Bool

namespace Scene

/-- The scene of a provider whose calls take the given times. -/
def new (provider : Provider) (latency : List (String × Nat)) (config : EngineConfig) : Scene :=
  ⟨⟨0, provider, latency, []⟩, config⟩

/-- The scene of a server with the given configuration. -/
def ofConfig (c : ServerConfig) : Scene :=
  new (.simulated (.ofSetup c.simulated)) [] c.workflow

/-- Time passes. -/
def elapse (s : Scene) (ms : Nat) : Scene := { s with world := s.world.elapse ms }

/-- A call, unless it brings the caller down. -/
def call (s : Scene) (c : Call) : Option c.Reply × Scene :=
  let (reply, world) := s.world.call c
  (reply, { s with world })

/-- The sink that a program is watched with. -/
def sink (w : Watch) : Sink :=
  w.before.foldl Sink.emit (if w.viaChannel then .channel .empty else .collector .empty)

/-- Runs a program, unless a call brings it down. -/
def perform {α : Type} (s : Scene) (w : Watch) (p : Program α) :
    Option (Performance α) × Scene :=
  let stage : Stage :=
    { world := s.world
      sink := sink w
      cancelAt := w.cancelAfter.map s.world.after
      trigger := w.cancelOn.map fun (name, nth) => (name, nth - 1) }
  let (outcome, stage) := stage.play p
  (outcome.map fun outcome => ⟨outcome, stage.sink.events, stage.sink.terminated⟩,
    { s with world := stage.world })

/-- Runs a program that nobody watches. -/
def performQuietly {α : Type} (s : Scene) (p : Program α) : Option α × Scene :=
  let (performance, s) := s.perform ⟨false, [], none, none⟩ p
  (performance.map (·.outcome), s)

/-- The response to a request. -/
def request (s : Scene) (r : Server.HttpRequest) : Option Server.Response × Scene :=
  s.performQuietly (Server.respond s.world.provider.name r)

/-- The frames that a client gets, and the connection when it is over. -/
def relay (s : Scene) (session : Relay.Session) (arrivals : List (Nat × Relay.Arrival))
    (budget : Option Nat) : List (Nat × Relay.Frame) × Relay.Link :=
  let link := Relay.relay s.config session (.new s.world arrivals budget)
  (link.sent.reverse, link)

/-- The scene after a connection. -/
def after (s : Scene) (link : Relay.Link) : Scene := { s with world := link.world }

/-- How long a server is left alone after a connection. -/
def afterglow : Nat := 3600000

/-- When a connection is over: if the client just left, at that moment. -/
def overAt (arrivals : List (Nat × Relay.Arrival)) (start : Nat) (link : Relay.Link) : Nat :=
  let left := arrivals.any fun (time, a) =>
    a = .leave ∧ link.goneAt = some (start + time)
  if left then link.goneAt.getD link.world.now else link.world.now

/-- A connection by way of the server: its frames, or the response that refuses it. -/
def socket (s : Scene) (target : String) (arrivals : List (Nat × Relay.Arrival)) :
    Except (Option Server.Response) (List (Nat × Relay.Frame)) × Scene :=
  match Server.connect s.world.provider.name target with
  | .error program =>
    let (response, s) := s.performQuietly program
    (.error response, s)
  | .ok session =>
    let start := s.world.now
    let (frames, link) := s.relay session arrivals none
    let world := { link.world with now := overAt arrivals start link + afterglow }
    (.ok (frames.filter (·.2 ≠ .ended)), { s with world })

end Scene

end InstanceResize
