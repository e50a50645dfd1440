import InstanceResize.Proofs.Relay.Conduct

/-!
# What a client that stays is told

A client that names a target and stays gets what somebody would who runs the workflow without a
connection in between: the same events in the same order, and then the connection is closed.

* `record_ne_transport`: the records of a run do not say that the connection failed.
* `Conducted.performed`: the run over the connection is the run without it.
* `faithful_of_relayed`: the connection is a faithful transport.
-/

namespace InstanceResize.Relay

open Engine

/-! ## The records of a run -/

theorem cause_ne_transport (e : RunError) : e.cause ≠ .transport := by
  cases e with
  | poll e => cases e <;> exact nofun
  | _ => exact nofun

/-- The record of a failure ends with the cause. -/
theorem exists_append_cause (text : String) (c : FailureCause) :
    ∃ front, (Event.schema.document (.failure text (some c))).json =
      front ++ (Json.quote c.name ++ ['\x7d']) := by
  have document : Event.schema.document (.failure text (some c)) =
      .table [("status", .text "failure"), ("message", .text text), ("cause", .text c.name)] := rfl
  refine ⟨'\x7b' :: (Json.quote "status" ++ ':' :: Json.quote "failure") ++
    ',' :: (Json.quote "message" ++ ':' :: Json.quote text) ++
    ',' :: Json.quote "cause" ++ [':'], ?_⟩
  rw [document]
  simp [Document.json, Document.jsonMembers, Json.commas]

/-- The records of a run do not say that the connection failed. -/
theorem record_ne_transport {e : Event}
    (h : e.isTerminal = false ∨ ∃ r, e = outcomeEvent r) (text : String) :
    record e ≠ record (.failure text (some .transport)) := by
  intro same
  have same : (Event.schema.document e).json =
      (Event.schema.document (.failure text (some .transport))).json :=
    String.ofList_injective (Frame.text.inj same)
  rcases h with calm | ⟨r | r, rfl⟩
  · cases e with
    | message said =>
      have opening : "\x7b\"status\":\"m".toList = "\x7b\"status\":\"f".toList :=
        congrArg (List.take 12) same
      exact absurd opening (by decide)
    | success => cases calm
    | failure said cause => cases calm
  · have unlike := cause_ne_transport r
    obtain ⟨front, said⟩ := exists_append_cause r.message r.cause
    obtain ⟨front', said'⟩ := exists_append_cause text .transport
    have last (front : List Char) (c : FailureCause) :
        (front ++ (Json.quote c.name ++ ['\x7d'])).reverse.take 4 =
          (Json.quote c.name ++ ['\x7d']).reverse.take 4 := by
      have long : 4 ≤ (Json.quote c.name ++ ['\x7d']).reverse.length := by cases c <;> decide
      rw [List.reverse_append, List.take_append_of_le_length long]
    have same : front ++ (Json.quote r.cause.name ++ ['\x7d']) =
        front' ++ (Json.quote FailureCause.transport.name ++ ['\x7d']) :=
      said.symm.trans (same.trans said')
    have ending := congrArg (fun cs => cs.reverse.take 4) same
    rw [last, last] at ending
    revert ending unlike
    cases r.cause <;> decide
  · have opening : "\x7b\"status\":\"s".toList = "\x7b\"status\":\"f".toList :=
      congrArg (List.take 12) same
    exact absurd opening (by decide)

/-! ## With a connection and without -/

variable {config : EngineConfig} {request : Request} {world : World} {t : List Moment}
  {r : Except RunError Workflow} {atEnd before l l' : Link}

/-- A run without a connection: nobody cancels it, and its events are kept. -/
def direct (world : World) (config : EngineConfig) (request : Request) :
    Option (Performance (Except RunError Workflow)) × Scene :=
  Scene.perform ⟨world, config⟩ ⟨false, [], none, none⟩ (execute config request)

/-- The run over the connection of a client that stays is the run without a connection. -/
theorem Conducted.performed (h : Conducted config request world t r atEnd before)
    (here : before.isGone = false) :
    ∃ performance scene, direct world config request = (some performance, scene) ∧
      performance.events = emitted t ++ [outcomeEvent r] ∧
      scene.world.calls = before.world.calls ∧
      scene.world.provider = before.world.provider := by
  have calm : wasCancelled t = false := by
    rw [← h.gone]
    cases gone : atEnd.isGone with
    | true => exact absurd (here.symm.trans (h.goes.kept.gone gone)) nofun
    | false => rfl
  have runs : (run config request).Runs false t r := by
    rcases h.happens with runs | ⟨u, rfl, -⟩
    · exact runs
    · cases calm
  have executed : (execute config request).Runs false (t ++ [.emit (outcomeEvent r)]) r :=
    runs_execute_iff.mpr ⟨t, rfl, runs⟩
  obtain ⟨left, performed, provider, calls, -⟩ :=
    Scene.perform_of_runs ⟨world, config⟩ executed (by simpa using calm)
      (by simpa using h.replies) false
  refine ⟨_, _, performed, ?_, ?_, provider⟩
  · simpa using h.throughTerminal_eq.1
  · rw [calls, h.calls]
    simp

/-- The client that stays gets all events of the run, and then the connection is closed. -/
theorem Conducted.frames_eq (h : Conducted config request world t r atEnd before)
    (ended : Ended before l') (stays : Stays before) :
    ∃ front, frames l' = front ++ [.close, .ended] ∧
      front.filter (· ≠ .ping) = (emitted t ++ [outcomeEvent r]).map record := by
  obtain ⟨through, -⟩ := h.throughTerminal_eq
  obtain ⟨done, conveys⟩ := h.conveys
  have told : (emitted t ++ [outcomeEvent r]).any Event.isTerminal = true := by
    simp [isTerminal_outcomeEvent]
  have waiting : done ++ before.events.queue = emitted t ++ [outcomeEvent r] :=
    (conveys.waiting stays.here).trans through
  have finished := conveys.finished stays.here
  cases ended with
  | gone gone => exact absurd (stays.here.symm.trans gone) nofun
  | closed here all =>
    refine ⟨frames before, ?_, ?_⟩
    · rw [frames_close, stays.unbounded, List.append_assoc]
      rfl
    · have empty : before.events.queue = [] :=
        eq_nil_of_throughTerminal_eq_append (conveys.waiting stays.here).symm
          (finished.symm.trans all)
      have whole : done = emitted t ++ [outcomeEvent r] := by
        rw [← waiting, empty, List.append_nil]
      rw [← whole]
      exact conveys.records
  | broken here unfinished empty =>
    rw [empty, List.append_nil] at waiting
    rw [waiting, told] at finished
    exact absurd (unfinished.symm.trans finished) nofun

/-- What a client gets that is told all of a run. -/
structure Delivered (events : List Event) (scene : Scene) (l : Link) : Prop where
  /-- All events in their order, with signs of life in between, then the end of the connection. -/
  frames : ∃ front, frames l = front ++ [.close, .ended] ∧
    front.filter (· ≠ .ping) = events.map record
  calls : l.world.calls = scene.world.calls
  provider : l.world.provider = scene.world.provider
  /-- Nothing is said about a connection that failed. -/
  unbroken : ∀ text, record (.failure text (some .transport)) ∉ Relay.frames l

/-- The connection of a client that stays delivers what somebody gets without a connection. -/
theorem Conducted.delivered (h : Conducted config request world t r atEnd before)
    (ended : Ended before l') (stays : Stays before) :
    ∃ performance scene, direct world config request = (some performance, scene) ∧
      performance.events = emitted t ++ [outcomeEvent r] ∧
      Delivered performance.events scene l' := by
  obtain ⟨performance, scene, done, events, calls, provider⟩ := h.performed stays.here
  obtain ⟨front, sent, records⟩ := h.frames_eq ended stays
  refine ⟨performance, scene, done, events, ⟨front, sent, by rw [records, events]⟩, ?_, ?_, ?_⟩
  · rw [calls, ended.world_eq]
  · rw [provider, ended.world_eq]
  · intro text mem
    rw [sent, List.mem_append] at mem
    rcases mem with mem | mem
    · have mem : record (.failure text (some .transport)) ∈
          (emitted t ++ [outcomeEvent r]).map record := by
        rw [← records]
        exact List.mem_filter.mpr ⟨mem, rfl⟩
      obtain ⟨e, he, same⟩ := List.mem_map.mp mem
      refine record_ne_transport ?_ text same
      rcases List.mem_append.mp he with he | he
      · exact .inl (h.throughTerminal_eq.2 e he)
      · exact .inr ⟨r, List.mem_singleton.mp he⟩
    · simp [record] at mem

/-- A client that names a valid target and stays gets what the workflow is told without a connection
in between: the events in their order, of which the last one alone is terminal, and then the
connection is closed. The provider is asked the same. This is so however the events, the client and
the signs of life take turns while the engine is in a call or a wait, and how far they get in it;
between calls and waits the engine goes on without a break. -/
theorem faithful_of_relayed (config : EngineConfig) (session : Session) (world : World)
    (steady : world.provider.Steady) {idle after : List (Nat × Arrival)} {time : Nat}
    {text : String} {target : Target} (mute : Mute idle) (soon : time < Link.patience)
    (parsed : Target.parse text = .ok target) (named : Text.trim target.text ≠ "")
    (loyal : ∀ x ∈ after, x.2.isFarewell = false) :
    ∃ performance scene,
      direct world config ⟨session.instanceId, session.declaredState,
        session.kind.make (Text.trim target.text)⟩ = (some performance, scene) ∧
      (∃ messages last, performance.events = messages ++ [last] ∧
        (∀ e ∈ messages, e.isTerminal = false) ∧ last.isTerminal = true) ∧
      Delivered performance.events scene (relay config session
        (.new world (idle ++ (time, .text text) :: after) none)) ∧
      ∀ link, Relayed config session (.new world (idle ++ (time, .text text) :: after) none) link →
        Delivered performance.events scene link := by
  obtain ⟨now, greets⟩ :=
    @greet_of_named idle after world none session time text target mute soon parsed named
  have stays : Stays (.new world after none) := by
    refine ⟨rfl, rfl, fun x hx => ?_⟩
    obtain ⟨y, hy, rfl⟩ := List.mem_map.mp hx
    exact loyal y hy
  obtain ⟨t, r, atEnd, before, conducted, ended, keeps⟩ :=
    (relayed_relay config session _).conducted greets steady
  obtain ⟨performance, scene, done, events, delivered⟩ := conducted.delivered ended (keeps stays)
  refine ⟨performance, scene, done, ⟨emitted t, outcomeEvent r, events,
    conducted.throughTerminal_eq.2, isTerminal_outcomeEvent r⟩, delivered, ?_⟩
  intro link relayed
  obtain ⟨t', r', atEnd', before', conducted', ended', keeps'⟩ := relayed.conducted greets steady
  obtain ⟨performance', scene', done', -, delivered'⟩ := conducted'.delivered ended' (keeps' stays)
  -- A run without a connection has one outcome only.
  obtain ⟨rfl, rfl⟩ : performance = performance' ∧ scene = scene' := by
    simpa using done.symm.trans done'
  exact delivered'

/-- The client greets, names its target, and does not wait silently. -/
def briefClient : List (Nat × Arrival) :=
  [(5, .ping)] ++ (100, .text " t3.small\n") :: [(30000, .text "hurry"), (35000, .pong)]

theorem faithful_of_brief_session :
    slowWorld.provider.Steady ∧ Mute [(5, .ping)] ∧
      Target.parse " t3.small\n" = .ok ⟨"t3.small"⟩ ∧ Text.trim "t3.small" ≠ "" ∧
      ∃ front, frames (relay briefConfig briefSession (.new slowWorld briefClient none)) =
          front ++ [.close, .ended] ∧
        front.filter (· ≠ .ping) =
          [record (.message "stopped"), record (.message "running"), record .success] := by
  have mute : Mute [(5, .ping)] := by simp [Mute, Link.patience]
  have parsed : Target.parse " t3.small\n" = .ok ⟨"t3.small"⟩ := rfl
  have named : Text.trim "t3.small" ≠ "" := by decide +kernel
  have soon : 100 < Link.patience := by decide
  have loyal : ∀ x ∈ [(30000, Arrival.text "hurry"), (35000, .pong)], x.2.isFarewell = false := by
    decide
  obtain ⟨performance, scene, done, -, delivered, -⟩ :=
    faithful_of_relayed briefConfig briefSession slowWorld steady_slowWorld mute soon parsed
      named loyal
  have events : (direct slowWorld briefConfig ⟨"i-1", "running",
      Mutation.Kind.make .resize (Text.trim "t3.small")⟩).1.map (·.events) =
      some [.message "stopped", .message "running", .success] := by decide +kernel
  have told : performance.events = [.message "stopped", .message "running", .success] := by
    have known := congrArg (fun x => x.1.map Performance.events) done
    exact Option.some.inj (known.symm.trans events)
  obtain ⟨front, sent, records⟩ := delivered.frames
  rw [told] at records
  exact ⟨steady_slowWorld, mute, parsed, named, front, sent, records⟩

end InstanceResize.Relay
