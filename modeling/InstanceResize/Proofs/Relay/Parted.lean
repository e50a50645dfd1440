import InstanceResize.Proofs.Relay.Conduct
import InstanceResize.Proofs.Run.Cancellation

/-!
# Clients that do not start a workflow, or leave it

A client that leaves before it names a target gets nothing, and one that names none or no valid one
is told so; the provider is asked nothing. A client that leaves a workflow gets the beginning of the
messages, and the workflow is cancelled.

* `Abandoned`: what becomes of a workflow whose client is found to be gone.
* `Parted`: what becomes of a connection, by what its client does first.
* `parted_of_relayed`: this becomes of every connection.
-/

namespace InstanceResize.Relay

open Engine

variable {config : EngineConfig} {request : Request} {session : Session} {world : World}
  {arrivals : List (Nat × Arrival)} {budget : Option Nat} {l l' : Link}

/-! ## Clients that leave a workflow -/

/-- A workflow whose client is found to be gone: what happens in its run, the result, and the
connection when the run is over. -/
structure Abandoned (config : EngineConfig) (request : Request) (world : World) (t : List Moment)
    (r : Except RunError Workflow) (atEnd l : Link) : Prop where
  happens : (run config request).Happens t r
  replies : world.provider.Replies (exchanges t) l.world.provider
  calls : l.world.calls = world.calls ++ begun t
  /-- The client got the first messages, and neither how the workflow ended nor a farewell. -/
  records : records l <+: (emitted t).map record
  messages : ∀ e ∈ emitted t, e.isTerminal = false
  /-- The run is cancelled if the client is found to be gone before it is over. -/
  cancelled : wasCancelled t = atEnd.isGone
  goes : GoesOn atEnd l
  /-- After that no call begins, apart from the reading of a run that had not begun. -/
  halted : ∀ pre post, t = pre ++ .cancel :: post →
    (begun post = [] ∨
      pre = [] ∧ config.verifyOrigin = true ∧ begun post = [.status request.instanceId]) ∧
    Obeyed config request pre post r

/-- The connection of a client that is gone ends without a farewell. -/
theorem Ended.eq_of_isGone (h : Ended l l') (gone : l'.isGone = true) :
    l' = l ∧ l.isGone = true := by
  cases h with
  | gone gone => exact ⟨rfl, gone⟩
  | closed here finished => exact absurd (here.symm.trans ((isGone_close l).symm.trans gone)) nofun
  | broken here unfinished empty =>
    exact absurd (here.symm.trans ((isGone_fail _ _ l).symm.trans gone)) nofun

theorem Conducted.abandoned {t : List Moment} {r : Except RunError Workflow} {atEnd before : Link}
    (h : Conducted config request world t r atEnd before) (ended : Ended before l')
    (gone : l'.isGone = true) : Abandoned config request world t r atEnd l' := by
  obtain ⟨rfl, left⟩ := ended.eq_of_isGone gone
  obtain ⟨through, calm⟩ := h.throughTerminal_eq
  obtain ⟨done, conveys⟩ := h.conveys
  have untold := conveys.untold left
  have early : done <+: emitted t ++ [outcomeEvent r] := through ▸ conveys.early
  have begins : done <+: emitted t := by
    rcases List.prefix_concat_iff.mp early with rfl | begins
    · simp [isTerminal_outcomeEvent] at untold
    · exact begins
  exact {
    happens := h.happens
    replies := h.replies
    calls := h.calls
    records := by
      rw [conveys.records]
      exact begins.map record
    messages := calm
    cancelled := h.gone.symm
    goes := h.goes
    halted := by
      rintro pre post rfl
      have obeyed := obeyed_of_happens h.happens
      exact ⟨obeyed.begun, obeyed⟩ }

/-! ## What a client does first -/

/-- What becomes of a connection, by what its client does first. -/
structure Parted (config : EngineConfig) (session : Session) (world : World)
    (arrivals : List (Nat × Arrival)) (budget : Option Nat) (l : Link) : Prop where
  /-- The client leaves in time before it names a target. It gets nothing, and nothing is done. -/
  left : ∀ idle time a rest, arrivals = idle ++ (time, a) :: rest → Mute idle →
    time < Link.patience → a.isFarewell = true →
    frames l = [] ∧ l.world.calls = world.calls ∧ l.world.provider = world.provider
  /-- The client does not name a target in time. -/
  late : ∀ idle rest, arrivals = idle ++ rest → Mute idle →
    (∀ x ∈ rest.head?, Link.patience ≤ x.1) →
    Refused world budget .transport "no target received within 10s" l
  /-- The client sends a message that cannot be read. -/
  malformed : ∀ idle time text rest reason, arrivals = idle ++ (time, .text text) :: rest →
    Mute idle → time < Link.patience → Target.parse text = .error reason →
    Refused world budget .invalidPrecondition reason l
  /-- The client names a target of which nothing is left. -/
  blank : ∀ idle time text rest target, arrivals = idle ++ (time, .text text) :: rest →
    Mute idle → time < Link.patience → Target.parse text = .ok target →
    Text.trim target.text = "" →
    Refused world budget .invalidPrecondition
      ("Validation error: " ++ (session.kind.name ++ " target must not be empty")) l
  /-- A change is only made to a target that is trimmed and not empty. -/
  trimmed : ∃ cs, l.world.calls = world.calls ++ cs ∧ ∀ c ∈ cs, c.isChange = true →
    ∃ target, target ≠ "" ∧ Text.trim target = target ∧
      c = .ofMutation session.instanceId (session.kind.make target)
  /-- The client names a target and is found to be gone. -/
  abandoned : world.provider.Steady → ∀ idle time text rest target,
    arrivals = idle ++ (time, .text text) :: rest → Mute idle → time < Link.patience →
    Target.parse text = .ok target → Text.trim target.text ≠ "" → l.isGone = true →
    ∃ t r atEnd, Abandoned config ⟨session.instanceId, session.declaredState,
      session.kind.make (Text.trim target.text)⟩ world t r atEnd l

/-- A connection without a workflow. -/
theorem Relayed.eq_of_error (h : Relayed config session l l') {l₁ : Link}
    (turned : greet session l = .error l₁) : l' = l₁ := by
  cases h with
  | turnedAway turned' => exact Except.error.inj (turned'.symm.trans turned)
  | served named before served after ended => exact absurd (named.symm.trans turned) nofun

/-- A change that is made in a run over a connection is the one that was asked for. -/
theorem Relayed.calls_eq {mutation : Mutation} {rest : List (Nat × Arrival)} {now : Nat}
    (h : Relayed config session l l')
    (named : greet session l = .ok (mutation, atTime (.new world rest budget) now)) :
    ∃ cs, l'.world.calls = world.calls ++ cs ∧
      ∀ c ∈ cs, c.isChange = true → c = .ofMutation session.instanceId mutation := by
  obtain ⟨b, t, u, r, atEnd, before, runs, traced, goes, ended, -⟩ := h.traced named
  refine ⟨begun t, traced.calls_eq goes ended, ?_⟩
  obtain ⟨v, whole, ran⟩ := runs_execute_iff.mp runs
  obtain ⟨d, said, -⟩ := (course_of_runs ran).dialogue
  intro c hc change
  have made : c ∈ begun (t ++ u) := by
    rw [begun_append]
    exact List.mem_append_left _ hc
  rw [whole, begun_append, ran.begun_eq, said] at made
  obtain ⟨x, hx, rfl⟩ : ∃ x ∈ d.exchanges, x.call = c := by simpa using made
  exact Dialogue.eq_ofMutation_of_isChange hx change

section

variable {idle rest : List (Nat × Arrival)} {time : Nat} {a : Arrival} {text reason : String}
  {target : Target}

theorem Relayed.left
    (h : Relayed config session (.new world (idle ++ (time, a) :: rest) budget) l)
    (mute : Mute idle) (soon : time < Link.patience) (farewell : a.isFarewell = true) :
    frames l = [] ∧ l.world.calls = world.calls ∧ l.world.provider = world.provider := by
  obtain ⟨now, greets⟩ := greet_of_farewell mute soon farewell
  rw [h.eq_of_error greets]
  exact ⟨rfl, rfl, rfl⟩

theorem Relayed.late (h : Relayed config session (.new world (idle ++ rest) budget) l)
    (mute : Mute idle) (late : ∀ x ∈ rest.head?, Link.patience ≤ x.1) :
    Refused world budget .transport "no target received within 10s" l := by
  obtain ⟨now, greets⟩ := greet_of_silence mute late
  rw [h.eq_of_error greets]
  exact refused_fail _ _ world rest budget now

theorem Relayed.malformed
    (h : Relayed config session (.new world (idle ++ (time, .text text) :: rest) budget) l)
    (mute : Mute idle) (soon : time < Link.patience)
    (parsed : Target.parse text = .error reason) :
    Refused world budget .invalidPrecondition reason l := by
  obtain ⟨now, greets⟩ := greet_of_malformed mute soon parsed
  rw [h.eq_of_error greets]
  exact refused_fail _ _ world rest budget now

theorem Relayed.blank
    (h : Relayed config session (.new world (idle ++ (time, .text text) :: rest) budget) l)
    (mute : Mute idle) (soon : time < Link.patience) (parsed : Target.parse text = .ok target)
    (blank : Text.trim target.text = "") :
    Refused world budget .invalidPrecondition
      ("Validation error: " ++ (session.kind.name ++ " target must not be empty")) l := by
  obtain ⟨now, greets⟩ := greet_of_blank mute soon parsed blank
  rw [h.eq_of_error greets]
  exact refused_fail _ _ world rest budget now

end

/-- A change is only made to a target that is trimmed and not empty. -/
theorem Relayed.trimmed (h : Relayed config session (.new world arrivals budget) l) :
    ∃ cs, l.world.calls = world.calls ++ cs ∧ ∀ c ∈ cs, c.isChange = true →
      ∃ target, target ≠ "" ∧ Text.trim target = target ∧
        c = .ofMutation session.instanceId (session.kind.make target) := by
  have nothing (same : l.world.calls = world.calls) :
      ∃ cs, l.world.calls = world.calls ++ cs ∧ ∀ c ∈ cs, c.isChange = true →
        ∃ target, target ≠ "" ∧ Text.trim target = target ∧
          c = .ofMutation session.instanceId (session.kind.make target) :=
    ⟨[], by rw [same, List.append_nil], nofun⟩
  obtain ⟨idle, rest, rfl, mute, begins⟩ := exists_mute arrivals
  cases begins with
  | silence late => exact nothing (h.late mute late).calls
  | farewell soon leaves => exact nothing (h.left mute soon leaves).2.1
  | @text time text rest soon =>
    cases parsed : Target.parse text with
    | error reason => exact nothing (h.malformed mute soon parsed).calls
    | ok target =>
      by_cases blank : Text.trim target.text = ""
      · exact nothing (h.blank mute soon parsed blank).calls
      · obtain ⟨now, greets⟩ := greet_of_named mute soon parsed blank
        obtain ⟨cs, calls, changes⟩ := h.calls_eq greets
        refine ⟨cs, calls, fun c hc change => ?_⟩
        exact ⟨Text.trim target.text, blank, Text.trim_trim _, changes c hc change⟩

theorem Relayed.parted (h : Relayed config session (.new world arrivals budget) l) :
    Parted config session world arrivals budget l where
  left := by
    rintro idle time a rest rfl mute soon farewell
    exact h.left mute soon farewell
  late := by
    rintro idle rest rfl mute late
    exact h.late mute late
  malformed := by
    rintro idle time text rest reason rfl mute soon parsed
    exact h.malformed mute soon parsed
  blank := by
    rintro idle time text rest target rfl mute soon parsed blank
    exact h.blank mute soon parsed blank
  trimmed := h.trimmed
  abandoned := by
    rintro steady idle time text rest target rfl mute soon parsed named gone
    obtain ⟨now, greets⟩ := greet_of_named mute soon parsed named
    obtain ⟨t, r, atEnd, before, conducted, ended, -⟩ := h.conducted greets steady
    exact ⟨t, r, atEnd, conducted.abandoned ended gone⟩

/-- Whatever a client does and when, and wherever it stops to accept what is sent, becomes of its
connection what it should. This is so however the events, the client and the signs of life take
turns while the engine is in a call or a wait, and how far they get in it; between calls and waits
the engine goes on without a break. -/
theorem parted_of_relayed (config : EngineConfig) (session : Session) (world : World)
    (arrivals : List (Nat × Arrival)) (budget : Option Nat) :
    Parted config session world arrivals budget
        (relay config session (.new world arrivals budget)) ∧
      ∀ link, Relayed config session (.new world arrivals budget) link →
        Parted config session world arrivals budget link :=
  ⟨(relayed_relay config session _).parted, fun _ h => h.parted⟩

/-- The client names its target and leaves while the change is made. -/
def leavingClient : List (Nat × Arrival) :=
  [(5, .binary)] ++ (100, .text "t3.small") :: [(20000, .close)]

/-- The client gets the message that the instance is stopped, and the instance is not started. -/
theorem parted_of_leaving_client :
    Relayed briefConfig briefSession (.new slowWorld leavingClient none)
        (relay briefConfig briefSession (.new slowWorld leavingClient none)) ∧
      slowWorld.provider.Steady ∧ Mute [(5, .binary)] ∧
      Target.parse "t3.small" = .ok ⟨"t3.small"⟩ ∧ Text.trim "t3.small" ≠ "" ∧
      (relay briefConfig briefSession (.new slowWorld leavingClient none)).isGone = true ∧
      frames (relay briefConfig briefSession (.new slowWorld leavingClient none)) =
        [record (.message "stopped")] ∧
      ∃ t r atEnd, begun t = [.stop "i-1", .status "i-1", .modify "i-1" "t3.small"] ∧
        Abandoned briefConfig ⟨"i-1", "running", Mutation.Kind.make .resize (Text.trim "t3.small")⟩
          slowWorld t r atEnd
          (relay briefConfig briefSession (.new slowWorld leavingClient none)) := by
  have relayed := relayed_relay briefConfig briefSession (.new slowWorld leavingClient none)
  have mute : Mute [(5, .binary)] := by simp [Mute, Link.patience]
  have parsed : Target.parse "t3.small" = .ok ⟨"t3.small"⟩ := rfl
  have named : Text.trim "t3.small" ≠ "" := by decide +kernel
  have gone :
      (relay briefConfig briefSession (.new slowWorld leavingClient none)).isGone = true := by
    decide +kernel
  have parted := parted_of_relayed briefConfig briefSession slowWorld leavingClient none
  obtain ⟨t, r, atEnd, abandoned⟩ :=
    (parted.2 _ relayed).abandoned steady_slowWorld [(5, .binary)] 100 "t3.small"
      [(20000, .close)] ⟨"t3.small"⟩ rfl mute (by decide) parsed named gone
  have calls : slowWorld.calls ++ begun t =
      [.stop "i-1", .status "i-1", .modify "i-1" "t3.small"] := by
    rw [← abandoned.calls]
    decide +kernel
  exact ⟨relayed, steady_slowWorld, mute, parsed, named, gone, by decide +kernel, t, r, atEnd,
    calls, abandoned⟩

end InstanceResize.Relay
