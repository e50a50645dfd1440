import InstanceResize.Proofs.Relay.Greeting
import InstanceResize.Proofs.Run.Stream

/-!
# A workflow over a connection

Once a client has named its target the engine runs. The calls it makes and the messages it emits are
those of a run that is cancelled when the client is found to be gone.

* `Conducted`: a run of the engine over a connection.
* `Relayed.conducted`: a connection on which a target was named conducts a run of the engine.
-/

namespace InstanceResize.Relay

open Engine

variable {config : EngineConfig} {request : Request} {session : Session} {world : World}
  {rest : List (Nat × Arrival)} {budget : Option Nat} {t : List Moment}
  {r : Except RunError Workflow} {atEnd before l l' : Link}

/-- Every call of the engine is answered. -/
theorem Served.exists_result {α : Type} {p : Program α} {result : Option α}
    (h : Served p l result l') (steady : l.world.provider.Steady) : ∃ a, result = some a := by
  induction h with
  | done a l => exact ⟨a, rfl⟩
  | @call c next l l₁ l' world r result meanwhile answer rest ih =>
    have left := steady.answer c
    rw [meanwhile.answer_eq answer] at left
    exact ih left
  | @down c next l l₁ world meanwhile answer =>
    obtain ⟨r, answered⟩ := steady.exists_reply c
    rw [meanwhile.answer_eq answer] at answered
    cases answered
  | wait meanwhile rest ih => exact ih (meanwhile.kept.provider ▸ steady)
  | cancelled rest ih => exact ih steady
  | emit rest ih => exact ih steady

/-- The end of a connection does not touch the world. -/
theorem Ended.world_eq (h : Ended l l') : l'.world = l.world := by
  cases h with
  | gone gone => rfl
  | closed here finished => exact (send_eq l .close).2.2.1
  | broken here unfinished empty => exact world_fail _ _ l

/-- A run of the engine over a connection: what happens in it, its result, the connection when the
run is over, and the connection before it ends. -/
structure Conducted (config : EngineConfig) (request : Request) (world : World) (t : List Moment)
    (r : Except RunError Workflow) (atEnd before : Link) : Prop where
  happens : (run config request).Happens t r
  replies : world.provider.Replies (exchanges t) before.world.provider
  calls : before.world.calls = world.calls ++ begun t
  /-- The run is cancelled if the client is found to be gone before it is over. -/
  gone : atEnd.isGone = wasCancelled t
  goes : GoesOn atEnd before
  conveys : ∃ done, Conveys (emitted t ++ [outcomeEvent r]) done before

/-- The events of a run are all let through. -/
theorem Conducted.throughTerminal_eq (h : Conducted config request world t r atEnd before) :
    throughTerminal (emitted t ++ [outcomeEvent r]) = emitted t ++ [outcomeEvent r] ∧
      ∀ e ∈ emitted t, e.isTerminal = false := by
  have calm : ∀ e ∈ emitted t, e.isTerminal = false := by
    rcases h.happens with runs | ⟨u, rfl, runs⟩
    · exact fun e => isTerminal_of_mem_emitted runs
    · exact fun e he => isTerminal_of_mem_emitted runs (by simpa using he)
  refine ⟨?_, calm⟩
  rw [throughTerminal_append calm, throughTerminal_cons_of_terminal (isTerminal_outcomeEvent r)]

/-- A run that goes on after it could be cancelled before its start. -/
theorem happens_of_runs {b : Bool} (h : (run config request).Runs b t r) :
    (run config request).Happens (strike b ++ t) r := by
  cases b with
  | true => exact .inr ⟨t, rfl, h⟩
  | false => exact .inl h

/-- The connection of a client that has named its target. -/
def started (world : World) (rest : List (Nat × Arrival)) (budget : Option Nat) (now : Nat) :
    Link :=
  { atTime (.new world rest budget) now with events := .empty, pingAt := now + Link.heartbeat }

theorem conveys_started (world : World) (rest : List (Nat × Arrival)) (budget : Option Nat)
    (now : Nat) : Conveys [] [] (started world rest budget now) where
  readable := rfl
  terminated := rfl
  records := rfl
  early := List.prefix_rfl
  waiting _ := rfl
  finished _ := rfl
  untold _ := rfl

section

variable {mutation : Mutation} {now : Nat}

/-- A connection on which a target was named goes along with a run of the engine, as far as the
engine gets. That is the whole run if every call is answered. -/
theorem Relayed.traced (h : Relayed config session l l')
    (named : greet session l = .ok (mutation, atTime (.new world rest budget) now)) :
    ∃ b t u r atEnd before,
      (execute config ⟨session.instanceId, session.declaredState, mutation⟩).Runs b (t ++ u) r ∧
      Traced (started world rest budget now) (strike b ++ t) atEnd ∧ GoesOn atEnd before ∧
      Ended before l' ∧ (world.provider.Steady → u = [] ∧
        world.provider.Replies (exchanges (strike b ++ t)) before.world.provider) := by
  cases h with
  | turnedAway turned => exact absurd (named.symm.trans turned) nofun
  | @served m l₀ l₁ l₂ l₃ _ result named' goes served after ended =>
    obtain ⟨rfl, rfl⟩ : m = mutation ∧ l₀ = atTime (.new world rest budget) now := by
      simpa using named'.symm.trans named
    have kept : l₁.world.provider = world.provider := goes.kept.provider
    obtain ⟨t, u, r, runs, traced, whole⟩ := served.traced
    have start : Traced (started world rest budget now) (strike l₁.isGone) l₁ := goes.traced
    refine ⟨l₁.isGone, t, u, r, l₂, l₃, runs, start.trans traced, after, ended, fun steady => ?_⟩
    obtain ⟨a, rfl⟩ := served.exists_result (kept ▸ steady)
    obtain ⟨rfl, rfl, replies⟩ := whole a rfl
    rw [exchanges_append, exchanges_strike, List.nil_append, after.kept.provider, ← kept]
    exact ⟨rfl, replies⟩

/-- No more is asked of the provider than in the run. -/
theorem Traced.calls_eq {b : Bool}
    (h : Traced (started world rest budget now) (strike b ++ t) atEnd) (goes : GoesOn atEnd before)
    (ended : Ended before l') : l'.world.calls = world.calls ++ begun t := by
  rw [ended.world_eq, goes.kept.calls_eq, h.calls, begun_append, begun_strike]
  rfl

/-- A connection on which a target was named conducts a run of the engine. -/
theorem Relayed.conducted (h : Relayed config session l l')
    (named : greet session l = .ok (mutation, atTime (.new world rest budget) now))
    (steady : world.provider.Steady) :
    ∃ t r atEnd before,
      Conducted config ⟨session.instanceId, session.declaredState, mutation⟩ world t r atEnd
        before ∧
      Ended before l' ∧ (Stays (.new world rest budget) → Stays before) := by
  obtain ⟨b, t, u, r, atEnd, before, runs, traced, goes, ended, whole⟩ := h.traced named
  obtain ⟨rfl, replies⟩ := whole steady
  rw [List.append_nil] at runs
  obtain ⟨t, rfl, ran⟩ := runs_execute_iff.mp runs
  obtain ⟨done, conveys⟩ := traced.conveys (conveys_started world rest budget now)
  obtain ⟨done', conveys⟩ := goes.conveys conveys
  refine ⟨strike b ++ t, r, atEnd, before, ?_, ended, fun stays => ?_⟩
  · exact {
      happens := happens_of_runs ran
      replies := by simpa using replies
      calls := by
        rw [← congrArg World.calls ended.world_eq, traced.calls_eq goes ended]
        simp
      gone := by simpa [started, atTime, Link.new, Link.isGone] using traced.gone
      goes := goes
      conveys := ⟨done', by simpa using conveys⟩ }
  · exact goes.stays (traced.stays ⟨stays.here, stays.unbounded, stays.loyal⟩)

end

/-! ## A session -/

/-- A provider that takes its time for a change. -/
def slowWorld : World :=
  ⟨0, .scripted ⟨[.ok .stopped, .ok .running], none, none, none, none, none, [], [], [], []⟩,
    [("modify_instance_type", 40000)], []⟩

theorem steady_slowWorld : slowWorld.provider.Steady := Provider.steady_of_ne_raw nofun

/-- A client connects to resize an instance that runs. -/
def briefSession : Session := ⟨"i-1", "running", .resize⟩

end InstanceResize.Relay
