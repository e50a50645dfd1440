import InstanceResize.Proofs.Progress.Delivery
import InstanceResize.Proofs.Run.Dialogue

/-!
# What a watcher of a workflow is told

The events of a workflow follow from its calls. There is a message for each reading of a wait, and
one about the origin if a reading shows another one than the declared one. At the end there is one
terminal event, which says how the workflow ended.

* `announced`: the messages that go with the calls of a run.
* `Course.emitted_eq`: a run emits these messages.
* `Dialogue.messages`: the messages that go with a dialogue, part by part.
* `stream_of_execute`: what a fresh sink delivers of a workflow.
-/

namespace InstanceResize.Engine

/-! ## Messages and calls -/

/-- The reading of an exchange, if it is one. -/
def reading? : Exchange → Option Reading
  | ⟨.status _, r⟩ => some r
  | _ => none

/-- The messages about the readings among exchanges. -/
def notices (es : List Exchange) : List Event :=
  (es.filterMap reading?).map fun r => .message (report r)

/-- The message about an origin that is not the declared one, if a reading shows such an origin. -/
def originNotice (config : EngineConfig) (request : Request) (confirmation : Option Reading) :
    List Event :=
  match declared? config request, confirmation.bind originOf with
  | some declared, some observed =>
    if observed ≠ declared then
      [.message ("instance is " ++ observed.name ++ ", not " ++ declared.name)]
    else []
  | _, _ => []

/-- The messages that go with exchanges. If the origin is to be confirmed, the first exchange does
so. -/
def announced (config : EngineConfig) (request : Request) : List Exchange → List Event
  | [] => []
  | x :: es =>
    if config.verifyOrigin then originNotice config request (reading? x) ++ notices es
    else notices (x :: es)

section

variable {config : EngineConfig} {request : Request}

@[simp] theorem reading?_readingOf (id : String) (r : Reading) :
    reading? (readingOf id r) = some r := rfl

@[simp] theorem reading?_ofMutation (id : String) (m : Mutation)
    (r : (Call.ofMutation id m).Reply) : reading? ⟨Call.ofMutation id m, r⟩ = none := by
  cases m <;> rfl

@[simp] theorem notices_nil : notices [] = [] := rfl

theorem notices_cons (x : Exchange) (es : List Exchange) :
    notices (x :: es) =
      (reading? x).toList.map (fun r => .message (report r)) ++ notices es := by
  cases h : reading? x <;> simp [notices, h]

@[simp] theorem notices_append (es fs : List Exchange) :
    notices (es ++ fs) = notices es ++ notices fs := by
  simp [notices]

@[simp] theorem notices_map_readingOf (id : String) (rs : List Reading) :
    notices (rs.map (readingOf id)) = rs.map fun r => .message (report r) := by
  induction rs with
  | nil => rfl
  | cons r rs ih => exact congrArg (_ :: ·) ih

theorem announced_of_trusted (h : config.verifyOrigin = false) (es : List Exchange) :
    announced config request es = notices es := by
  cases es with
  | nil => rfl
  | cons x es => rw [announced, if_neg (by simp [h])]

theorem announced_of_verified (h : config.verifyOrigin = true) (x : Exchange)
    (es : List Exchange) : announced config request (x :: es) =
      originNotice config request (reading? x) ++ notices es := by
  rw [announced, if_pos h]

end

/-! ## The messages of a run -/

variable {config : EngineConfig} {request : Request} {o : Origin} {b : Bool} {t : List Moment}

@[simp] theorem emitted_round (id : String) (policy : PollPolicy) (r : Reading) (struck : Bool) :
    emitted (round id policy r struck) = [.message (report r)] := by
  simp [round]

@[simp] theorem emitted_rounds (id : String) (policy : PollPolicy) (rs : List Reading) :
    emitted (rounds id policy rs) = rs.map fun r => .message (report r) := by
  induction rs with
  | nil => rfl
  | cons r rs ih => simp [ih]

/-- A wait emits a message for each reading. -/
theorem Waited.emitted_eq {id : String} {target : State} {policy : PollPolicy} {n : Nat}
    {v : Except PollError State} (h : Waited id target policy n b t v) :
    emitted t = notices (exchanges t) := by
  cases h with
  | off => rfl
  | asleep rs undecided left => simp
  | reading rs r undecided open_ left => simp [notices_cons]
  | decided rs r v struck undecided decides left => simp [notices_cons]
  | exhausted rs r struck undecided open_ left => simp [notices_cons]

/-- Nothing is emitted about a call that brings an instance to a state. -/
theorem Brought.emitted_eq {w : Workflow} {target : State} {c : Call} {policy : PollPolicy}
    {r : Except RunError Unit} (hc : ∀ x : c.Reply, reading? ⟨c, x⟩ = none)
    (h : Brought w target c policy b t r) : emitted t = notices (exchanges t) := by
  cases h with
  | off => rfl
  | declined e struck => simp [notices_cons, hc]
  | awaited x wait => simp [notices_cons, hc, wait.emitted_eq]

theorem Quiesced.emitted_eq {r : Except RunError Unit} (h : Quiesced config request o b t r) :
    emitted t = notices (exchanges t) := by
  cases h with
  | already => rfl
  | halted brought => exact brought.emitted_eq fun _ => rfl

theorem Restored.emitted_eq {r : Except RunError Unit} (h : Restored config request o b t r) :
    emitted t = notices (exchanges t) := by
  cases h with
  | already => rfl
  | restarted brought => exact brought.emitted_eq fun _ => rfl

theorem Changed.emitted_eq {w : Workflow} {r : Except RunError Unit} (h : Changed w b t r) :
    emitted t = notices (exchanges t) := by
  cases h with
  | off => rfl
  | declined e struck => simp [notices_cons]
  | made x struck => simp [notices_cons]

theorem emitted_correction {declared observed : Origin} {s : Status}
    (declares : declared? config request = some declared)
    (fit : Origin.ofState? s.state = some observed) :
    emitted (correction declared observed) = originNotice config request (some (.ok s)) := by
  simp only [originNotice, correction, declares, Option.bind_some, originOf, fit]
  split <;> rfl

/-- An opening that succeeds emits what is announced, and leaves the rest to the readings. -/
theorem Opened.announced_append (h : Opened config request b t (.ok o)) (es : List Exchange) :
    announced config request (exchanges t ++ es) = emitted t ++ notices es := by
  cases h with
  | trusted declared valid known verify => exact announced_of_trusted verify es
  | @confirmed declared _ _ valid known verify confirmed =>
    cases confirmed with
    | read s observed struck once fit =>
      have said : exchanges (exchange (.status request.instanceId) (.ok s) struck ++
          correction declared o) ++ es = readingOf request.instanceId (.ok s) :: es := by
        simp [readingOf]
      rw [said, announced_of_verified verify, reading?_readingOf, emitted_append, emitted_exchange,
        List.nil_append, emitted_correction (declared?_eq_some valid known) fit]

/-- An opening that fails emits nothing. -/
theorem Opened.emitted_of_error {e : RunError} (h : Opened config request b t (.error e)) :
    emitted t = announced config request (exchanges t) := by
  cases h with
  | misconfigured r invalid => rfl
  | undeclared r valid unknown => rfl
  | confirmed valid known verify confirmed =>
    cases confirmed with
    | unread e struck once =>
      rw [exchanges_exchange, announced_of_verified verify, emitted_exchange]
      simp [originNotice, reading?, originOf]
    | unfit s struck once fit =>
      rw [exchanges_exchange, announced_of_verified verify, emitted_exchange]
      simp [originNotice, reading?, originOf, fit]

/-- A run emits the messages that go with its calls. -/
theorem Course.emitted_eq {r : Except RunError Workflow} (h : Course config request b t r) :
    emitted t = announced config request (exchanges t) := by
  cases h with
  | unopened opened => exact opened.emitted_of_error
  | unquiesced opened quiesced =>
    rw [exchanges_append, opened.announced_append, emitted_append, quiesced.emitted_eq]
  | unchanged opened quiesced changed =>
    simp only [exchanges_append, emitted_append, List.append_assoc, opened.announced_append,
      notices_append, quiesced.emitted_eq, changed.emitted_eq]
  | unrestored opened quiesced changed restored =>
    simp only [exchanges_append, emitted_append, List.append_assoc, opened.announced_append,
      notices_append, quiesced.emitted_eq, changed.emitted_eq, restored.emitted_eq]
  | finished opened quiesced changed restored =>
    simp only [exchanges_append, emitted_append, List.append_assoc, opened.announced_append,
      notices_append, quiesced.emitted_eq, changed.emitted_eq, restored.emitted_eq]

/-! ## The messages of a dialogue -/

namespace Dialogue

variable {d : Dialogue request}

/-- The messages that go with a dialogue: the one about the origin, if it is not the declared one,
and one for each reading of the waits. -/
def messages (config : EngineConfig) (d : Dialogue request) : List Event :=
  originNotice config request d.confirmation ++
    (d.stop.readings ++ d.start.readings).map fun r => .message (report r)

theorem notices_leg {c : Call} (hc : ∀ x : c.Reply, reading? ⟨c, x⟩ = none) (leg : Leg c)
    (id : String) : notices (leg.exchanges id) = leg.readings.map fun r => .message (report r) := by
  cases ha : leg.answer <;> simp [Leg.exchanges, ha, notices_cons, hc]

/-- Nothing is said by a dialogue whose origin is to be confirmed and is not read. -/
theorem Lawful.unread (h : d.Lawful config) (verify : config.verifyOrigin = true)
    (unread : d.confirmation = none) :
    d.stop = .skipped ∧ d.change = none ∧ d.start = .skipped := by
  have unknown : d.origin? config = none := by
    simp [origin?, established?, verify, unread]
  refine ⟨Classical.not_not.mp fun made => ?_, Classical.not_not.mp fun made => ?_,
    Classical.not_not.mp fun made => ?_⟩
  · have known := h.halts made
    rw [unknown] at known
    cases known
  · obtain ⟨o, known, -⟩ := h.changes made
    rw [unknown] at known
    cases known
  · have known := (h.restarts made).1
    rw [unknown] at known
    cases known

/-- What goes with the calls of a lawful dialogue goes with its parts. -/
theorem Lawful.announced_eq (h : d.Lawful config) :
    announced config request d.exchanges = d.messages config := by
  have rest : notices (d.stop.exchanges request.instanceId ++
      d.change.toList.map (Exchange.mk (.ofMutation request.instanceId request.mutation)) ++
      d.start.exchanges request.instanceId) =
      (d.stop.readings ++ d.start.readings).map fun r => .message (report r) := by
    rw [notices_append, notices_append, notices_leg fun _ => rfl, notices_leg fun _ => rfl]
    cases d.change <;> simp [notices]
  cases verify : config.verifyOrigin with
  | false =>
    have none_read : d.confirmation = none := Classical.not_not.mp fun read =>
      absurd (verify.symm.trans (h.confirmation read)) nofun
    rw [announced_of_trusted verify, messages, ← rest, exchanges, none_read]
    simp [originNotice]
  | true =>
    cases read : d.confirmation with
    | none =>
      obtain ⟨stop, change, start⟩ := h.unread verify read
      simp [exchanges, messages, read, stop, change, start, announced, originNotice, Leg.skipped,
        Leg.exchanges]
    | some r =>
      have said : d.exchanges = readingOf request.instanceId r ::
          (d.stop.exchanges request.instanceId ++
            d.change.toList.map (Exchange.mk (.ofMutation request.instanceId request.mutation)) ++
            d.start.exchanges request.instanceId) := by
        simp [exchanges, read]
      rw [said, announced_of_verified verify, reading?_readingOf, rest, messages, read]

end Dialogue

/-! ## The end of a workflow -/

/-- A run, and then the event that says how it ended. -/
theorem execute_eq : execute config request =
    (run config request).bind fun r => .emit (outcomeEvent r) (.done r) := rfl

/-- The runs of a workflow are the runs of the engine, with the event at their end. -/
theorem runs_execute_iff {r : Except RunError Workflow} :
    (execute config request).Runs b t r ↔
      ∃ u, t = u ++ [.emit (outcomeEvent r)] ∧ (run config request).Runs b u r := by
  rw [execute_eq, Program.runs_bind]
  constructor
  · rintro ⟨u, r', v, rfl, hu, hv⟩
    obtain ⟨w, rfl, hw⟩ := Program.runs_emit.mp hv
    obtain ⟨rfl, rfl⟩ := Program.runs_done.mp hw
    exact ⟨u, rfl, hu⟩
  · rintro ⟨u, rfl, hu⟩
    exact ⟨u, r, _, rfl, hu, .emit (.done _ r)⟩

theorem isTerminal_outcomeEvent (r : Except RunError Workflow) :
    (outcomeEvent r).isTerminal = true := by
  cases r <;> rfl

/-- The messages of a run are not terminal. -/
theorem isTerminal_of_mem_messages {d : Dialogue request} {e : Event}
    (h : e ∈ d.messages config) : e.isTerminal = false := by
  rw [Dialogue.messages, List.mem_append, List.mem_map] at h
  rcases h with h | ⟨r, -, rfl⟩
  · simp only [originNotice] at h
    split at h
    · split at h
      · rw [List.mem_singleton.mp h]
        rfl
      · cases h
    · cases h
  · rfl

/-- A run of the engine emits nothing but messages. -/
theorem isTerminal_of_mem_emitted {r : Except RunError Workflow}
    (h : (run config request).Runs b t r) {e : Event} (he : e ∈ emitted t) :
    e.isTerminal = false := by
  have course := course_of_runs h
  obtain ⟨d, said, lawful, -⟩ := course.dialogue
  rw [course.emitted_eq, said, lawful.announced_eq] at he
  exact isTerminal_of_mem_messages he

theorem result_execute (outside : Outside) :
    outside.result (execute config request) = outside.result (run config request) := by
  rw [Outside.result, execute_eq, Outside.runAfter_bind, Outside.runAfter_emit]
  rfl

theorem chronicle_execute (outside : Outside) :
    outside.chronicle (execute config request) = outside.chronicle (run config request) ++
      [.emit (outcomeEvent (outside.result (run config request)))] := by
  rw [Outside.chronicle, execute_eq, Outside.runAfter_bind, Outside.runAfter_emit]
  rfl

/-- Whatever the provider answers and whenever somebody cancels a workflow, a fresh sink delivers
the messages that go with its calls, then the one event that says how it ended, and nothing else. -/
theorem stream_of_execute (config : EngineConfig) (request : Request) (outside : Outside) :
    ∃ (d : Dialogue request) (last : Event),
      exchanges (outside.chronicle (execute config request)) = d.exchanges ∧
      d.Lawful config ∧
      outside.result (execute config request) = outside.result (run config request) ∧
      (∀ sink, Sink.Fresh sink →
        ((emitted (outside.chronicle (execute config request))).foldl Sink.emit sink).events =
          d.messages config ++ [last]) ∧
      (∀ e ∈ d.messages config, e.isTerminal = false) ∧
      (last = .success ↔ ∃ w, outside.result (run config request) = .ok w) ∧
      ∀ e, outside.result (run config request) = .error e →
        last = .failure e.message (some e.cause) := by
  obtain ⟨b, t, h, told⟩ := outside.exists_runs_chronicle (run config request)
  have course := course_of_runs h
  obtain ⟨d, said, lawful, -⟩ := course.dialogue
  have before : exchanges (outside.chronicle (run config request)) = exchanges t ∧
      emitted (outside.chronicle (run config request)) = emitted t := by
    rw [told]
    cases b <;> simp
  have events : emitted (outside.chronicle (execute config request)) =
      d.messages config ++ [outcomeEvent (outside.result (run config request))] := by
    rw [chronicle_execute, emitted_append, before.2, course.emitted_eq, said, lawful.announced_eq]
    rfl
  refine ⟨d, outcomeEvent (outside.result (run config request)), ?_, lawful,
    result_execute outside, fun sink fresh => ?_, fun e => isTerminal_of_mem_messages, ?_, ?_⟩
  · rw [chronicle_execute, exchanges_append, before.1, said]
    simp
  · rw [fresh.events_foldl_emit, events,
      throughTerminal_append fun e => isTerminal_of_mem_messages,
      throughTerminal_cons_of_terminal (isTerminal_outcomeEvent _)]
  · cases outside.result (run config request) <;> simp [outcomeEvent, RunError.event]
  · intro e failed
    rw [failed]
    rfl

/-- What a listener gets of a run in which the instance is resized and does not start any more. -/
theorem stream_of_brief_run :
    ∃ outside : Outside, Sink.Fresh (.channel .empty) ∧
      ((emitted (outside.chronicle (execute briefConfig briefRequest))).foldl Sink.emit
        (.channel .empty)).events =
        [.message "stopped",
          .failure ("resize to t3.small was applied but the instance was not restarted: " ++
            "Provider call 'start' failed: Provider unreachable: down") (some .restoreFailed)] := by
  obtain ⟨outside, told, ended⟩ := Program.happens_iff.mp (.inl (runs_of_course course_brief))
  obtain ⟨d, last, said, lawful, -, delivered, -, -, failed⟩ :=
    stream_of_execute briefConfig briefRequest outside
  refine ⟨outside, .channel, ?_⟩
  rw [delivered _ .channel, failed _ ended, ← lawful.announced_eq, ← said, chronicle_execute, told]
  rfl

end InstanceResize.Engine
