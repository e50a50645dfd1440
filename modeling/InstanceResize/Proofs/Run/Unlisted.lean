import InstanceResize.Proofs.Run.GivingUp
import InstanceResize.Proofs.Run.Recoded

/-!
# Codes that are not in the table

A reading whose code is not in the table shows nothing. No wait of a workflow ends with it, well or
badly, and it confirms no origin: the next call is another reading, or the workflow fails because it
has no more attempts, because the origin is not confirmed or because it was cancelled.

* `PassedOver`: what follows the readings whose codes are not in the table.
* `Waited.passedOver`, `Brought.passedOver`, `Course.passedOver`: waits, parts of workflows and
  whole runs pass over them.
* `Course.eq_unfit`: what comes of a run that is to confirm its origin with such a reading.
* `Overlooking`, `overlooking`: all of this in any surroundings.
* `lowByte_of_execute`: in surroundings that are the same but for codes, workflows do the same, and
  both overlook the codes that are not in the table.
-/

namespace InstanceResize

namespace Engine

variable {ε α β : Type} {id : String} {es fs : List Exchange}

/-- Something fails, and in a certain way. -/
def FailsWith (r : Except ε α) (how : ε → Prop) : Prop := ∃ e, r = .error e ∧ how e

/-- A reading whose code is not in the table is followed by another reading, or all ends there and
something holds. -/
def PassedOver (id : String) (es : List Exchange) (ended : Status → Prop) : Prop :=
  ∀ pre s post, es = pre ++ readingOf id (.ok s) :: post → State.Unlisted s.code →
    (∃ r rest, post = readingOf id r :: rest) ∨ post = [] ∧ ended s

section

variable {ended ended' : Status → Prop}

theorem PassedOver.mono (h : PassedOver id es ended) (weaker : ∀ s, ended s → ended' s) :
    PassedOver id es ended' := by
  intro pre s post split unlisted
  exact (h pre s post split unlisted).imp_right fun ⟨last, holds⟩ => ⟨last, weaker s holds⟩

/-- What succeeds does not end with such a reading. -/
theorem PassedOver.of_ok {a : α} {how : Status → ε → Prop}
    (h : PassedOver id es fun s => FailsWith (.ok a : Except ε α) (how s)) :
    PassedOver id es fun _ => False :=
  h.mono fun _ ⟨_, failed, _⟩ => nomatch failed

theorem PassedOver.append (first : PassedOver id es fun _ => False)
    (second : PassedOver id fs ended) : PassedOver id (es ++ fs) ended := by
  intro pre s post split unlisted
  -- The reading is in the second part, or it is in the first part, and then not at its end.
  rcases List.append_eq_append_iff.mp split with ⟨pre', -, there⟩ | ⟨_ | ⟨x, post'⟩, here, rest⟩
  · exact second pre' s post there unlisted
  · exact second [] s post rest.symm unlisted
  · obtain ⟨rfl, rfl⟩ := List.cons.inj rest
    rcases first pre s post' here unlisted with ⟨r, more, rfl⟩ | ⟨-, never⟩
    · exact .inl ⟨r, more ++ fs, rfl⟩
    · exact never.elim

theorem passedOver_nil : PassedOver id [] ended := by
  intro pre s post split
  simp at split

theorem passedOver_single {x : Exchange}
    (h : ∀ s, x = readingOf id (.ok s) → State.Unlisted s.code → ended s) :
    PassedOver id [x] ended := by
  intro pre s post split unlisted
  rcases pre with _ | ⟨y, pre⟩
  · obtain ⟨here, rfl⟩ := List.cons.inj split
    exact .inr ⟨rfl, h s here unlisted⟩
  · simp at split

/-- A call that is no reading. -/
theorem passedOver_call {c : Call} (other : c ≠ .status id) (r : c.Reply) :
    PassedOver id [⟨c, r⟩] ended :=
  passedOver_single fun _ same _ => absurd (congrArg Exchange.call same) other

/-- Among readings, it depends on the last one. -/
theorem passedOver_map_readingOf {rs : List Reading}
    (h : ∀ s, rs.getLast? = some (.ok s) → State.Unlisted s.code → ended s) :
    PassedOver id (rs.map (readingOf id)) ended := by
  intro pre s post split unlisted
  obtain ⟨pre', rest, rfl, -, split⟩ := List.map_eq_append_iff.mp split
  obtain ⟨x, post', rfl, here, rfl⟩ := List.map_eq_cons_iff.mp split
  obtain rfl : x = .ok s := by simpa [readingOf] using here
  cases post' with
  | nil => exact .inr ⟨rfl, h s (by simp) unlisted⟩
  | cons y more => exact .inl ⟨y, _, rfl⟩

end

/-! ## Waits -/

/-- How a wait ends if its last reading shows nothing: it was cancelled, or this was the last
reading that is allowed. -/
def FruitlessWait (target : State) (policy : PollPolicy) (t : List Moment) (s : Status)
    (e : PollError) : Prop :=
  e = .cancelled target ∧ wasCancelled t = true ∨
    e = .timeout policy.maxAttempts target s.name ∧
      (exchanges t).length = policy.maxAttempts.toNat

variable {target : State} {policy : PollPolicy} {s : Status}

/-- A reading whose code is not in the table decides about no state that it could show. -/
theorem verdict?_of_unlisted (known : target ≠ .unknown) (unlisted : State.Unlisted s.code) :
    verdict? target (.ok s) = none := by
  have shown : s.state = .unknown := State.ofCode_eq_unknown_iff.mpr unlisted
  have reach : State.canReach .unknown target = true := rfl
  simp [verdict?, shown, reach, known.symm]

theorem originOf_of_unlisted (unlisted : State.Unlisted s.code) : originOf (.ok s) = none := by
  have shown : s.state = .unknown := State.ofCode_eq_unknown_iff.mpr unlisted
  rw [originOf, shown]
  rfl

/-- The readings of a wait whose last round is told apart. -/
theorem exchanges_rounds_round (rs : List Reading) (r : Reading) (struck : Bool) :
    exchanges (rounds id policy rs ++ Engine.round id policy r struck) =
      (rs ++ [r]).map (readingOf id) := by
  simp

theorem Waited.passedOver {b : Bool} {t : List Moment} {v : Except PollError State}
    (known : target ≠ .unknown) (h : Waited id target policy policy.maxAttempts.toNat b t v) :
    PassedOver id (exchanges t) fun s => FailsWith v (FruitlessWait target policy t s) := by
  cases h with
  | off => exact passedOver_nil
  | asleep rs undecided left =>
    have said : exchanges (rounds id policy rs ++ [.rest policy.intervalMs, .cancel]) =
        rs.map (readingOf id) := by simp
    rw [said]
    exact passedOver_map_readingOf fun s _ _ => ⟨_, rfl, .inl ⟨rfl, by simp⟩⟩
  | reading rs r undecided open_ left =>
    rw [exchanges_rounds_round]
    exact passedOver_map_readingOf fun s _ _ => ⟨_, rfl, .inl ⟨rfl, by simp⟩⟩
  | decided rs r v struck undecided decides left =>
    rw [exchanges_rounds_round]
    refine passedOver_map_readingOf fun s last unlisted => ?_
    obtain rfl : r = .ok s := by simpa using last
    rw [verdict?_of_unlisted known unlisted] at decides
    cases decides
  | exhausted rs r struck undecided open_ left =>
    rw [exchanges_rounds_round]
    refine passedOver_map_readingOf fun s last unlisted => ⟨_, rfl, .inr ⟨?_, ?_⟩⟩
    · obtain rfl : r = .ok s := by simpa using last
      rfl
    · simpa using left

/-! ## Workflows -/

/-- How a workflow ends if its last reading shows nothing. -/
inductive Fruitless (config : EngineConfig) (request : Request) (t : List Moment) (s : Status) :
    RunError → Prop where
  /-- The reading does not confirm the origin. -/
  | unfit : Fruitless config request t s (.precondition (unfitText s))
  /-- It was the last one that is allowed in the wait for the stop. -/
  | unstopped :
    Fruitless config request t s (.poll (.timeout config.stopPoll.maxAttempts .stopped s.name))
  /-- It was the last one that is allowed in the wait for the start. -/
  | unstarted :
    Fruitless config request t s (.notRestored request.mutation.describe
      (.poll (.timeout config.startPoll.maxAttempts .running s.name)))
  | cancelled {e : RunError} (h : e.isCancellation = true) (struck : wasCancelled t = true) :
    Fruitless config request t s e

theorem Fruitless.mono {config : EngineConfig} {request : Request} {t u : List Moment}
    {e : RunError} (h : Fruitless config request t s e)
    (struck : wasCancelled t = true → wasCancelled u = true) :
    Fruitless config request u s e := by
  cases h with
  | unfit => exact .unfit
  | unstopped => exact .unstopped
  | unstarted => exact .unstarted
  | cancelled h cancelled => exact .cancelled h (struck cancelled)

/-- A workflow passes over readings that show nothing, or fails as it has to after one of them. -/
abbrev Overlooked (config : EngineConfig) (request : Request) (t : List Moment)
    (r : Except RunError α) : Prop :=
  PassedOver request.instanceId (exchanges t) fun s =>
    FailsWith r (Fruitless config request t s)

section

variable {config : EngineConfig} {request : Request} {o : Origin} {b : Bool} {t : List Moment}

theorem Brought.passedOver {w : Workflow} {c : Call} {r : Except RunError Unit}
    (known : target ≠ .unknown) (other : c ≠ .status w.instanceId)
    (h : Brought w target c policy b t r) :
    PassedOver w.instanceId (exchanges t) fun s => FailsWith r fun e =>
      e = .poll (.cancelled target) ∧ wasCancelled t = true ∨
        e = .poll (.timeout policy.maxAttempts target s.name) := by
  cases h with
  | off => exact passedOver_nil
  | declined e struck =>
    rw [exchanges_exchange]
    exact passedOver_call other _
  | awaited x wait =>
    rw [exchanges_append, exchanges_exchange]
    refine (passedOver_call other _).append ((wait.passedOver known).mono ?_)
    rintro s ⟨e, rfl, ⟨rfl, struck⟩ | ⟨rfl, -⟩⟩
    · exact ⟨_, rfl, .inl ⟨rfl, by simp [struck]⟩⟩
    · exact ⟨_, rfl, .inr rfl⟩

theorem Quiesced.passedOver {r : Except RunError Unit} (h : Quiesced config request o b t r) :
    Overlooked config request t r := by
  cases h with
  | already => exact passedOver_nil
  | halted brought =>
    have passed := brought.passedOver (by decide) (by simp)
    refine passed.mono ?_
    rintro s ⟨e, rfl, ⟨rfl, struck⟩ | rfl⟩
    · exact ⟨_, rfl, .cancelled rfl struck⟩
    · exact ⟨_, rfl, .unstopped⟩

theorem Restored.passedOver {r : Except RunError Unit} (h : Restored config request o b t r) :
    Overlooked config request t r := by
  cases h with
  | already => exact passedOver_nil
  | restarted brought =>
    have passed := brought.passedOver (by decide) (by simp)
    refine passed.mono ?_
    rintro s ⟨e, rfl, ⟨rfl, struck⟩ | rfl⟩
    · exact ⟨_, rfl, .cancelled rfl struck⟩
    · exact ⟨_, rfl, .unstarted⟩

theorem Changed.passedOver {r : Except RunError Unit} {ended : Status → Prop}
    (h : Changed (workflowIn request o .mutating) b t r) :
    PassedOver request.instanceId (exchanges t) ended := by
  have other :
      Call.ofMutation request.instanceId request.mutation ≠ .status request.instanceId := by
    intro same
    have change := Call.isChange_ofMutation request.instanceId request.mutation
    rw [same] at change
    cases change
  cases h with
  | off => exact passedOver_nil
  | declined e struck =>
    rw [exchanges_exchange]
    exact passedOver_call other _
  | made x struck =>
    rw [exchanges_exchange]
    exact passedOver_call other _

theorem Opened.passedOver {r : Except RunError Origin} (h : Opened config request b t r) :
    Overlooked config request t r := by
  cases h with
  | misconfigured x invalid => exact passedOver_nil
  | undeclared x valid unknown => exact passedOver_nil
  | trusted declared valid known verify => exact passedOver_nil
  | confirmed valid known verify confirmed =>
    cases confirmed with
    | unread e struck once =>
      rw [Overlooked, exchanges_exchange]
      exact passedOver_single fun s same => by simp [readingOf] at same
    | unfit x struck once fit =>
      rw [Overlooked, exchanges_exchange]
      refine passedOver_single fun s same _ => ⟨_, rfl, ?_⟩
      obtain rfl : x = s := by simpa [readingOf] using same
      exact .unfit
    | read x observed struck once fit =>
      rw [Overlooked, exchanges_append, exchanges_exchange, exchanges_correction, List.append_nil]
      refine passedOver_single fun s same unlisted => ?_
      obtain rfl : x = s := by simpa [readingOf] using same
      have none := originOf_of_unlisted unlisted
      rw [originOf, fit] at none
      cases none

/-- A run passes over the readings whose codes are not in the table. -/
theorem Course.passedOver {r : Except RunError Workflow} (h : Course config request b t r) :
    Overlooked config request t r := by
  -- A part that was cancelled is one of a run that was.
  have fails {α : Type} {e : RunError} {u v : List Moment}
      (struck : wasCancelled u = true → wasCancelled v = true) (s : Status)
      (h : FailsWith (.error e : Except RunError α) (Fruitless config request u s)) :
      FailsWith (.error e : Except RunError Workflow) (Fruitless config request v s) := by
    obtain ⟨_, same, fruitless⟩ := h
    obtain rfl := Except.error.inj same
    exact ⟨_, rfl, fruitless.mono struck⟩
  cases h with
  | unopened opened => exact opened.passedOver.mono (fails id)
  | unquiesced opened quiesced =>
    rw [Overlooked, exchanges_append]
    exact opened.passedOver.of_ok.append
      (quiesced.passedOver.mono (fails fun struck => by simp [struck]))
  | unchanged opened quiesced changed =>
    rw [Overlooked, exchanges_append, exchanges_append]
    exact (opened.passedOver.of_ok.append quiesced.passedOver.of_ok).append changed.passedOver
  | unrestored opened quiesced changed restored =>
    rw [Overlooked, exchanges_append, exchanges_append, exchanges_append]
    exact ((opened.passedOver.of_ok.append quiesced.passedOver.of_ok).append
      changed.passedOver).append (restored.passedOver.mono (fails fun struck => by simp [struck]))
  | finished opened quiesced changed restored =>
    rw [Overlooked, exchanges_append, exchanges_append, exchanges_append]
    exact ((opened.passedOver.of_ok.append quiesced.passedOver.of_ok).append
      changed.passedOver).append (restored.passedOver.of_ok.mono fun _ never => never.elim)

theorem Opened.eq_confirmation (verify : config.verifyOrigin = true) {r : Except RunError Origin}
    (h : Opened config request b t r) :
    exchanges t = [] ∧ (∃ e, r = .error e) ∨
      ∃ x, exchanges t = [readingOf request.instanceId x] ∧ r = Engine.confirmation x := by
  cases h with
  | misconfigured x invalid => exact .inl ⟨rfl, _, rfl⟩
  | undeclared x valid unknown => exact .inl ⟨rfl, _, rfl⟩
  | trusted declared valid known trusts =>
    rw [verify] at trusts
    cases trusts
  | confirmed valid known verify confirmed =>
    cases confirmed with
    | unread e struck once => exact .inr ⟨.error e, by simp [readingOf], rfl⟩
    | unfit x struck once fit =>
      exact .inr ⟨.ok x, by simp [readingOf], by simp only [Engine.confirmation, fit]⟩
    | read x observed struck once fit =>
      refine .inr ⟨.ok x, ?_, by simp only [Engine.confirmation, fit]⟩
      rw [exchanges_append, exchanges_exchange, exchanges_correction]
      rfl

/-- An opening that succeeds, and may not go by the declared state, has read a state. -/
theorem Opened.exists_reading (verify : config.verifyOrigin = true)
    (h : Opened config request b t (.ok o)) :
    ∃ x, exchanges t = [readingOf request.instanceId x] ∧ Engine.confirmation x = .ok o := by
  rcases h.eq_confirmation verify with ⟨-, e, failed⟩ | ⟨x, read, same⟩
  · cases failed
  · exact ⟨x, read, same.symm⟩

/-- A reading whose code is not in the table is the only one of a run that is to confirm the origin
with it. -/
theorem Course.eq_unfit (verify : config.verifyOrigin = true) {r : Except RunError Workflow}
    {rest : List Exchange} (h : Course config request b t r)
    (first : exchanges t = readingOf request.instanceId (.ok s) :: rest)
    (unlisted : State.Unlisted s.code) : rest = [] ∧ r = .error (.precondition (unfitText s)) := by
  have unfit : confirmation (.ok s) = .error (.precondition (unfitText s)) := by
    have none := originOf_of_unlisted unlisted
    rw [originOf] at none
    simp only [confirmation, none]
  -- Past the opening, the first reading was fit.
  have never {o : Origin} {t u : List Moment} (opened : Opened config request b t (.ok o))
      (first : exchanges (t ++ u) = readingOf request.instanceId (.ok s) :: rest) : False := by
    rw [exchanges_append] at first
    obtain ⟨x, read, confirmed⟩ := opened.exists_reading verify
    rw [read] at first
    obtain rfl : x = .ok s := by simpa [readingOf] using (List.cons.inj first).1
    rw [unfit] at confirmed
    cases confirmed
  cases h with
  | unopened opened =>
    rcases opened.eq_confirmation verify with ⟨nothing, -⟩ | ⟨x, read, same⟩
    · rw [nothing] at first
      cases first
    · rw [read] at first
      obtain ⟨here, rfl⟩ := List.cons.inj first
      obtain rfl : x = .ok s := by simpa [readingOf] using here
      rw [unfit] at same
      exact ⟨rfl, congrArg _ (Except.error.inj same)⟩
  | unquiesced opened _ => exact (never opened first).elim
  | unchanged opened _ _ =>
    rw [List.append_assoc] at first
    exact (never opened first).elim
  | unrestored opened _ _ _ =>
    rw [List.append_assoc, List.append_assoc] at first
    exact (never opened first).elim
  | finished opened _ _ _ =>
    rw [List.append_assoc, List.append_assoc] at first
    exact (never opened first).elim

end

/-! ## What a workflow and its surroundings do -/

/-- In some surroundings, a workflow makes nothing of codes that are not in the table. -/
structure Overlooking (config : EngineConfig) (request : Request) (o : Outside) : Prop where
  /-- The workflow goes on to read, or fails. -/
  run : Overlooked config request (o.chronicle (execute config request))
    (o.result (execute config request))
  /-- A wait for a state goes on to read, unless it is cancelled or used up. -/
  wait : ∀ (id : String) (target : State) (policy : PollPolicy), target ≠ .unknown →
    PassedOver id (exchanges (o.chronicle (pollUntil id target policy))) fun s =>
      FailsWith (o.result (pollUntil id target policy))
        (FruitlessWait target policy (o.chronicle (pollUntil id target policy)) s)
  /-- No origin is confirmed. -/
  origin : config.verifyOrigin = true → ∀ (s : Status) (rest : List Exchange),
    exchanges (o.chronicle (execute config request)) =
      readingOf request.instanceId (.ok s) :: rest → State.Unlisted s.code →
    rest = [] ∧ o.result (execute config request) = .error (.precondition (unfitText s))
  /-- All that is delivered are the messages about the readings as they were received, and how the
  workflow ended. -/
  events : ∀ sink, Sink.Fresh sink →
    ((emitted (o.chronicle (execute config request))).foldl Sink.emit sink).events =
      announced config request (exchanges (o.chronicle (execute config request))) ++
        [outcomeEvent (o.result (execute config request))]

theorem overlooking (config : EngineConfig) (request : Request) (o : Outside) :
    Overlooking config request o := by
  obtain ⟨b, t, h, told⟩ := o.exists_runs_chronicle (run config request)
  have course := course_of_runs h
  have before : exchanges (o.chronicle (run config request)) = exchanges t ∧
      emitted (o.chronicle (run config request)) = emitted t := by
    rw [told]
    cases b <;> simp
  have said : exchanges (o.chronicle (execute config request)) = exchanges t := by
    rw [chronicle_execute, exchanges_append, before.1]
    simp
  constructor
  · rw [Overlooked, said, result_execute]
    refine course.passedOver.mono ?_
    rintro s ⟨e, failed, fruitless⟩
    refine ⟨e, failed, fruitless.mono fun struck => ?_⟩
    rw [chronicle_execute, told]
    cases b <;> simp [struck]
  · intro id target policy known
    obtain ⟨b, t, runs, told⟩ := o.exists_runs_chronicle (pollUntil id target policy)
    have said : exchanges (o.chronicle (pollUntil id target policy)) = exchanges t := by
      rw [told]
      cases b <;> simp
    cases valid : policy.validate with
    | error x =>
      rw [pollUntil, valid] at runs
      obtain ⟨rfl, -⟩ := Program.runs_done.mp runs
      rw [said]
      exact passedOver_nil
    | ok =>
      rw [said]
      refine ((waited_of_pollUntil valid runs).passedOver known).mono ?_
      rintro s ⟨e, failed, ⟨rfl, struck⟩ | ⟨rfl, all⟩⟩
      · refine ⟨_, failed, .inl ⟨rfl, ?_⟩⟩
        rw [told]
        cases b <;> simp [struck]
      · exact ⟨_, failed, .inr ⟨rfl, said ▸ all⟩⟩
  · intro verify s rest first unlisted
    rw [said] at first
    rw [result_execute]
    exact course.eq_unfit verify first unlisted
  · intro sink fresh
    rw [events_of_execute o fresh, said, result_execute, chronicle_execute, emitted_append,
      before.2, course.emitted_eq]
    rfl

/-- Only the low byte of a code matters to a workflow. In surroundings that do the same but for the
codes above it, it makes the same calls, ends with the same result and delivers the same events, but
for the codes that the messages quote. And it makes nothing of a code that is not in the table. -/
theorem lowByte_of_execute (config : EngineConfig) (request : Request) {o o' : Outside}
    (outside : o.Recoded o') :
    o'.result (execute config request) = o.result (execute config request) ∧
      begun (o'.chronicle (execute config request)) =
        begun (o.chronicle (execute config request)) ∧
      AllRecoded (o.chronicle (execute config request)) (o'.chronicle (execute config request)) ∧
      (∀ sink, Sink.Fresh sink → List.Forall₂ Event.Recoded
        ((emitted (o.chronicle (execute config request))).foldl Sink.emit sink).events
        ((emitted (o'.chronicle (execute config request))).foldl Sink.emit sink).events) ∧
      Overlooking config request o ∧ Overlooking config request o' := by
  obtain ⟨result, same⟩ := outside.chronicle (recoded_execute config request)
  refine ⟨result, same.begun_eq, same, fun sink fresh => ?_, overlooking config request o,
    overlooking config request o'⟩
  rw [events_of_execute o fresh, events_of_execute o' fresh]
  exact same.emitted

/-- Two attempts for each wait, and the origin is confirmed. -/
def twiceConfig : EngineConfig := ⟨⟨2, 1⟩, ⟨2, 1⟩, true⟩

/-- The names and codes that an instance shows one after the other while it is resized. One code is
not in the table. -/
def quirk : Nat → String × Int32
  | 1 => ("running", 16)
  | 2 => ("haunted", 17)
  | 3 => ("stopped", 80)
  | _ => ("running", 16)

/-- A provider that sets some bits above the low byte in all its codes. -/
def quirky (high : Int32) : Outside :=
  .scripted
    (fun cs c =>
      match c with
      | .status id =>
        let (name, code) := quirk (cs.countP fun c => c matches .status _)
        .ok ⟨id, code ||| high, name⟩
      | .stop _ | .start _ | .modify .. | .associate .. => .ok ()
      | .addresses | .instances | .instanceTypes => .ok [])
    fun _ => false

theorem recoded_quirky : (quirky 0).Recoded (quirky (-256)) := by
  refine Outside.recoded_scripted fun cs c => ?_
  cases c with
  | status id =>
    refine .status ⟨rfl, rfl, ?_⟩
    show ((quirk _).2 ||| -256) &&& 255 = ((quirk _).2 ||| 0) &&& 255
    unfold quirk
    split <;> rfl
  | _ => exact .same _ _

/-- A provider with negative codes is the same to a workflow as one with codes below `256`. -/
theorem lowByte_of_quirky :
    (quirky 0).Recoded (quirky (-256)) ∧
      (quirky (-256)).result (execute twiceConfig briefRequest) =
        (quirky 0).result (execute twiceConfig briefRequest) ∧
      ((emitted ((quirky 0).chronicle (execute twiceConfig briefRequest))).foldl Sink.emit
        (.collector .empty)).events =
          [.message "unrecognised instance status 'haunted' (code 17)", .message "stopped",
            .message "running", .success] ∧
      ((emitted ((quirky (-256)).chronicle (execute twiceConfig briefRequest))).foldl Sink.emit
        (.collector .empty)).events =
          [.message "unrecognised instance status 'haunted' (code -239)", .message "stopped",
            .message "running", .success] := by
  obtain ⟨result, -, -, -, here, there⟩ :=
    lowByte_of_execute twiceConfig briefRequest recoded_quirky
  refine ⟨recoded_quirky, result, ?_, ?_⟩
  · rw [here.events _ .collector]
    rfl
  · rw [there.events _ .collector]
    rfl

end Engine

end InstanceResize
