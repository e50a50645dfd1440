import InstanceResize.Proofs.Run.Stream

/-!
# The declared state of a workflow whose origin is confirmed

A workflow that confirms its origin reads the state of the instance once, and goes by what it reads.
The declared state only decides whether a message about it comes before all other events.

* `announce`: events that come before a program.
* `staleNotice`: the message about a declared state that the reading does not show.
* `afterwards`: what a workflow does once the reading is answered. It knows no declared state.
* `execute_of_verified`: a workflow is the reading, the message, and what it does afterwards.
* `Outside.deaf`: surroundings that do not go by the events of a program.
* `undeclared_of_execute`: in such surroundings, workflows with different declared states do the
  same.
-/

namespace InstanceResize

/-! ## Surroundings that do not listen -/

/-- All that happens, but for the events that are emitted. -/
def unheard (t : List Moment) : List Moment := t.filter fun m => m.event?.isNone

section

variable (t u : List Moment)

@[simp] theorem unheard_append : unheard (t ++ u) = unheard t ++ unheard u :=
  List.filter_append t u

@[simp] theorem begun_unheard : begun (unheard t) = begun t := by
  induction t with
  | nil => rfl
  | cons m t ih => cases m <;> simp_all [unheard]

@[simp] theorem wasCancelled_unheard : wasCancelled (unheard t) = wasCancelled t := by
  induction t with
  | nil => rfl
  | cons m t ih => cases m <;> simp_all [unheard]

end

namespace Outside

/-- The same surroundings, but they do not go by the events of a program. -/
def deaf (o : Outside) : Outside where
  reply past := o.reply (unheard past)
  cancels past := o.cancels (unheard past)

variable {α : Type} {past past' : List Moment}

theorem wasCancelled_congr (same : unheard past = unheard past') :
    wasCancelled past' = wasCancelled past := by
  rw [← wasCancelled_unheard, ← same, wasCancelled_unheard]

/-- Whether and how they act does not depend on the events that came before. -/
theorem strikes_deaf (o : Outside) (same : unheard past = unheard past') (t : List Moment) :
    o.deaf.strikes (past' ++ t) = o.deaf.strikes (past ++ t) := by
  simp only [strikes, deaf, unheard_append, wasCancelled_append, same, wasCancelled_congr same]

theorem reply_deaf (o : Outside) (same : unheard past = unheard past') (t : List Moment)
    (c : Call) : o.deaf.reply (o.deaf.strike (past' ++ t)) c =
      o.deaf.reply (o.deaf.strike (past ++ t)) c := by
  have told : unheard (o.deaf.strike (past' ++ t)) = unheard (o.deaf.strike (past ++ t)) := by
    rw [strike, strike, strikes_deaf o same]
    split <;> simp [same]
  show o.reply (unheard _) c = o.reply (unheard _) c
  rw [told]

/-- They do the same with a program, whatever events came before. -/
theorem exists_runAfter_deaf (o : Outside) (p : Program α) (same : unheard past = unheard past') :
    ∃ a t, o.deaf.runAfter p past = (a, past ++ t) ∧ o.deaf.runAfter p past' = (a, past' ++ t) := by
  induction p generalizing past past' with
  | done a =>
    have still (past : List Moment) : o.deaf.runAfter (.done a) past = (a, past ++ []) := by
      simp [runAfter, Program.interpret]
    exact ⟨a, [], still past, still past'⟩
  | call c next ih =>
    rw [runAfter_call _ c next past rfl, runAfter_call _ c next past' (reply_deaf o same _ c),
      strikes_deaf o same]
    generalize o.deaf.reply (o.deaf.strike (past ++ [.call c])) c = r
    generalize o.deaf.strikes (past ++ [.call c]) = struck
    have same : unheard (past ++ exchange c r struck) = unheard (past' ++ exchange c r struck) := by
      simp [same]
    obtain ⟨a, t, first, second⟩ := ih r same
    exact ⟨a, exchange c r struck ++ t, by simp [first], by simp [second]⟩
  | wait ms next ih =>
    rw [runAfter_wait, runAfter_wait, wasCancelled_congr same, strikes_deaf o same]
    split
    · exact ih true same
    · split
      · have same : unheard (past ++ [.rest ms, .cancel]) =
            unheard (past' ++ [.rest ms, .cancel]) := by simp [same]
        obtain ⟨a, t, first, second⟩ := ih true same
        exact ⟨a, .rest ms :: .cancel :: t, by simp [first], by simp [second]⟩
      · have same : unheard (past ++ [.rest ms, .wake]) =
            unheard (past' ++ [.rest ms, .wake]) := by simp [same]
        obtain ⟨a, t, first, second⟩ := ih false same
        exact ⟨a, .rest ms :: .wake :: t, by simp [first], by simp [second]⟩
  | cancelled next ih =>
    rw [runAfter_cancelled, runAfter_cancelled, wasCancelled_congr same]
    exact ih _ same
  | emit e next ih =>
    have same : unheard (past ++ [.emit e]) = unheard (past' ++ [.emit e]) := by simp [same]
    obtain ⟨a, t, first, second⟩ := ih same
    rw [runAfter_emit, runAfter_emit]
    exact ⟨a, .emit e :: t, by simp [first], by simp [second]⟩

end Outside

namespace Engine

/-! ## What comes after the reading -/

/-- Events come before a program. -/
def announce {α : Type} (es : List Event) (p : Program α) : Program α := es.foldr .emit p

/-- The message about a declared state that a reading of the instance does not show. -/
def staleNotice (declared : Origin) (r : Reading) : List Event :=
  match originOf r with
  | some observed =>
    if observed ≠ declared then
      [.message ("instance is " ++ observed.name ++ ", not " ++ declared.name)]
    else []
  | none => []

/-- A workflow says how it ended. -/
def conclude (r : Except RunError Workflow) : Program (Except RunError Workflow) :=
  .emit (outcomeEvent r) (.done r)

/-- What a reading says about the origin. -/
def confirmation : Reading → Except RunError Origin
  | .error e => .error (.query e.message)
  | .ok s =>
    match Origin.ofState? s.state with
    | none => .error (.precondition (unfitText s))
    | some observed => .ok observed

/-- What a workflow does once its origin is confirmed, or is not. -/
def afterwards (config : EngineConfig) (id : String) (m : Mutation) :
    Except RunError Origin → Program (Except RunError Workflow)
  | .error e => conclude (.error e)
  | .ok o => (follow config (Phase.init.course o) (Workflow.new id o m)).run.bind conclude

theorem announce_bind {α β : Type} (es : List Event) (p : Program α) (f : α → Program β) :
    (announce es p).bind f = announce es (p.bind f) := by
  induction es with
  | nil => rfl
  | cons e es ih => exact congrArg (Program.emit e) ih

/-- The origin is confirmed by one reading, and perhaps a message about the declared state. -/
theorem run_confirmOrigin (id : String) (declared : Origin) :
    (confirmOrigin id declared).run = .call (.status id) fun r =>
      announce (staleNotice declared r) (.done (confirmation r)) := by
  rw [confirmOrigin, ExceptT.run_bind, run_calling]
  show Program.call _ _ = Program.call _ _
  congr 1
  funext r
  cases r with
  | error e => rfl
  | ok s =>
    show ExceptT.run (match Origin.ofState? s.state with
      | none => (throw (.precondition (unfitText s)) : Step Origin)
      | some observed => _) = _
    cases fit : Origin.ofState? s.state with
    | none => simp only [staleNotice, originOf, confirmation, fit]; rfl
    | some observed =>
      simp only [staleNotice, originOf, confirmation, fit]
      by_cases stale : observed ≠ declared
      · rw [if_pos stale, if_pos stale]
        rfl
      · rw [if_neg stale, if_neg stale]
        rfl

/-- A workflow that confirms its origin is the reading, perhaps a message about the declared state,
and what it does afterwards. -/
theorem execute_of_verified {config : EngineConfig} {request : Request} {declared : Origin}
    (valid : config.validate = .ok ()) (verify : config.verifyOrigin = true)
    (known : Origin.parse request.declaredState = .ok declared) :
    execute config request = .call (.status request.instanceId) fun r =>
      announce (staleNotice declared r)
        (afterwards config request.instanceId request.mutation (confirmation r)) := by
  rw [execute_eq, run, ExceptT.run_bind]
  simp only [opening, valid, known, verify, if_true]
  rw [run_confirmOrigin]
  show Program.call _ _ = Program.call _ _
  congr 1
  funext r
  show Program.bind (Program.bind (announce _ _) _) _ = _
  rw [announce_bind, announce_bind]
  cases confirmation r with
  | error e => rfl
  | ok o => rfl

/-! ## Different declared states -/

theorem emitted_map_emit (es : List Event) : emitted (es.map .emit) = es := by
  induction es with
  | nil => rfl
  | cons e es ih => exact congrArg (e :: ·) ih

theorem unheard_map_emit (es : List Event) : unheard (es.map .emit) = [] := by
  induction es with
  | nil => rfl
  | cons e es ih => exact ih

theorem runAfter_announce {α : Type} (o : Outside) (es : List Event) (p : Program α)
    (past : List Moment) :
    o.runAfter (announce es p) past = o.runAfter p (past ++ es.map .emit) := by
  induction es generalizing past with
  | nil => rw [List.map_nil, List.append_nil]; rfl
  | cons e es ih =>
    rw [List.map_cons, List.append_cons, ← ih]
    rfl

/-- The message is there exactly if the reading shows an origin that is not the declared one. -/
theorem staleNotice_ne_nil_iff {declared : Origin} {r : Reading} :
    staleNotice declared r ≠ [] ↔
      ∃ s observed, r = .ok s ∧ s.state = Origin.state observed ∧ observed ≠ declared := by
  cases r with
  | error e => simp [staleNotice, originOf]
  | ok s =>
    cases fit : Origin.ofState? s.state with
    | none =>
      have unfit : ∀ o : Origin, s.state ≠ o.state := by
        intro o shown
        rw [Origin.ofState?_eq_some_iff.mpr shown] at fit
        cases fit
      simp [staleNotice, originOf, fit, unfit]
    | some observed =>
      have shown : ∀ o : Origin, s.state = o.state ↔ observed = o := by
        intro o
        rw [← Origin.ofState?_eq_some_iff, fit, Option.some_inj]
      simp [staleNotice, originOf, fit, shown]

variable {config : EngineConfig}

/-- All that a fresh sink delivers of a workflow are the events that the workflow emits. -/
theorem events_of_execute {request : Request} (o : Outside) {sink : Sink} (fresh : sink.Fresh) :
    ((emitted (o.chronicle (execute config request))).foldl Sink.emit sink).events =
      emitted (o.chronicle (execute config request)) := by
  obtain ⟨b, t, h, told⟩ := o.exists_runs_chronicle (run config request)
  have calm : ∀ e ∈ emitted (o.chronicle (run config request)), e.isTerminal = false := by
    have same : emitted (o.chronicle (run config request)) = emitted t := by
      rw [told]
      cases b <;> simp
    rw [same]
    exact fun e => isTerminal_of_mem_emitted h
  rw [fresh.events_foldl_emit, chronicle_execute, emitted_append, throughTerminal_append calm]
  exact congrArg _ (throughTerminal_cons_of_terminal (isTerminal_outcomeEvent _) [])

/-- In surroundings that do not listen, a workflow that confirms its origin goes one way, whatever
state is declared. Only the message about the declared state comes in between, or does not. -/
theorem exists_way (valid : config.validate = .ok ()) (verify : config.verifyOrigin = true)
    (id : String) (m : Mutation) (o : Outside) :
    ∃ (r : Reading) (pre rest : List Moment) (x : Except RunError Workflow),
      exchanges pre = [readingOf id r] ∧ emitted pre = [] ∧
      ∀ a declared, Origin.parse a = .ok declared →
        o.deaf.result (execute config ⟨id, a, m⟩) = x ∧
        o.deaf.chronicle (execute config ⟨id, a, m⟩) =
          pre ++ (staleNotice declared r).map .emit ++ rest := by
  let past := o.deaf.strike []
  let r := o.deaf.reply (o.deaf.strike (past ++ [.call (.status id)])) (.status id)
  let pre := past ++ exchange (.status id) r (o.deaf.strikes (past ++ [.call (.status id)]))
  obtain ⟨x, rest, base, -⟩ := o.exists_runAfter_deaf (afterwards config id m (confirmation r))
    (rfl : unheard pre = unheard pre)
  have silent : exchanges past = [] ∧ emitted past = [] := by
    show exchanges (o.deaf.strike []) = [] ∧ emitted (o.deaf.strike []) = []
    rw [Outside.strike]
    split <;> exact ⟨rfl, rfl⟩
  refine ⟨r, pre, rest, x, by simp [pre, silent, readingOf], by simp [pre, silent], ?_⟩
  intro a declared known
  have whole : o.deaf.runAfter (execute config ⟨id, a, m⟩) past =
      (x, pre ++ (staleNotice declared r).map .emit ++ rest) := by
    have told : Origin.parse (Request.mk id a m).declaredState = .ok declared := known
    have heard : unheard pre = unheard (pre ++ (staleNotice declared r).map .emit) := by
      simp [unheard_map_emit]
    rw [execute_of_verified valid verify told, Outside.runAfter_call _ _ _ past (rfl : _ = r),
      runAfter_announce]
    obtain ⟨x', rest', base', there⟩ :=
      o.exists_runAfter_deaf (afterwards config id m (confirmation r)) heard
    rw [base] at base'
    obtain ⟨rfl, ends⟩ := Prod.mk.inj base'
    rw [List.append_cancel_left ends]
    exact there
  exact ⟨congrArg Prod.fst whole, congrArg Prod.snd whole⟩

/-- The declared state decides nothing once the origin is confirmed. -/
theorem undeclared_of_execute (valid : config.validate = .ok ())
    (verify : config.verifyOrigin = true) (id : String) (m : Mutation) (o : Outside)
    {a a' : String} {declared declared' : Origin} (known : Origin.parse a = .ok declared)
    (known' : Origin.parse a' = .ok declared') :
    o.deaf.result (execute config ⟨id, a', m⟩) = o.deaf.result (execute config ⟨id, a, m⟩) ∧
      unheard (o.deaf.chronicle (execute config ⟨id, a', m⟩)) =
        unheard (o.deaf.chronicle (execute config ⟨id, a, m⟩)) ∧
      begun (o.deaf.chronicle (execute config ⟨id, a', m⟩)) =
        begun (o.deaf.chronicle (execute config ⟨id, a, m⟩)) ∧
      ∃ (r : Reading) (rest : List Event),
        (exchanges (o.deaf.chronicle (execute config ⟨id, a, m⟩))).head? =
          some (readingOf id r) ∧
        (∀ sink, Sink.Fresh sink →
          ((emitted (o.deaf.chronicle (execute config ⟨id, a, m⟩))).foldl Sink.emit sink).events =
              staleNotice declared r ++ rest ∧
            ((emitted (o.deaf.chronicle (execute config ⟨id, a', m⟩))).foldl Sink.emit
              sink).events = staleNotice declared' r ++ rest) ∧
        ∀ d, staleNotice d r ≠ [] ↔
          ∃ s observed, r = .ok s ∧ s.state = Origin.state observed ∧ observed ≠ d := by
  obtain ⟨r, pre, rest, x, read, quiet, way⟩ := exists_way valid verify id m o
  obtain ⟨result, told⟩ := way a declared known
  obtain ⟨result', told'⟩ := way a' declared' known'
  have same : unheard (o.deaf.chronicle (execute config ⟨id, a', m⟩)) =
      unheard (o.deaf.chronicle (execute config ⟨id, a, m⟩)) := by
    simp [told, told', unheard_map_emit]
  refine ⟨result'.trans result.symm, same, ?_, r, emitted rest, ?_, fun sink fresh => ?_,
    fun d => staleNotice_ne_nil_iff⟩
  · rw [← begun_unheard, same, begun_unheard]
  · simp [told, read]
  · rw [events_of_execute _ fresh, events_of_execute _ fresh, told, told']
    simp [quiet, emitted_map_emit]

/-- The origin is confirmed, and the waits are short. -/
def checkedConfig : EngineConfig := { briefConfig with verifyOrigin := true }

/-- An instance that is running and cannot be stopped. -/
def unstoppable : Outside where
  reply
    | _, .status id => .ok (.of id .running)
    | _, _ => .error (.unreachable "down")
  cancels _ := false

/-- A caller that is wrong about the state, and writes it between white space, is told so and gets
the same as a caller that is right. -/
theorem undeclared_of_stale_caller :
    checkedConfig.validate = .ok () ∧ checkedConfig.verifyOrigin = true ∧
      Origin.parse "running" = .ok .running ∧ Origin.parse " stopped\n" = .ok .stopped ∧
      ∃ rest : List Event,
        ((emitted (unstoppable.deaf.chronicle (execute checkedConfig
          ⟨"i-1", "running", .resize "t3.small"⟩))).foldl Sink.emit
            (.collector .empty)).events = rest ∧
        ((emitted (unstoppable.deaf.chronicle (execute checkedConfig
          ⟨"i-1", " stopped\n", .resize "t3.small"⟩))).foldl Sink.emit
            (.collector .empty)).events =
          .message "instance is running, not stopped" :: rest := by
  have right : Origin.parse "running" = .ok .running := by cbv
  have stale : Origin.parse " stopped\n" = .ok .stopped := by cbv
  have valid : checkedConfig.validate = .ok () := rfl
  have verify : checkedConfig.verifyOrigin = true := rfl
  obtain ⟨-, -, -, r, rest, read, events, -⟩ := undeclared_of_execute valid verify "i-1"
    (.resize "t3.small") unstoppable right stale
  obtain ⟨here, there⟩ := events _ .collector
  have shown : (exchanges (unstoppable.deaf.chronicle (execute checkedConfig
      ⟨"i-1", "running", .resize "t3.small"⟩))).head? =
        some (readingOf "i-1" (.ok (.of "i-1" .running))) := rfl
  obtain rfl : r = .ok (.of "i-1" .running) := by
    have same := read.symm.trans shown
    simpa [readingOf] using same
  exact ⟨valid, verify, right, stale, rest, here, there⟩

end Engine

end InstanceResize
