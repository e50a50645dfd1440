import InstanceResize.Proofs.Account.Effect
import InstanceResize.Proofs.Run.Journey
import InstanceResize.Proofs.Run.Stream

/-!
# A change to a running instance

An account offers what a change asks for, and the instance is running. Then a workflow that nobody
cancels stops the instance, makes the change and starts the instance again. It can only fail because
an instance on its way is waited for no longer, and whether that happens depends on the attempts
alone. Others may use the account as well, as long as they leave the change alone and do not lead
the instance anywhere.

* `Cycle`: what happens in such a workflow.
* `cycle_of_course`: nothing else happens in it.
* `Gentle`: the calls of others that leave a change alone.
* `cycle_of_execute`: with attempts enough a workflow succeeds, whatever gentle calls others make.
-/

namespace InstanceResize.Engine

open Account

/-! ## The parts of a cycle -/

/-- What happens before the phases if the instance is running: it is seen to, if that is asked
for. -/
def checking (config : EngineConfig) (id : String) : List Moment :=
  if config.verifyOrigin then exchange (.status id) (showing id .running) false else []

section

variable (config : EngineConfig) (id : String)

@[simp] theorem exchanges_checking : exchanges (checking config id) =
    if config.verifyOrigin then [readingOf id (showing id .running)] else [] := by
  unfold checking
  split
  · exact exchanges_exchange _ _ _
  · rfl

variable (policy : PollPolicy) (c : Call) (x : c.Result) (rs : List Reading)

@[simp] theorem exchanges_trip :
    exchanges (trip id policy c x rs) = ⟨c, .ok x⟩ :: rs.map (readingOf id) := by
  simp [trip]

end

/-- The calls of a leg make no change. -/
theorem calm_trip {id : String} {policy : PollPolicy} {c : Call} {x : c.Result}
    {rs : List Reading} (hc : c.isChange = false) :
    ∀ y ∈ exchanges (trip id policy c x rs), y.call.isChange = false := by
  intro y hy
  rw [exchanges_trip, List.mem_cons, List.mem_map] at hy
  rcases hy with rfl | ⟨r, -, rfl⟩
  · exact hc
  · rfl

theorem calm_checking (config : EngineConfig) (id : String) :
    ∀ y ∈ exchanges (checking config id), y.call.isChange = false := by
  intro y hy
  rw [exchanges_checking] at hy
  split at hy
  · obtain rfl := List.mem_singleton.mp hy
    rfl
  · cases hy

/-- Nothing is changed up to the end of the first wait. -/
theorem calm_halt (config : EngineConfig) (id : String) (policy : PollPolicy)
    (rs : List Reading) : ∀ y ∈ exchanges (checking config id ++ trip id policy (.stop id) () rs),
      y.call.isChange = false := by
  intro y hy
  rw [exchanges_append] at hy
  rcases List.mem_append.mp hy with hy | hy
  · exact calm_checking config id y hy
  · exact calm_trip rfl y hy

/-- Others leave a change alone, and do not lead its instance anywhere. -/
structure Considerate (request : Request) (others : Call → Prop) : Prop where
  patient : ∀ c, others c → Patient request.instanceId c
  spared : ∀ c, others c → request.mutation.Spared request.instanceId c

/-- An account before the change: it is set to show the state in between so many times, it offers
what the change asks for, and the instance is in a state. -/
structure Poised (request : Request) (n : Nat) (s : State) (a : Account) : Prop where
  settle : a.settle = n
  accepts : a.Accepts request.mutation
  here : a.state? request.instanceId = some s

variable {others : Call → Prop} {a b : Account} {config : EngineConfig} {request : Request}
  {n : Nat} {t : List Moment} {es : List Exchange}

/-- A reading of a running instance shows that it runs. -/
theorem seen_running {r : Reading} (considerate : Considerate request others)
    (answers : a.Answers others (readingOf request.instanceId r :: es) b)
    (running : a.state? request.instanceId = some .running) :
    r = showing request.instanceId .running ∧
      ∃ d : Account, d.state? request.instanceId = some .running ∧ d.Answers others es b := by
  have due : a.Due request.instanceId .pending 0 := due_zero.mpr running
  obtain ⟨k, near, -, hr, d, onward, rest⟩ := reading_of_due answers considerate.patient due
  obtain rfl := Nat.eq_zero_of_le_zero near
  exact ⟨hr, d, due_zero.mp onward, rest⟩

/-- The origin of a running instance is established, whether it is to be confirmed or not. -/
theorem opened_of_running {r : Except RunError Origin}
    (h : Opened config request false t r) (calm : wasCancelled t = false)
    (declared : declared? config request = some .running)
    (considerate : Considerate request others)
    (answers : a.Answers others (exchanges t) b)
    (running : a.state? request.instanceId = some .running) :
    r = .ok .running ∧ t = checking config request.instanceId ∧
      b.state? request.instanceId = some .running := by
  cases h with
  | misconfigured x invalid => simp [declared?, invalid] at declared
  | undeclared x valid unknown => simp [declared?, valid, unknown, Except.toOption] at declared
  | trusted origin valid known verify =>
    obtain rfl := Option.some.inj ((declared?_eq_some valid known).symm.trans declared)
    refine ⟨rfl, ?_, Used.state? answers considerate.patient .stop running⟩
    simp [checking, verify]
  | confirmed valid known verify confirmed =>
    obtain rfl := Option.some.inj ((declared?_eq_some valid known).symm.trans declared)
    cases confirmed with
    | unread e struck once =>
      rw [exchanges_exchange] at answers
      cases (seen_running considerate answers running).1
    | unfit s struck once fit =>
      rw [exchanges_exchange] at answers
      obtain rfl := Except.ok.inj (seen_running considerate answers running).1
      rw [Status.state_of] at fit
      cases fit
    | read s observed struck once fit =>
      rw [exchanges_append, exchanges_exchange, exchanges_correction] at answers
      obtain ⟨hr, d, here, rest⟩ := seen_running considerate answers running
      obtain rfl := Except.ok.inj hr
      rw [Status.state_of] at fit
      obtain rfl : Origin.running = observed := Option.some.inj fit
      obtain rfl : struck = false := by simpa using calm
      refine ⟨rfl, ?_, Used.state? rest considerate.patient .stop here⟩
      simp [checking, verify, correction, showing]

/-- A change that an account offers is made to an instance that is stopped. -/
theorem changed_of_stopped {r : Except RunError Unit}
    (h : Changed (workflowIn request .running .mutating) false t r)
    (calm : wasCancelled t = false) (considerate : Considerate request others)
    (answers : a.Answers others (exchanges t) b) (poised : Poised request n .stopped a) :
    r = .ok () ∧
      (∃ x, t = exchange (.ofMutation request.instanceId request.mutation) (.ok x) false) ∧
      b.state? request.instanceId = some .stopped ∧
      b.InForce request.instanceId request.mutation := by
  have taken : ∀ {y : (Call.ofMutation request.instanceId request.mutation).Reply},
      a.Answers others [⟨.ofMutation request.instanceId request.mutation, y⟩] b →
        (∃ x, y = .ok x) ∧ b.state? request.instanceId = some .stopped ∧
          b.InForce request.instanceId request.mutation := by
    intro y answers
    obtain ⟨a', used, reply, after⟩ := answers_singleton.mp answers
    have stopped : a'.state? request.instanceId = some .stopped :=
      used.state? considerate.patient .start poised.here
    have accepts : a'.Accepts request.mutation :=
      used.invariant (P := fun d => d.Accepts request.mutation)
        (fun _ c hc here => here.answer (considerate.spared c hc)) poised.accepts
    obtain ⟨x, accepted⟩ := answer_of_accepts stopped accepts
    refine ⟨⟨x, reply.symm.trans accepted⟩, ?_, ?_⟩
    · refine after.state? considerate.patient .start ?_
      rw [state?_answer_ofMutation, stopped]
    · exact after.invariant (P := fun d => d.InForce request.instanceId request.mutation)
        (fun _ c hc here => here.answer (considerate.spared c hc)) (applied_answer accepted).inForce
  cases h with
  | declined e struck =>
    rw [exchanges_exchange] at answers
    obtain ⟨⟨x, hx⟩, -⟩ := taken answers
    cases hx
  | made x struck =>
    obtain rfl : struck = false := by simpa using calm
    rw [exchanges_exchange] at answers
    exact ⟨rfl, ⟨x, rfl⟩, (taken answers).2⟩

/-! ## The whole cycle -/

/-- What happens in a workflow on a running instance, while a stop and a start each show the state
in between `n` times. The attempts for the stop or for the start are used up, or all is done. -/
inductive Cycle (others : Call → Prop) (config : EngineConfig) (request : Request) (n : Nat)
    (b : Account) : List Moment → Except RunError Workflow → Prop where
  | halting {rs : List Reading} {e : PollError}
      (stop : Journey others request.instanceId .stopping config.stopPoll.maxAttempts n rs
        (.error e)) :
      Cycle others config request n b
        (checking config request.instanceId ++
          trip request.instanceId config.stopPoll (.stop request.instanceId) () rs)
        (.error (.poll e))
  | restarting {rs rs' : List Reading} {s : State} {e : PollError}
      (x : (Call.ofMutation request.instanceId request.mutation).Result)
      (stop : Journey others request.instanceId .stopping config.stopPoll.maxAttempts n rs (.ok s))
      (start : Journey others request.instanceId .pending config.startPoll.maxAttempts n rs'
        (.error e))
      (inForce : b.InForce request.instanceId request.mutation) :
      Cycle others config request n b
        (checking config request.instanceId ++
          trip request.instanceId config.stopPoll (.stop request.instanceId) () rs ++
          exchange (.ofMutation request.instanceId request.mutation) (.ok x) false ++
          trip request.instanceId config.startPoll (.start request.instanceId) () rs')
        (.error (.notRestored request.mutation.describe (.poll e)))
  | restored {rs rs' : List Reading} {s s' : State}
      (x : (Call.ofMutation request.instanceId request.mutation).Result)
      (stop : Journey others request.instanceId .stopping config.stopPoll.maxAttempts n rs (.ok s))
      (start : Journey others request.instanceId .pending config.startPoll.maxAttempts n rs'
        (.ok s'))
      (inForce : b.InForce request.instanceId request.mutation)
      (running : b.state? request.instanceId = some .running) :
      Cycle others config request n b
        (checking config request.instanceId ++
          trip request.instanceId config.stopPoll (.stop request.instanceId) () rs ++
          exchange (.ofMutation request.instanceId request.mutation) (.ok x) false ++
          trip request.instanceId config.startPoll (.start request.instanceId) () rs')
        (.ok (workflowIn request .running .done))

/-- The wait after a start is not cancelled, so that its failure is one after the change. -/
theorem Journey.afterMutation_eq {id : String} {via : State} {attempts : UInt32} {n : Nat}
    {rs : List Reading} {e : PollError} (h : Journey others id via attempts n rs (.error e))
    (m : Mutation) : (RunError.poll e).afterMutation m = .notRestored m.describe (.poll e) := by
  cases h with
  | overdue late => exact RunError.afterMutation_of_not_cancellation rfl

/-- What happens up to the end of the first wait. -/
theorem halted_of_running {o : Origin} {r : Except RunError Unit} {t u : List Moment}
    (opened : Opened config request false t (.ok o))
    (quiesced : Quiesced config request o (false || wasCancelled t) u r)
    (calm : wasCancelled (t ++ u) = false)
    (declared : declared? config request = some .running)
    (considerate : Considerate request others)
    (answers : a.Answers others (exchanges (t ++ u)) b) (poised : Poised request n .running a) :
    o = .running ∧ t = checking config request.instanceId ∧ ∃ rs v,
      u = trip request.instanceId config.stopPoll (.stop request.instanceId) () rs ∧
      r = settled v ∧
      Journey others request.instanceId .stopping config.stopPoll.maxAttempts (n + 1) rs v ∧
      ∀ s, v = .ok s → Poised request n .stopped b := by
  rw [wasCancelled_append, Bool.or_eq_false_iff] at calm
  have parts := answers
  rw [exchanges_append] at parts
  obtain ⟨d, before, after⟩ := Answers.append_iff.mp parts
  obtain ⟨ho, rfl, here⟩ :=
    opened_of_running opened calm.1 declared considerate before poised.here
  obtain rfl := Except.ok.inj ho
  rw [calm.1] at quiesced
  cases quiesced with
  | halted brought =>
    obtain ⟨x, rs, v, rfl, rfl, journey, arrives⟩ :=
      journey_of_brought brought calm.2 .stop considerate.patient after here
    have settle : d.settle = n := before.settle.trans poised.settle
    rw [settle] at journey
    have accepts : b.Accepts request.mutation :=
      answers.keeps (P := fun d => d.Accepts request.mutation)
        (fun _ _ spared here => here.answer spared) considerate.spared (calm_halt _ _ _ rs)
        poised.accepts
    refine ⟨rfl, rfl, rs, v, rfl, rfl, journey, fun s hs => ?_⟩
    exact ⟨answers.settle.trans poised.settle, accepts, arrives s hs⟩

/-- What happens after the change. -/
theorem restarted_of_stopped {r : Except RunError Unit}
    (restored : Restored config request .running false t r) (calm : wasCancelled t = false)
    (considerate : Considerate request others)
    (answers : a.Answers others (exchanges t) b) (settle : a.settle = n)
    (stopped : a.state? request.instanceId = some .stopped)
    (inForce : a.InForce request.instanceId request.mutation) :
    b.InForce request.instanceId request.mutation ∧ ∃ rs v,
      t = trip request.instanceId config.startPoll (.start request.instanceId) () rs ∧
      r = (settled v).mapError (·.afterMutation request.mutation) ∧
      Journey others request.instanceId .pending config.startPoll.maxAttempts (n + 1) rs v ∧
      ∀ s, v = .ok s → b.state? request.instanceId = some .running := by
  cases restored with
  | restarted brought =>
    obtain ⟨x, rs, v, rfl, rfl, journey, arrives⟩ :=
      journey_of_brought brought calm .start considerate.patient answers stopped
    rw [settle] at journey
    refine ⟨?_, rs, v, rfl, rfl, journey, arrives⟩
    exact answers.keeps (P := fun d => d.InForce request.instanceId request.mutation)
      (fun _ _ spared here => here.answer spared) considerate.spared (calm_trip rfl) inForce

/-- What happens up to the change: once the instance is stopped, the change is made. -/
theorem changed_of_running {o : Origin} {r : Except RunError Unit} {t u v w : List Moment}
    (opened : Opened config request false t (.ok o))
    (quiesced : Quiesced config request o (false || wasCancelled t) u (.ok ()))
    (changed : Changed (workflowIn request o .mutating) (false || wasCancelled (t ++ u)) v r)
    (calm : wasCancelled (t ++ u ++ v) = false)
    (declared : declared? config request = some .running)
    (considerate : Considerate request others)
    (answers : a.Answers others (exchanges (t ++ u ++ v ++ w)) b)
    (poised : Poised request n .running a) :
    r = .ok () ∧ o = .running ∧ t = checking config request.instanceId ∧ ∃ rs s x,
      u = trip request.instanceId config.stopPoll (.stop request.instanceId) () rs ∧
      v = exchange (.ofMutation request.instanceId request.mutation) (.ok x) false ∧
      Journey others request.instanceId .stopping config.stopPoll.maxAttempts (n + 1) rs (.ok s) ∧
      ∃ d : Account, d.Answers others (exchanges w) b ∧ d.settle = n ∧
        d.state? request.instanceId = some .stopped ∧
        d.InForce request.instanceId request.mutation := by
  rw [wasCancelled_append (t ++ u) v, Bool.or_eq_false_iff] at calm
  rw [exchanges_append (t ++ u ++ v) w, exchanges_append (t ++ u) v] at answers
  obtain ⟨d₂, front, after⟩ := Answers.append_iff.mp answers
  obtain ⟨d₁, before, change⟩ := Answers.append_iff.mp front
  obtain ⟨rfl, ht, rs, v, rfl, hr, journey, arrives⟩ :=
    halted_of_running opened quiesced calm.1 declared considerate before poised
  rw [calm.1, Bool.or_false] at changed
  cases v with
  | error e => cases hr
  | ok s =>
    have poised' := arrives s rfl
    obtain ⟨rfl, ⟨x, rfl⟩, stopped, inForce⟩ :=
      changed_of_stopped changed calm.2 considerate change poised'
    refine ⟨rfl, rfl, ht, rs, s, x, rfl, rfl, journey, d₂, after, ?_, stopped, inForce⟩
    exact change.settle.trans poised'.settle

/-- What happens in a workflow on a running instance is a cycle. -/
theorem cycle_of_course {r : Except RunError Workflow} (h : Course config request false t r)
    (calm : wasCancelled t = false)
    (declared : declared? config request = some .running)
    (considerate : Considerate request others)
    (answers : a.Answers others (exchanges t) b) (poised : Poised request n .running a) :
    Cycle others config request (n + 1) b t r := by
  -- A workflow cannot end at its opening, since the instance is seen to run, nor at the change,
  -- since it is offered and the instance has stopped by then.
  cases h with
  | unopened opened =>
    obtain ⟨hr, -⟩ := opened_of_running opened calm declared considerate answers poised.here
    cases hr
  | unquiesced opened quiesced =>
    obtain ⟨rfl, rfl, rs, v, rfl, hr, journey, -⟩ :=
      halted_of_running opened quiesced calm declared considerate answers poised
    cases v with
    | ok s => cases hr
    | error e =>
      obtain rfl := Except.error.inj hr
      exact .halting journey
  | @unchanged o e t u v opened quiesced changed =>
    obtain ⟨hr, -⟩ := changed_of_running (w := []) opened quiesced changed calm declared
      considerate (by simpa using answers) poised
    cases hr
  | unrestored opened quiesced changed restored =>
    rw [wasCancelled_append, Bool.or_eq_false_iff] at calm
    obtain ⟨-, rfl, rfl, rs, s, x, rfl, rfl, journey, d, after, settle, stopped, inForce⟩ :=
      changed_of_running opened quiesced changed calm.1 declared considerate answers poised
    rw [calm.1, Bool.or_false] at restored
    obtain ⟨inForce', rs', v, rfl, hr, journey', -⟩ :=
      restarted_of_stopped restored calm.2 considerate after settle stopped inForce
    cases v with
    | ok s => cases hr
    | error e =>
      obtain rfl := Except.error.inj hr
      have late := journey'.afterMutation_eq request.mutation
      have cycle : Cycle others config request (n + 1) b _ _ :=
        .restarting x journey journey' inForce'
      rw [← late] at cycle
      exact cycle
  | finished opened quiesced changed restored =>
    rw [wasCancelled_append, Bool.or_eq_false_iff] at calm
    obtain ⟨-, rfl, rfl, rs, s, x, rfl, rfl, journey, d, after, settle, stopped, inForce⟩ :=
      changed_of_running opened quiesced changed calm.1 declared considerate answers poised
    rw [calm.1, Bool.or_false] at restored
    obtain ⟨inForce', rs', v, rfl, hr, journey', arrives⟩ :=
      restarted_of_stopped restored calm.2 considerate after settle stopped inForce
    cases v with
    | error e => cases hr
    | ok s' => exact .restored x journey journey' inForce' (arrives s' rfl)

/-- If nobody cancels a workflow on a running instance, then a cycle is what happens in it, and then
the event that says how it ended. -/
theorem cycle_of_execute {account : Account} {company : List Exchange → List Call}
    (declared : declared? config request = some .running)
    (considerate : Considerate request others) (allowed : ∀ past, ∀ c ∈ company past, others c)
    (running : account.state? request.instanceId = some .running)
    (accepts : account.Accepts request.mutation) :
    ∃ t r, (account.outside company never).result (execute config request) = r ∧
      (account.outside company never).chronicle (execute config request) =
        t ++ [.emit (outcomeEvent r)] ∧
      (run config request).Runs false t r ∧ wasCancelled t = false ∧
      Cycle others config request (account.settle + 1)
        (account.left company never (execute config request)) t r := by
  have answers : account.Answers others
      (exchanges ((account.outside company never).chronicle (execute config request)))
      (account.left company never (execute config request)) :=
    answers_chronicle allowed _
  obtain ⟨runs, calm⟩ := (account.outside company never).runs_chronicle_of_calm (fun _ => rfl)
    (execute config request)
  obtain ⟨t, told, runs⟩ := runs_execute_iff.mp runs
  rw [told] at answers calm
  have calm' : wasCancelled t = false := by simpa using calm
  have answers' : account.Answers others (exchanges t)
      (account.left company never (execute config request)) := by simpa using answers
  refine ⟨t, _, rfl, told, runs, calm', ?_⟩
  exact cycle_of_course (course_of_runs runs) calm' declared considerate answers'
    ⟨rfl, accepts, running⟩

/-! ## Attempts enough -/

/-- The calls of others that do not get in the way of a change: readings of any instance, listings,
and calls about other instances that do not associate an address of the same allocation. -/
def Gentle (id : String) (m : Mutation) (c : Call) : Prop :=
  c = .status id ∨ (c.instanceId? ≠ some id ∧ m.Spared id c)

theorem considerate_gentle (request : Request) :
    Considerate request (Gentle request.instanceId request.mutation) where
  patient c := by
    rintro (reading | ⟨elsewhere, -⟩)
    · exact .inl reading
    · exact .inr (Bool.eq_false_iff.mpr fun h => elsewhere (Call.instanceId?_of_regards h))
  spared c := by
    rintro (rfl | ⟨-, spared⟩)
    · exact Mutation.spared_of_not_change rfl _
    · exact spared

/-- A workflow on a running instance succeeds: it reads the status so many times at most in each of
its waits, the change is in force, and the instance runs. -/
structure Accomplished (config : EngineConfig) (request : Request) (limit : Nat) (t : List Moment)
    (r : Except RunError Workflow) (b : Account) : Prop where
  succeeds : r = .ok (workflowIn request .running .done)
  readings : ∃ d : Dialogue request, exchanges t = d.exchanges ∧
    d.confirmation.toList.length = (if config.verifyOrigin then 1 else 0) ∧
    d.stop.readings.length ≤ limit ∧ d.start.readings.length ≤ limit
  inForce : b.InForce request.instanceId request.mutation
  running : b.state? request.instanceId = some .running

/-- A cycle is completed if there are attempts enough for both waits. -/
theorem Cycle.accomplished {r : Except RunError Workflow}
    (h : Cycle others config request n b t r) (stop : n < config.stopPoll.maxAttempts.toNat)
    (start : n < config.startPoll.maxAttempts.toNat) (e : Event) :
    Accomplished config request (n + 1) (t ++ [.emit e]) r b := by
  cases h with
  | halting late => cases late.eq_ok stop
  | restarting x _ late => cases late.eq_ok start
  | @restored rs rs' s s' x halts restarts inForce running =>
    refine ⟨rfl, ⟨⟨if config.verifyOrigin then some (showing request.instanceId .running) else none,
      ⟨some (.ok ()), rs⟩, some (.ok x), ⟨some (.ok ()), rs'⟩⟩, ?_, ?_, halts.length_le,
      restarts.length_le⟩, inForce, running⟩
    · cases verify : config.verifyOrigin <;> simp [Dialogue.exchanges, Leg.exchanges, verify]
    · cases config.verifyOrigin <;> rfl

/-- An account offers what a change asks for, the instance is running and is said to be, and there
are attempts enough for what the account is set to. Then a workflow that nobody cancels succeeds,
whatever gentle calls others make before, between and after its own calls, as it does without
them. -/
theorem accomplished_of_execute (account : Account) (config : EngineConfig) (request : Request)
    (company : List Exchange → List Call) (valid : config.validate = .ok ())
    (declared : Origin.parse request.declaredState = .ok .running)
    (running : account.state? request.instanceId = some .running)
    (accepts : account.Accepts request.mutation)
    (stop : account.settle + 2 ≤ config.stopPoll.maxAttempts.toNat)
    (start : account.settle + 2 ≤ config.startPoll.maxAttempts.toNat)
    (gentle : ∀ past, ∀ c ∈ company past, Gentle request.instanceId request.mutation c) :
    Accomplished config request (account.settle + 2)
        ((account.outside company never).chronicle (execute config request))
        ((account.outside company never).result (execute config request))
        (account.left company never (execute config request)) ∧
      Accomplished config request (account.settle + 2)
        ((account.outside alone never).chronicle (execute config request))
        ((account.outside alone never).result (execute config request))
        (account.left alone never (execute config request)) := by
  have succeeds : ∀ company : List Exchange → List Call,
      (∀ past, ∀ c ∈ company past, Gentle request.instanceId request.mutation c) →
        Accomplished config request (account.settle + 2)
          ((account.outside company never).chronicle (execute config request))
          ((account.outside company never).result (execute config request))
          (account.left company never (execute config request)) := by
    intro company gentle
    obtain ⟨t, r, ended, told, -, -, cycle⟩ := cycle_of_execute (declared?_eq_some valid declared)
      (considerate_gentle request) gentle running accepts
    rw [told, ended]
    exact cycle.accomplished stop start _
  refine ⟨succeeds company gentle, succeeds alone ?_⟩
  intro past c none
  exact absurd none List.not_mem_nil

/-- An account with two running instances, which take two readings to settle. -/
def twinAccount : Account :=
  .ofSetup ⟨2, [⟨"i-1", "t3.micro", .running⟩, ⟨"i-2", "t3.micro", .running⟩],
    [.free "203.0.113.10" "eipalloc-1"], []⟩

/-- One of the instances is to be resized. -/
def twinRequest : Request := ⟨"i-1", "running", .resize "m5.large"⟩

/-- As many attempts as two readings to settle require. -/
def twinConfig : EngineConfig := ⟨⟨4, 1000⟩, ⟨4, 1000⟩, true⟩

/-- Others read the status of the instance, list, and work on the other instance. -/
def readers : List Exchange → List Call := fun _ =>
  [.status "i-1", .instances, .stop "i-2", .associate "i-2" "eipalloc-1"]

/-- The instance is resized while others read its status before each call. -/
theorem accomplished_among_readers :
    twinConfig.validate = .ok () ∧ twinAccount.state? "i-1" = some .running ∧
      twinAccount.Accepts (.resize "m5.large") ∧
      (∀ past, ∀ c ∈ readers past, Gentle "i-1" (.resize "m5.large") c) ∧
      Accomplished twinConfig twinRequest 4
        ((twinAccount.outside readers never).chronicle (execute twinConfig twinRequest))
        ((twinAccount.outside readers never).result (execute twinConfig twinRequest))
        (twinAccount.left readers never (execute twinConfig twinRequest)) := by
  have valid : twinConfig.validate = .ok () := rfl
  have running : twinAccount.state? "i-1" = some .running := rfl
  have accepts : twinAccount.Accepts (.resize "m5.large") :=
    ⟨by decide, .inl (List.mergeSort_nil ..)⟩
  have gentle : ∀ past, ∀ c ∈ readers past, Gentle "i-1" (.resize "m5.large") c := by
    intro past c hc
    simp only [readers, List.mem_cons, List.not_mem_nil, or_false] at hc
    rcases hc with rfl | rfl | rfl | rfl
    · exact .inl rfl
    · exact .inr ⟨by decide, nofun⟩
    · exact .inr ⟨by decide, nofun⟩
    · exact .inr ⟨by decide, fun _ => rfl⟩
  refine ⟨valid, running, accepts, gentle, ?_⟩
  exact (accomplished_of_execute twinAccount twinConfig twinRequest readers valid rfl running
    accepts (by decide) (by decide) gentle).1

/-- Without a valid configuration no number of attempts is enough: if the interval has no length,
then a workflow ends before its first call. -/
theorem not_accomplished_without_interval :
    ¬ ∀ (account : Account) (config : EngineConfig) (request : Request)
        (company : List Exchange → List Call),
      Origin.parse request.declaredState = .ok .running →
      account.state? request.instanceId = some .running → account.Accepts request.mutation →
      account.settle + 2 ≤ config.stopPoll.maxAttempts.toNat →
      account.settle + 2 ≤ config.startPoll.maxAttempts.toNat →
      (∀ past, ∀ c ∈ company past, Gentle request.instanceId request.mutation c) →
      ∃ w, (account.outside company never).result (execute config request) = .ok w := by
  intro always
  have offered : twinAccount.Accepts (.resize "m5.large") :=
    ⟨by decide, .inl (List.mergeSort_nil ..)⟩
  obtain ⟨w, ended⟩ := always twinAccount ⟨⟨4, 0⟩, ⟨4, 1000⟩, false⟩ twinRequest alone rfl rfl
    offered (by decide) (by decide) fun _ _ none => absurd none List.not_mem_nil
  have refused : (twinAccount.outside alone never).result
      (execute ⟨⟨4, 0⟩, ⟨4, 1000⟩, false⟩ twinRequest) =
        .error (.precondition "Validation error: interval_ms must be greater than zero") := rfl
  rw [refused] at ended
  cases ended

end InstanceResize.Engine
