import InstanceResize.Proofs.Run.Cycle
import InstanceResize.Proofs.Run.Playing

/-!
# When a workflow on a running instance ends

Nobody else uses a simulated account, nobody cancels the workflow, and calls take no time. Then all
is settled by the number of attempts. A wait sees the state in between once more often than the
account is set to, and then needs one more attempt to see the instance arrive. With fewer attempts
it ends without that. What is told of the workflow and how long it takes follows.

* `PollPolicy.pace`: how long a pause lasts.
* `Journey.of_error`, `Journey.of_ok`: what the end of a wait says about the attempts.
* `Performed`: what comes of a workflow with given numbers of attempts.
* `performed_of_running`: this is what comes of it.
-/

namespace InstanceResize

open Engine

/-! ## Simulated providers -/

/-- What an account answers that nobody else uses is what a simulated provider replies. -/
theorem Account.Answers.replies {a b : Account} {es : List Exchange}
    (h : a.Answers Account.nobody es b) : (Provider.simulated a).Replies es (.simulated b) := by
  induction es generalizing a with
  | nil =>
    obtain rfl := Account.used_nobody.mp h
    rfl
  | cons x es ih =>
    obtain ⟨reply, rest⟩ := Account.answers_nobody_cons.mp h
    exact ⟨congrArg some reply, ih rest⟩

/-! ## Events and pauses -/

/-- How long a pause lasts. -/
def PollPolicy.pace (p : PollPolicy) : Nat := min p.intervalMs.toNat World.longestWait

namespace Engine

section

variable (id : String) (policy : PollPolicy) (c : Call) (r : c.Reply) (x : c.Result)
  (reading : Reading) (rs : List Reading) (config : EngineConfig)

@[simp] theorem spent_exchange : spent [] (exchange c r false) = 0 := by
  simp [exchange, Moment.span]

@[simp] theorem spent_round : spent [] (round id policy reading false) = policy.pace := by
  simp [round, Moment.span, PollPolicy.pace]

@[simp] theorem spent_rounds : spent [] (rounds id policy rs) = rs.length * policy.pace := by
  induction rs with
  | nil => simp
  | cons r rs ih =>
    rw [rounds_cons, spent_append, spent_round, ih, List.length_cons, Nat.succ_mul, Nat.add_comm]

@[simp] theorem spent_trip : spent [] (trip id policy c x rs) = rs.length * policy.pace := by
  simp [trip]

@[simp] theorem spent_checking : spent [] (checking config id) = 0 := by
  unfold checking
  split
  · exact spent_exchange _ _
  · rfl

@[simp] theorem emitted_trip :
    emitted (trip id policy c x rs) = rs.map fun r => .message (report r) := by
  simp [trip]

@[simp] theorem emitted_checking : emitted (checking config id) = [] := by
  unfold checking
  split
  · exact emitted_exchange _ _ _
  · rfl

end

/-! ## Waits that nobody disturbs -/

section

variable {id : String} {via : State} {attempts : UInt32} {n : Nat} {rs : List Reading}

/-- A wait that fails has too few attempts, and sees nothing but the state in between. -/
theorem Journey.of_error {others : Call → Prop} {e : PollError}
    (h : Journey others id via attempts n rs (.error e)) :
    attempts.toNat ≤ n ∧ rs = List.replicate attempts.toNat (showing id via) ∧
      e = .timeout attempts (Account.Machine.settled via) via.name := by
  cases h with
  | overdue late => exact ⟨late, rfl, rfl⟩

/-- A wait that ends well and that nobody disturbs has attempts enough, and sees the state in
between and then the instance arrive. -/
theorem Journey.of_ok {s : State} (h : Journey Account.nobody id via attempts n rs (.ok s)) :
    n < attempts.toNat ∧
      rs = List.replicate n (showing id via) ++ [showing id (Account.Machine.settled via)] := by
  cases h with
  | arrived j near undisturbed left =>
    obtain rfl : j = n := undisturbed fun _ none => none
    exact ⟨left, rfl⟩

end

/-! ## What comes of a workflow -/

/-- What comes of a workflow on a running instance: how the number of attempts decides about its
outcome, what is told of it, the calls, how long it takes, and the account. -/
structure Performed (config : EngineConfig) (request : Request) (before after : Account)
    (calls : List Call) (time : Nat) (p : Performance (Except RunError Workflow)) : Prop where
  /-- There are attempts enough for both waits. -/
  restored : before.settle + 2 ≤ config.stopPoll.maxAttempts.toNat →
    before.settle + 2 ≤ config.startPoll.maxAttempts.toNat →
    p.outcome = .ok (workflowIn request .running .done) ∧
    p.events = List.replicate (before.settle + 1) (.message "stopping") ++ [.message "stopped"] ++
      (List.replicate (before.settle + 1) (.message "pending") ++ [.message "running"]) ++
        [.success] ∧
    time = (before.settle + 2) * config.stopPoll.pace +
      (before.settle + 2) * config.startPoll.pace ∧
    after.state? request.instanceId = some .running ∧
    after.InForce request.instanceId request.mutation
  /-- There are too few attempts for the stop. -/
  stalled : config.stopPoll.maxAttempts.toNat ≤ before.settle + 1 →
    ∃ e : RunError, p.outcome = .error e ∧
      e = .poll (.timeout config.stopPoll.maxAttempts .stopped "stopping") ∧
      p.events = List.replicate config.stopPoll.maxAttempts.toNat (.message "stopping") ++
        [e.event] ∧
      (∀ c ∈ calls, c.isChange = false) ∧ before.Kept request.instanceId after
  /-- There are enough for the stop, but too few for the start. -/
  unrestored : before.settle + 2 ≤ config.stopPoll.maxAttempts.toNat →
    config.startPoll.maxAttempts.toNat ≤ before.settle + 1 →
    ∃ e : RunError, p.outcome = .error e ∧
      e = .notRestored request.mutation.describe
        (.poll (.timeout config.startPoll.maxAttempts .running "pending")) ∧
      p.events = List.replicate (before.settle + 1) (.message "stopping") ++
        [.message "stopped"] ++
          List.replicate config.startPoll.maxAttempts.toNat (.message "pending") ++ [e.event] ∧
      after.InForce request.instanceId request.mutation

variable {config : EngineConfig} {request : Request} {before after : Account} {t : List Moment}
  {r : Except RunError Workflow}

/-- The attempts decide which cycle it is. -/
theorem Cycle.performed (h : Cycle Account.nobody config request (before.settle + 1) after t r)
    (answers : before.Answers Account.nobody (exchanges t) after)
    (begins : begun t = (exchanges t).map Exchange.call) (terminated : Bool) :
    Performed config request before after (begun t) (spent [] t)
      ⟨r, emitted t ++ [outcomeEvent r], terminated⟩ := by
  cases h with
  | @halting rs e stop =>
    obtain ⟨few, read, rfl⟩ := stop.of_error
    have calm := calm_halt config request.instanceId config.stopPoll rs
    refine ⟨fun enough => by omega, fun _ => ⟨_, rfl, rfl, ?_, ?_, ?_⟩, fun enough => by omega⟩
    · simp [read, report_showing, outcomeEvent, State.name]
    · intro c hc
      rw [begins] at hc
      obtain ⟨x, hx, rfl⟩ := List.mem_map.mp hc
      exact calm x hx
    · refine answers.kept fun x hx change => ?_
      rw [calm x hx] at change
      cases change
  | @restarting rs rs' s e x stop start inForce =>
    obtain ⟨enough, read⟩ := stop.of_ok
    obtain ⟨few, read', rfl⟩ := start.of_error
    refine ⟨fun _ enough => by omega, fun few => by omega, fun _ _ => ⟨_, rfl, rfl, ?_, inForce⟩⟩
    simp [read, read', report_showing, outcomeEvent, State.name, Account.Machine.settled]
  | @restored rs rs' s s' x stop start inForce running =>
    obtain ⟨enough, read⟩ := stop.of_ok
    obtain ⟨enough', read'⟩ := start.of_ok
    refine ⟨fun _ _ => ⟨rfl, ?_, ?_, running, inForce⟩, fun few => by omega, fun _ few => by omega⟩
    · simp [read, read', report_showing, outcomeEvent, State.name, Account.Machine.settled]
    · simp [read, read']

/-- Nobody else uses a simulated account, which offers what a change asks for, the instance is
running and is said to be, nobody cancels the workflow, and calls take no time. Then the number of
attempts decides what comes of the workflow. -/
theorem performed_of_running (scene : Scene) (account : Account) (request : Request)
    (viaChannel : Bool) (provider : scene.world.provider = .simulated account)
    (prompt : scene.world.latency = []) (valid : scene.config.validate = .ok ())
    (declared : Origin.parse request.declaredState = .ok .running)
    (running : account.state? request.instanceId = some .running)
    (accepts : account.Accepts request.mutation) :
    ∃ p after left calls time,
      scene.perform ⟨viaChannel, [], none, none⟩ (execute scene.config request) =
        (some p, after) ∧
      after.world.provider = .simulated left ∧
      after.world.calls = scene.world.calls ++ calls ∧
      after.world.now = scene.world.now + time ∧
      Performed scene.config request account left calls time p := by
  have considerate : Considerate request Account.nobody := ⟨fun _ none => none.elim, fun _ none =>
    none.elim⟩
  have nobody : ∀ past, ∀ c ∈ Account.alone past, Account.nobody c :=
    fun _ _ none => absurd none List.not_mem_nil
  obtain ⟨t, r, ended, told, runs, calm, cycle⟩ :=
    cycle_of_execute (declared?_eq_some valid declared) considerate nobody running accepts
  have answers : account.Answers Account.nobody
      (exchanges ((account.outside Account.alone Account.never).chronicle
        (execute scene.config request)))
      (account.left Account.alone Account.never (execute scene.config request)) :=
    Account.answers_chronicle nobody _
  rw [told] at answers
  have executed : (execute scene.config request).Runs false (t ++ [.emit (outcomeEvent r)]) r :=
    runs_execute_iff.mpr ⟨t, rfl, runs⟩
  -- The cycle tells what happens. This is what is performed in the scene, which keeps the time.
  have replies := answers.replies
  rw [← provider] at replies
  obtain ⟨world, performed, provider', calls, now⟩ :=
    scene.perform_of_runs executed (by simpa using calm) replies viaChannel
  have events : throughTerminal (emitted (t ++ [.emit (outcomeEvent r)])) =
      emitted t ++ [outcomeEvent r] := by
    rw [emitted_append, throughTerminal_append fun e he => isTerminal_of_mem_emitted runs he]
    exact congrArg _ (throughTerminal_cons_of_terminal (isTerminal_outcomeEvent r) _)
  rw [events] at performed
  refine ⟨_, _, _, begun t, spent [] t, performed, provider', ?_, ?_, ?_⟩
  · simpa using calls
  · rw [prompt] at now
    simpa [Moment.span] using now
  · exact cycle.performed (by simpa using answers) runs.begun_eq _

/-- A simulated account whose calls take no time. -/
def sceneOf (account : Account) (config : EngineConfig) : Scene :=
  .new (.simulated account) [] config

/-- With four attempts for each wait and two readings to settle, all is done after eight pauses. -/
theorem performed_of_twin :
    twinConfig.validate = .ok () ∧ twinAccount.state? "i-1" = some .running ∧
      twinAccount.Accepts (.resize "m5.large") ∧
      ∃ p after,
        (sceneOf twinAccount twinConfig).perform ⟨true, [], none, none⟩
          (execute twinConfig twinRequest) = (some p, after) ∧
        p.outcome = .ok (workflowIn twinRequest .running .done) ∧
        p.events = [.message "stopping", .message "stopping", .message "stopping",
          .message "stopped", .message "pending", .message "pending", .message "pending",
          .message "running", .success] ∧
        after.world.now = 8000 := by
  have valid : twinConfig.validate = .ok () := rfl
  have running : twinAccount.state? "i-1" = some .running := rfl
  have accepts : twinAccount.Accepts (.resize "m5.large") :=
    ⟨by decide, .inl (List.mergeSort_nil ..)⟩
  obtain ⟨p, after, left, calls, time, performed, -, -, now, comes⟩ :=
    performed_of_running (sceneOf twinAccount twinConfig) twinAccount twinRequest true rfl rfl valid
      rfl running accepts
  obtain ⟨outcome, events, lasts, -⟩ := comes.restored (by decide) (by decide)
  refine ⟨valid, running, accepts, p, after, performed, outcome, events, ?_⟩
  rw [now, lasts]
  rfl

/-- An account with one running instance, which settles at once. -/
def promptAccount : Account := .ofSetup ⟨0, [⟨"i-1", "t3.micro", .running⟩], [], []⟩

/-- The time is not always as the intervals say, since no pause lasts longer than thirty years. With
attempts enough a workflow does not always succeed, since a configuration with an interval of no
length is refused. And too few attempts for the stop are not always met with by a timeout, since a
configuration without any attempt is refused. -/
theorem not_performed_as_configured :
    (¬ ∀ (account : Account) (config : EngineConfig) (request : Request),
        Origin.parse request.declaredState = .ok .running →
        account.state? request.instanceId = some .running → account.Accepts request.mutation →
        account.settle + 2 ≤ config.stopPoll.maxAttempts.toNat →
        account.settle + 2 ≤ config.startPoll.maxAttempts.toNat →
        ((sceneOf account config).perform ⟨false, [], none, none⟩
          (execute config request)).2.world.now =
            (account.settle + 2) * config.stopPoll.intervalMs.toNat +
              (account.settle + 2) * config.startPoll.intervalMs.toNat) ∧
      (¬ ∀ (account : Account) (config : EngineConfig) (request : Request),
        Origin.parse request.declaredState = .ok .running →
        account.state? request.instanceId = some .running → account.Accepts request.mutation →
        account.settle + 2 ≤ config.stopPoll.maxAttempts.toNat →
        account.settle + 2 ≤ config.startPoll.maxAttempts.toNat →
        ∃ p, ((sceneOf account config).perform ⟨false, [], none, none⟩
            (execute config request)).1 = some p ∧ ∃ w, p.outcome = .ok w) ∧
      ¬ ∀ (account : Account) (config : EngineConfig) (request : Request),
        Origin.parse request.declaredState = .ok .running →
        account.state? request.instanceId = some .running → account.Accepts request.mutation →
        config.stopPoll.maxAttempts.toNat ≤ account.settle + 1 →
        ∃ p, ((sceneOf account config).perform ⟨false, [], none, none⟩
            (execute config request)).1 = some p ∧
          ∃ attempts target seen, p.outcome = .error (.poll (.timeout attempts target seen)) := by
  have offered : promptAccount.Accepts (.resize "m5.large") :=
    ⟨by decide, .inl (List.mergeSort_nil ..)⟩
  refine ⟨?_, ?_, ?_⟩
  · intro always
    have time := always promptAccount ⟨⟨2, 946080000001⟩, ⟨2, 1⟩, false⟩ twinRequest rfl rfl offered
      (by decide) (by decide)
    have cut : ((sceneOf promptAccount ⟨⟨2, 946080000001⟩, ⟨2, 1⟩, false⟩).perform
        ⟨false, [], none, none⟩
          (execute ⟨⟨2, 946080000001⟩, ⟨2, 1⟩, false⟩ twinRequest)).2.world.now =
        1892160000002 := by decide +kernel
    rw [cut] at time
    revert time
    decide
  · intro always
    obtain ⟨p, performed, w, outcome⟩ :=
      always promptAccount ⟨⟨2, 0⟩, ⟨2, 1⟩, false⟩ twinRequest rfl rfl offered (by decide)
        (by decide)
    have refused : ((sceneOf promptAccount ⟨⟨2, 0⟩, ⟨2, 1⟩, false⟩).perform
        ⟨false, [], none, none⟩
          (execute ⟨⟨2, 0⟩, ⟨2, 1⟩, false⟩ twinRequest)).1.map (·.outcome) =
        some (.error (.precondition "Validation error: interval_ms must be greater than zero")) :=
      rfl
    rw [performed, Option.map_some, outcome] at refused
    cases refused
  · intro always
    obtain ⟨p, performed, attempts, target, seen, outcome⟩ :=
      always promptAccount ⟨⟨0, 1⟩, ⟨2, 1⟩, false⟩ twinRequest rfl rfl offered (by decide)
    have refused : ((sceneOf promptAccount ⟨⟨0, 1⟩, ⟨2, 1⟩, false⟩).perform
        ⟨false, [], none, none⟩
          (execute ⟨⟨0, 1⟩, ⟨2, 1⟩, false⟩ twinRequest)).1.map (·.outcome) =
        some (.error (.precondition "Validation error: max_attempts must be at least 1")) := rfl
    rw [performed, Option.map_some, outcome] at refused
    cases refused

end Engine

end InstanceResize
