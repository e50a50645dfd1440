import InstanceResize.Engine.Run
import InstanceResize.Proofs.Run.Waiting

/-!
# Runs of the parts of a workflow

A workflow is opened, brought to a halt, changed and brought back. Here is what can happen in each
of these parts.

* `runs_step_bind`: a run of one step after another.
* `Brought`: the runs of a call that brings an instance to a state.
* `Changed`: the runs of the change.
* `Confirmed`, `Opened`: the runs of what comes before the phases.
-/

namespace InstanceResize.Engine

variable {α β : Type} {b : Bool} {t : List Moment}

/-! ## Steps -/

/-- A run of one step after another fails in the first, or goes through the first and then is a run
of the second. -/
theorem runs_step_bind {x : Step α} {f : α → Step β} {r : Except RunError β} :
    (x >>= f).run.Runs b t r ↔
      (∃ e, r = .error e ∧ x.run.Runs b t (.error e)) ∨
        ∃ a t₁ t₂, t = t₁ ++ t₂ ∧ x.run.Runs b t₁ (.ok a) ∧
          (f a).run.Runs (b || wasCancelled t₁) t₂ r := by
  rw [ExceptT.run_bind]
  refine Program.runs_bind.trans ?_
  constructor
  · rintro ⟨t₁, y, t₂, rfl, h₁, h₂⟩
    cases y with
    | error e =>
      obtain ⟨rfl, rfl⟩ := Program.runs_done.mp h₂
      exact .inl ⟨e, rfl, by simpa using h₁⟩
    | ok a => exact .inr ⟨a, t₁, t₂, rfl, h₁, h₂⟩
  · rintro (⟨e, rfl, h⟩ | ⟨a, t₁, t₂, rfl, h₁, h₂⟩)
    · exact ⟨t, .error e, [], by simp, h, .done _ _⟩
    · exact ⟨t₁, .ok a, t₂, rfl, h₁, h₂⟩

/-- A step that succeeds comes before any run of the next step. -/
theorem runs_step_after {x : Step α} {f : α → Step β} {a : α} {u : List Moment}
    {r : Except RunError β} (hx : x.run.Runs b t (.ok a))
    (hf : (f a).run.Runs (b || wasCancelled t) u r) : (x >>= f).run.Runs b (t ++ u) r :=
  runs_step_bind.mpr (.inr ⟨a, t, u, rfl, hx, hf⟩)

/-- A step that fails is all of a run. -/
theorem runs_step_failed {x : Step α} {f : α → Step β} {e : RunError}
    (hx : x.run.Runs b t (.error e)) : (x >>= f).run.Runs b t (.error e) :=
  runs_step_bind.mpr (.inl ⟨e, rfl, hx⟩)

theorem runs_step_pure {a : α} {r : Except RunError α} :
    (pure a : Step α).run.Runs b t r ↔ t = [] ∧ r = .ok a :=
  Program.runs_done

theorem runs_step_throw {e : RunError} {r : Except RunError α} :
    (throw e : Step α).run.Runs b t r ↔ t = [] ∧ r = .error e :=
  Program.runs_done

theorem runs_step_adapt {x : Step α} {f : RunError → RunError} {r : Except RunError α} :
    (x.adapt f).run.Runs b t r ↔ ∃ y, x.run.Runs b t y ∧ r = y.mapError f := by
  refine Program.runs_bind.trans ?_
  constructor
  · rintro ⟨t₁, y, t₂, rfl, h₁, h₂⟩
    obtain ⟨rfl, rfl⟩ := Program.runs_done.mp h₂
    refine ⟨y, ?_, rfl⟩
    rw [List.append_nil]
    exact h₁
  · rintro ⟨y, h, rfl⟩
    exact ⟨t, y, [], by simp, h, .done _ _⟩

theorem run_calling (c : Call) (failure : ProviderError → RunError) :
    (calling c failure).run = .call c fun x => .done (x.mapError failure) := by
  show Program.call c _ = Program.call c _
  congr 1
  funext x
  cases x <;> rfl

theorem runs_calling {c : Call} {failure : ProviderError → RunError}
    {r : Except RunError c.Result} :
    (calling c failure).run.Runs b t r ↔
      ∃ struck x, (struck = true → b = false) ∧ t = exchange c x struck ∧
        r = x.mapError failure := by
  rw [run_calling, Program.runs_call]
  constructor
  · rintro ⟨struck, x, u, once, rfl, h⟩
    obtain ⟨rfl, rfl⟩ := Program.runs_done.mp h
    exact ⟨struck, x, once, by simp, rfl⟩
  · rintro ⟨struck, x, once, rfl, rfl⟩
    exact ⟨struck, x, [], once, by simp, .done _ _⟩

/-- A run that begins with a call fails as the call does, or goes on with its result. -/
theorem runs_calling_bind {c : Call} {failure : ProviderError → RunError} {f : c.Result → Step α}
    {r : Except RunError α} :
    (calling c failure >>= f).run.Runs b t r ↔
      ∃ struck, (struck = true → b = false) ∧
        ((∃ e, t = exchange c (.error e) struck ∧ r = .error (failure e)) ∨
          ∃ x u, t = exchange c (.ok x) struck ++ u ∧ (f x).run.Runs (b || struck) u r) := by
  rw [runs_step_bind]
  simp only [runs_calling]
  constructor
  · rintro (⟨e, rfl, struck, x, once, rfl, he⟩ |
      ⟨a, t₁, t₂, rfl, ⟨struck, x, once, rfl, ha⟩, h⟩)
    · cases x with
      | error y =>
        obtain rfl := Except.error.inj he
        exact ⟨struck, once, .inl ⟨y, rfl, rfl⟩⟩
      | ok y => cases he
    · cases x with
      | error y => cases ha
      | ok y =>
        obtain rfl := Except.ok.inj ha
        exact ⟨struck, once, .inr ⟨a, t₂, rfl, by simpa using h⟩⟩
  · rintro ⟨struck, once, ⟨e, rfl, rfl⟩ | ⟨x, u, rfl, h⟩⟩
    · exact .inl ⟨_, rfl, struck, .error e, once, rfl, rfl⟩
    · exact .inr ⟨x, _, u, rfl, ⟨struck, .ok x, once, rfl, rfl⟩, by simpa using h⟩

/-- What comes after a check is only done if the workflow was not cancelled before. -/
theorem runs_checkCancelled_bind {w : Workflow} {f : Unit → Step α} {r : Except RunError α} :
    (checkCancelled w >>= f).run.Runs b t r ↔
      (b = true ∧ t = [] ∧ r = .error (.cancelled w.phase)) ∨
        (b = false ∧ (f ()).run.Runs false t r) := by
  refine Program.runs_cancelled.trans ?_
  cases b with
  | true => exact Program.runs_done.trans (by simp)
  | false => exact ⟨fun h => .inr ⟨rfl, h⟩, fun h => h.elim (by simp) And.right⟩

/-! ## Bringing an instance to a state -/

/-- The result of a wait as that of a step. -/
def settled : Except PollError State → Except RunError Unit
  | .ok _ => .ok ()
  | .error e => .error (.poll e)

theorem runs_awaiting {id : String} {target : State} {policy : PollPolicy}
    (valid : policy.validate = .ok ()) {r : Except RunError Unit} :
    (awaiting id target policy).run.Runs b t r ↔
      ∃ v, Waited id target policy policy.maxAttempts.toNat b t v ∧ r = settled v := by
  obtain ⟨n, hn⟩ := Nat.exists_eq_succ_of_ne_zero (Nat.ne_of_gt (PollPolicy.pos_of_validate valid))
  have wait : pollUntil id target policy = attempts id target policy (n + 1) "nothing" := by
    rw [pollUntil, valid, hn]
  have tree : (awaiting id target policy).run =
      (pollUntil id target policy).bind fun v => .done (settled v) := by
    show Program.bind (Program.bind _ _) _ = _
    rw [Program.bind_assoc]
    congr 1
    funext v
    cases v <;> rfl
  rw [tree, wait, Program.runs_bind, hn]
  constructor
  · rintro ⟨t₁, v, t₂, rfl, h₁, h₂⟩
    obtain ⟨rfl, rfl⟩ := Program.runs_done.mp h₂
    exact ⟨v, by simpa using runs_attempts_iff.mp h₁, rfl⟩
  · rintro ⟨v, h, rfl⟩
    exact ⟨t, v, [], by simp, runs_attempts_iff.mpr h, .done _ _⟩

/-- The runs of a call that brings an instance to a state. -/
inductive Brought (w : Workflow) (target : State) (c : Call) (policy : PollPolicy) :
    Bool → List Moment → Except RunError Unit → Prop where
  /-- The workflow was cancelled before. -/
  | off : Brought w target c policy true [] (.error (.cancelled w.phase))
  /-- The call does not succeed. -/
  | declined (e : ProviderError) (struck : Bool) :
      Brought w target c policy false (exchange c (.error e) struck) (.error (.ofCall c.name e))
  /-- The call succeeds, and the state is waited for. -/
  | awaited (x : c.Result) {struck : Bool} {t : List Moment} {v : Except PollError State}
      (wait : Waited w.instanceId target policy policy.maxAttempts.toNat struck t v) :
      Brought w target c policy false (exchange c (.ok x) struck ++ t) (settled v)

theorem runs_bringTo_iff {w : Workflow} {target : State} {c : Call} {policy : PollPolicy}
    (valid : policy.validate = .ok ()) {r : Except RunError Unit} :
    (bringTo w target c policy).run.Runs b t r ↔ Brought w target c policy b t r := by
  rw [bringTo, runs_checkCancelled_bind]
  constructor
  · rintro (⟨rfl, rfl, rfl⟩ | ⟨rfl, h⟩)
    · exact .off
    · obtain ⟨struck, -, ⟨e, rfl, rfl⟩ | ⟨x, u, rfl, rest⟩⟩ := runs_calling_bind.mp h
      · exact .declined e struck
      · obtain ⟨v, wait, rfl⟩ := (runs_awaiting valid).mp rest
        exact .awaited x wait
  · intro h
    cases h with
    | off => exact .inl ⟨rfl, rfl, rfl⟩
    | declined e struck =>
      exact .inr ⟨rfl, runs_calling_bind.mpr ⟨struck, fun _ => rfl, .inl ⟨e, rfl, rfl⟩⟩⟩
    | @awaited x struck t v wait =>
      refine .inr ⟨rfl, runs_calling_bind.mpr ⟨struck, fun _ => rfl, .inr ⟨x, t, rfl, ?_⟩⟩⟩
      exact (runs_awaiting valid).mpr ⟨v, wait, rfl⟩

/-! ## The change -/

/-- The runs of the change. -/
inductive Changed (w : Workflow) : Bool → List Moment → Except RunError Unit → Prop where
  /-- The workflow was cancelled before. -/
  | off : Changed w true [] (.error (.cancelled w.phase))
  /-- The call does not succeed. -/
  | declined (e : ProviderError) (struck : Bool) :
      Changed w false (exchange (.ofMutation w.instanceId w.mutation) (.error e) struck)
        (.error (mutationError w.mutation (Call.ofMutation w.instanceId w.mutation).name e))
  | made (x : (Call.ofMutation w.instanceId w.mutation).Result) (struck : Bool) :
      Changed w false (exchange (.ofMutation w.instanceId w.mutation) (.ok x) struck) (.ok ())

theorem runs_applyMutation_iff {w : Workflow} {r : Except RunError Unit} :
    (applyMutation w).run.Runs b t r ↔ Changed w b t r := by
  rw [applyMutation, runs_checkCancelled_bind]
  constructor
  · rintro (⟨rfl, rfl, rfl⟩ | ⟨rfl, h⟩)
    · exact .off
    · obtain ⟨struck, -, ⟨e, rfl, rfl⟩ | ⟨x, u, rfl, rest⟩⟩ := runs_calling_bind.mp h
      · exact .declined e struck
      · obtain ⟨rfl, rfl⟩ := runs_step_pure.mp rest
        simpa using Changed.made x struck
  · intro h
    cases h with
    | off => exact .inl ⟨rfl, rfl, rfl⟩
    | declined e struck =>
      exact .inr ⟨rfl, runs_calling_bind.mpr ⟨struck, fun _ => rfl, .inl ⟨e, rfl, rfl⟩⟩⟩
    | made x struck =>
      refine .inr ⟨rfl, runs_calling_bind.mpr ⟨struck, fun _ => rfl, .inr ⟨x, [], ?_, ?_⟩⟩⟩
      · exact (List.append_nil _).symm
      · exact runs_step_pure.mpr ⟨rfl, rfl⟩

/-! ## The origin -/

/-- The message about an origin that is not the declared one. -/
def correction (declared observed : Origin) : List Moment :=
  if observed ≠ declared then
    [.emit (.message ("instance is " ++ observed.name ++ ", not " ++ declared.name))]
  else []

section

variable (declared observed : Origin)

@[simp] theorem exchanges_correction : exchanges (correction declared observed) = [] := by
  unfold correction
  split <;> rfl

@[simp] theorem begun_correction : begun (correction declared observed) = [] := by
  unfold correction
  split <;> rfl

@[simp] theorem pauses_correction : pauses (correction declared observed) = [] := by
  unfold correction
  split <;> rfl

@[simp] theorem wasCancelled_correction :
    wasCancelled (correction declared observed) = false := by
  unfold correction
  split <;> rfl

theorem silent_correction : Silent (correction declared observed) := by
  unfold correction
  split
  · exact silent_emit _
  · exact silent_nil

end

/-- The text about a state that no workflow starts from. -/
def unfitText (s : Status) : String :=
  "instance is '" ++ s.name ++ "', expected 'running' or 'stopped'"

/-- The runs of the reading that confirms the origin. A cancelled workflow reads as well. -/
inductive Confirmed (id : String) (declared : Origin) (b : Bool) :
    List Moment → Except RunError Origin → Prop where
  /-- The call does not succeed. -/
  | unread (e : ProviderError) (struck : Bool) (once : struck = true → b = false) :
      Confirmed id declared b (exchange (.status id) (.error e) struck) (.error (.query e.message))
  /-- The instance is in a state that no workflow starts from. -/
  | unfit (s : Status) (struck : Bool) (once : struck = true → b = false)
      (fit : Origin.ofState? s.state = none) :
      Confirmed id declared b (exchange (.status id) (.ok s) struck)
        (.error (.precondition (unfitText s)))
  | read (s : Status) (observed : Origin) (struck : Bool) (once : struck = true → b = false)
      (fit : Origin.ofState? s.state = some observed) :
      Confirmed id declared b (exchange (.status id) (.ok s) struck ++ correction declared observed)
        (.ok observed)

theorem runs_correction {declared observed : Origin} {r : Except RunError Origin} :
    (do
      if observed ≠ declared then
        (Program.tell (.message ("instance is " ++ observed.name ++ ", not " ++ declared.name)) :
          Program Unit)
      return observed : Step Origin).run.Runs b t r ↔
      t = correction declared observed ∧ r = .ok observed := by
  by_cases h : observed ≠ declared
  · rw [if_pos h, correction, if_pos h]
    refine Program.runs_emit.trans ?_
    constructor
    · rintro ⟨u, rfl, rest⟩
      obtain ⟨rfl, rfl⟩ := Program.runs_done.mp rest
      exact ⟨rfl, rfl⟩
    · rintro ⟨rfl, rfl⟩
      exact ⟨[], rfl, .done _ _⟩
  · rw [if_neg h, correction, if_neg h]
    exact runs_step_pure

theorem runs_confirmOrigin_iff {id : String} {declared : Origin} {r : Except RunError Origin} :
    (confirmOrigin id declared).run.Runs b t r ↔ Confirmed id declared b t r := by
  rw [confirmOrigin, runs_calling_bind]
  constructor
  · rintro ⟨struck, once, ⟨e, rfl, rfl⟩ | ⟨s, u, rfl, rest⟩⟩
    · exact .unread e struck once
    · cases fit : Origin.ofState? s.state with
      | none =>
        rw [fit] at rest
        obtain ⟨rfl, rfl⟩ := runs_step_throw.mp rest
        rw [List.append_nil]
        exact .unfit s struck once fit
      | some observed =>
        rw [fit] at rest
        obtain ⟨rfl, rfl⟩ := runs_correction.mp rest
        exact .read s observed struck once fit
  · intro h
    cases h with
    | unread e struck once => exact ⟨struck, once, .inl ⟨e, rfl, rfl⟩⟩
    | unfit s struck once fit =>
      refine ⟨struck, once, .inr ⟨s, [], (List.append_nil _).symm, ?_⟩⟩
      rw [fit]
      exact runs_step_throw.mpr ⟨rfl, rfl⟩
    | read s observed struck once fit =>
      refine ⟨struck, once, .inr ⟨s, _, rfl, ?_⟩⟩
      rw [fit]
      exact runs_correction.mpr ⟨rfl, rfl⟩

/-- The runs of the opening. -/
inductive Opened (config : EngineConfig) (request : Request) (b : Bool) :
    List Moment → Except RunError Origin → Prop where
  /-- The configuration is not valid. -/
  | misconfigured (r : Refusal) (invalid : config.validate = .error r) :
      Opened config request b [] (.error (.precondition r.message))
  /-- No workflow starts from the declared state. -/
  | undeclared (r : Refusal) (valid : config.validate = .ok ())
      (unknown : Origin.parse request.declaredState = .error r) :
      Opened config request b [] (.error (.precondition r.message))
  /-- The declared state is not confirmed. -/
  | trusted (declared : Origin) (valid : config.validate = .ok ())
      (known : Origin.parse request.declaredState = .ok declared)
      (verify : config.verifyOrigin = false) : Opened config request b [] (.ok declared)
  | confirmed {declared : Origin} {t : List Moment} {r : Except RunError Origin}
      (valid : config.validate = .ok ())
      (known : Origin.parse request.declaredState = .ok declared)
      (verify : config.verifyOrigin = true)
      (confirmed : Confirmed request.instanceId declared b t r) : Opened config request b t r

variable {config : EngineConfig} {request : Request}

theorem runs_opening_iff {r : Except RunError Origin} :
    (opening config request).run.Runs b t r ↔ Opened config request b t r := by
  constructor
  · intro h
    cases hv : config.validate with
    | error x =>
      rw [opening, hv] at h
      obtain ⟨rfl, rfl⟩ := runs_step_throw.mp h
      exact .misconfigured x hv
    | ok _ =>
      cases hd : Origin.parse request.declaredState with
      | error x =>
        rw [opening, hv, hd] at h
        obtain ⟨rfl, rfl⟩ := runs_step_throw.mp h
        exact .undeclared x hv hd
      | ok declared =>
        cases verify : config.verifyOrigin with
        | true =>
          simp only [opening, hv, hd, verify, if_true] at h
          exact .confirmed hv hd verify (runs_confirmOrigin_iff.mp h)
        | false =>
          simp only [opening, hv, hd, verify] at h
          obtain ⟨rfl, rfl⟩ := runs_step_pure.mp h
          exact .trusted declared hv hd verify
  · intro h
    cases h with
    | misconfigured x invalid =>
      rw [opening, invalid]
      exact runs_step_throw.mpr ⟨rfl, rfl⟩
    | undeclared x valid unknown =>
      rw [opening, valid, unknown]
      exact runs_step_throw.mpr ⟨rfl, rfl⟩
    | trusted declared valid known verify =>
      simp only [opening, valid, known, verify]
      exact runs_step_pure.mpr ⟨rfl, rfl⟩
    | confirmed valid known verify confirmed =>
      simp only [opening, valid, known, verify, if_true]
      exact runs_confirmOrigin_iff.mpr confirmed

end InstanceResize.Engine
