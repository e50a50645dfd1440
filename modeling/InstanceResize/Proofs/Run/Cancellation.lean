import InstanceResize.Proofs.Run.Course
import InstanceResize.Proofs.Run.Outside

/-!
# What a cancellation does

A run can be cancelled before its start, while a call is under way, or in a pause. Afterwards it
asks for nothing any more. Only the reading for the origin is still made by a run that had not
begun.

* `Settles`: what has happened leaves only one result.
* `Heeds`: a step that is cancelled before its start does nothing.
* `Yields`: a step that is cancelled in its course does nothing any more. It fails, unless the
  answer to its last call has settled its result.
* `Heeds.bind`, `Yields.bind`: steps one after another heed and yield if each of them does.
* `Obeyed`: what happens before and after a cancellation of a run, and its result.
* `obeyed_of_run`: every run obeys.
-/

namespace InstanceResize

/-- A result is settled by what has happened: it can happen, and whatever else happens then, the
result is this one. -/
structure Settles {α : Type} (p : Program α) (past : List Moment) (a : α) : Prop where
  possible : ∃ (o : Outside) (rest : List Moment), o.chronicle p = past ++ rest
  certain : ∀ (o : Outside) (rest : List Moment), o.chronicle p = past ++ rest → o.result p = a

/-- A result is settled once all is answered. -/
theorem settles_of_runs {α : Type} {p : Program α} {past rest : List Moment} {a : α}
    (h : p.Runs false (past ++ rest) a) (silent : Silent rest) (begun : past ≠ []) :
    Settles p past a where
  possible := by
    obtain ⟨o, ho, -⟩ := Program.happens_iff.mp (.inl h)
    exact ⟨o, rest, ho⟩
  certain o rest' ho := by
    rcases o.happens p with h' | ⟨u, hu, -⟩
    · rw [ho] at h'
      exact h.decided silent h'
    · rcases past with _ | ⟨m, past⟩
      · exact absurd rfl begun
      · obtain ⟨rfl, -⟩ := List.cons.inj (ho.symm.trans hu)
        exact absurd rfl h.head?_ne_cancel

namespace Engine

variable {α β : Type}

/-- A result that is an error because somebody cancelled the run. -/
def Aborted (r : Except RunError α) : Prop := ∃ e, r = .error e ∧ e.isCancellation = true

/-- A step that is cancelled before its start only emits events. It fails because of that, or goes
the way it goes if nobody cancels it. -/
def Heeds (x : Step α) : Prop :=
  ∀ t r, x.run.Runs true t r → Silent t ∧ (Aborted r ∨ x.run.Runs false t r)

/-- What happens before and after a cancellation in the course of a step, and its result. -/
inductive Yielded (x : Step α) : List Moment → List Moment → Except RunError α → Prop where
  /-- A pause ends at once, and so does the step. -/
  | pausing (pre : List Moment) (ms : UInt64) (target : State) :
      Yielded x (pre ++ [.rest ms]) [] (.error (.poll (.cancelled target)))
  /-- A call is answered. The step fails because of the cancellation, or it goes the way it goes
  with this answer if nobody cancels it. -/
  | calling (pre : List Moment) (c : Call) (a : c.Reply) (post : List Moment)
      (r : Except RunError α) (silent : Silent post)
      (outcome : Aborted r ∨ x.run.Runs false (pre ++ .call c :: .reply c a :: post) r) :
      Yielded x (pre ++ [.call c]) (.reply c a :: post) r

/-- A step that is cancelled in its course does nothing any more. -/
def Yields (x : Step α) : Prop :=
  ∀ pre post r, x.run.Runs false (pre ++ .cancel :: post) r → Yielded x pre post r

/-! ## Steps one after another -/

theorem Heeds.bind {x : Step α} {f : α → Step β} (hx : Heeds x) (hf : ∀ a, Heeds (f a)) :
    Heeds (x >>= f) := by
  intro t r h
  rcases runs_step_bind.mp h with ⟨e, rfl, h₁⟩ | ⟨a, t₁, t₂, rfl, h₁, h₂⟩
  · obtain ⟨silent, ⟨e', he, cancelled⟩ | calm⟩ := hx _ _ h₁
    · cases he
      exact ⟨silent, .inl ⟨e, rfl, cancelled⟩⟩
    · exact ⟨silent, .inr (runs_step_failed calm)⟩
  · obtain ⟨silent₁, ⟨e', he, -⟩ | calm₁⟩ := hx _ _ h₁
    · cases he
    · obtain ⟨silent₂, aborted | calm₂⟩ := hf a _ _ h₂
      · exact ⟨silent₁.append silent₂, .inl aborted⟩
      · refine ⟨silent₁.append silent₂, .inr (runs_step_after calm₁ ?_)⟩
        rw [h₁.calm.1]
        exact calm₂

theorem Yields.bind {x : Step α} {f : α → Step β} (hx : Yields x) (hf : ∀ a, Yields (f a))
    (heeds : ∀ a, Heeds (f a)) : Yields (x >>= f) := by
  intro pre post r h
  rcases runs_step_bind.mp h with ⟨e, rfl, h₁⟩ | ⟨a, t₁, t₂, ht, h₁, h₂⟩
  · cases hx _ _ _ h₁ with
    | pausing pre ms target => exact .pausing pre ms target
    | calling pre c a post r silent outcome =>
      refine .calling pre c a post _ silent ?_
      rcases outcome with ⟨e', he, cancelled⟩ | calm
      · cases he
        exact .inl ⟨e, rfl, cancelled⟩
      · exact .inr (runs_step_failed calm)
  · rcases List.append_eq_append_iff.mp ht with ⟨_ | ⟨m, u⟩, rfl, hu⟩ | ⟨u, rfl, rfl⟩
    · obtain rfl : Moment.cancel :: post = t₂ := hu
      exact absurd rfl h₂.head?_ne_cancel
    · -- The first step is cancelled, and the second one heeds this.
      obtain ⟨rfl, rfl⟩ := List.cons.inj hu
      obtain ⟨-, before, after, -⟩ := h₁.struck
      cases hx _ _ _ h₁ with
      | calling pre c y post r silent outcome =>
        rcases outcome with ⟨e', he, -⟩ | calm
        · cases he
        · obtain ⟨silent', outcome⟩ := heeds a t₂ r (by simpa using h₂)
          refine .calling pre c y _ r (silent.append silent') ?_
          refine outcome.imp_right fun calm' => ?_
          have hcalm : wasCancelled (pre ++ .call c :: .reply c y :: post) = false := by
            simpa using ⟨by simpa using before, by simpa using after⟩
          have whole := runs_step_after calm (f := f) (by rw [hcalm]; exact calm')
          simpa using whole
    · -- The second step is cancelled after the first one.
      obtain ⟨hb, -⟩ := h₂.struck
      rw [hb] at h₂
      cases hf a _ _ _ h₂ with
      | pausing pre ms target =>
        rw [← List.append_assoc]
        exact .pausing _ ms target
      | calling pre c y post r silent outcome =>
        rw [← List.append_assoc]
        refine .calling _ c y post r silent (outcome.imp_right fun calm => ?_)
        rw [List.append_assoc]
        exact runs_step_after h₁ (by rw [hb]; exact calm)

/-! ## The steps of a workflow -/

/-- A step that only emits events takes no notice of a cancellation. -/
theorem heeds_of_silent {x : Step α} {u : List Moment} {y : Except RunError α}
    (hx : ∀ b t r, x.run.Runs b t r ↔ t = u ∧ r = y) (silent : Silent u) : Heeds x := by
  intro t r h
  obtain ⟨rfl, rfl⟩ := (hx _ _ _).mp h
  exact ⟨silent, .inr ((hx _ _ _).mpr ⟨rfl, rfl⟩)⟩

theorem yields_of_silent {x : Step α} {u : List Moment} {y : Except RunError α}
    (hx : ∀ b t r, x.run.Runs b t r ↔ t = u ∧ r = y) (silent : Silent u) : Yields x := by
  intro pre post r h
  obtain ⟨rfl, -⟩ := (hx _ _ _).mp h
  obtain ⟨e, he⟩ := silent .cancel (by simp)
  cases he

theorem heeds_pure (a : α) : Heeds (pure a : Step α) :=
  heeds_of_silent (fun _ _ _ => runs_step_pure) silent_nil

theorem yields_pure (a : α) : Yields (pure a : Step α) :=
  yields_of_silent (fun _ _ _ => runs_step_pure) silent_nil

theorem heeds_throw (e : RunError) : Heeds (throw e : Step α) :=
  heeds_of_silent (fun _ _ _ => runs_step_throw) silent_nil

theorem yields_throw (e : RunError) : Yields (throw e : Step α) :=
  yields_of_silent (fun _ _ _ => runs_step_throw) silent_nil

/-- Whatever is checked for a cancellation first heeds it. -/
theorem heeds_checkCancelled_bind (w : Workflow) (f : Unit → Step α) :
    Heeds (checkCancelled w >>= f) := by
  intro t r h
  rcases runs_checkCancelled_bind.mp h with ⟨-, rfl, rfl⟩ | ⟨hb, -⟩
  · exact ⟨silent_nil, .inl ⟨_, rfl, rfl⟩⟩
  · cases hb

theorem yields_checkCancelled_bind {w : Workflow} {f : Unit → Step α} (hf : Yields (f ())) :
    Yields (checkCancelled w >>= f) := by
  intro pre post r h
  rcases runs_checkCancelled_bind.mp h with ⟨hb, -⟩ | ⟨-, h₁⟩
  · cases hb
  · cases hf _ _ _ h₁ with
    | pausing pre ms target => exact .pausing pre ms target
    | calling pre c a post r silent outcome =>
      refine .calling pre c a post r silent (outcome.imp_right fun calm => ?_)
      exact runs_checkCancelled_bind.mpr (.inr ⟨rfl, calm⟩)

theorem yields_calling (c : Call) (failure : ProviderError → RunError) :
    Yields (calling c failure) := by
  intro pre post r h
  obtain ⟨struck, x, once, ht, rfl⟩ := runs_calling.mp h
  rcases exchange_eq_append_cons ht.symm with ⟨-, hm, -⟩ | ⟨rfl, rfl, -, rfl⟩ | hm
  · cases hm
  · refine .calling [] c x [] _ silent_nil (.inr ?_)
    exact runs_calling.mpr ⟨false, x, nofun, rfl, rfl⟩
  · cases hm

/-- A wait whose policy is not valid does not begin. -/
theorem awaiting_of_invalid {id : String} {target : State} {policy : PollPolicy} {x : Refusal}
    (invalid : policy.validate = .error x) :
    awaiting id target policy = throw (.poll (.policy x.message)) := by
  rw [awaiting, pollUntil, invalid]
  rfl

theorem heeds_awaiting (id : String) (target : State) (policy : PollPolicy) :
    Heeds (awaiting id target policy) := by
  cases valid : policy.validate with
  | error x =>
    rw [awaiting_of_invalid valid]
    exact heeds_throw _
  | ok _ =>
    intro t r h
    obtain ⟨v, wait, rfl⟩ := (runs_awaiting valid).mp h
    cases wait with
    | off => exact ⟨silent_nil, .inl ⟨_, rfl, rfl⟩⟩

/-- A wait that is cancelled in a pause ends at once. One that is cancelled at a reading ends as if
it had not been cancelled, if the reading is the last one anyway. -/
theorem yields_awaiting_of_valid {id : String} {target : State} {policy : PollPolicy}
    (valid : policy.validate = .ok ()) : Yields (awaiting id target policy) := by
  intro pre post r h
  obtain ⟨v, wait, rfl⟩ := (runs_awaiting valid).mp h
  have at_reading : ∀ (rs : List Reading) (x : Reading) (struck : Bool),
      rounds id policy rs ++ round id policy x struck = pre ++ .cancel :: post →
      (Aborted (settled v) ∨
        Waited id target policy policy.maxAttempts.toNat false
          (rounds id policy rs ++ round id policy x false) v) →
      Yielded (awaiting id target policy) pre post (settled v) := by
    intro rs x struck ht outcome
    have hs : struck = true := by
      have cancelled := congrArg wasCancelled ht
      simpa using cancelled
    have split : (rounds id policy rs ++ [.rest policy.intervalMs, .wake, .call (.status id)]) ++
        .cancel :: [.reply (.status id) x, .emit (.message (report x))] =
        pre ++ .cancel :: post := by
      rw [← ht, hs]
      simp [round, exchange]
    obtain ⟨rfl, rfl⟩ := cancel_unique (by simp) (by simp) split
    have last : rounds id policy rs ++ [.rest policy.intervalMs, .wake, .call (.status id)] =
        (rounds id policy rs ++ [.rest policy.intervalMs, .wake]) ++ [.call (.status id)] := by
      simp
    rw [last]
    refine .calling _ (.status id) x _ _ (silent_emit _) (outcome.imp_right fun calm => ?_)
    refine (runs_awaiting valid).mpr ⟨v, ?_, rfl⟩
    simpa [round, exchange] using calm
  generalize ht : pre ++ .cancel :: post = t at wait
  cases wait with
  | asleep rs undecided left =>
    have split : (rounds id policy rs ++ [.rest policy.intervalMs]) ++ .cancel :: [] =
        pre ++ .cancel :: post := by
      rw [ht]
      simp
    obtain ⟨rfl, rfl⟩ := cancel_unique (by simp) rfl split
    exact .pausing _ _ target
  | reading rs x undecided open_ left =>
    exact at_reading rs x true ht.symm (.inl ⟨_, rfl, rfl⟩)
  | decided rs x v struck undecided decides left =>
    exact at_reading rs x struck ht.symm (.inr (.decided rs x v false undecided decides left))
  | exhausted rs x struck undecided open_ left =>
    exact at_reading rs x struck ht.symm (.inr (.exhausted rs x false undecided open_ left))

theorem yields_awaiting (id : String) (target : State) (policy : PollPolicy) :
    Yields (awaiting id target policy) := by
  cases valid : policy.validate with
  | error x =>
    rw [awaiting_of_invalid valid]
    exact yields_throw _
  | ok _ => exact yields_awaiting_of_valid valid

/-- What an error is made into does not matter if cancellations stay what they are. -/
theorem Aborted.mapError {f : RunError → RunError} (keeps : ∀ e, e.isCancellation = true → f e = e)
    {r : Except RunError α} (h : Aborted r) : Aborted (r.mapError f) := by
  obtain ⟨e, rfl, cancelled⟩ := h
  exact ⟨e, congrArg Except.error (keeps e cancelled), cancelled⟩

theorem Heeds.adapt {x : Step α} {f : RunError → RunError} (hx : Heeds x)
    (keeps : ∀ e, e.isCancellation = true → f e = e) : Heeds (x.adapt f) := by
  intro t r h
  obtain ⟨y, hy, rfl⟩ := runs_step_adapt.mp h
  obtain ⟨silent, outcome⟩ := hx _ _ hy
  refine ⟨silent, outcome.imp (·.mapError keeps) fun calm => ?_⟩
  exact runs_step_adapt.mpr ⟨y, calm, rfl⟩

theorem Yields.adapt {x : Step α} {f : RunError → RunError} (hx : Yields x)
    (keeps : ∀ e, e.isCancellation = true → f e = e) : Yields (x.adapt f) := by
  intro pre post r h
  obtain ⟨y, hy, rfl⟩ := runs_step_adapt.mp h
  cases hx _ _ _ hy with
  | pausing pre ms target =>
    have same : (Except.error (.poll (.cancelled target)) : Except RunError α).mapError f =
        .error (.poll (.cancelled target)) := congrArg Except.error (keeps _ rfl)
    rw [same]
    exact .pausing pre ms target
  | calling pre c a post y silent outcome =>
    refine .calling pre c a post _ silent (outcome.imp (·.mapError keeps) fun calm => ?_)
    exact runs_step_adapt.mpr ⟨y, calm, rfl⟩

theorem yields_bringTo (w : Workflow) (target : State) (c : Call) (policy : PollPolicy) :
    Yields (bringTo w target c policy) :=
  yields_checkCancelled_bind <|
    (yields_calling c _).bind (fun _ => yields_awaiting _ _ _) fun _ => heeds_awaiting _ _ _

theorem heeds_bringTo (w : Workflow) (target : State) (c : Call) (policy : PollPolicy) :
    Heeds (bringTo w target c policy) :=
  heeds_checkCancelled_bind w _

theorem yields_applyMutation (w : Workflow) : Yields (applyMutation w) :=
  yields_checkCancelled_bind <|
    (yields_calling _ _).bind (fun _ => yields_pure ()) fun _ => heeds_pure ()

theorem heeds_applyMutation (w : Workflow) : Heeds (applyMutation w) :=
  heeds_checkCancelled_bind w _

theorem yields_confirmOrigin (id : String) (declared : Origin) :
    Yields (confirmOrigin id declared) := by
  refine (yields_calling _ _).bind (fun s => ?_) fun s => ?_
  · cases Origin.ofState? s.state with
    | none => exact yields_throw _
    | some observed =>
      exact yields_of_silent (fun _ _ _ => runs_correction) (silent_correction declared observed)
  · cases Origin.ofState? s.state with
    | none => exact heeds_throw _
    | some observed =>
      exact heeds_of_silent (fun _ _ _ => runs_correction) (silent_correction declared observed)

variable (config : EngineConfig) (request : Request)

theorem yields_opening : Yields (opening config request) := by
  rw [opening]
  cases config.validate with
  | error r => exact yields_throw _
  | ok _ =>
    cases Origin.parse request.declaredState with
    | error r => exact yields_throw _
    | ok declared =>
      cases config.verifyOrigin with
      | true => exact yields_confirmOrigin _ _
      | false => exact yields_pure _

theorem yields_quiesce (o : Origin) : Yields (quiesce config request o) := by
  cases o with
  | running => exact yields_bringTo _ _ _ _
  | stopped => exact yields_pure ()

theorem heeds_quiesce (o : Origin) : Heeds (quiesce config request o) := by
  cases o with
  | running => exact heeds_bringTo _ _ _ _
  | stopped => exact heeds_pure ()

theorem yields_restore (o : Origin) : Yields (restore config request o) := by
  cases o with
  | running =>
    exact (yields_bringTo _ _ _ _).adapt fun _ => RunError.afterMutation_of_cancellation
  | stopped => exact yields_pure ()

theorem heeds_restore (o : Origin) : Heeds (restore config request o) := by
  cases o with
  | running => exact (heeds_bringTo _ _ _ _).adapt fun _ => RunError.afterMutation_of_cancellation
  | stopped => exact heeds_pure ()

theorem heeds_follow (o : Origin) : Heeds (follow config (Phase.init.course o)
    (Workflow.new request.instanceId o request.mutation)) := by
  rw [follow_course]
  exact (heeds_quiesce config request o).bind fun _ => (heeds_applyMutation _).bind fun _ =>
    (heeds_restore config request o).bind fun _ => heeds_pure _

theorem yields_follow (o : Origin) : Yields (follow config (Phase.init.course o)
    (Workflow.new request.instanceId o request.mutation)) := by
  rw [follow_course]
  refine (yields_quiesce config request o).bind (fun _ => ?_) fun _ => ?_
  · refine (yields_applyMutation _).bind (fun _ => ?_) fun _ => ?_
    · exact (yields_restore config request o).bind (fun _ => yields_pure _) fun _ => heeds_pure _
    · exact (heeds_restore config request o).bind fun _ => heeds_pure _
  · exact (heeds_applyMutation _).bind fun _ =>
      (heeds_restore config request o).bind fun _ => heeds_pure _

/-- A run yields although its opening does not heed a cancellation, because all that comes after the
opening does. -/
theorem yields_run : Yields (run config request : Step Workflow) :=
  (yields_opening config request).bind (yields_follow config request) (heeds_follow config request)

/-! ## A cancellation before the start -/

variable {config : EngineConfig} {request : Request} {w : Workflow} {t : List Moment}

theorem Brought.of_cancelled {target : State} {c : Call} {policy : PollPolicy}
    {r : Except RunError Unit} (h : Brought w target c policy true t r) :
    t = [] ∧ r = .error (.cancelled w.phase) := by
  cases h with
  | off => exact ⟨rfl, rfl⟩

theorem Changed.of_cancelled {r : Except RunError Unit} (h : Changed w true t r) :
    t = [] ∧ r = .error (.cancelled w.phase) := by
  cases h with
  | off => exact ⟨rfl, rfl⟩

/-- The opening makes one reading at most. -/
theorem Opened.begun {b : Bool} {r : Except RunError Origin}
    (h : Opened config request b t r) : begun t = [] ∨
      config.verifyOrigin = true ∧ begun t = [.status request.instanceId] := by
  cases h with
  | confirmed valid known verify confirmed =>
    refine .inr ⟨verify, ?_⟩
    cases confirmed <;> simp
  | _ => exact .inl rfl

/-- A run that is cancelled before its start ends after the opening at the latest. -/
theorem Course.of_cancelled {r : Except RunError Workflow} (h : Course config request true t r) :
    (∃ e, r = .error e) ∧ ∃ x, Opened config request true t x := by
  cases h with
  | unopened opened => exact ⟨⟨_, rfl⟩, _, opened⟩
  | unquiesced opened quiesced =>
    cases quiesced with
    | halted brought =>
      obtain ⟨rfl, -⟩ := brought.of_cancelled
      exact ⟨⟨_, rfl⟩, _, by simpa using opened⟩
  | unchanged opened quiesced changed =>
    cases quiesced with
    | already =>
      obtain ⟨rfl, -⟩ := changed.of_cancelled
      exact ⟨⟨_, rfl⟩, _, by simpa using opened⟩
    | halted brought => cases brought.of_cancelled.2
  | unrestored opened quiesced changed restored => cases changed.of_cancelled.2
  | finished opened quiesced changed restored => cases changed.of_cancelled.2

/-! ## The cancellation of a run -/

/-- What happens in a run before and after it is cancelled, and its result. -/
inductive Obeyed (config : EngineConfig) (request : Request) :
    List Moment → List Moment → Except RunError Workflow → Prop where
  /-- It is cancelled before its start. It fails, and reads at most what the origin is. -/
  | before (post : List Moment) (e : RunError)
      (reads : begun post = [] ∨
        config.verifyOrigin = true ∧ begun post = [.status request.instanceId])
      (pauses : pauses post = []) : Obeyed config request [] post (.error e)
  /-- It is cancelled in a pause, and nothing happens any more. -/
  | pausing (pre : List Moment) (ms : UInt64) (target : State) :
      Obeyed config request (pre ++ [.rest ms]) [] (.error (.poll (.cancelled target)))
  /-- It is cancelled while a call is under way. The call is answered, and nothing more is asked.
  The run fails because of the cancellation, or the answer settles its result. -/
  | calling (pre : List Moment) (c : Call) (a : c.Reply) (post : List Moment)
      (r : Except RunError Workflow) (silent : Silent post)
      (outcome : Aborted r ∨
        Settles (run config request) (pre ++ [.call c, .reply c a]) r) :
      Obeyed config request (pre ++ [.call c]) (.reply c a :: post) r

/-- After a cancellation no call begins but the reading of a run that had not begun. -/
theorem Obeyed.begun {pre post : List Moment} {r : Except RunError Workflow}
    (h : Obeyed config request pre post r) : InstanceResize.begun post = [] ∨
      pre = [] ∧ config.verifyOrigin = true ∧
        InstanceResize.begun post = [.status request.instanceId] := by
  cases h with
  | before post e reads pauses => exact reads.imp_right fun reads => ⟨rfl, reads⟩
  | pausing pre ms target => exact .inl rfl
  | calling pre c a post r silent outcome => exact .inl (by simpa using begun_of_silent silent)

theorem obeyed_of_happens {pre post : List Moment} {r : Except RunError Workflow}
    (h : (run config request).Happens (pre ++ .cancel :: post) r) :
    Obeyed config request pre post r := by
  rcases h with hr | ⟨u, hu, hr⟩
  · cases yields_run config request _ _ _ hr with
    | pausing pre ms target => exact .pausing pre ms target
    | calling pre c a post r silent outcome =>
      refine .calling pre c a post r silent (outcome.imp_right fun calm => ?_)
      have calm : (run config request).Runs false (pre ++ .call c :: .reply c a :: post) r := calm
      exact settles_of_runs (by simpa using calm) silent (by simp)
  · rcases pre with _ | ⟨m, pre⟩
    · obtain rfl : post = u := (List.cons.inj hu).2
      obtain ⟨⟨e, rfl⟩, x, opened⟩ := (course_of_runs hr).of_cancelled
      exact .before post e opened.begun hr.calm.2
    · obtain ⟨-, rfl⟩ := List.cons.inj hu
      simpa using hr.calm.1

/-- Whenever somebody cancels a run, no call begins afterwards, apart from the reading for the
origin of a run that had not begun, and the run obeys. -/
theorem obeyed_of_run (config : EngineConfig) (request : Request) (outside : Outside)
    {pre post : List Moment}
    (h : outside.chronicle (run config request) = pre ++ .cancel :: post) :
    (begun post = [] ∨
        pre = [] ∧ config.verifyOrigin = true ∧ begun post = [.status request.instanceId]) ∧
      Obeyed config request pre post (outside.result (run config request)) := by
  have happens := outside.happens (run config request)
  rw [h] at happens
  have obeyed := obeyed_of_happens happens
  exact ⟨obeyed.begun, obeyed⟩

/-- A run that is cancelled while the change is made, which succeeds: it is not started again. -/
theorem obeyed_of_brief_run :
    ∃ outside : Outside,
      outside.chronicle (run briefConfig briefRequest) =
        (briefHalt ++ [.call (.modify "i-1" "t3.small")]) ++
          .cancel :: [.reply (.modify "i-1" "t3.small") (.ok ())] ∧
      outside.result (run briefConfig briefRequest) = .error (.cancelled .ensureRunning) ∧
      Obeyed briefConfig briefRequest (briefHalt ++ [.call (.modify "i-1" "t3.small")])
        [.reply (.modify "i-1" "t3.small") (.ok ())] (.error (.cancelled .ensureRunning)) := by
  have restored : Restored briefConfig briefRequest .running true []
      (.error (.cancelled .ensureRunning)) := .restarted .off
  have course := Course.unrestored opened_brief quiesced_brief (changed_brief true) restored
  obtain ⟨outside, told, ended⟩ := Program.happens_iff.mp (.inl (runs_of_course course))
  have cancelled : outside.chronicle (run briefConfig briefRequest) =
      (briefHalt ++ [.call (.modify "i-1" "t3.small")]) ++
        .cancel :: [.reply (.modify "i-1" "t3.small") (.ok ())] := by
    rw [told]
    simp [briefChange, exchange]
  exact ⟨outside, cancelled, ended, ended ▸ (obeyed_of_run _ _ outside cancelled).2⟩

end Engine

end InstanceResize
