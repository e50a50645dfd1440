import InstanceResize.Proofs.Run.Dialogue

/-!
# What a failure says

The error of a run says whether the change was made, and what the last thing was that a provider
answered.

* `Accepted`: the change was made.
* `Ends`: how the calls of a run end that fails with an error.
* `blame`: the error of a run in which a call was answered with an error.
* `truthful_of_run`: the error of a run tells the truth about its calls.
-/

namespace InstanceResize.Engine

/-- The provider has accepted a change. -/
def Accepted (es : List Exchange) : Prop :=
  ∃ c x, c.isChange = true ∧ (⟨c, .ok x⟩ : Exchange) ∈ es

/-- No change was asked for. -/
def Unchanged (es : List Exchange) : Prop := ∀ x ∈ es, x.call.isChange = false

/-- How calls end if an error says that an instance was not brought to a state. -/
def LegEnds (id : String) (c : Call) (target : State) (policy : PollPolicy)
    (es : List Exchange) : RunError → Prop
  | .call name reason =>
    name = c.name ∧ ∃ e, es.getLast? = some ⟨c, .error e⟩ ∧ reason = e.message
  | .poll (.timeout n state seen) =>
    n = policy.maxAttempts ∧ state = target ∧
      ∃ r, es.getLast? = some (readingOf id r) ∧ verdict? target r = none ∧ seen = seenAs r
  | .poll (.unexpected name state) =>
    state = target ∧ ∃ s, es.getLast? = some (readingOf id (.ok s)) ∧ s.state ≠ target ∧
      s.state.canReach target = false ∧ name = s.name
  | _ => False

/-- How calls end if an error says that the run was cancelled in a phase. -/
def CancelledIn (request : Request) (es : List Exchange) : Phase → Prop
  | .ensureStopped => ∀ x ∈ es, x.call = .status request.instanceId
  | .mutating => Unchanged es
  | .ensureRunning =>
    ∃ x, es.getLast? = some ⟨.ofMutation request.instanceId request.mutation, .ok x⟩
  | .init | .done => False

/-- How the calls of a run end that fails with an error. -/
def Ends (config : EngineConfig) (request : Request) (es : List Exchange) : RunError → Prop
  | .precondition _ =>
    es = [] ∨ ∃ s, es = [readingOf request.instanceId (.ok s)] ∧ s.state ≠ .running ∧
      s.state ≠ .stopped
  | .query reason => ∃ e, es = [readingOf request.instanceId (.error e)] ∧ reason = e.message
  | .call name reason =>
    Unchanged es ∧ LegEnds request.instanceId (.stop request.instanceId) .stopped config.stopPoll es
        (.call name reason) ∨
      name = (Call.ofMutation request.instanceId request.mutation).name ∧ ∃ e,
        es.getLast? = some ⟨.ofMutation request.instanceId request.mutation, .error e⟩ ∧
        e.isRejection = false ∧ reason = e.message
  | .rejected text reason =>
    text = request.mutation.describe ∧ ∃ op,
      es.getLast? =
        some ⟨.ofMutation request.instanceId request.mutation, .error (.rejected op reason)⟩
  | .poll (.cancelled target) => target = .stopped ∧ Unchanged es ∨ target = .running ∧ Accepted es
  | .poll e =>
    Unchanged es ∧ LegEnds request.instanceId (.stop request.instanceId) .stopped config.stopPoll es
      (.poll e)
  | .notRestored text e =>
    text = request.mutation.describe ∧
      LegEnds request.instanceId (.start request.instanceId) .running config.startPoll es e
  | .cancelled phase => CancelledIn request es phase
  | .refused _ => False

/-- The error of a run in which a call was answered with an error. -/
def blame (request : Request) : Call → ProviderError → RunError
  | .stop _, x => .call "stop" x.message
  | .start _, x => .notRestored request.mutation.describe (.call "start" x.message)
  | _, .rejected _ reason => .rejected request.mutation.describe reason
  | c, x => .call c.name x.message

/-- An error that a provider answers, other than to a reading, is the error of the run. -/
def Blames (request : Request) (es : List Exchange) (e : RunError) : Prop :=
  ∀ c x, ⟨c, .error x⟩ ∈ es → c = .status request.instanceId ∨ e = blame request c x

/-- An error tells the truth about the calls of a run. -/
structure Truthful (config : EngineConfig) (request : Request) (es : List Exchange)
    (e : RunError) : Prop where
  accepted : Accepted es ↔
    (∃ text cause, e = .notRestored text cause) ∨ e = .cancelled .ensureRunning ∨
      e = .poll (.cancelled .running)
  ends : Ends config request es e
  blames : Blames request es e

/-! ## Legs that fail -/

/-- The exchanges of a leg that fails with an error. -/
inductive Broken (id : String) (phase : Phase) (target : State) (c : Call) (policy : PollPolicy) :
    List Exchange → RunError → Prop where
  | off : Broken id phase target c policy [] (.cancelled phase)
  | declined (e : ProviderError) :
      Broken id phase target c policy [⟨c, .error e⟩] (.call c.name e.message)
  | cancelled (x : c.Result) (rs : List Reading) :
      Broken id phase target c policy (⟨c, .ok x⟩ :: rs.map (readingOf id))
        (.poll (.cancelled target))
  | exhausted (x : c.Result) (rs : List Reading) (r : Reading) (open_ : verdict? target r = none) :
      Broken id phase target c policy (⟨c, .ok x⟩ :: (rs ++ [r]).map (readingOf id))
        (.poll (.timeout policy.maxAttempts target (seenAs r)))
  | unexpected (x : c.Result) (rs : List Reading) (s : Status) (other : s.state ≠ target)
      (stuck : s.state.canReach target = false) :
      Broken id phase target c policy (⟨c, .ok x⟩ :: (rs ++ [(.ok s : Reading)]).map (readingOf id))
        (.poll (.unexpected s.name target))

variable {config : EngineConfig} {request : Request} {w : Workflow} {o : Origin} {b : Bool}
  {t : List Moment} {e : RunError} {id : String} {phase : Phase} {target : State} {c : Call}
  {policy : PollPolicy} {es past : List Exchange}

theorem Brought.broken (h : Brought w target c policy b t (.error e)) :
    Broken w.instanceId w.phase target c policy (exchanges t) e := by
  generalize hr : (.error e : Except RunError Unit) = r at h
  cases h with
  | off =>
    cases hr
    exact .off
  | declined x struck =>
    cases hr
    rw [exchanges_exchange]
    exact .declined x
  | @awaited x struck u v wait =>
    rw [exchanges_append, exchanges_exchange]
    cases wait with
    | off =>
      cases hr
      exact .cancelled x []
    | asleep rs undecided left =>
      cases hr
      simpa using Broken.cancelled x rs
    | reading rs r undecided open_ left =>
      cases hr
      simpa using Broken.cancelled x (rs ++ [r])
    | decided rs r v struck undecided decides left =>
      obtain ⟨s, rfl, ⟨-, rfl⟩ | ⟨other, stuck, rfl⟩⟩ := verdict?_eq_some_iff.mp decides
      · cases hr
      · cases hr
        simpa using Broken.unexpected x rs s other stuck
    | exhausted rs r struck undecided open_ left =>
      cases hr
      simpa using Broken.exhausted x rs r open_

/-! ## The calls before a failure -/

/-- The calls of a run as long as nothing fails and no change is asked for. -/
def Calm (id : String) (es : List Exchange) : Prop :=
  ∀ x ∈ es, x.call = .status id ∨ x = ⟨.stop id, .ok ()⟩

theorem Calm.append (h₁ : Calm id past) (h₂ : Calm id es) : Calm id (past ++ es) := fun x hx =>
  (List.mem_append.mp hx).elim (h₁ x) (h₂ x)

theorem calm_map_readingOf (rs : List Reading) : Calm id (rs.map (readingOf id)) := by
  intro x hx
  obtain ⟨r, -, rfl⟩ := List.mem_map.mp hx
  exact .inl rfl

theorem Calm.unchanged (h : Calm id es) : Unchanged es := by
  intro x hx
  rcases h x hx with hc | rfl
  · rw [hc]
    rfl
  · rfl

theorem Calm.status_of_error {x : ProviderError} (h : Calm id es) (hx : ⟨c, .error x⟩ ∈ es) :
    c = .status id := by
  rcases h _ hx with hc | hc
  · exact hc
  · cases hc

theorem Calm.blames (h : Calm request.instanceId es) (e : RunError) : Blames request es e :=
  fun _ _ hx => .inl (h.status_of_error hx)

theorem Unchanged.not_accepted (h : Unchanged es) : ¬ Accepted es := by
  rintro ⟨c, x, hc, hx⟩
  have hf := h _ hx
  rw [hc] at hf
  cases hf

theorem Opened.status_of_mem {r : Except RunError Origin} (h : Opened config request b t r) :
    ∀ x ∈ exchanges t, x.call = .status request.instanceId := by
  obtain ⟨confirmation, he, -⟩ := h.confirmation
  intro x hx
  rw [he] at hx
  obtain ⟨r, -, rfl⟩ := List.mem_map.mp hx
  rfl

theorem Opened.calm {r : Except RunError Origin} (h : Opened config request b t r) :
    Calm request.instanceId (exchanges t) := fun x hx => .inl (h.status_of_mem x hx)

theorem Quiesced.calm (h : Quiesced config request o b t (.ok ())) :
    Calm request.instanceId (exchanges t) := by
  obtain ⟨leg, tells⟩ := h.tells
  rw [tells.said]
  cases o with
  | stopped =>
    obtain rfl : leg = .skipped := tells.served.mp rfl
    exact fun x hx => absurd hx List.not_mem_nil
  | running =>
    obtain ⟨⟨⟩, accepted⟩ := Leg.Reaches.accepted (tells.served.mp rfl)
    rw [Leg.exchanges, accepted]
    refine Calm.append ?_ (calm_map_readingOf _)
    intro x hx
    exact .inr (by simpa using hx)

theorem Changed.exchanges_of_ok (h : Changed (workflowIn request o .mutating) b t (.ok ())) :
    ∃ x, exchanges t = [⟨.ofMutation request.instanceId request.mutation, .ok x⟩] := by
  cases h with
  | made x struck => exact ⟨x, exchanges_exchange _ _ _⟩

/-! ## Failures in each part -/

/-- A leg that fails without being cancelled ends as its error says. -/
theorem Broken.legEnds (h : Broken id phase target c policy es e)
    (active : e.isCancellation = false) (past : List Exchange) :
    LegEnds id c target policy (past ++ es) e := by
  cases h with
  | off => cases active
  | declined x => exact ⟨rfl, x, by simp, rfl⟩
  | cancelled x rs => cases active
  | exhausted x rs r open_ =>
    refine ⟨rfl, rfl, r, ?_, open_, rfl⟩
    exact List.getLast?_eq_some_iff.mpr ⟨past ++ ⟨c, .ok x⟩ :: rs.map (readingOf id), by simp⟩
  | unexpected x rs s other stuck =>
    refine ⟨rfl, s, ?_, other, stuck, rfl⟩
    exact List.getLast?_eq_some_iff.mpr ⟨past ++ ⟨c, .ok x⟩ :: rs.map (readingOf id), by simp⟩

/-- A leg is cancelled before its call or in its wait. -/
theorem Broken.cancelled_of_isCancellation (h : Broken id phase target c policy es e)
    (cancellation : e.isCancellation = true) :
    (es = [] ∧ e = .cancelled phase) ∨ e = .poll (.cancelled target) := by
  cases h with
  | off => exact .inl ⟨rfl, rfl⟩
  | cancelled x rs => exact .inr rfl
  | declined x => cases cancellation
  | exhausted x rs r open_ => cases cancellation
  | unexpected x rs s other stuck => cases cancellation

/-- An error that a provider answers in a leg, other than to a reading, is the error of the leg. -/
theorem Broken.eq_of_error {x : ProviderError} {c' : Call}
    (h : Broken id phase target c policy es e) (hx : ⟨c', .error x⟩ ∈ es) :
    c' = .status id ∨ c' = c ∧ e = .call c.name x.message := by
  have readings : ∀ {rs : List Reading}, ⟨c', .error x⟩ ∈ rs.map (readingOf id) →
      c' = .status id := fun hr => Calm.status_of_error (calm_map_readingOf _) hr
  cases h with
  | off => exact absurd hx List.not_mem_nil
  | declined y =>
    cases List.mem_singleton.mp hx
    exact .inr ⟨rfl, rfl⟩
  | cancelled y rs =>
    rcases List.mem_cons.mp hx with hx | hx
    · cases hx
    · exact .inl (readings hx)
  | exhausted y rs r open_ =>
    rcases List.mem_cons.mp hx with hx | hx
    · cases hx
    · exact .inl (readings hx)
  | unexpected y rs s other stuck =>
    rcases List.mem_cons.mp hx with hx | hx
    · cases hx
    · exact .inl (readings hx)

/-- A leg asks for no change if its own call does not. -/
theorem Broken.unchanged (h : Broken id phase target c policy es e) (hc : c.isChange = false) :
    Unchanged es := by
  have readings : ∀ rs : List Reading, Unchanged (rs.map (readingOf id)) := fun rs =>
    (calm_map_readingOf rs).unchanged
  cases h with
  | off => exact fun x hx => absurd hx List.not_mem_nil
  | declined y =>
    intro x hx
    rw [List.mem_singleton.mp hx]
    exact hc
  | cancelled y rs => exact List.forall_mem_cons.mpr ⟨hc, readings rs⟩
  | exhausted y rs r open_ => exact List.forall_mem_cons.mpr ⟨hc, readings _⟩
  | unexpected y rs s other stuck => exact List.forall_mem_cons.mpr ⟨hc, readings _⟩

theorem Unchanged.append (h₁ : Unchanged past) (h₂ : Unchanged es) : Unchanged (past ++ es) :=
  fun x hx => (List.mem_append.mp hx).elim (h₁ x) (h₂ x)

/-- Nothing but the error itself is to be shown of a failure before the change. -/
theorem Truthful.of_unchanged (unchanged : Unchanged es)
    (early : ¬ ((∃ text cause, e = .notRestored text cause) ∨ e = .cancelled .ensureRunning ∨
      e = .poll (.cancelled .running)))
    (ends : Ends config request es e)
    (blames : Blames request es e) : Truthful config request es e where
  accepted := iff_of_false unchanged.not_accepted early
  ends := ends
  blames := blames

theorem Opened.truthful (h : Opened config request b t (.error e)) :
    Truthful config request (exchanges t) e := by
  have blames : Blames request (exchanges t) e := h.calm.blames e
  have unchanged := h.calm.unchanged
  cases h with
  | misconfigured r invalid => exact .of_unchanged unchanged (by simp) (.inl rfl) blames
  | undeclared r valid unknown => exact .of_unchanged unchanged (by simp) (.inl rfl) blames
  | confirmed valid known verify confirmed =>
    cases confirmed with
    | unread x struck once =>
      exact .of_unchanged unchanged (by simp) ⟨x, by simp [readingOf], rfl⟩ blames
    | unfit s struck once fit =>
      exact .of_unchanged unchanged (by simp)
        (.inr ⟨s, by simp [readingOf], Origin.ofState?_eq_none_iff.mp fit⟩) blames

/-- A failure to bring the instance to a halt. -/
theorem Quiesced.truthful (statuses : ∀ x ∈ past, x.call = .status request.instanceId)
    (h : Quiesced config request o b t (.error e)) :
    Truthful config request (past ++ exchanges t) e := by
  cases h with
  | halted brought =>
    have broken := brought.broken
    have unchanged : Unchanged (past ++ exchanges t) :=
      Unchanged.append (fun x hx => by rw [statuses x hx]; rfl) (broken.unchanged rfl)
    have blames : Blames request (past ++ exchanges t) e := by
      intro c x hx
      rcases List.mem_append.mp hx with hx | hx
      · exact .inl (statuses _ hx)
      · rcases broken.eq_of_error hx with hc | ⟨rfl, he⟩
        · exact .inl hc
        · exact .inr he
    have legEnds := fun active => broken.legEnds active past
    generalize exchanges t = es at *
    cases broken with
    | off =>
      refine .of_unchanged unchanged (by simp [workflowIn]) ?_ blames
      rw [List.append_nil]
      exact statuses
    | declined x => exact .of_unchanged unchanged (by simp) (.inl ⟨unchanged, legEnds rfl⟩) blames
    | cancelled x rs => exact .of_unchanged unchanged (by simp) (.inl ⟨rfl, unchanged⟩) blames
    | exhausted x rs r open_ =>
      exact .of_unchanged unchanged (by simp) ⟨unchanged, legEnds rfl⟩ blames
    | unexpected x rs s other stuck =>
      exact .of_unchanged unchanged (by simp) ⟨unchanged, legEnds rfl⟩ blames

theorem blame_ofMutation (x : ProviderError) :
    blame request (.ofMutation request.instanceId request.mutation) x =
      mutationError request.mutation
        (Call.ofMutation request.instanceId request.mutation).name x := by
  obtain ⟨_, _, m⟩ := request
  cases m <;> cases x <;> rfl

/-- A failure of the change. -/
theorem Changed.truthful (calm : Calm request.instanceId past)
    (h : Changed (workflowIn request o .mutating) b t (.error e)) :
    Truthful config request (past ++ exchanges t) e := by
  cases h with
  | off =>
    rw [exchanges_nil, List.append_nil]
    exact .of_unchanged calm.unchanged (by simp [workflowIn]) calm.unchanged (calm.blames _)
  | declined x struck =>
    rw [exchanges_exchange]
    refine ⟨iff_of_false ?_ ?_, ?_, ?_⟩
    · rintro ⟨c, a, hc, ha⟩
      rcases List.mem_append.mp ha with ha | ha
      · exact calm.unchanged.not_accepted ⟨c, a, hc, ha⟩
      · cases List.mem_singleton.mp ha
    · cases x <;> simp [mutationError, RunError.ofCall]
    · cases x with
      | rejected op reason => exact ⟨rfl, op, by simp [workflowIn]⟩
      | unreachable reason => exact .inr ⟨rfl, _, by simp [workflowIn], rfl, rfl⟩
      | notFound instance_ => exact .inr ⟨rfl, _, by simp [workflowIn], rfl, rfl⟩
    · intro c y hy
      rcases List.mem_append.mp hy with hy | hy
      · exact .inl (calm.status_of_error hy)
      · cases List.mem_singleton.mp hy
        exact .inr (blame_ofMutation x).symm

/-- A failure after the change. -/
theorem Restored.truthful (calm : Calm request.instanceId past)
    (x : (Call.ofMutation request.instanceId request.mutation).Result)
    (h : Restored config request o b t (.error e)) :
    Truthful config request
      (past ++ [⟨.ofMutation request.instanceId request.mutation, .ok x⟩] ++ exchanges t) e := by
  generalize hr : (.error e : Except RunError Unit) = r at h
  cases h with
  | already => cases hr
  | @restarted b t r brought =>
    cases r with
    | ok _ => cases hr
    | error y =>
      obtain rfl : e = y.afterMutation request.mutation := Except.error.inj hr
      have broken := brought.broken
      have accepted : Accepted (past ++
          [⟨.ofMutation request.instanceId request.mutation, .ok x⟩] ++ exchanges t) :=
        ⟨_, x, Call.isChange_ofMutation _ _, by simp⟩
      refine ⟨iff_of_true accepted ?_, ?_, ?_⟩
      · cases hy : y.isCancellation with
        | true =>
          rw [RunError.afterMutation_of_cancellation hy]
          exact .inr ((broken.cancelled_of_isCancellation hy).imp_left And.right)
        | false =>
          rw [RunError.afterMutation_of_not_cancellation hy]
          exact .inl ⟨_, _, rfl⟩
      · cases hy : y.isCancellation with
        | true =>
          rw [RunError.afterMutation_of_cancellation hy]
          rcases broken.cancelled_of_isCancellation hy with ⟨none, rfl⟩ | rfl
          · exact ⟨x, by simp [none]⟩
          · exact .inr ⟨rfl, accepted⟩
        | false =>
          rw [RunError.afterMutation_of_not_cancellation hy]
          exact ⟨rfl, broken.legEnds hy _⟩
      · intro c z hz
        rcases List.mem_append.mp hz with hz | hz
        · rcases List.mem_append.mp hz with hz | hz
          · exact .inl (calm.status_of_error hz)
          · cases List.mem_singleton.mp hz
        · rcases broken.eq_of_error hz with hc | ⟨rfl, rfl⟩
          · exact .inl hc
          · exact .inr rfl

theorem Course.truthful (h : Course config request b t (.error e)) :
    Truthful config request (exchanges t) e := by
  cases h with
  | unopened opened => exact opened.truthful
  | unquiesced opened quiesced =>
    rw [exchanges_append]
    exact quiesced.truthful opened.status_of_mem
  | unchanged opened quiesced changed =>
    rw [exchanges_append, exchanges_append]
    exact changed.truthful (opened.calm.append quiesced.calm)
  | unrestored opened quiesced changed restored =>
    obtain ⟨x, hx⟩ := changed.exchanges_of_ok
    rw [exchanges_append, exchanges_append, exchanges_append, hx]
    exact restored.truthful (opened.calm.append quiesced.calm) x

/-- Whatever the provider answers and whenever somebody cancels a run, if it fails then its error
tells the truth about its calls. -/
theorem truthful_of_run (config : EngineConfig) (request : Request) (outside : Outside)
    {e : RunError} (h : outside.result (run config request) = .error e) :
    Truthful config request (exchanges (outside.chronicle (run config request))) e := by
  obtain ⟨b, t, hr, he, -⟩ := outside.exists_runs (run config request)
  rw [h] at hr
  rw [he]
  exact (course_of_runs hr).truthful

/-- The instance was resized, but does not start any more. -/
theorem truthful_of_brief_run :
    ∃ outside : Outside,
      outside.result (run briefConfig briefRequest) =
        .error (.notRestored "resize to t3.small" (.call "start" "Provider unreachable: down")) ∧
      Truthful briefConfig briefRequest
        (exchanges (outside.chronicle (run briefConfig briefRequest)))
        (.notRestored "resize to t3.small" (.call "start" "Provider unreachable: down")) := by
  obtain ⟨outside, -, failed⟩ := Program.happens_iff.mp (.inl (runs_of_course course_brief))
  exact ⟨outside, failed, truthful_of_run _ _ outside failed⟩

end InstanceResize.Engine
