import InstanceResize.Proofs.Run.Dialogue

/-!
# What has to come before the change and before the start

The change is only made to an instance that is stopped, and the instance is only started after the
change and only if the run itself has stopped it.

* `Quiet`: what a provider has been told before the change.
* `Changeover`: what a provider has been told before the start.
* `gates_of_run`: a run makes these calls only then.
-/

namespace InstanceResize.Engine

/-- The last thing that was said is that the instance is stopped. If the declared state is trusted,
and is that the instance is stopped, then nothing is said. -/
inductive Quiet (config : EngineConfig) (request : Request) : List Exchange → Prop where
  | shown (past : List Exchange) (s : Status) (stopped : State.ofCode s.code = .stopped) :
      Quiet config request (past ++ [⟨.status request.instanceId, .ok s⟩])
  | trusted (verify : config.verifyOrigin = false)
      (declared : Origin.parse request.declaredState = .ok .stopped) : Quiet config request []

/-- The first thing that was said, apart from the reading for the origin, is that the instance
should stop, and the last one is the change. Both were answered well. -/
inductive Changeover (config : EngineConfig) (request : Request) : List Exchange → Prop where
  | changed (confirmation : List Reading) (past : List Exchange)
      (x : (Call.ofMutation request.instanceId request.mutation).Result)
      (once : confirmation.length = if config.verifyOrigin then 1 else 0) :
      Changeover config request (confirmation.map (readingOf request.instanceId) ++
        ⟨.stop request.instanceId, .ok ()⟩ :: past ++
          [⟨.ofMutation request.instanceId request.mutation, .ok x⟩])

/-! ## The calls of a dialogue -/

variable {config : EngineConfig} {request : Request} {d : Dialogue request} {o : Origin}
  {past rest : List Exchange} {x : Exchange}

/-- An origin that is to be confirmed is established by a reading of it. -/
theorem confirmation_of_established {confirmation : Option Reading}
    (h : established? config request confirmation = some o) (verify : config.verifyOrigin = true) :
    ∃ s, confirmation = some (.ok s) ∧ s.state = o.state := by
  obtain ⟨declared, -, h⟩ := Option.bind_eq_some_iff.mp h
  rw [if_pos verify] at h
  obtain ⟨r, rfl, hr⟩ := Option.bind_eq_some_iff.mp h
  cases r with
  | error e => cases hr
  | ok s => exact ⟨s, rfl, Origin.ofState?_eq_some_iff.mp hr⟩

/-- An origin that is not to be confirmed is the declared one. -/
theorem declared_of_established {confirmation : Option Reading}
    (h : established? config request confirmation = some o)
    (verify : config.verifyOrigin = false) : Origin.parse request.declaredState = .ok o := by
  obtain ⟨declared, hd, h⟩ := Option.bind_eq_some_iff.mp h
  rw [if_neg (by simp [verify])] at h
  obtain rfl := Option.some.inj h
  rw [declared?] at hd
  split at hd
  · cases hd
  · cases hp : Origin.parse request.declaredState with
    | error r => simp [hp, Except.toOption] at hd
    | ok p => simpa [hp, Except.toOption] using hd

/-- A dialogue has as many readings for the origin as the configuration says. -/
theorem confirmation_length (lawful : d.Lawful config) (origin : d.origin? config = some o) :
    d.confirmation.toList.length = if config.verifyOrigin then 1 else 0 := by
  cases verify : config.verifyOrigin with
  | true =>
    obtain ⟨s, hs, -⟩ := confirmation_of_established origin verify
    simp [hs]
  | false =>
    cases hc : d.confirmation with
    | none => rfl
    | some r =>
      have on := lawful.confirmation (by simp [hc])
      rw [verify] at on
      cases on

/-- A leg that does all it can ends with a reading that shows its target. -/
theorem Leg.exchanges_of_reaches {c : Call} {leg : Leg c} {target : State}
    (h : leg.Reaches target) (id : String) :
    ∃ past s, leg.exchanges id = past ++ [readingOf id (.ok s)] ∧ s.state = target := by
  obtain ⟨r, hr, s, rfl, hs⟩ := h.shown
  obtain ⟨rs, hrs⟩ := List.getLast?_eq_some_iff.mp hr
  exact ⟨leg.answer.toList.map (Exchange.mk c) ++ rs.map (readingOf id), s,
    by simp [Leg.exchanges, hrs], hs⟩

namespace Dialogue

/-- The exchanges before the change. -/
def ahead (d : Dialogue request) : List Exchange :=
  d.confirmation.toList.map (readingOf request.instanceId) ++ d.stop.exchanges request.instanceId

/-- The exchange of the change, if it is asked for. -/
def middle (d : Dialogue request) : List Exchange :=
  d.change.toList.map (Exchange.mk (.ofMutation request.instanceId request.mutation))

theorem exchanges_eq (d : Dialogue request) :
    d.exchanges = d.ahead ++ (d.middle ++ d.start.exchanges request.instanceId) := by
  rw [exchanges, List.append_assoc, ahead, middle]

theorem call_of_mem_ahead (d : Dialogue request) (hx : x ∈ d.ahead) :
    x.call = .status request.instanceId ∨ x.call = .stop request.instanceId := by
  rcases List.mem_append.mp hx with hx | hx
  · obtain ⟨r, -, rfl⟩ := List.mem_map.mp hx
    exact .inl rfl
  · exact (Leg.call_of_mem_exchanges hx).symm

/-- The change comes directly after the leg that brings the instance to a halt. -/
theorem before_change (d : Dialogue request) (h : d.exchanges = past ++ x :: rest)
    (hx : x.call.isChange = true) : d.change ≠ none ∧ past = d.ahead := by
  have ahead : ∀ y ∈ d.ahead, ¬ y.call.isChange = true := by
    intro y hy
    rcases d.call_of_mem_ahead hy with hc | hc <;> simp [hc, Call.isChange]
  have start : ∀ y ∈ d.start.exchanges request.instanceId, ¬ y.call.isChange = true := by
    intro y hy
    rcases Leg.call_of_mem_exchanges hy with hc | hc <;> simp [hc, Call.isChange]
  rw [exchanges_eq, middle] at h
  cases hc : d.change with
  | none =>
    have mem : x ∈ past ++ x :: rest := by simp
    rw [← h, hc] at mem
    rcases List.mem_append.mp mem with mem | mem
    · exact absurd hx (ahead x mem)
    · exact absurd hx (start x mem)
  | some a =>
    rw [hc] at h
    exact ⟨Option.some_ne_none a, (append_cons_unique ahead start hx h).1⟩

/-- The start comes directly after the change. -/
theorem before_start (d : Dialogue request) (h : d.exchanges = past ++ x :: rest)
    (hx : ∃ id, x.call = .start id) : d.start ≠ .skipped ∧ past = d.ahead ++ d.middle := by
  have readings : ∀ y ∈ d.start.readings.map (readingOf request.instanceId),
      ¬ ∃ id, y.call = .start id := by
    rintro y hy ⟨id, hid⟩
    obtain ⟨r, -, rfl⟩ := List.mem_map.mp hy
    cases hid
  have before : ∀ y ∈ d.ahead ++ d.middle, ¬ ∃ id, y.call = .start id := by
    rintro y hy ⟨id, hid⟩
    rcases List.mem_append.mp hy with hy | hy
    · rcases d.call_of_mem_ahead hy with hc | hc
      · cases hid.symm.trans hc
      · cases hid.symm.trans hc
    · obtain ⟨a, -, rfl⟩ := List.mem_map.mp hy
      have change := Call.isChange_ofMutation request.instanceId request.mutation
      rw [show Call.ofMutation request.instanceId request.mutation = .start id from hid] at change
      cases change
  rw [exchanges_eq, ← List.append_assoc] at h
  cases ha : d.start.answer with
  | none =>
    have start : d.start.exchanges request.instanceId =
        d.start.readings.map (readingOf request.instanceId) := by simp [Leg.exchanges, ha]
    have mem : x ∈ past ++ x :: rest := by simp
    rw [← h, start] at mem
    rcases List.mem_append.mp mem with mem | mem
    · exact absurd hx (before x mem)
    · exact absurd hx (readings x mem)
  | some a =>
    have start : d.start.exchanges request.instanceId =
        ⟨.start request.instanceId, a⟩ :: d.start.readings.map (readingOf request.instanceId) := by
      simp [Leg.exchanges, ha]
    rw [start] at h
    refine ⟨?_, (append_cons_unique before readings hx h).1⟩
    intro skipped
    rw [skipped] at ha
    cases ha

theorem quiet_of_change (d : Dialogue request) (lawful : d.Lawful config)
    (h : d.exchanges = past ++ x :: rest) (hx : x.call.isChange = true) :
    Quiet config request past := by
  obtain ⟨made, rfl⟩ := d.before_change h hx
  obtain ⟨o, origin, serves⟩ := lawful.changes made
  cases o with
  | running =>
    obtain ⟨past, s, hs, stopped⟩ := Leg.exchanges_of_reaches serves request.instanceId
    rw [ahead, hs, ← List.append_assoc]
    exact .shown _ s stopped
  | stopped =>
    have skipped : d.stop = .skipped := serves
    rw [ahead, skipped, Leg.exchanges_skipped, List.append_nil]
    cases verify : config.verifyOrigin with
    | true =>
      obtain ⟨s, hs, stopped⟩ := confirmation_of_established origin verify
      rw [hs]
      exact .shown [] s stopped
    | false =>
      have length := confirmation_length lawful origin
      rw [verify] at length
      rw [List.length_eq_zero_iff.mp length]
      exact .trusted verify (declared_of_established origin verify)

theorem changeover_of_start (d : Dialogue request) (lawful : d.Lawful config)
    (h : d.exchanges = past ++ x :: rest) (hx : ∃ id, x.call = .start id) :
    Changeover config request past := by
  obtain ⟨restarted, rfl⟩ := d.before_start h hx
  obtain ⟨origin, x, changed⟩ := lawful.restarts restarted
  obtain ⟨o, origin', serves⟩ := lawful.changes (by simp [changed])
  obtain rfl := Option.some.inj (origin.symm.trans origin')
  obtain ⟨⟨⟩, accepted⟩ := Leg.Reaches.accepted serves
  rw [ahead, middle, Leg.exchanges, accepted, changed]
  exact .changed d.confirmation.toList _ x (confirmation_length lawful origin)

end Dialogue

/-! ## The gates -/

/-- Whatever the provider answers and whenever somebody cancels a run, it makes the change only to
an instance that is stopped, and starts the instance only after the change. -/
theorem gates_of_run (config : EngineConfig) (request : Request) (outside : Outside)
    {pre post : List Moment} {c : Call}
    (h : outside.chronicle (run config request) = pre ++ .call c :: post) :
    (c.isChange = true → Quiet config request (exchanges pre)) ∧
      ((∃ id, c = .start id) → Changeover config request (exchanges pre)) := by
  obtain ⟨b, pre', hr, he⟩ := outside.exists_runs_of_append _ (by simp) h
  obtain ⟨r, rest, answered⟩ := hr.answered
  obtain ⟨d, hd, lawful, -, -⟩ := (course_of_runs hr).dialogue
  have split : d.exchanges = exchanges pre ++ ⟨c, r⟩ :: rest := by
    rw [← hd, he]
    simp [answered]
  exact ⟨d.quiet_of_change lawful split, d.changeover_of_start lawful split⟩

/-- Both gates open in a run that comes as far as the start. -/
theorem gates_of_brief_run :
    ∃ (outside : Outside) (ahead rest : List Moment),
      outside.chronicle (run briefConfig briefRequest) =
        briefHalt ++ .call (.modify "i-1" "t3.small") :: ahead ∧
      outside.chronicle (run briefConfig briefRequest) =
        briefHalt ++ briefChange false ++ .call (.start "i-1") :: rest ∧
      Quiet briefConfig briefRequest (exchanges briefHalt) ∧
      Changeover briefConfig briefRequest (exchanges (briefHalt ++ briefChange false)) := by
  obtain ⟨outside, told, -⟩ := Program.happens_iff.mp (.inl (runs_of_course course_brief))
  have change : outside.chronicle (run briefConfig briefRequest) =
      briefHalt ++ .call (.modify "i-1" "t3.small") ::
        (.reply (.modify "i-1" "t3.small") (.ok ()) :: briefDecline) := by
    rw [told]
    simp [briefChange, exchange]
  exact ⟨outside, _, _, change, told, (gates_of_run _ _ outside change).1 rfl,
    (gates_of_run _ _ outside told).2 ⟨_, rfl⟩⟩

end InstanceResize.Engine
