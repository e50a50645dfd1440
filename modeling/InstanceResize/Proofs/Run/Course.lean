import InstanceResize.Proofs.Run.Parts

/-!
# Runs of a workflow

The phases of a workflow put its parts together in one order.

* `follow_course`: going through the phases is doing the parts in their order. No phase is refused.
* `Quiesced`, `Restored`: the runs of what comes before and after the change. There is nothing to do
  if the instance was stopped from the first.
* `Course`: the runs of a workflow, one case for each part that can end it, and one for success.
* `runs_run_iff`: these are exactly the runs.
-/

namespace InstanceResize.Engine

variable {b : Bool} {t : List Moment} {config : EngineConfig} {request : Request}

/-! ## The phases -/

/-- The next phase of a course may follow. -/
theorem follow_cons {w : Workflow} {next : Phase} {rest : List Phase}
    (h : w.phase.course w.origin = next :: rest) :
    follow config (next :: rest) w = (do
      perform config { w with phase := next }
      follow config rest { w with phase := next }) := by
  rw [follow, Workflow.advance, if_pos (Phase.mayFollow_of_course h)]

/-- The workflow that somebody wants, in a phase. -/
def workflowIn (request : Request) (origin : Origin) (phase : Phase) : Workflow :=
  ⟨request.instanceId, origin, request.mutation, phase⟩

/-- What comes before the change. -/
def quiesce (config : EngineConfig) (request : Request) : Origin → Step Unit
  | .running => ensureStopped config (workflowIn request .running .ensureStopped)
  | .stopped => pure ()

/-- What comes after the change. -/
def restore (config : EngineConfig) (request : Request) : Origin → Step Unit
  | .running =>
    (ensureRunning config (workflowIn request .running .ensureRunning)).adapt
      (·.afterMutation request.mutation)
  | .stopped => pure ()

/-- Going through the whole course of phases. No phase is refused. -/
theorem follow_course (o : Origin) :
    follow config (Phase.init.course o) (Workflow.new request.instanceId o request.mutation) = (do
      quiesce config request o
      applyMutation (workflowIn request o .mutating)
      restore config request o
      return workflowIn request o .done) := by
  cases o with
  | running =>
    rw [Phase.course, Phase.afterChange, follow_cons rfl, follow_cons rfl, follow_cons rfl,
      follow_cons rfl]
    rfl
  | stopped =>
    rw [Phase.course, Phase.afterChange, follow_cons rfl, follow_cons rfl]
    rfl

/-- The runs of what comes before the change. -/
inductive Quiesced (config : EngineConfig) (request : Request) :
    Origin → Bool → List Moment → Except RunError Unit → Prop where
  | already (b : Bool) : Quiesced config request .stopped b [] (.ok ())
  | halted {b : Bool} {t : List Moment} {r : Except RunError Unit}
      (brought : Brought (workflowIn request .running .ensureStopped) .stopped
        (.stop request.instanceId) config.stopPoll b t r) :
      Quiesced config request .running b t r

/-- The runs of what comes after the change. -/
inductive Restored (config : EngineConfig) (request : Request) :
    Origin → Bool → List Moment → Except RunError Unit → Prop where
  | already (b : Bool) : Restored config request .stopped b [] (.ok ())
  | restarted {b : Bool} {t : List Moment} {r : Except RunError Unit}
      (brought : Brought (workflowIn request .running .ensureRunning) .running
        (.start request.instanceId) config.startPoll b t r) :
      Restored config request .running b t (r.mapError (·.afterMutation request.mutation))

theorem runs_quiesce_iff {o : Origin} (valid : config.stopPoll.validate = .ok ())
    {r : Except RunError Unit} :
    (quiesce config request o).run.Runs b t r ↔ Quiesced config request o b t r := by
  constructor
  · intro h
    cases o with
    | running => exact .halted ((runs_bringTo_iff valid).mp h)
    | stopped =>
      obtain ⟨rfl, rfl⟩ := runs_step_pure.mp h
      exact .already b
  · intro h
    cases h with
    | halted brought => exact (runs_bringTo_iff valid).mpr brought
    | already => exact runs_step_pure.mpr ⟨rfl, rfl⟩

theorem runs_restore_iff {o : Origin} (valid : config.startPoll.validate = .ok ())
    {r : Except RunError Unit} :
    (restore config request o).run.Runs b t r ↔ Restored config request o b t r := by
  constructor
  · intro h
    cases o with
    | running =>
      obtain ⟨y, hy, rfl⟩ := runs_step_adapt.mp h
      exact .restarted ((runs_bringTo_iff valid).mp hy)
    | stopped =>
      obtain ⟨rfl, rfl⟩ := runs_step_pure.mp h
      exact .already b
  · intro h
    cases h with
    | restarted brought => exact runs_step_adapt.mpr ⟨_, (runs_bringTo_iff valid).mpr brought, rfl⟩
    | already => exact runs_step_pure.mpr ⟨rfl, rfl⟩

/-! ## The whole run -/

/-- The runs of a workflow. -/
inductive Course (config : EngineConfig) (request : Request) (b : Bool) :
    List Moment → Except RunError Workflow → Prop where
  /-- It ends in the opening. -/
  | unopened {e : RunError} {t : List Moment} (opened : Opened config request b t (.error e)) :
      Course config request b t (.error e)
  /-- It ends before the change. -/
  | unquiesced {o : Origin} {e : RunError} {t u : List Moment}
      (opened : Opened config request b t (.ok o))
      (quiesced : Quiesced config request o (b || wasCancelled t) u (.error e)) :
      Course config request b (t ++ u) (.error e)
  /-- It ends with the change. -/
  | unchanged {o : Origin} {e : RunError} {t u v : List Moment}
      (opened : Opened config request b t (.ok o))
      (quiesced : Quiesced config request o (b || wasCancelled t) u (.ok ()))
      (changed : Changed (workflowIn request o .mutating) (b || wasCancelled (t ++ u)) v
        (.error e)) :
      Course config request b (t ++ u ++ v) (.error e)
  /-- It ends after the change. -/
  | unrestored {o : Origin} {e : RunError} {t u v w : List Moment}
      (opened : Opened config request b t (.ok o))
      (quiesced : Quiesced config request o (b || wasCancelled t) u (.ok ()))
      (changed : Changed (workflowIn request o .mutating) (b || wasCancelled (t ++ u)) v (.ok ()))
      (restored : Restored config request o (b || wasCancelled (t ++ u ++ v)) w (.error e)) :
      Course config request b (t ++ u ++ v ++ w) (.error e)
  | finished {o : Origin} {t u v w : List Moment}
      (opened : Opened config request b t (.ok o))
      (quiesced : Quiesced config request o (b || wasCancelled t) u (.ok ()))
      (changed : Changed (workflowIn request o .mutating) (b || wasCancelled (t ++ u)) v (.ok ()))
      (restored : Restored config request o (b || wasCancelled (t ++ u ++ v)) w (.ok ())) :
      Course config request b (t ++ u ++ v ++ w) (.ok (workflowIn request o .done))

/-- A run gets past the opening only with a valid configuration. -/
theorem Opened.valid {o : Origin} (h : Opened config request b t (.ok o)) :
    config.validate = .ok () := by
  cases h with
  | trusted declared valid known verify => exact valid
  | confirmed valid known verify confirmed => exact valid

/-- A run is the opening and then the phases in their order. -/
theorem run_eq : run config request = (do
    let o ← opening config request
    quiesce config request o
    applyMutation (workflowIn request o .mutating)
    restore config request o
    return workflowIn request o .done : Step Workflow).run := by
  simp only [run, follow_course]

theorem course_of_runs {r : Except RunError Workflow} (h : (run config request).Runs b t r) :
    Course config request b t r := by
  rw [run_eq] at h
  rcases runs_step_bind.mp h with ⟨e, rfl, h₁⟩ | ⟨o, t₁, t', rfl, h₁, h⟩
  · exact .unopened (runs_opening_iff.mp h₁)
  have opened := runs_opening_iff.mp h₁
  obtain ⟨stop, start⟩ := EngineConfig.validate_eq_ok_iff.mp opened.valid
  rcases runs_step_bind.mp h with ⟨e, rfl, h₂⟩ | ⟨⟨⟩, t₂, t', rfl, h₂, h⟩
  · exact .unquiesced opened ((runs_quiesce_iff stop).mp h₂)
  have quiesced := (runs_quiesce_iff stop).mp h₂
  rw [Bool.or_assoc, ← wasCancelled_append] at h
  rw [← List.append_assoc]
  rcases runs_step_bind.mp h with ⟨e, rfl, h₃⟩ | ⟨⟨⟩, t₃, t', rfl, h₃, h⟩
  · exact .unchanged opened quiesced (runs_applyMutation_iff.mp h₃)
  have changed := runs_applyMutation_iff.mp h₃
  rw [Bool.or_assoc, ← wasCancelled_append] at h
  rw [← List.append_assoc]
  rcases runs_step_bind.mp h with ⟨e, rfl, h₄⟩ | ⟨⟨⟩, t₄, t', rfl, h₄, h⟩
  · exact .unrestored opened quiesced changed ((runs_restore_iff start).mp h₄)
  obtain ⟨rfl, rfl⟩ := runs_step_pure.mp h
  rw [List.append_nil]
  exact .finished opened quiesced changed ((runs_restore_iff start).mp h₄)

theorem runs_of_course {r : Except RunError Workflow} (h : Course config request b t r) :
    (run config request).Runs b t r := by
  rw [run_eq]
  cases h with
  | unopened opened => exact runs_step_failed (runs_opening_iff.mpr opened)
  | unquiesced opened quiesced =>
    obtain ⟨stop, -⟩ := EngineConfig.validate_eq_ok_iff.mp opened.valid
    refine runs_step_after (runs_opening_iff.mpr opened) ?_
    exact runs_step_failed ((runs_quiesce_iff stop).mpr quiesced)
  | unchanged opened quiesced changed =>
    obtain ⟨stop, -⟩ := EngineConfig.validate_eq_ok_iff.mp opened.valid
    rw [wasCancelled_append, ← Bool.or_assoc] at changed
    rw [List.append_assoc]
    refine runs_step_after (runs_opening_iff.mpr opened) ?_
    refine runs_step_after ((runs_quiesce_iff stop).mpr quiesced) ?_
    exact runs_step_failed (runs_applyMutation_iff.mpr changed)
  | unrestored opened quiesced changed restored =>
    obtain ⟨stop, start⟩ := EngineConfig.validate_eq_ok_iff.mp opened.valid
    simp only [wasCancelled_append, ← Bool.or_assoc] at changed restored
    rw [List.append_assoc, List.append_assoc]
    refine runs_step_after (runs_opening_iff.mpr opened) ?_
    refine runs_step_after ((runs_quiesce_iff stop).mpr quiesced) ?_
    refine runs_step_after (runs_applyMutation_iff.mpr changed) ?_
    exact runs_step_failed ((runs_restore_iff start).mpr restored)
  | @finished o t u v w opened quiesced changed restored =>
    obtain ⟨stop, start⟩ := EngineConfig.validate_eq_ok_iff.mp opened.valid
    simp only [wasCancelled_append, ← Bool.or_assoc] at changed restored
    rw [List.append_assoc, List.append_assoc, ← List.append_nil w]
    refine runs_step_after (runs_opening_iff.mpr opened) ?_
    refine runs_step_after ((runs_quiesce_iff stop).mpr quiesced) ?_
    refine runs_step_after (runs_applyMutation_iff.mpr changed) ?_
    exact runs_step_after ((runs_restore_iff start).mpr restored) (runs_step_pure.mpr ⟨rfl, rfl⟩)

theorem runs_run_iff {r : Except RunError Workflow} :
    (run config request).Runs b t r ↔ Course config request b t r :=
  ⟨course_of_runs, runs_of_course⟩

/-! ## A short run -/

/-- One attempt for each wait, after a millisecond. -/
def briefConfig : EngineConfig := ⟨⟨1, 1⟩, ⟨1, 1⟩, false⟩

/-- A running instance is to be resized. -/
def briefRequest : Request := ⟨"i-1", "running", .resize "t3.small"⟩

/-- The instance stops at once. -/
def briefHalt : List Moment :=
  exchange (.stop "i-1") (.ok ()) false ++
    round "i-1" ⟨1, 1⟩ (.ok (.of "i-1" .stopped)) false

/-- The instance is resized. -/
def briefChange (struck : Bool) : List Moment := exchange (.modify "i-1" "t3.small") (.ok ()) struck

/-- The instance does not start any more. -/
def briefDecline : List Moment := exchange (.start "i-1") (.error (.unreachable "down")) false

theorem opened_brief : Opened briefConfig briefRequest false [] (.ok .running) :=
  .trusted .running rfl rfl rfl

theorem quiesced_brief :
    Quiesced briefConfig briefRequest .running false briefHalt (.ok ()) := by
  have wait : Waited "i-1" .stopped ⟨1, 1⟩ 1 false
      (round "i-1" ⟨1, 1⟩ (.ok (.of "i-1" .stopped)) false) (.ok .stopped) :=
    .decided [] _ _ false undecided_nil rfl Nat.one_pos
  exact .halted (Brought.awaited (w := workflowIn briefRequest .running .ensureStopped)
    (c := .stop "i-1") () wait)

theorem changed_brief (struck : Bool) :
    Changed (workflowIn briefRequest .running .mutating) false (briefChange struck) (.ok ()) :=
  Changed.made (w := workflowIn briefRequest .running .mutating) () struck

/-- A run in which the instance is resized and does not start any more. -/
theorem course_brief : Course briefConfig briefRequest false
    (briefHalt ++ briefChange false ++ briefDecline)
    (.error (.notRestored "resize to t3.small" (.call "start" "Provider unreachable: down"))) := by
  have restored : Restored briefConfig briefRequest .running false briefDecline
      (.error (.notRestored "resize to t3.small" (.call "start" "Provider unreachable: down"))) :=
    .restarted (.declined (.unreachable "down") false)
  have course := Course.unrestored opened_brief quiesced_brief (changed_brief false) restored
  exact course

end InstanceResize.Engine
