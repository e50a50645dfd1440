import InstanceResize.Proofs.Run.Failure
import InstanceResize.Proofs.Run.Stream

/-!
# Workflows with a valid configuration

If both policies of a configuration are valid, then no workflow is refused because of them: not
before its first call, and not while it waits. What a workflow is refused for then is the state that
it is said, or found, to start from.

* `RunError.BlamesPolicy`: an error that says that a policy is not valid.
* `Workable`: no workflow is refused because of its configuration.
* `workable_of_validate`: a valid configuration is one like that.
-/

namespace InstanceResize

/-- An error says that a policy is not valid, before the change or after it. -/
def RunError.BlamesPolicy : RunError → Prop
  | .poll (.policy _) => True
  | .notRestored _ e => e.BlamesPolicy
  | _ => False

namespace Engine

variable {config : EngineConfig} {request : Request} {o : Origin} {b : Bool} {t : List Moment}
  {e : RunError} {reason : String}

/-- A workflow may not start from the state that it is said to start from, or that the one reading
before it shows. -/
def Unfounded (config : EngineConfig) (request : Request) (es : List Exchange) (reason : String) :
    Prop :=
  (∃ r, Origin.parse request.declaredState = .error r ∧ reason = r.message ∧ es = []) ∨
    config.verifyOrigin = true ∧ ∃ s : Status, es = [readingOf request.instanceId (.ok s)] ∧
      s.state ≠ .running ∧ s.state ≠ .stopped ∧ reason = unfitText s

/-- No workflow is refused because of its configuration. -/
structure Workable (config : EngineConfig) : Prop where
  precondition : ∀ request (outside : Outside) reason,
    outside.result (execute config request) = .error (.precondition reason) →
      Unfounded config request (exchanges (outside.chronicle (execute config request))) reason
  policy : ∀ request (outside : Outside) e,
    outside.result (execute config request) = .error e → ¬ e.BlamesPolicy

/-! ## One part of a workflow -/

theorem Opened.unfounded (valid : config.validate = .ok ())
    (h : Opened config request b t (.error (.precondition reason))) :
    Unfounded config request (exchanges t) reason := by
  cases h with
  | misconfigured r invalid => exact nomatch valid.symm.trans invalid
  | undeclared r _ unknown => exact .inl ⟨r, unknown, rfl, rfl⟩
  | confirmed _ known verify confirmed =>
    cases confirmed with
    | unfit s struck once fit =>
      obtain ⟨notRunning, notStopped⟩ := Origin.ofState?_eq_none_iff.mp fit
      exact .inr ⟨verify, s, exchanges_exchange _ _ _, notRunning, notStopped, rfl⟩

theorem Opened.not_blamesPolicy (h : Opened config request b t (.error e)) : ¬ e.BlamesPolicy := by
  cases h with
  | misconfigured => exact id
  | undeclared => exact id
  | confirmed _ _ _ confirmed => cases confirmed <;> exact id

/-- A leg that fails blames neither what it starts from nor its policy. -/
theorem Broken.acquits {instanceId : String} {phase : Phase} {target : State} {c : Call}
    {policy : PollPolicy} {es : List Exchange} (h : Broken instanceId phase target c policy es e) :
    (∀ reason, e ≠ .precondition reason) ∧ ¬ e.BlamesPolicy := by
  cases h <;> exact ⟨nofun, id⟩

theorem Quiesced.acquits (h : Quiesced config request o b t (.error e)) :
    (∀ reason, e ≠ .precondition reason) ∧ ¬ e.BlamesPolicy := by
  cases h with
  | halted brought => exact brought.broken.acquits

theorem Changed.acquits {w : Workflow} (h : Changed w b t (.error e)) :
    (∀ reason, e ≠ .precondition reason) ∧ ¬ e.BlamesPolicy := by
  cases h with
  | off => exact ⟨nofun, id⟩
  | declined x struck => cases x <;> exact ⟨nofun, id⟩

theorem Restored.acquits (h : Restored config request o b t (.error e)) :
    (∀ reason, e ≠ .precondition reason) ∧ ¬ e.BlamesPolicy := by
  generalize hr : (.error e : Except RunError Unit) = r at h
  cases h with
  | already => cases hr
  | @restarted _ _ r brought =>
    cases r with
    | ok => cases hr
    | error y =>
      obtain rfl : e = y.afterMutation request.mutation := Except.error.inj hr
      have acquits := brought.broken.acquits
      cases hy : y.isCancellation with
      | true =>
        rw [RunError.afterMutation_of_cancellation hy]
        exact acquits
      | false =>
        rw [RunError.afterMutation_of_not_cancellation hy]
        exact ⟨nofun, acquits.2⟩

/-! ## A whole workflow -/

theorem Course.unfounded (valid : config.validate = .ok ())
    (h : Course config request b t (.error (.precondition reason))) :
    Unfounded config request (exchanges t) reason := by
  cases h with
  | unopened opened => exact opened.unfounded valid
  | unquiesced _ quiesced => exact absurd rfl (quiesced.acquits.1 reason)
  | unchanged _ _ changed => exact absurd rfl (changed.acquits.1 reason)
  | unrestored _ _ _ restored => exact absurd rfl (restored.acquits.1 reason)

theorem Course.not_blamesPolicy (h : Course config request b t (.error e)) : ¬ e.BlamesPolicy := by
  cases h with
  | unopened opened => exact opened.not_blamesPolicy
  | unquiesced _ quiesced => exact quiesced.acquits.2
  | unchanged _ _ changed => exact changed.acquits.2
  | unrestored _ _ _ restored => exact restored.acquits.2

/-- With valid policies no workflow is refused because of its configuration. -/
theorem workable_of_validate (valid : config.validate = .ok ()) : Workable config where
  precondition request outside reason failed := by
    rw [result_execute] at failed
    obtain ⟨b, t, runs, said, -⟩ := outside.exists_runs (run config request)
    rw [failed] at runs
    rw [chronicle_execute, exchanges_append, said]
    simpa using (course_of_runs runs).unfounded valid
  policy request outside e failed := by
    rw [result_execute] at failed
    obtain ⟨b, t, runs, -⟩ := outside.exists_runs (run config request)
    rw [failed] at runs
    exact (course_of_runs runs).not_blamesPolicy

end Engine

end InstanceResize
