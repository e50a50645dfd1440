import InstanceResize.Proofs.Account.Effect
import InstanceResize.Proofs.Account.Passage
import InstanceResize.Proofs.Run.Failure
import InstanceResize.Proofs.Run.Gate
import InstanceResize.Proofs.Run.Stream

/-!
# The outcome of a workflow and the account

Nobody but the workflow uses an account. Then what the workflow reports at its end is what has
become of the account: the change is in force if and only if the outcome says so, and a workflow
that succeeds leaves the instance in the state it is bound to leave it in. This holds whatever the
request is and whenever somebody cancels the workflow.

* `Attests`: an outcome says that the change was made.
* `attests_iff_accepted`: it says so exactly if the provider has accepted the change.
* `Agrees`: what an outcome says about the account before and after the workflow.
* `agrees_of_execute`: the outcome of every workflow agrees with the account.
-/

namespace InstanceResize

namespace Engine

open Account

/-! ## What an outcome says -/

/-- An outcome says that the change was made: the workflow has succeeded, or the instance was not
brought back up after the change, or the workflow was cancelled when it was to be. -/
def Attests : Except RunError Workflow → Prop
  | .ok _ => True
  | .error e => (∃ text cause, e = .notRestored text cause) ∨ e = .cancelled .ensureRunning ∨
      e = .poll (.cancelled .running)

variable {config : EngineConfig} {request : Request} {b : Bool} {t : List Moment}
  {r : Except RunError Workflow} {w : Workflow} {before after : Account}

/-- A workflow that succeeds has completed its dialogue for the origin that it reports. -/
theorem completed_of_runs (h : (run config request).Runs b t (.ok w)) :
    ∃ d : Dialogue request, exchanges t = d.exchanges ∧ d.Lawful config ∧
      d.origin? config = some w.origin ∧ d.Completed w.origin := by
  obtain ⟨d, said, lawful, -, succeeds⟩ := (course_of_runs h).dialogue
  obtain ⟨o, origin, completed, rfl⟩ := (succeeds w).mp rfl
  exact ⟨d, said, lawful, origin, completed⟩

/-- An outcome says that the change was made exactly if the provider has accepted it. -/
theorem attests_iff_accepted (h : (run config request).Runs b t r) :
    Attests r ↔ Accepted (exchanges t) := by
  cases r with
  | error e => exact (course_of_runs h).truthful.accepted.symm
  | ok w =>
    obtain ⟨d, said, -, -, completed⟩ := completed_of_runs h
    obtain ⟨x, changed⟩ := completed.changes
    refine iff_of_true trivial ⟨_, x, Call.isChange_ofMutation _ _, ?_⟩
    rw [said]
    simp [Dialogue.exchanges, changed]

/-- A dialogue in which the provider has accepted a change is what comes before the change, the
change, and what comes after it. -/
theorem Dialogue.exchanges_of_accepted {d : Dialogue request} (h : Accepted d.exchanges) :
    ∃ x, d.exchanges = d.ahead ++
      (⟨.ofMutation request.instanceId request.mutation, .ok x⟩ ::
        d.start.exchanges request.instanceId) := by
  obtain ⟨c, x, change, made⟩ := h
  have calm : ∀ y ∈ d.exchanges, y.call = .status request.instanceId ∨
      y.call = .stop request.instanceId ∨ y.call = .start request.instanceId ∨
        y ∈ d.middle := by
    intro y hy
    rw [d.exchanges_eq, List.mem_append, List.mem_append] at hy
    rcases hy with hy | hy | hy
    · rcases d.call_of_mem_ahead hy with hc | hc
      · exact .inl hc
      · exact .inr (.inl hc)
    · exact .inr (.inr (.inr hy))
    · rcases Leg.call_of_mem_exchanges hy with hc | hc
      · exact .inr (.inr (.inl hc))
      · exact .inl hc
  have middle : (⟨c, .ok x⟩ : Exchange) ∈ d.middle := by
    rcases calm _ made with rfl | rfl | rfl | hm
    · cases change
    · cases change
    · cases change
    · exact hm
  obtain ⟨answer, answered, same⟩ := List.mem_map.mp middle
  cases same
  have changed : d.change = some (.ok x) := Option.mem_toList.mp answered
  refine ⟨x, ?_⟩
  rw [d.exchanges_eq, Dialogue.middle, changed]
  rfl

/-! ## What has become of the account -/

/-- A workflow whose change is accepted has made it, and nothing else to types and addresses. -/
theorem applied_of_accepted {d : Dialogue request}
    (answers : before.Answers nobody d.exchanges after) (accepted : Accepted d.exchanges) :
    Applied request.instanceId before after request.mutation := by
  -- No call before or after the change makes another one, whatever it is answered.
  obtain ⟨x, split⟩ := Dialogue.exchanges_of_accepted accepted
  rw [split] at answers
  obtain ⟨a₁, ahead, rest⟩ := Answers.append_iff.mp answers
  obtain ⟨reply, since⟩ := answers_nobody_cons.mp rest
  have kept_ahead : Kept request.instanceId before a₁ := by
    refine ahead.kept fun y hy change => ?_
    rcases d.call_of_mem_ahead hy with hc | hc <;> rw [hc] at change <;> cases change
  have kept_since : Kept request.instanceId
      (a₁.answer (.ofMutation request.instanceId request.mutation)).2 after := by
    refine since.kept fun y hy change => ?_
    rcases Leg.call_of_mem_exchanges hy with hc | hc <;> rw [hc] at change <;> cases change
  exact (applied_answer reply).congr kept_ahead kept_since

/-- A workflow whose change is not accepted leaves the type of its instance and all addresses. -/
theorem kept_of_not_accepted {es : List Exchange} (answers : before.Answers nobody es after)
    (refused : ¬ Accepted es) : Kept request.instanceId before after := by
  refine answers.kept fun x hx change => ?_
  obtain ⟨c, reply⟩ := x
  cases reply with
  | error e => exact ⟨e, rfl⟩
  | ok y => exact absurd ⟨c, y, change, hx⟩ refused

/-- A workflow that succeeds on an instance that was running leaves it running. -/
theorem running_of_success (h : (run config request).Runs b t (.ok w))
    (answers : before.Answers nobody (exchanges t) after) (origin : w.origin = .running) :
    after.state? request.instanceId = some .running := by
  obtain ⟨d, said, -, -, completed⟩ := completed_of_runs h
  rw [origin] at completed
  obtain ⟨front, s, last, shows⟩ := Leg.exchanges_of_reaches completed.start request.instanceId
  rw [said, d.exchanges_eq, last, ← List.append_assoc, ← List.append_assoc] at answers
  obtain ⟨a₁, -, rest⟩ := Answers.append_iff.mp answers
  obtain ⟨reply, nothing⟩ := answers_nobody_cons.mp rest
  obtain rfl := used_nobody.mp nothing
  have runs : a₁.state? request.instanceId = some .running := by
    rw [state?_of_read reply, shows]
  exact running_answer runs nofun

/-- The reading that confirms an origin shows the state that the instance is in. -/
theorem state?_of_confirmed {d : Dialogue request} {o : Origin}
    (origin : d.origin? config = some o) (verify : config.verifyOrigin = true)
    (answers : before.Answers nobody d.exchanges after) :
    before.state? request.instanceId = some o.state := by
  obtain ⟨s, read, shows⟩ := confirmation_of_established origin verify
  have first : d.exchanges = readingOf request.instanceId (.ok s) ::
      (d.stop.exchanges request.instanceId ++ (d.middle ++
        d.start.exchanges request.instanceId)) := by
    rw [d.exchanges_eq, Dialogue.ahead, read]
    simp
  rw [first] at answers
  obtain ⟨reply, -⟩ := answers_nobody_cons.mp answers
  rw [state?_of_read reply, shows]

/-- The reading that confirms a stopped instance leaves its state. If the instance is only said to
be stopped, then there is no such reading. -/
theorem state?_of_confirmation {d : Dialogue request} (lawful : d.Lawful config)
    (origin : d.origin? config = some .stopped)
    (stopped : config.verifyOrigin = true → before.state? request.instanceId = some .stopped)
    (answers : before.Answers nobody (d.confirmation.toList.map (readingOf request.instanceId))
      after) :
    after.state? request.instanceId = before.state? request.instanceId := by
  cases verify : config.verifyOrigin with
  | false =>
    have none : d.confirmation.toList = [] := by
      refine List.length_eq_zero_iff.mp ?_
      rw [confirmation_length lawful origin, verify]
      rfl
    rw [none] at answers
    obtain rfl := used_nobody.mp answers
    rfl
  | true =>
    obtain ⟨s, read, -⟩ := confirmation_of_established origin verify
    rw [read] at answers
    obtain ⟨-, nothing⟩ := answers_nobody_cons.mp answers
    obtain rfl := used_nobody.mp nothing
    have here : before.Due request.instanceId .stopping 0 := due_zero.mpr (stopped verify)
    rw [stopped verify]
    exact due_zero.mp here.answer_status.2

/-- A workflow that succeeds on an instance that was stopped leaves its state. -/
theorem state?_of_success (h : (run config request).Runs b t (.ok w))
    (answers : before.Answers nobody (exchanges t) after) (origin : w.origin = .stopped) :
    after.state? request.instanceId = before.state? request.instanceId := by
  obtain ⟨d, said, lawful, established, completed⟩ := completed_of_runs h
  rw [origin] at established completed
  obtain ⟨x, changed⟩ := completed.changes
  have no_stop : d.stop = .skipped := completed.stop
  have no_start : d.start = .skipped := completed.start
  rw [said] at answers
  have split : d.exchanges = d.confirmation.toList.map (readingOf request.instanceId) ++
      [⟨.ofMutation request.instanceId request.mutation, .ok x⟩] := by
    simp [Dialogue.exchanges, no_stop, no_start, changed]
  have confirmed : config.verifyOrigin = true →
      before.state? request.instanceId = some .stopped := fun verify =>
    state?_of_confirmed established verify answers
  rw [split] at answers
  obtain ⟨a₁, reading, change⟩ := Answers.append_iff.mp answers
  have read : a₁.state? request.instanceId = before.state? request.instanceId :=
    state?_of_confirmation lawful established confirmed reading
  obtain ⟨-, nothing⟩ := answers_nobody_cons.mp change
  obtain rfl := used_nobody.mp nothing
  exact (state?_answer_ofMutation request.mutation).trans read

/-! ## Agreement -/

/-- What an outcome says about the account before and after the workflow. -/
structure Agrees (config : EngineConfig) (request : Request) (before after : Account)
    (r : Except RunError Workflow) : Prop where
  /-- The settling time, the types and all other instances are as before. -/
  beside : Beside request.instanceId before after
  /-- If the outcome says that the change was made, then it is in force. -/
  inForce : Attests r → after.InForce request.instanceId request.mutation
  /-- Then nothing else was done to the type of the instance and to the addresses. -/
  applied : Attests r → Applied request.instanceId before after request.mutation
  /-- Otherwise the type of the instance and all addresses are as before. -/
  kept : ¬ Attests r → Kept request.instanceId before after
  running : ∀ w, r = .ok w → w.origin = .running →
    after.state? request.instanceId = some .running
  stopped : ∀ w, r = .ok w → w.origin = .stopped →
    after.state? request.instanceId = before.state? request.instanceId
  /-- If the origin is confirmed, then success leaves the instance in the state it was in. -/
  confirmed : config.verifyOrigin = true → ∀ w, r = .ok w →
    after.state? request.instanceId = before.state? request.instanceId

/-- The outcome of a run agrees with the account that has answered it. -/
theorem agrees_of_runs (h : (run config request).Runs b t r)
    (answers : before.Answers nobody (exchanges t) after) :
    Agrees config request before after r := by
  obtain ⟨d, said, lawful, -, -⟩ := (course_of_runs h).dialogue
  have attested := attests_iff_accepted h
  have spoken : before.Answers nobody d.exchanges after := said ▸ answers
  have applied : Attests r → Applied request.instanceId before after request.mutation := by
    intro attests
    refine applied_of_accepted spoken ?_
    rw [← said]
    exact attested.mp attests
  have kept : ¬ Attests r → Kept request.instanceId before after := by
    intro denies
    exact kept_of_not_accepted answers fun made => denies (attested.mpr made)
  have inForce : Attests r → after.InForce request.instanceId request.mutation :=
    fun attests => (applied attests).inForce
  refine ⟨spoken.beside fun x hx => d.instanceId?_of_mem hx, inForce, applied, kept, ?_, ?_, ?_⟩
  · rintro w rfl origin
    exact running_of_success h answers origin
  · rintro w rfl origin
    exact state?_of_success h answers origin
  · rintro verify w rfl
    cases origin : w.origin with
    | stopped => exact state?_of_success h answers origin
    | running =>
      obtain ⟨d, said, -, established, -⟩ := completed_of_runs h
      rw [origin] at established
      rw [running_of_success h answers origin]
      exact (state?_of_confirmed established verify (said ▸ answers)).symm

/-- Whatever the account and the request are, and whenever somebody cancels the workflow, if nobody
else uses the account then the outcome agrees with what has become of it. -/
theorem agrees_of_execute (account : Account) (config : EngineConfig) (request : Request)
    (cancels : List Moment → Bool) :
    Agrees config request account (account.left alone cancels (execute config request))
      ((account.outside alone cancels).result (execute config request)) := by
  obtain ⟨b, t, h, said, -⟩ := (account.outside alone cancels).exists_runs (execute config request)
  have answers : account.Answers nobody
      (exchanges ((account.outside alone cancels).chronicle (execute config request)))
      (account.left alone cancels (execute config request)) :=
    answers_chronicle (fun _ c hc => absurd hc List.not_mem_nil) _
  obtain ⟨u, rfl, runs⟩ := runs_execute_iff.mp h
  have told : exchanges (u ++ [.emit (outcomeEvent
      ((account.outside alone cancels).result (execute config request)))]) = exchanges u := by
    simp
  rw [said, told] at answers
  exact agrees_of_runs runs answers

end Engine

end InstanceResize
