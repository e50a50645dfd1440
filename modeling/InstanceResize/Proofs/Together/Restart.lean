import InstanceResize.Proofs.Account.Standing
import InstanceResize.Proofs.Run.Gate
import InstanceResize.Proofs.Together.Pool

/-!
# Workflows that share an instance

Several workflows work on one running instance. A stop or a start of one of them may be taken up by
what another one has begun, and one may see an instance stopped that another one starts again. Yet
whoever stops the instance does not succeed before the instance has been seen to run again.

* `Owing`: a stop was made, and the instance has not been seen to run since.
* `Secured`: the instance runs, or somebody owes this.
* `Secured.step`: every turn keeps that.
* `not_owing_of_success`: a workflow that succeeds owes nothing.
* `running_of_play`: if all succeed that stop the instance, it runs in the end.
-/

namespace InstanceResize.Engine

variable {ι : Type} {id : String} {past : List Exchange}

/-- The instance was stopped, and has not been seen to run since. -/
def Owing (id : String) (past : List Exchange) : Prop :=
  ∃ before r after, past = before ++ ⟨.stop id, r⟩ :: after ∧
    ∀ s, readingOf id (.ok s) ∈ after → s.state ≠ .running

theorem owing_of_stop (past : List Exchange) (r : (Call.stop id).Reply) :
    Owing id (past ++ [⟨.stop id, r⟩]) :=
  ⟨past, r, [], rfl, fun _ h => absurd h List.not_mem_nil⟩

/-- Only a reading that shows the instance running pays what is owed. -/
theorem Owing.append (h : Owing id past) {x : Exchange}
    (unpaid : ∀ s, x = readingOf id (.ok s) → s.state ≠ .running) : Owing id (past ++ [x]) := by
  obtain ⟨before, r, after, rfl, unseen⟩ := h
  refine ⟨before, r, after ++ [x], by simp, fun s hs => ?_⟩
  rcases List.mem_append.mp hs with hs | hs
  · exact unseen s hs
  · exact unpaid s (List.mem_singleton.mp hs).symm

/-! ## Turn by turn -/

section

variable {α : Type} {pool : Pool ι α}

/-- The instance is running, or somebody who has stopped it has not seen it run since. -/
def Secured (id : String) (pool : Pool ι α) : Prop :=
  pool.account.state? id = some .running ∨ ∃ i, Owing id (pool.workers i).past

variable [DecidableEq ι]

/-- Every turn keeps the instance secured, except a stop by somebody who is not observed. -/
theorem Secured.step (h : Secured id pool) {turn : Turn ι} (observed : turn ≠ .other (.stop id)) :
    Secured id (pool.step turn) := by
  cases turn with
  | other c =>
    have goes_on : c ≠ .stop id := fun hc => observed (congrArg Turn.other hc)
    exact h.imp_left fun running => Account.running_answer running goes_on
  | work i struck =>
    rcases pool.step_work_cases i struck with ⟨account, pasts⟩ | ⟨c, account, self, others⟩
    · exact h.imp (fun running => account ▸ running) fun ⟨j, owing⟩ => ⟨j, (pasts j).symm ▸ owing⟩
    · by_cases hc : c = .stop id
      · subst hc
        exact .inr ⟨i, self.symm ▸ owing_of_stop _ _⟩
      · rcases h with running | ⟨j, owing⟩
        · exact .inl (account ▸ Account.running_answer running hc)
        · by_cases hj : j = i
          · subst hj
            by_cases paid : ∃ s, (⟨c, (pool.account.answer c).1⟩ : Exchange) =
                readingOf id (.ok s) ∧ s.state = .running
            · -- The reading shows that the instance runs, whoever has started it.
              obtain ⟨s, hx, hs⟩ := paid
              obtain ⟨rfl, hr⟩ := Exchange.mk.inj hx
              have shown := Account.state?_of_read (eq_of_heq hr)
              rw [hs] at shown
              exact .inl (account ▸ Account.running_answer shown hc)
            · exact .inr ⟨j, self.symm ▸ owing.append fun s hx hs => paid ⟨s, hx, hs⟩⟩
          · exact .inr ⟨j, (others j hj).symm ▸ owing⟩

/-- Any number of turns keeps the instance secured. -/
theorem Secured.play (h : Secured id pool) {turns : List (Turn ι)}
    (observed : .other (.stop id) ∉ turns) : Secured id (pool.play turns) :=
  Pool.play_invariant (fun _ _ member secured => secured.step fun ht => observed (ht ▸ member)) h

end

/-! ## Success -/

variable {config : EngineConfig} {request : Request} {b : Bool} {t : List Moment}

/-- A workflow that succeeds owes nothing: it has stopped nothing, or the last thing it has read is
that the instance runs. -/
theorem not_owing_of_success {w : Workflow} (h : (run config request).Runs b t (.ok w)) :
    ¬ Owing request.instanceId (exchanges t) := by
  obtain ⟨d, said, -, -, succeeds⟩ := (course_of_runs h).dialogue
  obtain ⟨o, -, completed, -⟩ := (succeeds w).mp rfl
  rintro ⟨before, r, after, split, unseen⟩
  rw [said, Dialogue.exchanges_eq] at split
  cases o with
  | running =>
    obtain ⟨front, s, last, shows⟩ :=
      Leg.exchanges_of_reaches completed.start request.instanceId
    have ends := congrArg List.getLast? split
    rw [last, ← List.append_assoc, ← List.append_assoc, List.getLast?_concat] at ends
    rcases List.eq_nil_or_concat after with rfl | ⟨after, x, rfl⟩
    · rw [List.getLast?_concat] at ends
      have calls := congrArg Exchange.call (Option.some.inj ends)
      cases calls
    · have whole : before ++ ⟨.stop request.instanceId, r⟩ :: (after.concat x) =
          (before ++ ⟨.stop request.instanceId, r⟩ :: after) ++ [x] := by simp
      rw [whole, List.getLast?_concat] at ends
      exact unseen s (by simp [Option.some.inj ends]) shows
  | stopped =>
    have stop : d.stop = .skipped := completed.stop
    have start : d.start = .skipped := completed.start
    have made : (⟨.stop request.instanceId, r⟩ : Exchange) ∈
        d.ahead ++ (d.middle ++ d.start.exchanges request.instanceId) := by simp [split]
    simp only [Dialogue.ahead, Dialogue.middle, stop, start, Leg.exchanges_skipped,
      List.append_nil, List.mem_append, List.mem_map] at made
    rcases made with ⟨reading, -, hx⟩ | ⟨answer, -, hx⟩
    · cases congrArg Exchange.call hx
    · have change := Call.isChange_ofMutation request.instanceId request.mutation
      rw [show Call.ofMutation request.instanceId request.mutation = .stop request.instanceId from
        congrArg Exchange.call hx] at change
      cases change

/-! ## All of them -/

/-- A workflow that somebody wants to run. -/
structure Job where
  config : EngineConfig
  request : Request
  /-- Whether it is cancelled before it begins. -/
  cancelled : Bool

/-- An account and several workflows that have not begun. -/
def start (account : Account) (jobs : ι → Job) : Pool ι (Except RunError Workflow) :=
  ⟨account, fun i => .new (run (jobs i).config (jobs i).request) (jobs i).cancelled⟩

variable [DecidableEq ι]

/-- Several workflows run on one instance at the same time, in any order of their calls, while
others read, list and work on other instances. If the instance runs before, and every workflow that
has stopped it has succeeded, then the instance runs. -/
theorem running_of_play (account : Account) (id : String) (jobs : ι → Job) (turns : List (Turn ι))
    (running : account.state? id = some .running)
    (about : ∀ i, (jobs i).request.instanceId = id)
    (spared : ∀ turn ∈ turns, turn.spares id = true)
    (succeeded : ∀ i, (∃ r, ⟨.stop id, r⟩ ∈ (((start account jobs).play turns).workers i).past) →
      (((start account jobs).play turns).workers i).succeeded = true) :
    ((start account jobs).play turns).account.state? id = some .running := by
  have observed : .other (.stop id) ∉ turns := fun member => by
    simpa [Turn.spares, Call.instanceId?, Call.arguments] using spared _ member
  have secured : Secured id (start account jobs) := .inl running
  rcases secured.play observed with runs | ⟨i, owing⟩
  · exact runs
  · have made : ∃ r, ⟨.stop id, r⟩ ∈ (((start account jobs).play turns).workers i).past := by
      obtain ⟨before, r, after, split, -⟩ := owing
      exact ⟨r, by simp [split]⟩
    obtain ⟨w, ended⟩ := Worker.exists_of_succeeded (succeeded i made)
    have new : ∀ j, ((start account jobs).workers j).Follows
        (run (jobs j).config (jobs j).request) (jobs j).cancelled := fun _ => Worker.follows_new
    obtain ⟨t, said, runs⟩ := (Pool.follows_play new turns i).exists_runs ended
    rw [← said, ← about i] at owing
    exact absurd owing (not_owing_of_success runs)

/-- An account with one instance, which runs and settles at once. -/
def pairAccount : Account :=
  .ofSetup ⟨0, [⟨"i-1", "t3.micro", .running⟩], [.free "203.0.113.10" "eipalloc-1"], []⟩

/-- Two workflows on the instance; one of them does not trust the declared state. -/
def pairJobs : Bool → Job
  | false => ⟨⟨⟨3, 1⟩, ⟨3, 1⟩, false⟩, ⟨"i-1", "running", .resize "m5.large"⟩, false⟩
  | true => ⟨⟨⟨3, 1⟩, ⟨3, 1⟩, true⟩, ⟨"i-1", "stopped", .associate "eipalloc-1"⟩, false⟩

/-- A program does several things one after the other. -/
def worked (i : Bool) (n : Nat) : List (Turn Bool) := List.replicate n (.work i false)

/-- Both stop the instance before either of them sees it stopped, and both change it before either
of them starts it. The second stop and the second start are taken up by what the first has begun. -/
def pairTurns : List (Turn Bool) :=
  worked true 2 ++ worked false 2 ++ [.other (.stop "i-2")] ++ worked true 2 ++ worked false 2 ++
    worked true 3 ++ worked false 4 ++ [.other .instances] ++ worked true 2 ++ worked false 2 ++
    worked true 2 ++ worked false 2 ++ worked true 6 ++ worked false 3

/-- Both workflows stop the instance and succeed, and the instance runs in the end. -/
theorem running_of_pair :
    pairAccount.state? "i-1" = some .running ∧
      (∀ turn ∈ pairTurns, turn.spares "i-1" = true) ∧
      (∀ i, (((start pairAccount pairJobs).play pairTurns).workers i).past.any
        (·.call = .stop "i-1") = true) ∧
      (∀ i, (((start pairAccount pairJobs).play pairTurns).workers i).succeeded = true) ∧
      ((start pairAccount pairJobs).play pairTurns).account.state? "i-1" = some .running := by
  have running : pairAccount.state? "i-1" = some .running := rfl
  have spared : ∀ turn ∈ pairTurns, turn.spares "i-1" = true := by decide +kernel
  have succeeded :
      ∀ i, (((start pairAccount pairJobs).play pairTurns).workers i).succeeded = true := by
    decide +kernel
  refine ⟨running, spared, by decide +kernel, succeeded, ?_⟩
  exact running_of_play pairAccount "i-1" pairJobs pairTurns running (by decide) spared
    fun i _ => succeeded i

end InstanceResize.Engine
