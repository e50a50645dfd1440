import InstanceResize.Proofs.Account.Allocation
import InstanceResize.Proofs.Run.Failure
import InstanceResize.Proofs.Together.Apart

/-!
# An allocation for one instance only

Several workflows ask for one allocation at the same time. Whoever comes first is given it, and all
others are refused, in whatever order their calls are made.

* `Worker.Makes`: the calls of a worker, those it has made and those it still can make.
* `Given`: a worker has been given an allocation.
* `Contested`: at most one has been given it, and then it is taken.
* `Contested.step`: every turn keeps that.
* `Exclusive`, `exclusive_of_calls`: what becomes of an allocation.
-/

namespace InstanceResize

/-! ## The calls of a worker -/

namespace Worker

variable {α : Type} {P : Call → Prop} {w : Worker α}

/-- All calls of a worker are of a kind, those it has made and those it still can make. -/
def Makes (P : Call → Prop) (w : Worker α) : Prop :=
  w.program.Calls P ∧ ∀ x ∈ w.past, P x.call

theorem makes_new {p : Program α} (h : p.Calls P) (cancelled : Bool) : (new p cancelled).Makes P :=
  ⟨h, fun _ member => absurd member List.not_mem_nil⟩

theorem Makes.advance (h : w.Makes P) (struck : Bool) (a : Account) :
    (w.advance struck a).1.Makes P := by
  refine ⟨calls_advance h.1 struck a, ?_⟩
  obtain ⟨program, cancelled, past⟩ := w
  obtain ⟨calls, made⟩ := h
  cases program with
  | call c next =>
    intro x member
    rcases List.mem_append.mp member with member | member
    · exact made x member
    · rw [List.mem_singleton.mp member]
      exact calls.1
  | _ => exact made

end Worker

variable {α ι : Type} [DecidableEq ι] {allocation : String} {pool : Pool ι α}

/-- Every worker goes on with its own kind of calls, whatever the others do. -/
theorem Pool.makes_play {P : ι → Call → Prop} (start : ∀ i, (pool.workers i).Makes (P i))
    (turns : List (Turn ι)) (i : ι) : ((pool.play turns).workers i).Makes (P i) := by
  refine play_invariant (P := fun pool => ∀ i, (pool.workers i).Makes (P i)) ?_ start i
  intro pool turn _ makes i
  cases turn with
  | other c => exact makes i
  | work j struck =>
    by_cases h : i = j
    · subst h
      rw [step_work_self]
      exact (makes i).advance struck pool.account
    · rw [step_work_other h]
      exact makes i

/-! ## One allocation -/

/-- Somebody has asked for an allocation and was given it. -/
def Given (allocation : String) (past : List Exchange) : Prop :=
  ∃ id, (⟨.associate id allocation, .ok ()⟩ : Exchange) ∈ past

theorem given_concat {past : List Exchange} {x : Exchange} : Given allocation (past ++ [x]) ↔
    Given allocation past ∨ ∃ id, x = ⟨.associate id allocation, .ok ()⟩ := by
  unfold Given
  simp only [List.mem_append, List.mem_singleton, exists_or]
  exact or_congr_right (exists_congr fun _ => eq_comm)

/-- At most one worker has been given an allocation, and then it is taken. -/
structure Contested (allocation : String) (pool : Pool ι α) : Prop where
  unique : ∀ i j, Given allocation (pool.workers i).past → Given allocation (pool.workers j).past →
    i = j
  taken : ∀ i, Given allocation (pool.workers i).past → pool.account.Closed allocation

/-- Every turn keeps that: an allocation that is taken is given to nobody else. -/
theorem Contested.step (h : Contested allocation pool) (turn : Turn ι) :
    Contested allocation (pool.step turn) := by
  have stays : ∀ (c : Call), pool.account.Closed allocation →
      (pool.account.answer c).2.Closed allocation := fun c closed => closed.after [c]
  cases turn with
  | other c => exact ⟨h.unique, fun i given => stays c (h.taken i given)⟩
  | work i struck =>
    rcases pool.step_work_cases i struck with ⟨account, pasts⟩ | ⟨c, account, self, others⟩
    · refine ⟨fun j k => ?_, fun j => ?_⟩
      · rw [pasts j, pasts k]
        exact h.unique j k
      · rw [pasts j, account]
        exact h.taken j
    · -- Either the call gives the allocation to the worker, and nobody had it before, or all is as
      -- it was before.
      by_cases wins : ∃ id, (⟨c, (pool.account.answer c).1⟩ : Exchange) =
          ⟨.associate id allocation, .ok ()⟩
      · obtain ⟨id, won⟩ := wins
        obtain ⟨rfl, reply⟩ := Exchange.mk.inj won
        have open' := (Account.answer_associate_eq_ok_iff.mp (eq_of_heq reply)).2
        have nobody : ∀ j, ¬ Given allocation (pool.workers j).past :=
          fun j given => (h.taken j given).not_accepts open'
        have only : ∀ j,
            Given allocation ((pool.step (.work i struck)).workers j).past → j = i := by
          intro j given
          by_contra other
          rw [others j other] at given
          exact nobody j given
        refine ⟨fun j k hj hk => (only j hj).trans (only k hk).symm, fun _ _ => ?_⟩
        rw [account]
        exact Account.closed_of_ok (eq_of_heq reply)
      · have same : ∀ j, Given allocation ((pool.step (.work i struck)).workers j).past →
            Given allocation (pool.workers j).past := by
          intro j given
          by_cases hj : j = i
          · subst hj
            rw [self, given_concat] at given
            exact given.resolve_right wins
          · rwa [others j hj] at given
        refine ⟨fun j k hj hk => h.unique j k (same j hj) (same k hk), fun j given => ?_⟩
        rw [account]
        exact stays c (h.taken j (same j given))

namespace Engine

/-- However workflows and others take turns, at most one workflow is given an allocation. -/
theorem contested_play (account : Account) (jobs : ι → Job) (turns : List (Turn ι)) :
    Contested allocation ((launch account jobs).play turns) := by
  refine Pool.play_invariant (P := Contested allocation) (fun _ turn _ h => h.step turn) ?_
  have nobody : ∀ i, ¬ Given allocation ((launch account jobs).workers i).past :=
    fun _ ⟨_, member⟩ => absurd member List.not_mem_nil
  exact ⟨fun i _ given => absurd given (nobody i), fun i given => absurd given (nobody i)⟩

/-- A workflow that is to associate an allocation has its change accepted only if it is given the
allocation. -/
theorem given_of_accepted {account : Account} {jobs : ι → Job} {turns : List (Turn ι)} {i : ι}
    (asks : (jobs i).request.mutation = .associate allocation)
    (accepted : Accepted (((launch account jobs).play turns).workers i).past) :
    Given allocation (((launch account jobs).play turns).workers i).past := by
  obtain ⟨c, x, change, member⟩ := accepted
  have launched : ∀ i, ((launch account jobs).workers i).Makes (jobs i).request.Makes := fun i =>
    Worker.makes_new (calls_execute (jobs i).config (jobs i).request) (jobs i).cancelled
  have makes := Pool.makes_play launched turns i
  rcases makes.2 _ member with rfl | rfl | rfl | made
  · cases change
  · cases change
  · cases change
  · rw [asks] at made
    obtain rfl : c = .associate (jobs i).request.instanceId allocation := made
    exact ⟨_, member⟩

/-! ## All of them -/

/-- What becomes of an allocation of an account that was set up in a certain way, if calls are made
to the account and then an instance asks for the allocation. -/
structure Exclusive (s : Account.Setup) (cs : List Call) (id allocation : String) : Prop where
  /-- The addresses keep their order, their names and their allocations. -/
  labels : ((Account.ofSetup s).after cs).addresses.map Address.label =
    s.addresses.map Address.label
  /-- An address that is not open stays as it is. -/
  closed : ∀ (i : Nat) (x : Address),
    ((Account.ofSetup s).after cs).addresses[i]? = some x → x.isOpen = false →
      ∀ ds, ((Account.ofSetup s).after (cs ++ ds)).addresses[i]? = some x
  /-- The allocation is given to the instance if it is there, the first address of the allocation
  was open in the beginning, and no other instance that is there has asked for it before. -/
  given : (((Account.ofSetup s).after cs).answer (.associate id allocation)).1 = .ok () ↔
    (∃ seed ∈ s.instances, seed.id = id) ∧
      (Account.ofSetup s).Accepts (.associate allocation) ∧
        ∀ other, .associate other allocation ∈ cs → ∀ seed ∈ s.instances, seed.id ≠ other
  /-- If it is given, then the first address of the allocation is associated with the instance, no
  other address is changed, and from then on the address stays as it is and everybody who asks for
  the allocation is refused. -/
  kept : (((Account.ofSetup s).after cs).answer (.associate id allocation)).1 = .ok () →
    ∃ (i : Nat) (x : Address),
      Account.IsFirst allocation ((Account.ofSetup s).after cs).addresses i x ∧
      (Account.associated id allocation x).isOpen = false ∧
      (∀ j, j ≠ i → ((Account.ofSetup s).after (cs ++ [.associate id allocation])).addresses[j]? =
        ((Account.ofSetup s).after cs).addresses[j]?) ∧
      ∀ ds, Account.IsFirst allocation
          ((Account.ofSetup s).after (cs ++ .associate id allocation :: ds)).addresses i
          (Account.associated id allocation x) ∧
        ∀ seed ∈ s.instances,
          (((Account.ofSetup s).after (cs ++ .associate id allocation :: ds)).answer
            (.associate seed.id allocation)).1 = .error (.rejected "associate_address"
              ("allocation " ++ allocation ++ " is already associated"))
  /-- Of any number of workflows that are to associate it, at most one has its change accepted. -/
  workflows : ∀ (ι : Type) [DecidableEq ι] (jobs : ι → Job) (turns : List (Turn ι)),
    (∀ i, (jobs i).request.mutation = .associate allocation) → ∀ i j,
      Accepted (((launch ((Account.ofSetup s).after cs) jobs).play turns).workers i).past →
      Accepted (((launch ((Account.ofSetup s).after cs) jobs).play turns).workers j).past → i = j

/-- An allocation is given to one instance at most, the first one that asks for it, and it is given
for good. -/
theorem exclusive_of_calls (s : Account.Setup) (cs : List Call) (id allocation : String) :
    Exclusive s cs id allocation where
  labels := Account.map_label_after _ cs
  closed i x here closed ds := by
    rw [Account.after_append]
    exact Account.getElem?_after_of_closed here closed ds
  given := by
    rw [Account.answer_associate_eq_ok_iff, Account.accepts_after_iff, Account.ids_after,
      Account.mem_ids_ofSetup]
    refine and_congr_right fun _ => and_congr_right fun _ => forall₂_congr fun other _ => ?_
    rw [Account.mem_ids_ofSetup]
    exact ⟨fun none seed member same => none ⟨seed, member, same⟩,
      fun none ⟨seed, member, same⟩ => none seed member same⟩
  kept ok := by
    obtain ⟨i, x, isFirst, made⟩ := Account.exists_isFirst_of_ok ok
    have next : ((Account.ofSetup s).after (cs ++ [.associate id allocation])).addresses =
        ((Account.ofSetup s).after cs).addresses.set i (Account.associated id allocation x) := by
      rw [Account.after_append]
      exact made
    have closed := Account.isOpen_associated id allocation x
    refine ⟨i, x, isFirst, closed, fun j other => ?_, fun ds => ?_⟩
    · rw [next, List.getElem?_set_ne (Ne.symm other)]
    · have stays : Account.IsFirst allocation
          ((Account.ofSetup s).after (cs ++ .associate id allocation :: ds)).addresses i
          (Account.associated id allocation x) := by
        rw [List.append_cons, Account.after_append]
        exact Account.IsFirst.after (next ▸ isFirst.set id) closed ds
      refine ⟨stays, fun seed member => ?_⟩
      refine Account.answer_associate_of_closed ?_ stays.find?_eq closed
      rw [Account.ids_after]
      exact Account.mem_ids_ofSetup.mpr ⟨seed, member, rfl⟩
  workflows ι _ jobs turns asks i j hi hj :=
    (contested_play _ jobs turns).unique i j (given_of_accepted (asks i) hi)
      (given_of_accepted (asks j) hj)

/-- Two workflows that ask for one allocation, each for an instance of its own. -/
def rivalJobs : Bool → Job
  | false => ⟨twinConfig, ⟨"i-1", "running", .associate "eipalloc-1"⟩, false⟩
  | true => ⟨twinConfig, ⟨"i-2", "running", .associate "eipalloc-1"⟩, false⟩

/-- One of them is given it. -/
example : (((launch twinAccount rivalJobs).play twinTurns).workers false).succeeded = true ∧
    (((launch twinAccount rivalJobs).play twinTurns).workers true).result?.isSome = true ∧
    (((launch twinAccount rivalJobs).play twinTurns).workers true).succeeded = false := by
  decide +kernel

end Engine

end InstanceResize
