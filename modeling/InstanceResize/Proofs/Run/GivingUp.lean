import InstanceResize.Proofs.Account.Outlook
import InstanceResize.Proofs.Run.Dialogue

/-!
# A wait that gives up

The engine stops waiting for a state once it reads another state from which it does not expect the
instance to get there. On an account it is right about that: no further reading would have shown the
state. And it never stops too early: if one of the readings that are allowed shows the state, then
the wait ends well with the first one that does.

* `waited_of_pollUntil`: the runs of a wait with a valid policy.
* `outOfReach_of_unexpected`: what a wait has given up is out of reach.
* `eq_map_reading_of_answers`: what the engine reads of an instance that others leave alone.
* `pollUntil_of_reading`: a wait ends with the first reading that shows the state.
* `Judicious`, `judicious_of_account`: both together.
-/

namespace InstanceResize

/-- What happens in a run that is not cancelled, whoever could have cancelled it. -/
theorem Outside.runs_of_not_cancelled {α : Type} {o : Outside} {p : Program α}
    (calm : wasCancelled (o.chronicle p) = false) : p.Runs false (o.chronicle p) (o.result p) := by
  rcases o.happens p with h | ⟨u, told, -⟩
  · exact h
  · rw [told] at calm
    simp at calm

namespace Engine

open Account

variable {a b : Account} {id : String} {target : State} {policy : PollPolicy} {t : List Moment}
  {v : Except PollError State} {rs : List Reading} {r : Reading}

/-- The runs of a wait with a valid policy. -/
theorem waited_of_pollUntil {struck : Bool} (valid : policy.validate = .ok ())
    (h : (pollUntil id target policy).Runs struck t v) :
    Waited id target policy policy.maxAttempts.toNat struck t v := by
  rw [pollUntil, valid] at h
  rcases waited_of_runs h with ⟨none, -⟩ | ⟨-, waited⟩
  · exact absurd none (Nat.ne_of_gt (PollPolicy.pos_of_validate valid))
  · exact waited

/-! ## Giving up -/

/-- A wait that gives up has read a state last, from which its target is not reached. -/
theorem Waited.exists_stuck {n : Nat} {struck : Bool} {observed : String}
    (h : Waited id target policy n struck t (.error (.unexpected observed target))) :
    ∃ (rs : List Reading) (s : Status),
      exchanges t = rs.map (readingOf id) ++ [readingOf id (.ok s)] ∧ s.state ≠ target ∧
        s.state.canReach target = false := by
  cases h with
  | decided rs r v struck undecided decides left =>
    obtain ⟨s, rfl, ⟨-, h⟩ | ⟨other, stuck, -⟩⟩ := verdict?_eq_some_iff.mp decides
    · cases h
    · exact ⟨rs, s, by simp, other, stuck⟩

/-- Once a wait on an account has given up, no reading shows what was waited for, unless somebody
starts the instance. It does not matter who else has used the account, or has cancelled. -/
theorem outOfReach_of_unexpected {others : List Exchange → List Call}
    {cancels : List Moment → Bool} {observed : String}
    (h : (a.outside others cancels).result (pollUntil id target policy) =
      .error (.unexpected observed target)) :
    ∃ past r, exchanges ((a.outside others cancels).chronicle (pollUntil id target policy)) =
        past ++ [readingOf id r] ∧
      ((a.amid others past.reverse).answer (.status id)).2.OutOfReach id target := by
  obtain ⟨struck, t, runs, said, -⟩ :=
    (a.outside others cancels).exists_runs (pollUntil id target policy)
  rw [h] at runs
  cases valid : policy.validate with
  | error x =>
    rw [pollUntil, valid] at runs
    cases (Program.runs_done.mp runs).2
  | ok =>
    obtain ⟨rs, s, told, other, stuck⟩ := (waited_of_pollUntil valid runs).exists_stuck
    have all := said.trans told
    refine ⟨_, _, all, outOfReach_of_answer ?_ stuck other⟩
    exact reply_chronicle _ all

/-! ## Waiting long enough -/

/-- The engine reads of an instance what it shows undisturbed if others leave it alone. -/
theorem eq_map_reading_of_answers {others : Call → Prop}
    (answers : a.Answers others (rs.map (readingOf id)) b)
    (apart : ∀ c, others c → c.regards id = false) :
    rs = (List.range rs.length).map (a.reading id) := by
  induction rs generalizing a with
  | nil => rfl
  | cons r rs ih =>
    obtain ⟨a', used, reply, rest⟩ := answers_cons.mp answers
    have alike := used.alike apart
    have first : a.reading id 0 = r := (alike.reading 0).symm.trans reply
    have later : ∀ k, (a'.answer (.status id)).2.reading id k = a.reading id (k + 1) :=
      fun k => alike.reading (k + 1)
    rw [List.length_cons, List.range_succ_eq_map, List.map_cons, List.map_map, first]
    refine congrArg (r :: ·) ((ih rest).trans (List.map_congr_left fun k _ => later k))

/-- A reading that was made is one of those that an instance shows. -/
theorem reading_eq_getElem {k : Nat} (h : rs = (List.range rs.length).map (a.reading id))
    (within : k < rs.length) : rs[k] = a.reading id k := by
  have at_k := List.getElem_of_eq h within
  simpa using at_k

/-- The wait for a state ends with the first reading that shows it, if one that is allowed does. -/
theorem Waited.eq_ok_of_reading {n k : Nat} (h : Waited id target policy n false t v)
    (calm : wasCancelled t = false)
    (undisturbed : ∀ rs, exchanges t = rs.map (readingOf id) →
      rs = (List.range rs.length).map (a.reading id))
    (left : k < n) (shows : Shows target (a.reading id k))
    (first : ∀ i < k, ¬ Shows target (a.reading id i)) :
    v = .ok target ∧
      exchanges t = ((List.range (k + 1)).map (a.reading id)).map (readingOf id) := by
  have open_of_shows : ∀ r, Shows target r → verdict? target r ≠ none :=
    fun r shows none => not_shows_of_verdict?_eq_none none shows
  cases h with
  | asleep rs undecided left => simp at calm
  | reading rs r undecided open_ left => simp at calm
  | decided rs r v struck undecided decides left =>
    have told : exchanges (rounds id policy rs ++ Engine.round id policy r struck) =
        (rs ++ [r]).map (readingOf id) := by simp
    have all := undisturbed _ told
    have early : rs.length ≤ k := by
      by_contra beyond
      have within : k < rs.length := Nat.lt_of_not_le beyond
      have here := reading_eq_getElem all (k := k) (by simp; omega)
      rw [List.getElem_append_left within] at here
      exact open_of_shows _ (here ▸ shows) (undecided _ (List.getElem_mem within))
    have last : r = a.reading id rs.length := by
      simpa using reading_eq_getElem all (k := rs.length) (by simp)
    obtain ⟨s, rfl, ⟨hs, rfl⟩ | ⟨other, stuck, rfl⟩⟩ := verdict?_eq_some_iff.mp decides
    · obtain rfl : rs.length = k := by
        refine Nat.le_antisymm early (Nat.le_of_not_lt fun before => ?_)
        exact first _ before ⟨s, last.symm, hs⟩
      refine ⟨rfl, told.trans ?_⟩
      rw [all]
      simp
    · -- The engine would have given up, and then no reading would show the target.
      obtain ⟨later, shown, same⟩ := shows
      rcases Nat.lt_or_eq_of_le early with before | rfl
      · exact absurd same (reading_ne_of_stuck before last.symm stuck other shown)
      · rw [← last] at shown
        exact absurd (Except.ok.inj shown ▸ same) other
  | exhausted rs r struck undecided open_ used =>
    have told : exchanges (rounds id policy rs ++ Engine.round id policy r struck) =
        (rs ++ [r]).map (readingOf id) := by simp
    have all := undisturbed _ told
    have within : k < (rs ++ [r]).length := by
      rw [List.length_append, List.length_singleton]
      omega
    have member := List.getElem_mem within
    rw [reading_eq_getElem all within] at member
    rcases List.mem_append.mp member with member | member
    · exact absurd (undecided _ member) (open_of_shows _ shows)
    · rw [List.mem_singleton.mp member] at shows
      exact absurd open_ (open_of_shows _ shows)

/-! ## Both together -/

/-- How an engine that waits for a state of an instance judges what it reads of it, whoever else
uses the account. -/
structure Judicious (a : Account) (id : String) (target : State) : Prop where
  /-- A state from which the target is not reached puts it out of reach. -/
  stuck : ∀ status, (a.answer (.status id)).1 = .ok status → status.state.canReach target = false →
    status.state ≠ target → (a.answer (.status id)).2.OutOfReach id target
  /-- A wait that gives up does so at a reading after which the target is out of reach. -/
  unexpected : ∀ policy others cancels observed,
    (a.outside others cancels).result (pollUntil id target policy) =
      .error (.unexpected observed target) →
    ∃ past r, exchanges ((a.outside others cancels).chronicle (pollUntil id target policy)) =
        past ++ [readingOf id r] ∧
      ((a.amid others past.reverse).answer (.status id)).2.OutOfReach id target
  /-- If one of the allowed readings shows the target, then the wait ends well with the first one
  that does, unless the policy is not valid, the wait is cancelled, or others have to do with the
  instance. -/
  patient : ∀ (policy : PollPolicy) others cancels k, policy.validate = .ok () →
    (∀ past, ∀ c ∈ others past, c.regards id = false) →
    wasCancelled ((a.outside others cancels).chronicle (pollUntil id target policy)) = false →
    k < policy.maxAttempts.toNat → Shows target (a.reading id k) →
    (∀ i < k, ¬ Shows target (a.reading id i)) →
    (a.outside others cancels).result (pollUntil id target policy) = .ok target ∧
      exchanges ((a.outside others cancels).chronicle (pollUntil id target policy)) =
        ((List.range (k + 1)).map (a.reading id)).map (readingOf id)

theorem judicious_of_account (a : Account) (id : String) (target : State) :
    Judicious a id target where
  stuck _ shown stuck other := outOfReach_of_answer shown stuck other
  unexpected _ _ _ _ h := outOfReach_of_unexpected h
  patient policy others cancels k valid apart calm left shows first := by
    have waited := waited_of_pollUntil valid (Outside.runs_of_not_cancelled calm)
    refine waited.eq_ok_of_reading calm (fun rs told => ?_) left shows first
    have answers : a.Answers (fun c => c.regards id = false)
        (exchanges ((a.outside others cancels).chronicle (pollUntil id target policy))) _ :=
      answers_chronicle apart _
    rw [told] at answers
    exact eq_map_reading_of_answers answers fun _ h => h

/-- A policy without an interval is refused, although the next reading would show the target. -/
theorem not_ok_without_interval :
    ¬ ∀ (a : Account) id target policy k, k < policy.maxAttempts.toNat →
      Shows target (a.reading id k) →
      (a.outside alone never).result (pollUntil id target policy) = .ok target := by
  intro all
  have ended := all (.ofSetup ⟨0, [⟨"i-1", "t3.micro", .running⟩], [], []⟩) "i-1" .running ⟨1, 0⟩ 0
    (by decide) ⟨.of "i-1" .running, rfl, rfl⟩
  exact nomatch ended

end Engine

end InstanceResize
