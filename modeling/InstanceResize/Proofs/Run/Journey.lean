import InstanceResize.Proofs.Account.Passage
import InstanceResize.Proofs.Run.Course

/-!
# How long an instance is waited for

An account has begun to lead an instance from one state to another, and the engine waits for the
end. It sees the state in between for a while, and then the state it waits for, unless its attempts
are used up before. Others who read the status as well can only shorten the wait.

* `showing`: a reading that shows a state.
* `Journey`: what the engine reads while it waits.
* `journey_of_waited`: what a wait reads that is not cancelled.
* `trip`, `journey_of_brought`: the call that leads the instance somewhere, and the wait after it.
-/

namespace InstanceResize.Engine

open Account

/-! ## Readings -/

/-- A reading that shows a state. -/
def showing (id : String) (s : State) : Reading := .ok (.of id s)

section

variable {id : String} {s target : State}

/-- A reading that shows the target decides. -/
theorem verdict?_showing_self : verdict? s (showing id s) = some (.ok s) :=
  verdict?_eq_some_iff.mpr ⟨_, rfl, .inl ⟨Status.state_of id s, rfl⟩⟩

/-- A reading that shows a state on the way to the target does not decide. -/
theorem verdict?_showing_of_canReach (other : s ≠ target) (reach : s.canReach target = true) :
    verdict? target (showing id s) = none := by
  simp [showing, verdict?, other, reach]

/-- What is reported of a known state is its name. -/
theorem report_showing (known : s ≠ .unknown) : report (showing id s) = s.name := by
  show readingText (.of id s) = s.name
  unfold readingText
  rw [Status.state_of, if_neg known]
  rfl

end

/-! ## Waiting for an instance on its way -/

variable {others : Call → Prop} {a b : Account} {id : String} {c : Call} {source via : State}
  {policy : PollPolicy} {n : Nat} {t : List Moment} {v : Except PollError State}
  {rs : List Reading} {r : Reading} {es : List Exchange}

/-- What the engine reads while it waits for an instance that shows the state in between `n` times
more: this is shown until the attempts are used up, or the instance arrives before. It arrives
earlier only if others use the account as well. -/
inductive Journey (others : Call → Prop) (id : String) (via : State) (attempts : UInt32) (n : Nat) :
    List Reading → Except PollError State → Prop where
  | overdue (late : attempts.toNat ≤ n) :
      Journey others id via attempts n (List.replicate attempts.toNat (showing id via))
        (.error (.timeout attempts (Machine.settled via) via.name))
  | arrived (j : Nat) (near : j ≤ n) (undisturbed : (∀ c, ¬ others c) → j = n)
      (left : j < attempts.toNat) :
      Journey others id via attempts n
        (List.replicate j (showing id via) ++ [showing id (Machine.settled via)])
        (.ok (Machine.settled via))

section

variable {attempts : UInt32}

/-- If there are attempts enough, then the instance arrives. -/
theorem Journey.eq_ok (h : Journey others id via attempts n rs v) (enough : n < attempts.toNat) :
    v = .ok (Machine.settled via) := by
  cases h with
  | overdue late => omega
  | arrived j near undisturbed left => rfl

theorem Journey.length_le (h : Journey others id via attempts n rs v) : rs.length ≤ n + 1 := by
  cases h with
  | overdue late =>
    rw [List.length_replicate]
    omega
  | arrived j near undisturbed left =>
    rw [List.length_append, List.length_replicate, List.length_singleton]
    omega

end

/-- What a reading shows of an instance on its way, and what is left of the way after it. -/
theorem reading_of_due
    (answers : a.Answers others (readingOf id r :: es) b) (patient : ∀ c, others c → Patient id c)
    (due : a.Due id via n) :
    ∃ n', n' ≤ n ∧ ((∀ c, ¬ others c) → n' = n) ∧ r = showing id (Machine.shown via n') ∧
      ∃ d : Account, d.Due id via (n' - 1) ∧ d.Answers others es b := by
  obtain ⟨a', used, reply, rest⟩ := answers_cons.mp answers
  obtain ⟨n', due', near, undisturbed⟩ := used.due patient due
  obtain ⟨shown, onward⟩ := due'.answer_status
  exact ⟨n', near, undisturbed, reply.symm.trans shown, _, onward, rest⟩

/-- Readings that do not decide all show the state in between. -/
theorem readings_of_due
    (answers : a.Answers others (rs.map (readingOf id) ++ es) b)
    (undecided : Undecided (Machine.settled via) rs) (patient : ∀ c, others c → Patient id c)
    (due : a.Due id via n) :
    rs = List.replicate rs.length (showing id via) ∧
      ∃ (d : Account) (n' : Nat), d.Due id via n' ∧ d.Answers others es b ∧ rs.length + n' ≤ n ∧
        ((∀ c, ¬ others c) → rs.length + n' = n) := by
  -- Each reading uses up one of those that are due. If none were due, then it would decide.
  induction rs generalizing a n with
  | nil => exact ⟨rfl, a, n, due, answers, by simp, by simp⟩
  | cons r rs ih =>
    obtain ⟨n', near, undisturbed, hr, d, onward, rest⟩ := reading_of_due answers patient due
    have open_ : verdict? (Machine.settled via) r = none := undecided r List.mem_cons_self
    cases n' with
    | zero =>
      rw [hr, Machine.shown, verdict?_showing_self] at open_
      cases open_
    | succ n' =>
      obtain ⟨same, e, n'', due'', rest', near', undisturbed'⟩ :=
        ih rest (fun x hx => undecided x (List.mem_cons_of_mem r hx)) onward
      have between : r = showing id via := hr
      refine ⟨?_, e, n'', due'', rest', ?_, fun none => ?_⟩
      · rw [List.length_cons, List.replicate_succ, ← same, between]
      · rw [List.length_cons]
        omega
      · have whole := undisturbed none
        have whole' := undisturbed' none
        rw [List.length_cons]
        omega

/-- The reading after those shows what is left of the way by then. -/
theorem last_reading_of_due
    (answers : a.Answers others (rs.map (readingOf id) ++ [readingOf id r]) b)
    (undecided : Undecided (Machine.settled via) rs) (patient : ∀ c, others c → Patient id c)
    (due : a.Due id via n) :
    rs = List.replicate rs.length (showing id via) ∧
      ∃ n', rs.length + n' ≤ n ∧ ((∀ c, ¬ others c) → rs.length + n' = n) ∧
        r = showing id (Machine.shown via n') ∧
        ∃ d : Account, d.Due id via (n' - 1) ∧ d.Used others b := by
  obtain ⟨same, d, n₁, due₁, rest, near₁, undisturbed₁⟩ :=
    readings_of_due answers undecided patient due
  obtain ⟨n₂, near₂, undisturbed₂, hr, e, onward, used⟩ := reading_of_due rest patient due₁
  refine ⟨same, n₂, by omega, fun none => ?_, hr, e, onward, used⟩
  have whole₁ := undisturbed₁ none
  have whole₂ := undisturbed₂ none
  omega

/-- The last round of a wait belongs to the rounds before it. -/
theorem rounds_concat (rs : List Reading) (r : Reading) :
    rounds id policy (rs ++ [r]) = rounds id policy rs ++ round id policy r false := by
  simp [rounds]

/-- A wait that is not cancelled sees the instance on its way, and then arrive unless it is late. -/
theorem journey_of_waited
    (h : Waited id (Machine.settled via) policy policy.maxAttempts.toNat false t v)
    (calm : wasCancelled t = false) (leads : Leads id c source via)
    (patient : ∀ c, others c → Patient id c) (answers : a.Answers others (exchanges t) b)
    (due : a.Due id via n) :
    ∃ rs, t = rounds id policy rs ∧ Journey others id via policy.maxAttempts n rs v ∧
      ∀ s, v = .ok s → b.state? id = some (Machine.settled via) := by
  obtain ⟨other, reach⟩ := leads.waits
  cases h with
  | asleep rs undecided left => simp at calm
  | reading rs r undecided open_ left => simp at calm
  | decided rs r v struck undecided decides left =>
    obtain rfl : struck = false := by simpa using calm
    rw [exchanges_append, exchanges_rounds, exchanges_round] at answers
    obtain ⟨same, n', near, undisturbed, hr, d, onward, used⟩ :=
      last_reading_of_due answers undecided patient due
    cases n' with
    | succ n' =>
      rw [hr, Machine.shown, verdict?_showing_of_canReach other reach] at decides
      cases decides
    | zero =>
      have arrived : r = showing id (Machine.settled via) := hr
      rw [arrived, verdict?_showing_self] at decides
      obtain rfl := Option.some.inj decides
      have journey : Journey others id via policy.maxAttempts n _ _ :=
        .arrived rs.length near undisturbed left
      rw [← same, ← arrived] at journey
      refine ⟨rs ++ [r], (rounds_concat rs r).symm, journey, ?_⟩
      rintro s -
      obtain ⟨n'', due', near', -⟩ := used.due patient onward
      obtain rfl : n'' = 0 := Nat.eq_zero_of_le_zero near'
      exact due_zero.mp due'
  | exhausted rs r struck undecided open_ left =>
    obtain rfl : struck = false := by simpa using calm
    rw [exchanges_append, exchanges_rounds, exchanges_round] at answers
    obtain ⟨same, n', near, -, hr, d, onward, used⟩ :=
      last_reading_of_due answers undecided patient due
    cases n' with
    | zero =>
      rw [hr, Machine.shown, verdict?_showing_self] at open_
      cases open_
    | succ n' =>
      have between : r = showing id via := hr
      have all : List.replicate policy.maxAttempts.toNat (showing id via) = rs ++ [r] := by
        rw [← left, List.replicate_succ', ← same, between]
      have late : policy.maxAttempts.toNat ≤ n := by omega
      have journey : Journey others id via policy.maxAttempts n _ _ := .overdue late
      have seen : seenAs r = via.name := by
        rw [between]
        rfl
      rw [all] at journey
      rw [seen]
      exact ⟨rs ++ [r], (rounds_concat rs r).symm, journey, nofun⟩

/-! ## The call before the wait -/

/-- What happens when the engine makes a call that leads an instance somewhere, and waits. -/
def trip (id : String) (policy : PollPolicy) (c : Call) (x : c.Result) (rs : List Reading) :
    List Moment :=
  exchange c (.ok x) false ++ rounds id policy rs

/-- The call is accepted, and as many readings as the account is set to, and one more, show the
state in between. -/
theorem journey_of_brought {w : Workflow} {r : Except RunError Unit}
    (h : Brought w (Machine.settled via) c policy false t r) (calm : wasCancelled t = false)
    (leads : Leads w.instanceId c source via)
    (patient : ∀ c, others c → Patient w.instanceId c) (answers : a.Answers others (exchanges t) b)
    (here : a.state? w.instanceId = some source) :
    ∃ x rs v, t = trip w.instanceId policy c x rs ∧ r = settled v ∧
      Journey others w.instanceId via policy.maxAttempts (a.settle + 1) rs v ∧
      ∀ s, v = .ok s → b.state? w.instanceId = some (Machine.settled via) := by
  cases h with
  | declined e struck =>
    rw [exchanges_exchange] at answers
    obtain ⟨a', used, reply, -⟩ := answers_singleton.mp answers
    obtain ⟨⟨x, accepted⟩, -⟩ := leads.answer (used.state? patient leads here)
    cases reply.symm.trans accepted
  | @awaited x struck t v wait =>
    obtain ⟨rfl, calm'⟩ : struck = false ∧ wasCancelled t = false := by simpa using calm
    rw [exchanges_append, exchanges_exchange] at answers
    obtain ⟨a', used, reply, rest⟩ := answers_cons.mp answers
    obtain ⟨-, due⟩ := leads.answer (used.state? patient leads here)
    rw [used.settle] at due
    obtain ⟨rs, rfl, journey, arrives⟩ := journey_of_waited wait calm' leads patient rest due
    exact ⟨x, rs, v, rfl, rfl, journey, arrives⟩

end InstanceResize.Engine
