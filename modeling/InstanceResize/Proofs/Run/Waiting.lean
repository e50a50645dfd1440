import InstanceResize.Engine.Poll
import InstanceResize.Proofs.Run.Runs

/-!
# Runs of a wait

While the engine waits for a state, it goes round and round: it pauses, reads the status once, and
reports the reading. A wait has four ends. A reading decides, or the attempts are used up, or the
wait is cancelled in a pause or at a reading.

* `verdict?`: what a reading decides about a wait.
* `round`: what happens in one round.
* `Waited`: the runs of a wait, one case for each end.
* `runs_attempts_iff`: these are exactly the runs.
-/

namespace InstanceResize.Engine

/-- An answer to a status call. -/
abbrev Reading := Except ProviderError Status

/-- What a reading decides about waiting for a state, if it decides anything. -/
def verdict? (target : State) : Reading → Option (Except PollError State)
  | .error _ => none
  | .ok s =>
    if s.state = target then some (.ok target)
    else if s.state.canReach target then none
    else some (.error (.unexpected s.name target))

/-- What is reported of a reading, whether it failed or not. -/
def report : Reading → String
  | .error e => unavailableText e
  | .ok s => readingText s

/-- What a reading is seen as when the attempts are used up. -/
def seenAs : Reading → String
  | .error e => seenAsError e
  | .ok s => s.name

/-- The first reading that shows the target, or from which the target is not reached, decides. -/
theorem verdict?_eq_some_iff {target : State} {r : Reading} {v : Except PollError State} :
    verdict? target r = some v ↔ ∃ s, r = .ok s ∧
      ((s.state = target ∧ v = .ok target) ∨
        (s.state ≠ target ∧ s.state.canReach target = false ∧
          v = .error (.unexpected s.name target))) := by
  rcases r with e | s
  · simp [verdict?]
  · by_cases h : s.state = target
    · simp [verdict?, h, @eq_comm _ v]
    · cases hr : s.state.canReach target <;> simp [verdict?, h, hr, @eq_comm _ v]

/-- An attempt pauses, reads and reports, and goes on if the reading did not decide. -/
theorem attempts_succ (id : String) (target : State) (policy : PollPolicy) (n : Nat)
    (lastSeen : String) :
    attempts id target policy (n + 1) lastSeen =
      .wait policy.intervalMs fun
        | true => .done (.error (.cancelled target))
        | false => .call (.status id) fun r => .emit (.message (report r)) <|
          (verdict? target r).elim (attempts id target policy n (seenAs r)) .done := by
  rw [attempts]
  congr 1
  funext b
  cases b with
  | true => rfl
  | false =>
    dsimp only
    congr 1
    funext r
    rcases r with e | s
    · rfl
    · by_cases h : s.state = target
      · simp [report, verdict?, h]
      · cases hr : s.state.canReach target <;> simp [report, verdict?, seenAs, h, hr]

/-! ## Rounds -/

/-- What happens in a round. -/
def round (id : String) (policy : PollPolicy) (r : Reading) (struck : Bool) : List Moment :=
  .rest policy.intervalMs :: .wake ::
    (exchange (.status id) r struck ++ [.emit (.message (report r))])

/-- What happens in several rounds that are not cancelled. -/
def rounds (id : String) (policy : PollPolicy) (rs : List Reading) : List Moment :=
  rs.flatMap fun r => round id policy r false

/-- The exchange of a reading. -/
def readingOf (id : String) (r : Reading) : Exchange := ⟨.status id, r⟩

section

variable (id : String) (policy : PollPolicy) (r : Reading) (rs : List Reading) (struck : Bool)

@[simp] theorem exchanges_round : exchanges (round id policy r struck) = [readingOf id r] := by
  simp [round, readingOf]

@[simp] theorem pauses_round : pauses (round id policy r struck) = [policy.intervalMs] := by
  simp [round]

@[simp] theorem wasCancelled_round : wasCancelled (round id policy r struck) = struck := by
  simp [round]

@[simp] theorem rounds_nil : rounds id policy [] = [] := rfl

@[simp] theorem rounds_cons :
    rounds id policy (r :: rs) = round id policy r false ++ rounds id policy rs := rfl

@[simp] theorem exchanges_rounds :
    exchanges (rounds id policy rs) = rs.map (readingOf id) := by
  induction rs with
  | nil => rfl
  | cons r rs ih => simp [ih]

@[simp] theorem pauses_rounds :
    pauses (rounds id policy rs) = List.replicate rs.length policy.intervalMs := by
  induction rs with
  | nil => rfl
  | cons r rs ih => simp [ih, List.replicate_succ]

@[simp] theorem wasCancelled_rounds : wasCancelled (rounds id policy rs) = false := by
  induction rs with
  | nil => rfl
  | cons r rs ih => simp [ih]

end

/-! ## The ends of a wait -/

/-- No reading decides. -/
def Undecided (target : State) (rs : List Reading) : Prop := ∀ r ∈ rs, verdict? target r = none

/-- The runs of a wait with at most `n` attempts: whether it is cancelled at its start, what
happens, and the result. -/
inductive Waited (id : String) (target : State) (policy : PollPolicy) (n : Nat) :
    Bool → List Moment → Except PollError State → Prop where
  /-- It was cancelled before. -/
  | off : Waited id target policy n true [] (.error (.cancelled target))
  /-- It is cancelled in a pause. -/
  | asleep (rs : List Reading) (undecided : Undecided target rs) (left : rs.length < n) :
      Waited id target policy n false
        (rounds id policy rs ++ [.rest policy.intervalMs, .cancel]) (.error (.cancelled target))
  /-- It is cancelled at a reading that does not decide and is not the last one allowed. -/
  | reading (rs : List Reading) (r : Reading) (undecided : Undecided target rs)
      (open_ : verdict? target r = none) (left : rs.length + 1 < n) :
      Waited id target policy n false
        (rounds id policy rs ++ round id policy r true) (.error (.cancelled target))
  /-- A reading decides. -/
  | decided (rs : List Reading) (r : Reading) (v : Except PollError State) (struck : Bool)
      (undecided : Undecided target rs) (decides : verdict? target r = some v)
      (left : rs.length < n) :
      Waited id target policy n false (rounds id policy rs ++ round id policy r struck) v
  /-- The attempts are used up. -/
  | exhausted (rs : List Reading) (r : Reading) (struck : Bool) (undecided : Undecided target rs)
      (open_ : verdict? target r = none) (left : rs.length + 1 = n) :
      Waited id target policy n false (rounds id policy rs ++ round id policy r struck)
        (.error (.timeout policy.maxAttempts target (seenAs r)))

variable {id : String} {target : State} {policy : PollPolicy} {n : Nat} {lastSeen : String}
  {b struck : Bool} {r : Reading} {rs : List Reading} {t : List Moment}
  {v : Except PollError State}

theorem Undecided.cons (hr : verdict? target r = none) (h : Undecided target rs) :
    Undecided target (r :: rs) := by
  intro x hx
  rcases List.mem_cons.mp hx with rfl | hx
  · exact hr
  · exact h x hx

theorem undecided_nil : Undecided target [] := fun _ h => absurd h List.not_mem_nil

/-- A round that does not decide comes before the rest of a wait. -/
theorem Waited.round (h : Waited id target policy n false t v) (hr : verdict? target r = none) :
    Waited id target policy (n + 1) false (Engine.round id policy r false ++ t) v := by
  cases h with
  | asleep rs undecided left =>
    rw [← List.append_assoc, ← rounds_cons]
    exact .asleep _ (undecided.cons hr) (by simpa using left)
  | reading rs x undecided open_ left =>
    rw [← List.append_assoc, ← rounds_cons]
    exact .reading _ x (undecided.cons hr) open_ (by simpa using left)
  | decided rs x v struck undecided decides left =>
    rw [← List.append_assoc, ← rounds_cons]
    exact .decided _ x v struck (undecided.cons hr) decides (by simpa using left)
  | exhausted rs x struck undecided open_ left =>
    rw [← List.append_assoc, ← rounds_cons]
    exact .exhausted _ x struck (undecided.cons hr) open_ (by simpa using left)

/-- An attempt that is not cancelled before it runs into its pause, or it is a round and what comes
after the reading. -/
theorem runs_attempts_succ :
    (attempts id target policy (n + 1) lastSeen).Runs false t v ↔
      (t = [.rest policy.intervalMs, .cancel] ∧ v = .error (.cancelled target)) ∨
        ∃ struck r u, t = round id policy r struck ++ u ∧
          ((verdict? target r).elim (attempts id target policy n (seenAs r)) .done).Runs
            struck u v := by
  rw [attempts_succ, Program.runs_wait_false]
  constructor
  · rintro (⟨u, rfl, h⟩ | ⟨u, rfl, h⟩)
    · obtain ⟨rfl, rfl⟩ := Program.runs_done.mp h
      exact .inl ⟨rfl, rfl⟩
    · obtain ⟨struck, r, w, -, rfl, hr⟩ := Program.runs_call.mp h
      obtain ⟨x, rfl, hx⟩ := Program.runs_emit.mp hr
      exact .inr ⟨struck, r, x, by simp [round], by simpa using hx⟩
  · rintro (⟨rfl, rfl⟩ | ⟨struck, r, u, rfl, h⟩)
    · exact .inl ⟨[], rfl, .done _ _⟩
    · refine .inr ⟨exchange (.status id) r struck ++ .emit (.message (report r)) :: u,
        by simp [round], ?_⟩
      exact .call struck (fun _ => rfl) (.emit (by simpa using h))

/-- A wait that is cancelled before it does nothing. -/
theorem runs_attempts_true :
    (attempts id target policy (n + 1) lastSeen).Runs true t v ↔
      t = [] ∧ v = .error (.cancelled target) := by
  rw [attempts_succ, Program.runs_wait_true, Program.runs_done]

theorem waited_of_runs (h : (attempts id target policy n lastSeen).Runs b t v) :
    (n = 0 ∧ t = [] ∧ v = .error (.timeout policy.maxAttempts target lastSeen)) ∨
      (0 < n ∧ Waited id target policy n b t v) := by
  induction n generalizing lastSeen b t with
  | zero =>
    rw [attempts, Program.runs_done] at h
    exact .inl ⟨rfl, h⟩
  | succ n ih =>
    refine .inr ⟨n.succ_pos, ?_⟩
    cases b with
    | true =>
      obtain ⟨rfl, rfl⟩ := runs_attempts_true.mp h
      exact .off
    | false =>
      rcases runs_attempts_succ.mp h with ⟨rfl, rfl⟩ | ⟨struck, r, u, rfl, hu⟩
      · exact .asleep [] undecided_nil n.succ_pos
      · cases hr : verdict? target r with
        | some w =>
          rw [hr] at hu
          obtain ⟨rfl, rfl⟩ := Program.runs_done.mp hu
          simpa using Waited.decided [] r v struck undecided_nil hr n.succ_pos
        | none =>
          rw [hr] at hu
          rcases ih hu with ⟨rfl, rfl, rfl⟩ | ⟨pos, hw⟩
          · simpa using Waited.exhausted [] r struck undecided_nil hr rfl
          · cases struck with
            | true =>
              cases hw
              simpa using Waited.reading [] r undecided_nil hr (by simpa using pos)
            | false => exact hw.round hr

theorem runs_of_round (h : ((verdict? target r).elim
      (attempts id target policy n (seenAs r)) .done).Runs struck t v) :
    (attempts id target policy (n + 1) lastSeen).Runs false
      (round id policy r struck ++ t) v :=
  runs_attempts_succ.mpr (.inr ⟨struck, r, t, rfl, h⟩)

/-- Rounds that do not decide come before any run of a wait. -/
theorem runs_of_rounds (undecided : Undecided target rs)
    (h : ∀ lastSeen, (attempts id target policy (n + 1) lastSeen).Runs false t v) :
    (attempts id target policy (rs.length + (n + 1)) lastSeen).Runs false
      (rounds id policy rs ++ t) v := by
  induction rs generalizing lastSeen with
  | nil => simpa using h lastSeen
  | cons r rs ih =>
    rw [rounds_cons, List.append_assoc, List.length_cons, Nat.add_right_comm]
    refine runs_of_round ?_
    rw [undecided r List.mem_cons_self, Option.elim_none]
    exact ih fun x hx => undecided x (List.mem_cons_of_mem r hx)

theorem runs_of_waited (h : Waited id target policy (n + 1) b t v) :
    (attempts id target policy (n + 1) lastSeen).Runs b t v := by
  cases h with
  | off => exact runs_attempts_true.mpr ⟨rfl, rfl⟩
  | asleep rs undecided left =>
    obtain ⟨k, hk⟩ : ∃ k, n + 1 = rs.length + (k + 1) := ⟨n - rs.length, by omega⟩
    rw [hk]
    exact runs_of_rounds undecided fun _ => runs_attempts_succ.mpr (.inl ⟨rfl, rfl⟩)
  | reading rs r undecided open_ left =>
    obtain ⟨k, hk⟩ : ∃ k, n + 1 = rs.length + (k + 1 + 1) := ⟨n - rs.length - 1, by omega⟩
    rw [hk]
    refine runs_of_rounds undecided fun _ => ?_
    rw [← List.append_nil (round id policy r true)]
    refine runs_of_round ?_
    rw [open_, Option.elim_none]
    exact runs_attempts_true.mpr ⟨rfl, rfl⟩
  | decided rs r v struck undecided decides left =>
    obtain ⟨k, hk⟩ : ∃ k, n + 1 = rs.length + (k + 1) := ⟨n - rs.length, by omega⟩
    rw [hk]
    refine runs_of_rounds undecided fun _ => ?_
    rw [← List.append_nil (round id policy r struck)]
    refine runs_of_round ?_
    rw [decides, Option.elim_some]
    exact .done _ _
  | exhausted rs r struck undecided open_ left =>
    rw [← left]
    refine runs_of_rounds undecided fun _ => ?_
    rw [← List.append_nil (round id policy r struck)]
    refine runs_of_round ?_
    rw [open_, Option.elim_none]
    exact .done _ _

/-- The runs of a wait for which there is at least one attempt. -/
theorem runs_attempts_iff :
    (attempts id target policy (n + 1) lastSeen).Runs b t v ↔
      Waited id target policy (n + 1) b t v := by
  constructor
  · intro h
    rcases waited_of_runs h with ⟨h0, -⟩ | ⟨-, hw⟩
    · exact absurd h0 n.succ_ne_zero
    · exact hw
  · exact runs_of_waited

end InstanceResize.Engine
