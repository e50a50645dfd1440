import InstanceResize.Proofs.Run.Stream

/-!
# The answer that ends a wait

A wait that nobody cancels ends at the first answer that decides, if one of the allowed attempts
gets such an answer. Otherwise it ends with the last attempt.

* `Decisive`: an answer that shows the target, or a state from which the target is not reached.
* `Outside.reciting`: a provider that gives the answers of a sequence, one after another.
* `runAfter_attempts_succ`: the step from one answer to the next one.
* `runAfter_attempts_add`: any number of answers that do not decide.
* `pollUntil_of_answers`: what a wait does with a sequence of answers, and how it ends.
-/

namespace InstanceResize

/-- A provider that answers status calls with a sequence, and does not know any other call. Nobody
cancels the program. -/
def Outside.reciting (answers : Nat → Engine.Reading) : Outside where
  reply
    | past, .status _ => answers (exchanges past).length
    | _, _ => .error (.unreachable "down")
  cancels _ := false

namespace Engine

/-! ## Answers that decide -/

/-- The answer shows the target, or a state from which the target is not reached. -/
def Decisive (target : State) (r : Reading) : Prop :=
  ∃ s, r = .ok s ∧ (s.state = target ∨ s.state.canReach target = false)

variable {target : State}

theorem not_decisive_error (e : ProviderError) : ¬ Decisive target (.error e) := by
  rintro ⟨s, h, -⟩
  cases h

theorem verdict?_eq_none_iff {r : Reading} : verdict? target r = none ↔ ¬ Decisive target r := by
  cases r with
  | error e => simp [verdict?, not_decisive_error]
  | ok s =>
    by_cases h : s.state = target
    · simp [verdict?, Decisive, h]
    · cases hr : s.state.canReach target <;> simp [verdict?, Decisive, h, hr]

/-- An answer that shows the target decides for it, also if nothing leads out of the target. -/
theorem Decisive.exists_verdict {r : Reading} (h : Decisive target r) :
    ∃ s, r = .ok s ∧ verdict? target r =
      some (if s.state = target then .ok target else .error (.unexpected s.name target)) := by
  obtain ⟨s, rfl, h⟩ := h
  refine ⟨s, rfl, ?_⟩
  by_cases shown : s.state = target
  · simp [verdict?, shown]
  · simp [verdict?, shown, h.resolve_left shown]

/-- A state that is not known can lead anywhere. -/
theorem decisive_iff_of_unknown {s : Status} (h : s.state = .unknown) :
    Decisive target (.ok s) ↔ target = .unknown := by
  have reach : State.canReach .unknown target = true := rfl
  constructor
  · rintro ⟨s', same, shown | unreached⟩
    · cases same
      exact shown.symm.trans h
    · cases same
      rw [h, reach] at unreached
      cases unreached
  · rintro rfl
    exact ⟨s, rfl, .inl h⟩

/-! ## A wait for a sequence of answers -/

/-- The first answers of a sequence. -/
def firstAnswers (answers : Nat → Reading) (k : Nat) : List Reading := (List.range k).map answers

/-- All that happens is a pause, a status call and a message for each answer, in order. -/
structure ReadInTurn (id : String) (policy : PollPolicy) (rs : List Reading) (t : List Moment) :
    Prop where
  order : t = rounds id policy rs
  reads : exchanges t = rs.map (readingOf id)
  messages : emitted t = rs.map fun r => .message (report r)
  intervals : pauses t = List.replicate rs.length policy.intervalMs

variable {id : String} {policy : PollPolicy} {answers : Nat → Reading} {n k : Nat}

theorem readInTurn_rounds (rs : List Reading) : ReadInTurn id policy rs (rounds id policy rs) :=
  ⟨rfl, exchanges_rounds .., emitted_rounds .., pauses_rounds ..⟩

@[simp] theorem length_firstAnswers : (firstAnswers answers k).length = k := by
  simp [firstAnswers]

theorem rounds_firstAnswers_succ :
    rounds id policy (firstAnswers answers (k + 1)) =
      rounds id policy (firstAnswers answers k) ++ round id policy (answers k) false := by
  simp [firstAnswers, rounds, List.range_succ]

/-- After some rounds, the next answer of the sequence decides, or the wait goes on. -/
theorem runAfter_attempts_succ (lastSeen : String) :
    (Outside.reciting answers).runAfter (attempts id target policy (n + 1) lastSeen)
        (rounds id policy (firstAnswers answers k)) =
      (Outside.reciting answers).runAfter
        ((verdict? target (answers k)).elim (attempts id target policy n (seenAs (answers k)))
          .done)
        (rounds id policy (firstAnswers answers (k + 1))) := by
  have calm := Outside.strike_of_calm (o := Outside.reciting answers) fun _ => rfl
  rw [attempts_succ, Outside.runAfter_wait, wasCancelled_rounds, (calm _).1]
  simp only [Bool.false_eq_true, if_false]
  have answer : (Outside.reciting answers).reply ((Outside.reciting answers).strike
      (rounds id policy (firstAnswers answers k) ++ [.rest policy.intervalMs, .wake] ++
        [.call (.status id)])) (.status id) = answers k := by
    rw [(calm _).2]
    simp [Outside.reciting]
  rw [Outside.runAfter_call _ _ _ _ answer, Outside.runAfter_emit, (calm _).1,
    rounds_firstAnswers_succ]
  simp [round]

variable (id policy n) in
/-- The wait is still on after answers that do not decide. -/
theorem runAfter_attempts_add (undecided : ∀ i < k, ¬ Decisive target (answers i))
    (lastSeen : String) :
    ∃ seen, (Outside.reciting answers).runAfter (attempts id target policy (k + n) lastSeen) [] =
      (Outside.reciting answers).runAfter (attempts id target policy n seen)
        (rounds id policy (firstAnswers answers k)) := by
  -- The next round forgets what was seen before, so it is enough that something was seen.
  induction k generalizing n with
  | zero => exact ⟨lastSeen, by rw [Nat.zero_add]; rfl⟩
  | succ k ih =>
    obtain ⟨seen, started⟩ := ih (n + 1) fun i hi => undecided i (Nat.lt_succ_of_lt hi)
    refine ⟨seenAs (answers k), ?_⟩
    rw [Nat.succ_add_eq_add_succ, started, runAfter_attempts_succ,
      verdict?_eq_none_iff.mpr (undecided k k.lt_succ_self), Option.elim_none]

/-- The first answer that decides ends the wait. -/
theorem runAfter_attempts_of_decisive {v : Except PollError State} (left : k < n)
    (undecided : ∀ i < k, ¬ Decisive target (answers i))
    (decides : verdict? target (answers k) = some v) (lastSeen : String) :
    (Outside.reciting answers).runAfter (attempts id target policy n lastSeen) [] =
      (v, rounds id policy (firstAnswers answers (k + 1))) := by
  obtain ⟨m, rfl⟩ : ∃ m, n = k + (m + 1) := ⟨n - k - 1, by omega⟩
  obtain ⟨seen, started⟩ := runAfter_attempts_add id policy (m + 1) undecided lastSeen
  rw [started, runAfter_attempts_succ, decides]
  rfl

/-- If no answer decides, the last attempt ends the wait. -/
theorem runAfter_attempts_of_undecided
    (undecided : ∀ i < n + 1, ¬ Decisive target (answers i)) (lastSeen : String) :
    (Outside.reciting answers).runAfter (attempts id target policy (n + 1) lastSeen) [] =
      (.error (.timeout policy.maxAttempts target (seenAs (answers n))),
        rounds id policy (firstAnswers answers (n + 1))) := by
  obtain ⟨seen, started⟩ := runAfter_attempts_add id policy 1
    (fun i hi => undecided i (Nat.lt_succ_of_lt hi)) lastSeen
  rw [started, runAfter_attempts_succ, verdict?_eq_none_iff.mpr (undecided n n.lt_succ_self)]
  rfl

/-! ## All waits -/

/-- With a policy that is not valid, nothing is done. -/
theorem run_pollUntil_of_invalid (invalid : policy.maxAttempts = 0 ∨ policy.intervalMs = 0)
    (o : Outside) :
    ∃ x : Refusal, policy.validate = .error x ∧
      o.result (pollUntil id target policy) = .error (.policy x.message) ∧
      o.chronicle (pollUntil id target policy) = o.strike [] := by
  cases valid : policy.validate with
  | ok =>
    obtain ⟨attempts, interval⟩ := PollPolicy.validate_eq_ok_iff.mp valid
    exact absurd invalid (not_or.mpr ⟨attempts, interval⟩)
  | error x =>
    refine ⟨x, rfl, ?_⟩
    rw [pollUntil, valid]
    exact ⟨rfl, rfl⟩

/-- A wait for a sequence of answers ends with the first one that decides, or with the last one that
is allowed. -/
theorem pollUntil_of_answers (id : String) (target : State) (policy : PollPolicy)
    (answers : Nat → Reading) :
    (policy.maxAttempts ≠ 0 → policy.intervalMs ≠ 0 →
      (∀ k < policy.maxAttempts.toNat, Decisive target (answers k) →
        (∀ i < k, ¬ Decisive target (answers i)) →
          ReadInTurn id policy (firstAnswers answers (k + 1))
              ((Outside.reciting answers).chronicle (pollUntil id target policy)) ∧
            ∃ s, answers k = .ok s ∧
              (Outside.reciting answers).result (pollUntil id target policy) =
                if s.state = target then .ok target else .error (.unexpected s.name target)) ∧
      ((∀ i < policy.maxAttempts.toNat, ¬ Decisive target (answers i)) →
        ReadInTurn id policy (firstAnswers answers policy.maxAttempts.toNat)
            ((Outside.reciting answers).chronicle (pollUntil id target policy)) ∧
          ∃ lastSeen,
            (Outside.reciting answers).result (pollUntil id target policy) =
              .error (.timeout policy.maxAttempts target lastSeen) ∧
            (∀ s, answers (policy.maxAttempts.toNat - 1) = .ok s → lastSeen = s.name) ∧
            (∀ e, answers (policy.maxAttempts.toNat - 1) = .error e →
              lastSeen = "query error: " ++ e.message))) ∧
    (policy.maxAttempts = 0 ∨ policy.intervalMs = 0 → ∀ o : Outside, ∃ x : Refusal,
      policy.validate = .error x ∧
        o.result (pollUntil id target policy) = .error (.policy x.message) ∧
        o.chronicle (pollUntil id target policy) = o.strike []) ∧
    (∀ e, ¬ Decisive target (.error e)) ∧
    ∀ s : Status, s.state = .unknown → (Decisive target (.ok s) ↔ target = .unknown) := by
  refine ⟨fun attempts interval => ?_, run_pollUntil_of_invalid, not_decisive_error,
    fun s => decisive_iff_of_unknown⟩
  have valid := PollPolicy.validate_eq_ok_iff.mpr ⟨attempts, interval⟩
  have start : (Outside.reciting answers).strike [] = [] := rfl
  rw [Outside.chronicle, Outside.result, start, pollUntil, valid]
  refine ⟨fun k left decides undecided => ?_, fun undecided => ?_⟩
  · obtain ⟨s, answer, verdict⟩ := decides.exists_verdict
    rw [runAfter_attempts_of_decisive left undecided verdict]
    exact ⟨readInTurn_rounds _, s, answer, rfl⟩
  · obtain ⟨n, all⟩ : ∃ n, policy.maxAttempts.toNat = n + 1 :=
      ⟨_, (Nat.succ_pred_eq_of_pos (PollPolicy.pos_of_validate valid)).symm⟩
    rw [all] at undecided ⊢
    simp only
    rw [runAfter_attempts_of_undecided undecided]
    refine ⟨readInTurn_rounds _, _, rfl, fun s last => ?_, fun e last => ?_⟩
    · rw [Nat.add_sub_cancel] at last
      rw [last]
      rfl
    · rw [Nat.add_sub_cancel] at last
      rw [last]
      rfl

/-- An instance cannot be read at first, then shows a state that is not known, and then is gone. -/
def fading : Nat → Reading
  | 0 => .error (.unreachable "down")
  | 1 => .ok ⟨"i-1", 7, "rebooting"⟩
  | _ => .ok (.of "i-1" .terminated)

/-- The last attempt that is allowed gets the answer that decides, and it shows what was waited for,
although nothing leads out of it. With one attempt less, the wait is over before. -/
theorem pollUntil_of_fading :
    (Outside.reciting fading).result (pollUntil "i-1" .terminated ⟨3, 5⟩) = .ok .terminated ∧
      (Outside.reciting fading).result (pollUntil "i-1" .terminated ⟨2, 5⟩) =
        .error (.timeout 2 .terminated "rebooting") := by
  have undecided : ∀ i < 2, ¬ Decisive .terminated (fading i) := by
    intro i hi
    rw [← verdict?_eq_none_iff]
    match i, hi with
    | 0, _ => rfl
    | 1, _ => rfl
  have decides : Decisive .terminated (fading 2) := ⟨_, rfl, .inl rfl⟩
  obtain ⟨three, -⟩ := pollUntil_of_answers "i-1" .terminated ⟨3, 5⟩ fading
  obtain ⟨two, -⟩ := pollUntil_of_answers "i-1" .terminated ⟨2, 5⟩ fading
  constructor
  · obtain ⟨-, s, shown, result⟩ :=
      (three (by decide) (by decide)).1 2 (by decide) decides undecided
    cases shown
    exact result
  · obtain ⟨-, lastSeen, result, seen, -⟩ := (two (by decide) (by decide)).2 undecided
    rw [result, seen _ rfl]

end Engine

end InstanceResize
