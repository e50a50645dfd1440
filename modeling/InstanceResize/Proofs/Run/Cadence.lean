import InstanceResize.Proofs.Run.Decisive
import InstanceResize.Proofs.Run.GivingUp
import InstanceResize.Proofs.Run.Timetable

/-!
# How long a policy makes the engine wait

A policy is made from a length of time, of which it keeps the whole milliseconds. It keeps them in
64 bits, and a length of time may have more of them. As long as it has not, a policy waits as long
as it is asked to, but for less than a millisecond. Beyond that the policy has an interval that is
too short, or none at all, and then it is refused.

* `PollPolicy.nanoseconds`: a length of time as a whole.
* `PollPolicy.new_eq_ok_iff`, `PollPolicy.new_eq_error_iff`: which policies can be made.
* `rested`: how long all pauses are together.
* `Waited.exhausted_of_undecided`: what a wait does if no reading decides.
* `Paced`, `paced_of_new`: the policy that is made from a length of time, and how long it waits.
* `new_of_overlong`: lengths of time that are cut short.
-/

namespace InstanceResize

namespace PollPolicy

variable {maxAttempts : UInt32} {seconds : UInt64} {nanos : UInt32} {p : PollPolicy}

/-! ## Making a policy -/

/-- The nanoseconds of a length of time. -/
def nanoseconds (seconds : UInt64) (nanos : UInt32) : Nat :=
  seconds.toNat * 1000000000 + nanos.toNat

/-- What is left of a length of time is less than a millisecond. -/
theorem nanoseconds_bounds (seconds : UInt64) (nanos : UInt32) :
    milliseconds seconds nanos * 1000000 ≤ nanoseconds seconds nanos ∧
      nanoseconds seconds nanos < (milliseconds seconds nanos + 1) * 1000000 := by
  unfold milliseconds nanoseconds
  omega

theorem new_eq_ok_iff : new maxAttempts seconds nanos = .ok p ↔
    p = ⟨maxAttempts, UInt64.ofNat (milliseconds seconds nanos)⟩ ∧ p.validate = .ok () := by
  show (validate ⟨maxAttempts, .ofNat (milliseconds seconds nanos)⟩ >>= fun _ => .ok _) = _ ↔ _
  cases valid : validate ⟨maxAttempts, UInt64.ofNat (milliseconds seconds nanos)⟩ with
  | error e =>
    refine iff_of_false (fun made => nomatch made) ?_
    rintro ⟨rfl, made⟩
    rw [valid] at made
    cases made
  | ok u =>
    constructor
    · intro made
      obtain rfl := Except.ok.inj made
      exact ⟨rfl, valid⟩
    · rintro ⟨rfl, -⟩
      rfl

theorem toNat_milliseconds : (UInt64.ofNat (milliseconds seconds nanos)).toNat =
    milliseconds seconds nanos % 2 ^ 64 :=
  UInt64.toNat_ofNat

/-- A policy is refused without attempts, and if nothing is left of its milliseconds in 64 bits. -/
theorem new_eq_error_iff : (∃ e, new maxAttempts seconds nanos = .error e) ↔
    maxAttempts = 0 ∨ milliseconds seconds nanos % 2 ^ 64 = 0 := by
  have valid := validate_eq_ok_iff (p := ⟨maxAttempts, UInt64.ofNat (milliseconds seconds nanos)⟩)
  have interval : UInt64.ofNat (milliseconds seconds nanos) = 0 ↔
      milliseconds seconds nanos % 2 ^ 64 = 0 := by
    rw [← UInt64.toNat_inj, toNat_milliseconds]
    rfl
  rw [← interval]
  cases made : new maxAttempts seconds nanos with
  | ok p =>
    obtain ⟨rfl, sound⟩ := new_eq_ok_iff.mp made
    exact iff_of_false nofun (not_or.mpr (valid.mp sound))
  | error e =>
    refine iff_of_true ⟨e, rfl⟩ ?_
    by_contra fine
    rw [new_eq_ok_iff.mpr ⟨rfl, valid.mpr (not_or.mp fine)⟩] at made
    cases made

end PollPolicy

namespace Engine

variable {id : String} {target : State} {policy : PollPolicy} {n : Nat} {t : List Moment}
  {v : Except PollError State}

/-! ## Waiting in vain -/

/-- How long all pauses are together. -/
def rested (t : List Moment) : Nat := (pauses t).foldr (fun ms rest => ms.toNat + rest) 0

theorem rested_of_pauses {ms : UInt64} (h : pauses t = List.replicate n ms) :
    rested t = n * ms.toNat := by
  rw [rested, h]
  clear h
  induction n with
  | zero => simp
  | succ n ih => rw [List.replicate_succ, List.foldr_cons, ih, Nat.succ_mul, Nat.add_comm]

/-- A wait that nobody cancels and in which no reading decides uses all its attempts. -/
theorem Waited.exhausted_of_undecided (h : Waited id target policy n false t v)
    (calm : wasCancelled t = false)
    (undecided : ∀ r, readingOf id r ∈ exchanges t → ¬ Decisive target r) :
    ∃ rs lastSeen, rs.length = n ∧ t = rounds id policy rs ∧
      v = .error (.timeout policy.maxAttempts target lastSeen) := by
  cases h with
  | asleep rs _ _ => simp at calm
  | reading rs r _ _ _ => simp at calm
  | decided rs r v struck _ decides _ =>
    have open_ := verdict?_eq_none_iff.mpr (undecided r (by simp))
    rw [open_] at decides
    cases decides
  | exhausted rs r struck _ _ left =>
    obtain rfl : struck = false := by simpa using calm
    exact ⟨rs ++ [r], seenAs r, by simpa using left, by simp [rounds], rfl⟩

end Engine

/-! ## A policy and its waits -/

open Engine PollPolicy

/-- The policy that is made from a number of attempts and a length of time, and how long waits with
it last. -/
structure Paced (maxAttempts : UInt32) (seconds : UInt64) (nanos : UInt32) : Prop where
  refused : (∃ e, PollPolicy.new maxAttempts seconds nanos = .error e) ↔
    maxAttempts = 0 ∨ milliseconds seconds nanos % 2 ^ 64 = 0
  made : ∀ p, PollPolicy.new maxAttempts seconds nanos = .ok p →
    p.validate = .ok () ∧ p.maxAttempts = maxAttempts ∧
      p.intervalMs.toNat = milliseconds seconds nanos % 2 ^ 64
  /-- If 64 bits hold the milliseconds, then a policy is refused without attempts or without a
  millisecond only. -/
  held : milliseconds seconds nanos < 2 ^ 64 →
    ((∃ e, PollPolicy.new maxAttempts seconds nanos = .error e) ↔
      maxAttempts = 0 ∨ nanoseconds seconds nanos < 1000000) ∧
    ∀ p, PollPolicy.new maxAttempts seconds nanos = .ok p →
      p.intervalMs.toNat * 1000000 ≤ nanoseconds seconds nanos ∧
        nanoseconds seconds nanos < (p.intervalMs.toNat + 1) * 1000000
  /-- If they do not, then every policy that is made has an interval that is too short. -/
  cut : 2 ^ 64 ≤ milliseconds seconds nanos →
    ∀ p, PollPolicy.new maxAttempts seconds nanos = .ok p →
      (p.intervalMs.toNat + 1) * 1000000 ≤ nanoseconds seconds nanos
  /-- A wait that nobody cancels and in which no reading decides pauses once for each attempt. The
  pauses that it asks for take the time `rested`. The time `spent` is what passes on the clock,
  where no pause takes longer than `World.longestWait`. As long as 64 bits hold the milliseconds,
  what the pauses asked for lack of the length of time is less than a millisecond for each. The same
  is true of the clock if no pause is cut short there. -/
  waits : ∀ p, PollPolicy.new maxAttempts seconds nanos = .ok p →
    ∀ (o : Outside) (id : String) (target : State),
      wasCancelled (o.chronicle (pollUntil id target p)) = false →
      (∀ r, readingOf id r ∈ exchanges (o.chronicle (pollUntil id target p)) →
        ¬ Decisive target r) →
      (∃ lastSeen, o.result (pollUntil id target p) =
          .error (.timeout maxAttempts target lastSeen)) ∧
        pauses (o.chronicle (pollUntil id target p)) =
          List.replicate maxAttempts.toNat p.intervalMs ∧
        spent [] (o.chronicle (pollUntil id target p)) = maxAttempts.toNat * p.pace ∧
        (milliseconds seconds nanos < 2 ^ 64 →
          maxAttempts.toNat * nanoseconds seconds nanos ≤
            (rested (o.chronicle (pollUntil id target p)) + maxAttempts.toNat) * 1000000 ∧
          (p.intervalMs.toNat ≤ World.longestWait →
            maxAttempts.toNat * nanoseconds seconds nanos ≤
              (spent [] (o.chronicle (pollUntil id target p)) + maxAttempts.toNat) * 1000000))

theorem paced_of_new (maxAttempts : UInt32) (seconds : UInt64) (nanos : UInt32) :
    Paced maxAttempts seconds nanos := by
  obtain ⟨above, below⟩ := nanoseconds_bounds seconds nanos
  have made : ∀ p, PollPolicy.new maxAttempts seconds nanos = .ok p →
      p.validate = .ok () ∧ p.maxAttempts = maxAttempts ∧
        p.intervalMs.toNat = milliseconds seconds nanos % 2 ^ 64 := by
    intro p h
    obtain ⟨rfl, valid⟩ := new_eq_ok_iff.mp h
    exact ⟨valid, rfl, toNat_milliseconds⟩
  refine ⟨new_eq_error_iff, made, fun small => ⟨?_, fun p h => ?_⟩, fun large p h => ?_, ?_⟩
  · rw [new_eq_error_iff, Nat.mod_eq_of_lt small]
    refine or_congr_right ?_
    omega
  · obtain ⟨-, -, interval⟩ := made p h
    rw [interval, Nat.mod_eq_of_lt small]
    exact ⟨above, below⟩
  · obtain ⟨-, -, interval⟩ := made p h
    have shorter : p.intervalMs.toNat < milliseconds seconds nanos := by
      rw [interval]
      exact (Nat.mod_lt _ (Nat.two_pow_pos 64)).trans_le large
    exact (Nat.mul_le_mul_right _ shorter).trans above
  · intro p h o id target calm undecided
    obtain ⟨valid, attempts, interval⟩ := made p h
    obtain ⟨rs, lastSeen, all, told, ended⟩ :=
      (waited_of_pollUntil valid (Outside.runs_of_not_cancelled calm)).exhausted_of_undecided calm
        undecided
    rw [attempts] at all ended
    have paused : pauses (rounds id p rs) = List.replicate maxAttempts.toNat p.intervalMs := by
      rw [pauses_rounds, all]
    rw [told, spent_rounds, all, rested_of_pauses paused]
    refine ⟨⟨lastSeen, ended⟩, paused, rfl, fun small => ?_⟩
    have enough : nanoseconds seconds nanos ≤ (p.intervalMs.toNat + 1) * 1000000 := by
      rw [interval, Nat.mod_eq_of_lt small]
      exact below.le
    have lasts : maxAttempts.toNat * nanoseconds seconds nanos ≤
        (maxAttempts.toNat * p.intervalMs.toNat + maxAttempts.toNat) * 1000000 :=
      calc maxAttempts.toNat * nanoseconds seconds nanos
          ≤ maxAttempts.toNat * ((p.intervalMs.toNat + 1) * 1000000) :=
            Nat.mul_le_mul_left _ enough
        _ = (maxAttempts.toNat * p.intervalMs.toNat + maxAttempts.toNat) * 1000000 := by
          rw [← Nat.mul_assoc, Nat.mul_add, Nat.mul_one]
    refine ⟨lasts, fun short => ?_⟩
    rw [PollPolicy.pace, min_eq_left short]
    exact lasts

/-- Of these many seconds, 64 bits hold less than half a second. Of those many, they hold nothing,
and a policy with so long an interval is refused for having none. -/
theorem new_of_overlong :
    PollPolicy.new 3 18446744073709552 0 = .ok ⟨3, 384⟩ ∧
      (384 + 1) * 1000000 ≤ nanoseconds 18446744073709552 0 ∧
      PollPolicy.new 3 2305843009213693952 0 =
        .error (.invalid "interval_ms must be greater than zero") ∧
      1000000 ≤ nanoseconds 2305843009213693952 0 := by
  exact ⟨by rfl, by decide, by rfl, by decide⟩

end InstanceResize
