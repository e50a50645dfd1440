import InstanceResize.Workflow.Refusal

/-!
# How long the engine waits

* `PollPolicy`: how often and at which interval a status is read.
* `EngineConfig`: the policies for stopping and for starting, and whether a declared state is
  checked before anything is done.
-/

namespace InstanceResize

/-- How often and at which interval a status is read. -/
structure PollPolicy where
  maxAttempts : UInt32
  intervalMs : UInt64
deriving Repr, DecidableEq

namespace PollPolicy

/-- A policy has to allow an attempt, and time to pass before it. -/
def validate (p : PollPolicy) : Except Refusal Unit :=
  if p.maxAttempts = 0 then .error (.invalid "max_attempts must be at least 1")
  else if p.intervalMs = 0 then .error (.invalid "interval_ms must be greater than zero")
  else .ok ()

theorem validate_eq_ok_iff {p : PollPolicy} :
    p.validate = .ok () ↔ p.maxAttempts ≠ 0 ∧ p.intervalMs ≠ 0 := by
  unfold validate
  split
  · simp_all
  · split <;> simp_all

/-- A valid policy allows an attempt. -/
theorem pos_of_validate {p : PollPolicy} (h : p.validate = .ok ()) : 0 < p.maxAttempts.toNat :=
  Nat.pos_of_ne_zero fun zero =>
    (validate_eq_ok_iff.mp h).1 (UInt32.toNat_inj.mp zero)

/-- The whole milliseconds of a length of time. -/
def milliseconds (seconds : UInt64) (nanos : UInt32) : Nat :=
  seconds.toNat * 1000 + nanos.toNat / 1000000

/-- The policy with the given number of attempts and the given interval, in whole milliseconds as
far as 64 bits hold them. -/
def new (maxAttempts : UInt32) (seconds : UInt64) (nanos : UInt32) : Except Refusal PollPolicy := do
  let policy : PollPolicy := ⟨maxAttempts, UInt64.ofNat (milliseconds seconds nanos)⟩
  policy.validate
  return policy

/-- About a minute, for an instance that stops. -/
def forStop : PollPolicy := ⟨20, 3000⟩

/-- About forty seconds, for an instance that starts. -/
def forStart : PollPolicy := ⟨20, 2000⟩

def schema : Schema PollPolicy :=
  (Schema.record <| .field "max_attempts" .uint32 none <|
    .field "interval_ms" .uint64 none .none).iso
    (fun (attempts, interval, _) => ⟨attempts, interval⟩)
    (fun p => (p.maxAttempts, p.intervalMs, ()))

end PollPolicy

/-- How the engine runs workflows. -/
structure EngineConfig where
  stopPoll : PollPolicy
  startPoll : PollPolicy
  /-- Whether the declared state is checked by a status reading before anything is done. -/
  verifyOrigin : Bool
deriving Repr, DecidableEq

namespace EngineConfig

/-- The configuration unless another one is given. -/
def standard : EngineConfig := ⟨.forStop, .forStart, false⟩

/-- Both policies have to be valid. -/
def validate (c : EngineConfig) : Except Refusal Unit := do
  c.stopPoll.validate
  c.startPoll.validate

theorem validate_eq_ok_iff {c : EngineConfig} :
    c.validate = .ok () ↔ c.stopPoll.validate = .ok () ∧ c.startPoll.validate = .ok () := by
  rw [validate]
  cases c.stopPoll.validate with
  | error r => simp [bind, Except.bind]
  | ok _ => simp [bind, Except.bind]

def schema : Schema EngineConfig :=
  (Schema.record <| .field "stop_poll" PollPolicy.schema (some .forStop) <|
    .field "start_poll" PollPolicy.schema (some .forStart) <|
    .field "verify_origin_state" .flag (some false) .none).iso
    (fun (stop, start, verify, _) => ⟨stop, start, verify⟩)
    (fun c => (c.stopPoll, c.startPoll, c.verifyOrigin, ()))

end EngineConfig

end InstanceResize
