import InstanceResize.Engine.Error
import InstanceResize.Engine.Policy
import InstanceResize.Engine.Program

/-!
# Waiting for a state

The status of an instance is read at an interval until it shows the target, or a state from which
the target is not reached, or the attempts are used up. Each attempt waits first, and each reading
is reported in a message.

A reading that fails uses up an attempt but decides nothing.
-/

namespace InstanceResize.Engine

/-- What is reported of a reading. -/
def readingText (status : Status) : String :=
  if status.state = .unknown then
    "unrecognised instance status '" ++ status.name ++ "' (code " ++ toString status.code.toInt ++
      ")"
  else status.name

/-- What is reported of a reading that failed. -/
def unavailableText (e : ProviderError) : String :=
  "status unavailable (" ++ e.message ++ "), retrying"

/-- What a reading that failed was seen as. -/
def seenAsError (e : ProviderError) : String := "query error: " ++ e.message

/-- At most so many attempts; `lastSeen` is what the last one before them saw. -/
def attempts (id : String) (target : State) (policy : PollPolicy) :
    Nat → String → Program (Except PollError State)
  | 0, lastSeen => .done (.error (.timeout policy.maxAttempts target lastSeen))
  | n + 1, _ =>
    .wait policy.intervalMs fun
      | true => .done (.error (.cancelled target))
      | false =>
        .call (.status id) fun
          | .error e =>
            .emit (.message (unavailableText e)) (attempts id target policy n (seenAsError e))
          | .ok status =>
            .emit (.message (readingText status)) <|
              if status.state = target then .done (.ok target)
              else if status.state.canReach target then attempts id target policy n status.name
              else .done (.error (.unexpected status.name target))

/-- Waits for an instance to show a state. -/
def pollUntil (id : String) (target : State) (policy : PollPolicy) :
    Program (Except PollError State) :=
  match policy.validate with
  | .error r => .done (.error (.policy r.message))
  | .ok () => attempts id target policy policy.maxAttempts.toNat "nothing"

end InstanceResize.Engine
