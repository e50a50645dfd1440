import InstanceResize.Engine.Poll
import InstanceResize.Workflow.Record

/-!
# Running a workflow

A workflow stops a running instance, makes one change while it is stopped, and starts it again if
it was running before. The phases come one after the other; the first error ends the run, and
nothing is rolled back.

* `Engine.run`: the run itself.
* `Engine.execute`: the run, and the event that says how it ended.
-/

namespace InstanceResize

/-- What somebody wants to be done. -/
structure Request where
  instanceId : String
  /-- The state that the instance is said to be in. -/
  declaredState : String
  mutation : Mutation
deriving Repr, DecidableEq

namespace Engine

/-- A program that may fail. -/
abbrev Step := ExceptT RunError Program

/-- Makes a call; `failure` says what its error means. -/
def calling (c : Call) (failure : ProviderError → RunError) : Step c.Result := do
  match ← (Program.ask c : Program c.Reply) with
  | .ok a => return a
  | .error e => throw (failure e)

/-- Waits for an instance to show a state. -/
def awaiting (id : String) (target : State) (policy : PollPolicy) : Step Unit := do
  match ← (pollUntil id target policy : Program _) with
  | .ok _ => return ()
  | .error e => throw (.poll e)

/-- Ends a workflow that was cancelled. -/
def checkCancelled (w : Workflow) : Step Unit := do
  if ← (Program.isCancelled : Program Bool) then throw (.cancelled w.phase)

/-- One status reading, which decides about the origin in place of the declared state. -/
def confirmOrigin (id : String) (declared : Origin) : Step Origin := do
  let status ← calling (.status id) fun e => .query e.message
  match Origin.ofState? status.state with
  | none =>
    throw (.precondition
      ("instance is '" ++ status.name ++ "', expected 'running' or 'stopped'"))
  | some observed =>
    if observed ≠ declared then
      (Program.tell (.message ("instance is " ++ observed.name ++ ", not " ++ declared.name)) :
        Program Unit)
    return observed

/-- Makes a call that leads an instance to a state, and waits for the state. -/
def bringTo (w : Workflow) (target : State) (c : Call) (policy : PollPolicy) : Step Unit := do
  checkCancelled w
  let _ ← calling c (.ofCall c.name)
  awaiting w.instanceId target policy

/-- Stops the instance and waits until it is stopped. -/
def ensureStopped (config : EngineConfig) (w : Workflow) : Step Unit :=
  bringTo w .stopped (.stop w.instanceId) config.stopPoll

/-- Starts the instance and waits until it is running. -/
def ensureRunning (config : EngineConfig) (w : Workflow) : Step Unit :=
  bringTo w .running (.start w.instanceId) config.startPoll

/-- What an error of the change means. -/
def mutationError (m : Mutation) (call : String) : ProviderError → RunError
  | .rejected _ reason => .rejected m.describe reason
  | e => .ofCall call e

/-- Makes the change. -/
def applyMutation (w : Workflow) : Step Unit := do
  checkCancelled w
  let c := Call.ofMutation w.instanceId w.mutation
  let _ ← calling c (mutationError w.mutation c.name)

/-- What is done in the phase that a workflow is in. -/
def perform (config : EngineConfig) (w : Workflow) : Step Unit :=
  match w.phase with
  | .ensureStopped => ensureStopped config w
  | .mutating => applyMutation w
  | .ensureRunning => (ensureRunning config w).adapt (·.afterMutation w.mutation)
  | .init | .done => return ()

/-- Goes through phases. -/
def follow (config : EngineConfig) : List Phase → Workflow → Step Workflow
  | [], w => return w
  | next :: rest, w => do
    match w.advance next with
    | .error r => throw (.refused r)
    | .ok w =>
      perform config w
      follow config rest w

/-- Checks what is asked for and establishes the origin. -/
def opening (config : EngineConfig) (request : Request) : Step Origin :=
  match config.validate with
  | .error r => throw (.precondition r.message)
  | .ok () =>
    match Origin.parse request.declaredState with
    | .error r => throw (.precondition r.message)
    | .ok declared =>
      if config.verifyOrigin then confirmOrigin request.instanceId declared else return declared

/-- Runs a workflow. -/
def run (config : EngineConfig) (request : Request) : Program (Except RunError Workflow) :=
  ExceptT.run do
    let origin ← opening config request
    follow config (Phase.init.course origin)
      (Workflow.new request.instanceId origin request.mutation)

/-- The event that says how a workflow ended. -/
def outcomeEvent : Except RunError Workflow → Event
  | .ok _ => .success
  | .error e => e.event

/-- Runs a workflow and says how it ended. -/
def execute (config : EngineConfig) (request : Request) :
    Program (Except RunError Workflow) := do
  let outcome ← run config request
  Program.tell (outcomeEvent outcome)
  return outcome

end Engine

end InstanceResize
