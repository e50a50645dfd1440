import InstanceResize.Workflow.Origin

/-!
# Phases

A workflow goes through phases, each once and in one direction. One that begins on a running
instance stops it before the change and starts it again afterwards; one that begins on a stopped
instance only makes the change.

* `Phase.course`: the phases that are still to come.
* `Phase.mayFollow`: the steps that are allowed at all.
-/

namespace InstanceResize

/-- A phase of a workflow. -/
inductive Phase where
  | init
  | ensureStopped
  | mutating
  | ensureRunning
  | done
deriving Repr, DecidableEq, Inhabited

namespace Phase

def all : List Phase := [init, ensureStopped, mutating, ensureRunning, done]

/-- The name of a phase. -/
def name : Phase → String
  | init => "init"
  | ensureStopped => "ensure_stopped"
  | mutating => "mutating"
  | ensureRunning => "ensure_running"
  | done => "done"

def schema : Schema Phase := .choice all name

/-- The phase after the change. -/
def afterChange : Origin → List Phase
  | .running => [ensureRunning, done]
  | .stopped => [done]

/-- The phases that come after a phase if everything succeeds. -/
def course (origin : Origin) : Phase → List Phase
  | init =>
    match origin with
    | .running => ensureStopped :: mutating :: afterChange origin
    | .stopped => mutating :: afterChange origin
  | ensureStopped => mutating :: afterChange origin
  | mutating => afterChange origin
  | ensureRunning => [done]
  | done => []

/-- The phases that may follow a phase directly. -/
def successors : Phase → List Phase
  | init => [ensureStopped, mutating, done]
  | ensureStopped => [mutating, done]
  | mutating => [ensureRunning, done]
  | ensureRunning => [done]
  | done => []

/-- Whether a phase may follow another one directly. -/
def mayFollow (next current : Phase) : Bool := current.successors.contains next

/-- A course only takes steps that are allowed. -/
theorem mayFollow_of_course {o : Origin} {p q : Phase} {rest : List Phase}
    (h : course o p = q :: rest) : q.mayFollow p = true := by
  cases o <;> cases p <;> simp [course, afterChange] at h <;>
    obtain ⟨rfl, rfl⟩ := h <;> decide

end Phase

end InstanceResize
