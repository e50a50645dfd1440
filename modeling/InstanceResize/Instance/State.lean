import InstanceResize.Document.Schema

/-!
# Lifecycle states

An instance reports a number for its state. Only the low byte of the number says anything, and
bytes that are in no table stand for no known state.

* `State`: the six states that a number can stand for.
* `State.ofCode`: the state of a number.
* `State.canReach`: which states an instance can come to without being asked to.
-/

namespace InstanceResize

/-- The state of an instance. -/
inductive State where
  | pending
  | running
  | stopping
  | stopped
  /-- Shutting down or gone. Nothing leads out of it. -/
  | terminated
  | unknown
deriving Repr, DecidableEq, Inhabited

namespace State

/-- All states. -/
def all : List State := [pending, running, stopping, stopped, terminated, unknown]

/-- The name of a state. -/
def name : State → String
  | pending => "pending"
  | running => "running"
  | stopping => "stopping"
  | stopped => "stopped"
  | terminated => "terminated"
  | unknown => "unknown"

instance : ToString State := ⟨name⟩

/-- The state that has the given name, letter for letter. -/
def parse? (text : String) : Option State := Schema.named? all name text

/-- The bytes that stand for a state. -/
def codes : List (Nat × State) :=
  [(0, pending), (16, running), (32, terminated), (48, terminated), (64, stopping), (80, stopped)]

/-- The low byte of a number. -/
def lowByte (code : Int32) : Nat := (code.toInt % 256).toNat

/-- The state that a number stands for. -/
def ofCode (code : Int32) : State := (codes.lookup (lowByte code)).getD unknown

/-- The first number that stands for a state; no known state is `-1`. -/
def code (s : State) : Int32 :=
  ((codes.find? (·.2 == s)).map fun (n, _) => Int32.ofNat n).getD (-1)

/-- Whether an instance in one state can come to another without a further call. -/
def canReach : State → State → Bool
  | terminated, _ => false
  | stopping, running => false
  | _, _ => true

/-- A state is written by its name. -/
def schema : Schema State := .choice all name

@[simp] theorem ofCode_code (s : State) : ofCode s.code = s := by cases s <;> decide

theorem parse?_name (s : State) : parse? s.name = some s := by cases s <;> decide

end State

end InstanceResize
