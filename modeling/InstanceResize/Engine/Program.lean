import InstanceResize.Progress.Event
import InstanceResize.Provider.Call

/-!
# Programs

What the engine does is written down as a tree: at each node something is asked of the outside, and
there is a branch for every answer. The tree says in which order things are asked, whatever the
answers are, and who answers is left open.

* `Program`: the tree.
* `Program.bind`: one program after another; programs form a monad.
* `Handler`: who answers, in some monad.
* `Program.interpret`: the run of a program with a handler.
-/

namespace InstanceResize

/-- A program with a result. -/
inductive Program (α : Type) where
  | done (a : α)
  /-- Makes a call and goes on with the reply. -/
  | call (c : Call) (next : c.Reply → Program α)
  /-- Waits so many milliseconds, or until the program is cancelled; goes on with whether it was. -/
  | wait (ms : UInt64) (next : Bool → Program α)
  /-- Goes on with whether the program is cancelled. -/
  | cancelled (next : Bool → Program α)
  | emit (e : Event) (next : Program α)

namespace Program

variable {α β γ : Type}

/-- One program after another. -/
def bind : Program α → (α → Program β) → Program β
  | done a, f => f a
  | call c next, f => call c fun reply => (next reply).bind f
  | wait ms next, f => wait ms fun b => (next b).bind f
  | cancelled next, f => cancelled fun b => (next b).bind f
  | emit e next, f => emit e (next.bind f)

instance : Monad Program where
  pure := done
  bind := bind

@[simp] theorem bind_done (p : Program α) : p.bind done = p := by
  induction p with
  | done a => rfl
  | call c next ih => simp only [bind]; congr 1; funext reply; exact ih reply
  | wait ms next ih => simp only [bind]; congr 1; funext b; exact ih b
  | cancelled next ih => simp only [bind]; congr 1; funext b; exact ih b
  | emit e next ih => simp only [bind, ih]

theorem bind_assoc (p : Program α) (f : α → Program β) (g : β → Program γ) :
    (p.bind f).bind g = p.bind fun a => (f a).bind g := by
  induction p with
  | done a => rfl
  | call c next ih => simp only [bind]; congr 1; funext reply; exact ih reply
  | wait ms next ih => simp only [bind]; congr 1; funext b; exact ih b
  | cancelled next ih => simp only [bind]; congr 1; funext b; exact ih b
  | emit e next ih => simp only [bind, ih]

instance : LawfulMonad Program :=
  .mk' Program bind_done (fun _ _ => rfl) bind_assoc

/-- Makes a call. -/
def ask (c : Call) : Program c.Reply := call c done

/-- Waits. -/
def sleep (ms : UInt64) : Program Bool := wait ms done

/-- Whether the program is cancelled. -/
def isCancelled : Program Bool := cancelled done

/-- Emits an event. -/
def tell (e : Event) : Program Unit := emit e (done ())

end Program

/-- Who answers what a program asks. -/
structure Handler (m : Type → Type) where
  call : (c : Call) → m c.Reply
  wait : UInt64 → m Bool
  cancelled : m Bool
  emit : Event → m Unit

/-- The run of a program with a handler. -/
def Program.interpret {m : Type → Type} [Monad m] (h : Handler m) {α : Type} : Program α → m α
  | .done a => pure a
  | .call c next => do (next (← h.call c)).interpret h
  | .wait ms next => do (next (← h.wait ms)).interpret h
  | .cancelled next => do (next (← h.cancelled)).interpret h
  | .emit e next => do
    h.emit e
    next.interpret h

section

variable {σ α β : Type} {x : OptionT (StateM σ) α} {s s' : σ}

theorem run_bind_eq (x : OptionT (StateM σ) α) (f : α → OptionT (StateM σ) β) (s : σ) :
    (x >>= f).run s = (x.run s).1.elim (pure none) (fun a => (f a).run) (x.run s).2 := by
  rw [OptionT.run_bind]
  rfl

theorem run_bind_of_some {a : α} (h : x.run s = (some a, s')) (f : α → OptionT (StateM σ) β) :
    (x >>= f).run s = (f a).run s' := by
  rw [run_bind_eq, h]
  rfl

/-- Nothing comes after a step that brings all down. -/
theorem run_bind_of_none (h : x.run s = (none, s')) (f : α → OptionT (StateM σ) β) :
    (x >>= f).run s = (none, s') := by
  rw [run_bind_eq, h]
  rfl

end

end InstanceResize
