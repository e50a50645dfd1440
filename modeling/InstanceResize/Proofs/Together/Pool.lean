import InstanceResize.Proofs.Run.Runs
import InstanceResize.Provider.Account
import Mathlib.Logic.Function.Basic

/-!
# Programs that share an account

Several programs run on one account at the same time, and others use the account as well. A call
takes effect in one step; between the steps of one program anything else can happen. What happens
in which order is a list of turns, and every list is possible.

* `Worker`: a program under way, with the calls it has made.
* `Turn`: who comes next.
* `Pool.play`: what becomes of the programs and the account, turn by turn.
* `Worker.moments`: what happens to a program when it does its next thing.
* `Worker.Follows`: a worker does what its program does in some run.
* `follows_play`: this goes on whatever the turns are.
-/

namespace InstanceResize

variable {α ι : Type}

/-- A program under way. -/
structure Worker (α : Type) where
  /-- What is left of the program. -/
  program : Program α
  /-- Whether somebody has cancelled it. -/
  cancelled : Bool
  /-- The calls it has made, with their answers. -/
  past : List Exchange

namespace Worker

/-- A program that has done nothing yet. -/
def new (p : Program α) (cancelled : Bool) : Worker α := ⟨p, cancelled, []⟩

/-- The result of a program that has ended. -/
def result? (w : Worker α) : Option α :=
  match w.program with
  | .done a => some a
  | _ => none

/-- Whether a program that may fail has ended well. -/
def succeeded {ε : Type} (w : Worker (Except ε α)) : Bool := w.result?.any Except.isOk

theorem exists_of_succeeded {ε : Type} {w : Worker (Except ε α)} (h : w.succeeded = true) :
    ∃ a, w.result? = some (.ok a) := by
  rw [succeeded, Option.any_eq_true] at h
  obtain ⟨r, hr, ok⟩ := h
  cases r with
  | error e => cases ok
  | ok a => exact ⟨a, hr⟩

/-- A program does its next thing on an account. While it calls or waits, it may be struck by its
cancellation. -/
def advance (w : Worker α) (struck : Bool) (a : Account) : Worker α × Account :=
  match w.program with
  | .done _ => (w, a)
  | .call c next =>
    let (r, a) := a.answer c
    (⟨next r, w.cancelled || struck, w.past ++ [⟨c, r⟩]⟩, a)
  | .wait _ next => (⟨next (w.cancelled || struck), w.cancelled || struck, w.past⟩, a)
  | .cancelled next => (⟨next w.cancelled, w.cancelled, w.past⟩, a)
  | .emit _ next => (⟨next, w.cancelled, w.past⟩, a)

end Worker

/-- Who comes next. -/
inductive Turn (ι : Type) where
  /-- A program does its next thing; somebody may cancel it meanwhile. -/
  | work (i : ι) (struck : Bool)
  /-- Somebody else makes a call. -/
  | other (c : Call)
deriving Repr, DecidableEq

/-- Whether somebody else does no more to an instance than read its status. -/
def Turn.spares (id : String) : Turn ι → Bool
  | .work _ _ => true
  | .other c => c = .status id ∨ c.instanceId? ≠ some id

/-- An account and the programs that run on it. -/
structure Pool (ι α : Type) where
  account : Account
  workers : ι → Worker α

namespace Pool

variable [DecidableEq ι]

/-- The account and the programs after a turn. -/
def step (p : Pool ι α) : Turn ι → Pool ι α
  | .work i struck =>
    let (w, account) := (p.workers i).advance struck p.account
    ⟨account, Function.update p.workers i w⟩
  | .other c => { p with account := (p.account.answer c).2 }

section

variable {p : Pool ι α} {i : ι} {struck : Bool}

theorem step_work_self :
    (p.step (.work i struck)).workers i = ((p.workers i).advance struck p.account).1 :=
  Function.update_self ..

/-- A program does not take turns of others. -/
theorem step_work_other {j : ι} (h : j ≠ i) :
    (p.step (.work i struck)).workers j = p.workers j :=
  Function.update_of_ne h ..

end

/-- The account and the programs after several turns. -/
def play (p : Pool ι α) (turns : List (Turn ι)) : Pool ι α := turns.foldl step p

/-- What every turn keeps is kept by any number of turns. -/
theorem play_invariant {P : Pool ι α → Prop} {turns : List (Turn ι)}
    (keeps : ∀ p turn, turn ∈ turns → P p → P (p.step turn)) {p : Pool ι α} (start : P p) :
    P (p.play turns) := by
  induction turns generalizing p with
  | nil => exact start
  | cons turn turns ih =>
    refine ih (fun p t ht => keeps p t (List.mem_cons_of_mem turn ht)) ?_
    exact keeps p turn List.mem_cons_self start

end Pool

/-! ## What a worker has done belongs to a run -/

namespace Worker

variable {w : Worker α} {p : Program α} {b : Bool}

/-- The next thing of a program is a call, or nothing that concerns an account. -/
theorem advance_cases (w : Worker α) (struck : Bool) (a : Account) :
    ((w.advance struck a).1.past = w.past ∧ (w.advance struck a).2 = a) ∨
      ∃ c : Call, (w.advance struck a).1.past = w.past ++ [⟨c, (a.answer c).1⟩] ∧
        (w.advance struck a).2 = (a.answer c).2 := by
  obtain ⟨program, cancelled, past⟩ := w
  cases program with
  | call c next => exact .inr ⟨c, rfl, rfl⟩
  | _ => exact .inl ⟨rfl, rfl⟩

/-- What happens to a program when it does its next thing. One that was cancelled already is not
struck once more. -/
def moments (w : Worker α) (struck : Bool) (a : Account) : List Moment :=
  match w.program with
  | .done _ | .cancelled _ => []
  | .call c _ => exchange c (a.answer c).1 (!w.cancelled && struck)
  | .wait ms _ =>
    if w.cancelled then [] else if struck then [.rest ms, .cancel] else [.rest ms, .wake]
  | .emit e _ => [.emit e]

/-- The calls among what happens are those that are kept. -/
theorem past_advance (w : Worker α) (struck : Bool) (a : Account) :
    (w.advance struck a).1.past = w.past ++ exchanges (w.moments struck a) := by
  obtain ⟨program, cancelled, past⟩ := w
  cases program with
  | call c next => simp [Worker.advance, moments]
  | wait ms next => cases cancelled <;> cases struck <;> simp [Worker.advance, moments]
  | _ => simp [Worker.advance, moments]

/-- What happens to a program, and what still can, is a run of it. -/
theorem runs_moments {struck : Bool} {a : Account} {u : List Moment} {x : α}
    (rest : (w.advance struck a).1.program.Runs (w.advance struck a).1.cancelled u x) :
    w.program.Runs w.cancelled (w.moments struck a ++ u) x := by
  obtain ⟨program, cancelled, past⟩ := w
  cases program with
  | done a => exact rest
  | call c next =>
    refine .call _ (fun h => ?_) ?_
    · simpa using (Bool.and_eq_true_iff.mp h).1
    · cases cancelled <;> exact rest
  | wait ms next =>
    cases cancelled with
    | true => exact .passOver rest
    | false =>
      cases struck with
      | true => exact .interrupt rest
      | false => exact .sleep rest
  | cancelled next => exact .cancelled rest
  | emit e next => exact .emit rest

/-- What has happened to a worker, and what still can, is a run of the program it began with. -/
def Follows (w : Worker α) (p : Program α) (b : Bool) : Prop :=
  ∃ t, exchanges t = w.past ∧ ∀ u a, w.program.Runs w.cancelled u a → p.Runs b (t ++ u) a

theorem follows_new : (new p b).Follows p b := ⟨[], rfl, fun _ _ h => h⟩

theorem Follows.advance (h : w.Follows p b) (struck : Bool) (a : Account) :
    (w.advance struck a).1.Follows p b := by
  obtain ⟨t, said, runs⟩ := h
  refine ⟨t ++ w.moments struck a, ?_, fun u r rest => ?_⟩
  · rw [exchanges_append, said, past_advance]
  · rw [List.append_assoc]
    exact runs _ _ (runs_moments rest)

/-- A worker that has ended has made the calls of a run. -/
theorem Follows.exists_runs (h : w.Follows p b) {a : α} (ended : w.result? = some a) :
    ∃ t, exchanges t = w.past ∧ p.Runs b t a := by
  obtain ⟨program, cancelled, past⟩ := w
  obtain ⟨t, said, runs⟩ := h
  cases program with
  | done x =>
    obtain rfl : x = a := Option.some.inj ended
    exact ⟨t, said, by simpa using runs [] x (.done _ x)⟩
  | _ => cases ended

end Worker

variable [DecidableEq ι]

/-- A turn of a program is a call of it, or nothing that concerns the account. -/
theorem Pool.step_work_cases (p : Pool ι α) (i : ι) (struck : Bool) :
    ((p.step (.work i struck)).account = p.account ∧
        ∀ j, ((p.step (.work i struck)).workers j).past = (p.workers j).past) ∨
      ∃ c : Call, (p.step (.work i struck)).account = (p.account.answer c).2 ∧
        ((p.step (.work i struck)).workers i).past =
          (p.workers i).past ++ [⟨c, (p.account.answer c).1⟩] ∧
        ∀ j, j ≠ i → ((p.step (.work i struck)).workers j).past = (p.workers j).past := by
  rcases (p.workers i).advance_cases struck p.account with ⟨past, account⟩ | ⟨c, past, account⟩
  · refine .inl ⟨account, fun j => ?_⟩
    by_cases hj : j = i
    · rw [hj, step_work_self, past]
    · rw [step_work_other hj]
  · refine .inr ⟨c, account, ?_, fun j hj => ?_⟩
    · rw [step_work_self, past]
    · rw [step_work_other hj]

/-- Every worker goes on with its own run, whatever the others do. -/
theorem Pool.follows_play {p : ι → Program α} {b : ι → Bool} {pool : Pool ι α}
    (start : ∀ i, (pool.workers i).Follows (p i) (b i)) (turns : List (Turn ι)) (i : ι) :
    ((pool.play turns).workers i).Follows (p i) (b i) := by
  refine play_invariant (P := fun pool => ∀ i, (pool.workers i).Follows (p i) (b i)) ?_ start i
  intro pool turn _ follows i
  cases turn with
  | other c => exact follows i
  | work j struck =>
    by_cases h : i = j
    · subst h
      rw [step_work_self]
      exact (follows i).advance struck pool.account
    · rw [step_work_other h]
      exact follows i

end InstanceResize
