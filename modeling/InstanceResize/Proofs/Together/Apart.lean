import InstanceResize.Proofs.Account.Apart
import InstanceResize.Proofs.Run.Cycle
import InstanceResize.Proofs.Together.Restart

/-!
# Workflows on different instances

Several workflows run at the same time, each on an instance of its own, and others use the account
as well. A workflow that resizes its instance then does what it would do without any of them: it
makes the same calls, gets the same answers, emits the same events, and ends in the same way. Only
the association of an address can be disturbed by others.

* `Program.Calls`: a program makes certain calls only, whatever it is answered.
* `Request.Makes`, `calls_execute`: the calls of a workflow.
* `Pool.chronicle`: what happens to one of several programs.
* `Secluded.step_own`, `Secluded.step_foreign`: what a turn does to a program that nobody else gets
  in the way of.
* `Secluded.play`: what happens to it in many turns.
* `apart_of_play`: calls and workflows on different instances do not get in each other's way.
-/

namespace InstanceResize

/-! ## The calls of a program -/

namespace Program

variable {α β : Type} {P : Call → Prop}

/-- A program makes certain calls only. -/
def Calls (P : Call → Prop) : Program α → Prop
  | done _ => True
  | call c next => P c ∧ ∀ r, (next r).Calls P
  | wait _ next => ∀ b, (next b).Calls P
  | cancelled next => ∀ b, (next b).Calls P
  | emit _ next => next.Calls P

theorem Calls.bind {p : Program α} {f : α → Program β} (hp : p.Calls P)
    (hf : ∀ a, (f a).Calls P) : (p.bind f).Calls P := by
  induction p with
  | done a => exact hf a
  | call c next ih => exact ⟨hp.1, fun r => ih r (hp.2 r)⟩
  | wait ms next ih => exact fun b => ih b (hp b)
  | cancelled next ih => exact fun b => ih b (hp b)
  | emit e next ih => exact ih hp

theorem Calls.mono {Q : Call → Prop} {p : Program α} (h : p.Calls P) (weaker : ∀ c, P c → Q c) :
    p.Calls Q := by
  induction p with
  | done a => trivial
  | call c next ih => exact ⟨weaker c h.1, fun r => ih r (h.2 r)⟩
  | wait ms next ih => exact fun b => ih b (h b)
  | cancelled next ih => exact fun b => ih b (h b)
  | emit e next ih => exact ih h

end Program

/-! ## The calls of a workflow -/

/-- The calls that a workflow is made of. -/
def Request.Makes (request : Request) (c : Call) : Prop :=
  c = .status request.instanceId ∨ c = .stop request.instanceId ∨
    c = .start request.instanceId ∨ c = .ofMutation request.instanceId request.mutation

/-- All of them are about its instance. -/
theorem Request.Makes.instanceId? {request : Request} {c : Call} (h : request.Makes c) :
    c.instanceId? = some request.instanceId := by
  rcases h with rfl | rfl | rfl | rfl
  · rfl
  · rfl
  · rfl
  · exact Call.instanceId?_ofMutation _ _

/-- All of them have to do with its machine if it is to be resized. -/
theorem Request.Makes.regards {request : Request} {c : Call} {type : String}
    (h : request.Makes c) (resizes : request.mutation = .resize type) :
    c.regards request.instanceId = true := by
  rcases h with rfl | rfl | rfl | rfl
  · exact decide_eq_true rfl
  · exact decide_eq_true rfl
  · exact decide_eq_true rfl
  · rw [resizes]
    exact decide_eq_true rfl

namespace Engine

section

variable {α β : Type} {P : Call → Prop}

theorem calls_step_bind {x : Step α} {f : α → Step β} (hx : x.run.Calls P)
    (hf : ∀ a, (f a).run.Calls P) : (x >>= f).run.Calls P := by
  rw [ExceptT.run_bind]
  refine Program.Calls.bind hx fun r => ?_
  cases r with
  | error e => trivial
  | ok a => exact hf a

theorem calls_calling {c : Call} (hc : P c) (failure : ProviderError → RunError) :
    (calling c failure).run.Calls P := by
  refine ⟨hc, fun r => ?_⟩
  cases r with
  | error e => trivial
  | ok a => trivial

theorem calls_checkCancelled (w : Workflow) : (checkCancelled w).run.Calls P := by
  intro b
  cases b with
  | false => trivial
  | true => trivial

/-- A wait does nothing but read the status. -/
theorem calls_attempts {id : String} (hc : P (.status id)) (target : State) (policy : PollPolicy)
    (n : Nat) (lastSeen : String) : (attempts id target policy n lastSeen).Calls P := by
  induction n generalizing lastSeen with
  | zero => trivial
  | succ n ih =>
    rw [attempts_succ]
    intro b
    cases b with
    | true => trivial
    | false =>
      refine ⟨hc, fun r => ?_⟩
      show ((verdict? target r).elim (attempts id target policy n (seenAs r)) .done).Calls P
      cases verdict? target r with
      | none => exact ih _
      | some v => trivial

theorem calls_awaiting {id : String} (hc : P (.status id)) (target : State)
    (policy : PollPolicy) : (awaiting id target policy).run.Calls P := by
  have wait : (pollUntil id target policy).Calls P := by
    unfold pollUntil
    split
    · trivial
    · exact calls_attempts hc target policy _ _
  refine Program.Calls.bind (Program.Calls.bind wait fun _ => trivial) fun r => ?_
  cases r with
  | error e => trivial
  | ok v =>
    cases v with
    | error e => trivial
    | ok s => trivial

theorem calls_bringTo {w : Workflow} {c : Call} (hc : P c) (reads : P (.status w.instanceId))
    (target : State) (policy : PollPolicy) : (bringTo w target c policy).run.Calls P :=
  calls_step_bind (calls_checkCancelled w) fun _ =>
    calls_step_bind (calls_calling hc _) fun _ => calls_awaiting reads target policy

end

variable {config : EngineConfig} {request : Request}

theorem calls_opening : (opening config request).run.Calls request.Makes := by
  unfold opening
  split
  · trivial
  · split
    · trivial
    · split
      · refine calls_step_bind (calls_calling (.inl rfl) _) fun s => ?_
        cases Origin.ofState? s.state with
        | none => trivial
        | some observed =>
          dsimp only
          split
          · trivial
          · trivial
      · trivial

theorem calls_quiesce (o : Origin) : (quiesce config request o).run.Calls request.Makes := by
  cases o with
  | running => exact calls_bringTo (.inr (.inl rfl)) (.inl rfl) _ _
  | stopped => trivial

theorem calls_restore (o : Origin) : (restore config request o).run.Calls request.Makes := by
  cases o with
  | running =>
    exact Program.Calls.bind (calls_bringTo (.inr (.inr (.inl rfl))) (.inl rfl) _ _)
      fun _ => trivial
  | stopped => trivial

/-- A workflow makes no other calls, whatever it is answered and whenever it is cancelled. -/
theorem calls_execute (config : EngineConfig) (request : Request) :
    (execute config request).Calls request.Makes := by
  rw [execute_eq, run_eq]
  refine Program.Calls.bind ?_ fun _ => trivial
  refine calls_step_bind calls_opening fun o => calls_step_bind (calls_quiesce o) fun _ => ?_
  refine calls_step_bind ?_ fun _ => calls_step_bind (calls_restore o) fun _ => trivial
  exact calls_step_bind (calls_checkCancelled _) fun _ =>
    calls_step_bind (calls_calling (.inr (.inr (.inr rfl))) _) fun _ => trivial

end Engine

/-! ## A worker among others -/

namespace Worker

variable {α : Type} {P : Call → Prop} {w : Worker α} {id : String} {a b : Account}

/-- What is left of a program makes no other calls than the program. -/
theorem calls_advance (h : w.program.Calls P) (struck : Bool) (a : Account) :
    (w.advance struck a).1.program.Calls P := by
  obtain ⟨program, cancelled, past⟩ := w
  cases program with
  | done x => exact h
  | call c next => exact h.2 _
  | wait ms next => exact h _
  | cancelled next => exact h _
  | emit e next => exact h

/-- A program that has to do with an instance only does the same on accounts that are alike. -/
theorem advance_alike (own : w.program.Calls fun c => c.regards id = true)
    (h : Account.Alike id a b) (struck : Bool) :
    (w.advance struck b).1 = (w.advance struck a).1 ∧
      w.moments struck b = w.moments struck a ∧
      Account.Alike id (w.advance struck a).2 (w.advance struck b).2 := by
  obtain ⟨program, cancelled, past⟩ := w
  cases program with
  | call c next =>
    obtain ⟨same, alike⟩ := h.answer own.1
    refine ⟨?_, ?_, alike⟩
    · show Worker.mk (next (b.answer c).1) (cancelled || struck) (past ++ [⟨c, (b.answer c).1⟩]) =
        Worker.mk (next (a.answer c).1) (cancelled || struck) (past ++ [⟨c, (a.answer c).1⟩])
      rw [same]
    · show exchange c (b.answer c).1 _ = exchange c (a.answer c).1 _
      rw [same]
  | _ => exact ⟨rfl, rfl, h⟩

/-- A program that has nothing to do with an instance leaves the account as it is, as far as the
instance is concerned. -/
theorem alike_advance (elsewhere : w.program.Calls fun c => c.regards id = false)
    (struck : Bool) : Account.Alike id a (w.advance struck a).2 := by
  obtain ⟨program, cancelled, past⟩ := w
  cases program with
  | call c next => exact Account.alike_answer elsewhere.1
  | _ => exact Account.Alike.refl id a

end Worker

variable {α ι : Type} [DecidableEq ι]

/-- Whether it is the turn of a certain program. -/
def Turn.isOf (i : ι) : Turn ι → Bool
  | .work j _ => j = i
  | .other _ => false

namespace Pool

/-- What happens to a program in a turn. -/
def moments (p : Pool ι α) (i : ι) : Turn ι → List Moment
  | .work j struck => if j = i then (p.workers i).moments struck p.account else []
  | .other _ => []

/-- What happens to a program in several turns. -/
def chronicle (p : Pool ι α) (i : ι) : List (Turn ι) → List Moment
  | [] => []
  | turn :: turns => p.moments i turn ++ (p.step turn).chronicle i turns

variable {p q : Pool ι α} {i : ι} {id : String}

/-- What happens to a program in several turns, and what still can, is a run of it. -/
theorem runs_chronicle {turns : List (Turn ι)} {u : List Moment} {x : α}
    (rest : ((p.play turns).workers i).program.Runs ((p.play turns).workers i).cancelled u x) :
    (p.workers i).program.Runs (p.workers i).cancelled (p.chronicle i turns ++ u) x := by
  -- A run is put together from its end, so each turn is put before a run of what it has left.
  induction turns generalizing p with
  | nil => exact rest
  | cons turn turns ih =>
    have later := ih (p := p.step turn) rest
    rw [chronicle, List.append_assoc]
    cases turn with
    | other c => exact later
    | work j struck =>
      by_cases here : j = i
      · subst here
        rw [step_work_self] at later
        rw [moments, if_pos rfl]
        exact Worker.runs_moments later
      · rw [step_work_other (Ne.symm here)] at later
        rw [moments, if_neg here]
        exact later

/-- One program has to do with an instance only, and all others have nothing to do with it. -/
structure Secluded (i : ι) (id : String) (p : Pool ι α) : Prop where
  own : (p.workers i).program.Calls fun c => c.regards id = true
  elsewhere : ∀ j, j ≠ i → (p.workers j).program.Calls fun c => c.regards id = false

theorem Secluded.step (h : Secluded i id p) (turn : Turn ι) : Secluded i id (p.step turn) := by
  have kept : ∀ {j : ι} {P : Call → Prop}, (p.workers j).program.Calls P →
      ((p.step turn).workers j).program.Calls P := by
    intro j P calls
    cases turn with
    | other c => exact calls
    | work k struck =>
      by_cases here : j = k
      · subst here
        rw [step_work_self]
        exact Worker.calls_advance calls struck p.account
      · rw [step_work_other here]
        exact calls
  exact ⟨kept h.own, fun j hj => kept (h.elsewhere j hj)⟩

/-- A turn of the program is the same on accounts that are the same as far as its instance is
concerned. -/
theorem Secluded.step_own (h : Secluded i id p) (same : q.workers i = p.workers i)
    (alike : Account.Alike id p.account q.account) {turn : Turn ι} (own : turn.isOf i = true) :
    (q.step turn).workers i = (p.step turn).workers i ∧ q.moments i turn = p.moments i turn ∧
      Account.Alike id (p.step turn).account (q.step turn).account := by
  cases turn with
  | other c => cases own
  | work j struck =>
    obtain rfl : j = i := of_decide_eq_true own
    obtain ⟨worker, moments, left⟩ := Worker.advance_alike h.own alike struck
    refine ⟨?_, ?_, ?_⟩
    · rw [step_work_self, step_work_self, same, worker]
    · rw [Pool.moments, Pool.moments, if_pos rfl, if_pos rfl, same, moments]
    · simpa [Pool.step, same] using left

/-- Any other turn leaves the program, and leaves the account as it is, as far as the instance is
concerned. -/
theorem Secluded.step_foreign (h : Secluded i id p) {turn : Turn ι} (foreign : ¬ turn.isOf i = true)
    (spared : ∀ c, turn = .other c → c.regards id = false) :
    (p.step turn).workers i = p.workers i ∧ p.moments i turn = [] ∧
      Account.Alike id p.account (p.step turn).account := by
  cases turn with
  | other c => exact ⟨rfl, rfl, Account.alike_answer (spared c rfl)⟩
  | work j struck =>
    have here : j ≠ i := by
      rintro rfl
      exact foreign (decide_eq_true rfl)
    exact ⟨step_work_other (Ne.symm here), if_neg here,
      Worker.alike_advance (h.elsewhere j here) struck⟩

/-- If all other turns are left out, then the same happens to the program, and the account stays the
same as far as its instance is concerned. -/
theorem Secluded.play (hp : Secluded i id p) (hq : Secluded i id q)
    (same : q.workers i = p.workers i) (alike : Account.Alike id p.account q.account)
    {turns : List (Turn ι)} (others : ∀ c, .other c ∈ turns → c.regards id = false) :
    (q.play (turns.filter (Turn.isOf i))).workers i = (p.play turns).workers i ∧
      q.chronicle i (turns.filter (Turn.isOf i)) = p.chronicle i turns ∧
      Account.Alike id (p.play turns).account (q.play (turns.filter (Turn.isOf i))).account := by
  -- Both pools are kept in step: they differ in what the other turns have done, and this is nothing
  -- that the program can notice.
  induction turns generalizing p q with
  | nil => exact ⟨same, rfl, alike⟩
  | cons turn turns ih =>
    have others' : ∀ c, .other c ∈ turns → c.regards id = false :=
      fun c hc => others c (List.mem_cons_of_mem turn hc)
    by_cases own : turn.isOf i = true
    · obtain ⟨same', told, alike'⟩ := hp.step_own same alike own
      obtain ⟨workers, rest, accounts⟩ := ih (hp.step turn) (hq.step turn) same' alike' others'
      rw [List.filter_cons_of_pos own, chronicle, chronicle, told, rest]
      exact ⟨workers, rfl, accounts⟩
    · have spared : ∀ c, turn = .other c → c.regards id = false := by
        rintro c rfl
        exact others c List.mem_cons_self
      obtain ⟨left, silent, since⟩ := hp.step_foreign own spared
      obtain ⟨workers, rest, accounts⟩ :=
        ih (hp.step turn) hq (same.trans left.symm) (since.symm.trans alike) others'
      rw [List.filter_cons_of_neg own, chronicle, silent, List.nil_append]
      exact ⟨workers, rest, accounts⟩

end Pool

/-! ## All of them -/

namespace Engine

open Pool

section

variable {ι : Type}

/-- An account and several workflows that have not begun, each of which says how it ends. -/
def launch (account : Account) (jobs : ι → Job) : Pool ι (Except RunError Workflow) :=
  ⟨account, fun i => .new (execute (jobs i).config (jobs i).request) (jobs i).cancelled⟩

/-- A workflow that resizes an instance is secluded from workflows on other instances. -/
theorem secluded_launch (account : Account) {jobs : ι → Job} {i : ι} {type : String}
    (resizes : (jobs i).request.mutation = .resize type)
    (elsewhere : ∀ j, j ≠ i → (jobs j).request.instanceId ≠ (jobs i).request.instanceId) :
    Secluded i (jobs i).request.instanceId (launch account jobs) where
  own := (calls_execute _ _).mono fun _ made => made.regards resizes
  elsewhere j hj := (calls_execute _ _).mono fun _ made =>
    Call.regards_of_instanceId? made.instanceId? (elsewhere j hj).symm

end

/-- What has happened to a workflow that has ended is a run of it. -/
theorem runs_of_ended {account : Account} {jobs : ι → Job} {i : ι} {turns : List (Turn ι)}
    {r : Except RunError Workflow}
    (ended : (((launch account jobs).play turns).workers i).result? = some r) :
    (execute (jobs i).config (jobs i).request).Runs (jobs i).cancelled
      ((launch account jobs).chronicle i turns) r := by
  have whole : (((launch account jobs).play turns).workers i).program = .done r := by
    unfold Worker.result? at ended
    split at ended
    · rename_i x done
      rw [done, Option.some.inj ended]
    · cases ended
  have rest : (((launch account jobs).play turns).workers i).program.Runs
      (((launch account jobs).play turns).workers i).cancelled [] r := by
    rw [whole]
    exact .done _ r
  have runs := runs_chronicle rest
  rw [List.append_nil] at runs
  exact runs

/-- Instances do not get in each other's way. The answers to the calls that have to do with the
machine of an instance, and this machine in the end, are the same if all other calls are left out.
And a workflow that resizes an instance does the same, and the same happens to it and to the machine
of the instance, if all turns of workflows on other instances are left out, and all other calls that
have nothing to do with this machine. What happens to it is a run of the workflow. -/
theorem apart_of_play (id : String) :
    (∀ (account : Account) (cs : List Call),
      (account.replies cs).filter (·.call.regards id) =
          account.replies (cs.filter (·.regards id)) ∧
        (account.after cs).roster.find? id =
          (account.after (cs.filter (·.regards id))).roster.find? id) ∧
    ∀ (ι : Type) [DecidableEq ι] (account : Account) (jobs : ι → Job) (i : ι)
      (turns : List (Turn ι)) (type : String),
      (jobs i).request.instanceId = id → (jobs i).request.mutation = .resize type →
      (∀ j, j ≠ i → (jobs j).request.instanceId ≠ id) →
      (∀ c, .other c ∈ turns → c.regards id = false) →
      ((launch account jobs).play turns).workers i =
          ((launch account jobs).play (turns.filter (Turn.isOf i))).workers i ∧
        (launch account jobs).chronicle i turns =
          (launch account jobs).chronicle i (turns.filter (Turn.isOf i)) ∧
        ((launch account jobs).play turns).account.roster.find? id =
          ((launch account jobs).play (turns.filter (Turn.isOf i))).account.roster.find? id ∧
        ∀ r, (((launch account jobs).play turns).workers i).result? = some r →
          (execute (jobs i).config (jobs i).request).Runs (jobs i).cancelled
            ((launch account jobs).chronicle i turns) r := by
  constructor
  · intro account cs
    obtain ⟨answers, left⟩ := (Account.Alike.refl id account).replies_filter cs
    exact ⟨answers, left.machine.symm⟩
  · rintro ι _ account jobs i turns type rfl resizes elsewhere others
    have secluded := secluded_launch account resizes elsewhere
    obtain ⟨workers, told, accounts⟩ :=
      secluded.play secluded rfl (Account.Alike.refl _ account) others
    exact ⟨workers.symm, told.symm, accounts.machine.symm, fun r ended => runs_of_ended ended⟩

/-- Two workflows, one on each of two instances. -/
def twinJobs : Bool → Job
  | false => ⟨twinConfig, twinRequest, false⟩
  | true => ⟨twinConfig, ⟨"i-2", "running", .associate "eipalloc-1"⟩, false⟩

/-- They take turns, and somebody else stops and starts the second instance all the time. -/
def twinTurns : List (Turn Bool) :=
  (List.replicate 40 [.work false false, .other (.stop "i-2"), .work true false,
    .other (.start "i-2")]).flatten

/-- The first workflow succeeds, as it does alone. -/
theorem apart_of_twins :
    (∀ j, j ≠ false → (twinJobs j).request.instanceId ≠ "i-1") ∧
      (∀ c, .other c ∈ twinTurns → c.regards "i-1" = false) ∧
      (((launch twinAccount twinJobs).play twinTurns).workers false).succeeded = true := by
  have elsewhere : ∀ j, j ≠ false → (twinJobs j).request.instanceId ≠ "i-1" := by decide
  have others : ∀ c, .other c ∈ twinTurns → c.regards "i-1" = false := by
    intro c hc
    obtain ⟨l, hl, member⟩ := List.mem_flatten.mp hc
    rw [(List.mem_replicate.mp hl).2] at member
    simp only [List.mem_cons, List.not_mem_nil, or_false, reduceCtorEq, false_or,
      Turn.other.injEq] at member
    rcases member with rfl | rfl
    · rfl
    · rfl
  have succeeds : (((launch twinAccount twinJobs).play
      (twinTurns.filter (Turn.isOf false))).workers false).succeeded = true := by decide +kernel
  obtain ⟨same, -⟩ := (apart_of_play "i-1").2 Bool twinAccount twinJobs false twinTurns "m5.large"
    rfl rfl elsewhere others
  refine ⟨elsewhere, others, ?_⟩
  rw [same]
  exact succeeds

end Engine

end InstanceResize
