import InstanceResize.Proofs.Account.Allocation
import InstanceResize.Proofs.Account.Apart
import InstanceResize.Proofs.Account.Passage

/-!
# How long a passage lasts

A call leads an instance from one state to another by way of a state in between. As many readings
as the account is set to, and one more, show the state in between, and all later ones show the state
that the instance was led to. Only readings of this instance count, whatever else is called, unless
a call leads the instance back.

* `Call.back`: the call that leads an instance back.
* `readings`: the answers to the readings of an instance.
* `Machine.Due.moves`: what no call but a reading, or the one back, can do to a machine on its way.
* `Due.readings_replies`: what all readings show, whatever is called in between.
* `Due.answer_again`: the call that led an instance somewhere is accepted again, and does nothing.
* `Lasts`, `lasts_of_leads`: all of it.
-/

namespace InstanceResize

/-- The call that leads an instance back from where a call has led it. -/
def Call.back : Call → Call
  | .stop id => .start id
  | .start id => .stop id
  | c => c

namespace Account

/-- The answers to the readings of an instance. -/
def readings (id : String) (es : List Exchange) : List (Except ProviderError Status) :=
  es.filterMap fun
    | ⟨.status other, r⟩ => if other = id then some r else none
    | _ => none

section

variable {id : String} {c : Call} {es : List Exchange}

theorem readings_cons_status (r : Except ProviderError Status) :
    readings id (⟨.status id, r⟩ :: es) = r :: readings id es := by
  simp [readings]

theorem readings_cons_of_ne (other : c ≠ .status id) (r : c.Reply) :
    readings id (⟨c, r⟩ :: es) = readings id es := by
  have skipped : readings id [⟨c, r⟩] = [] := by
    cases c with
    | status different =>
      have different : different ≠ id := fun same => other (congrArg _ same)
      simp [readings, different]
    | _ => rfl
  rw [← List.singleton_append, readings, List.filterMap_append]
  exact congrArg (· ++ readings id es) skipped

end

/-! ## One call -/

variable {a : Account} {id : String} {c d : Call} {source via : State} {n : Nat}

/-- A machine on its way is in the state in between, or at the end of the way. -/
theorem Machine.Due.arrives {m : Machine} (due : m.Due via n) :
    m.state = via ∨ m.state = settled via := by
  cases n with
  | zero => exact .inr due.1
  | succ n => exact .inl due.1

/-- A machine on its way, or at the end of it, is moved by a reading or by the call that leads it
back. Any other call leaves it on its way as it was. -/
theorem Machine.Due.moves {m m' : Machine} {settle : Nat} {types : List InstanceType}
    (due : m.Due via n) (leads : Leads id c source via) (moves : m.Moves settle types id d m')
    (unread : d ≠ .status id) (onward : d ≠ c.back) : m'.Due via n := by
  have arrives := due.arrives
  cases moves with
  | read => exact absurd rfl unread
  | stopped h =>
    cases leads with
    | start => exact absurd rfl onward
    | stop =>
      rcases transition_eq_ok_iff.mp h with ⟨-, rfl⟩ | ⟨notVia, notSettled, -, -⟩
      · exact due
      · exact absurd arrives (not_or.mpr ⟨notVia, notSettled⟩)
  | started h =>
    cases leads with
    | stop => exact absurd rfl onward
    | start =>
      rcases transition_eq_ok_iff.mp h with ⟨-, rfl⟩ | ⟨notVia, notSettled, -, -⟩
      · exact due
      · exact absurd arrives (not_or.mpr ⟨notVia, notSettled⟩)
  | modified h =>
    obtain ⟨-, -, -, rfl⟩ := modify_eq_ok_iff.mp h
    exact due

/-- A call that is no reading of an instance leaves its passage, unless it leads the instance
back. -/
theorem Due.answer_of_ne_status (h : a.Due id via n) (leads : Leads id c source via)
    (unread : d ≠ .status id) (onward : d = c.back → (a.answer d).1.isOk = false) :
    (a.answer d).2.Due id via n := by
  cases reply : (a.answer d).1 with
  | error e =>
    rw [answer_of_error reply]
    exact h
  | ok x =>
    have notBack : d ≠ c.back := by
      intro back
      have refused := onward back
      rw [reply] at refused
      cases refused
    obtain ⟨m, found, due⟩ := h
    obtain ⟨m', found'⟩ := exists_find?_answer found d
    refine ⟨m', found', ?_⟩
    rcases answer_moves found found' with rfl | moves
    · exact due
    · exact due.moves leads moves unread notBack

/-! ## Any calls -/

/-- Whatever is called in between, the readings that are due show the state in between, and all
later ones show the state that the instance is led to. -/
theorem Due.readings_replies {cs : List Call} (h : a.Due id via n)
    (leads : Leads id c source via)
    (onward : ∀ x ∈ a.replies cs, x.call = c.back → x.reply.isOk = false) :
    readings id (a.replies cs) =
        (List.range (cs.count (.status id))).map
          (fun i => .ok (.of id (if i < n then via else Machine.settled via))) ∧
      (a.after cs).Due id via (n - cs.count (.status id)) := by
  -- Each reading takes one from what is due, and nothing else changes it.
  induction cs generalizing a n with
  | nil => exact ⟨rfl, h⟩
  | cons d cs ih =>
    have later : ∀ x ∈ (a.answer d).2.replies cs, x.call = c.back → x.reply.isOk = false :=
      fun x member => onward x (List.mem_cons_of_mem _ member)
    by_cases read : d = .status id
    · subst read
      obtain ⟨shown, nearer⟩ := h.answer_status
      obtain ⟨rest, left⟩ := ih nearer later
      rw [replies_cons, readings_cons_status, shown, rest, List.count_cons_self,
        List.range_succ_eq_map, List.map_cons, List.map_map]
      refine ⟨congrArg₂ List.cons ?_ ?_, ?_⟩
      · cases n <;> rfl
      · refine List.map_congr_left fun i _ => ?_
        have same : i < n - 1 ↔ i + 1 < n := by omega
        simp only [Function.comp, same]
      · rw [Nat.add_comm, Nat.sub_add_eq]
        exact left
    · have stays := h.answer_of_ne_status leads read (onward _ List.mem_cons_self)
      obtain ⟨rest, left⟩ := ih stays later
      rw [replies_cons, readings_cons_of_ne read, rest, List.count_cons_of_ne read]
      exact ⟨rfl, left⟩

/-! ## The same call again -/

/-- An account is as it was if a change leaves the machine of its instance. -/
theorem change_of_self {m : Machine} {f : Machine → Except ProviderError Machine}
    (once : a.ids.Nodup) (found : a.roster.find? id = some m) (h : f m = .ok m) :
    a.change id f = (.ok (), a) := by
  rw [change_of_ok found h, Roster.update_self once found]

/-- The call that led an instance somewhere is accepted again, and does nothing, as long as nothing
has led the instance back. -/
theorem Due.answer_again (once : a.ids.Nodup) (h : a.Due id via n) (leads : Leads id c source via) :
    (a.answer c).1.isOk = true ∧ (a.answer c).2 = a := by
  obtain ⟨m, found, due⟩ := h
  cases leads with
  | stop =>
    have made : m.transition a.settle "stop" .running .stopping = .ok m :=
      Machine.transition_eq_ok_iff.mpr (.inl ⟨due.arrives, rfl⟩)
    have again : a.answer (.stop id) = (.ok (), a) :=
      change_of_self (f := (·.transition a.settle "stop" .running .stopping)) once found made
    rw [again]
    exact ⟨rfl, rfl⟩
  | start =>
    have made : m.transition a.settle "start" .stopped .pending = .ok m :=
      Machine.transition_eq_ok_iff.mpr (.inl ⟨due.arrives, rfl⟩)
    have again : a.answer (.start id) = (.ok (), a) :=
      change_of_self (f := (·.transition a.settle "start" .stopped .pending)) once found made
    rw [again]
    exact ⟨rfl, rfl⟩

/-! ## All of it -/

/-- How long a passage lasts that a call has begun on an account `a` which counts the given number
of readings, if other calls are made after it. -/
structure Lasts (settle : UInt32) (a : Account) (id : String) (c : Call) (via : State)
    (cs : List Call) : Prop where
  /-- The call is accepted. -/
  accepted : (a.answer c).1.isOk = true
  /-- As many readings as are counted, and one more, show the state in between. All others show the
  state that the instance is led to. -/
  readings : readings id ((a.answer c).2.replies cs) =
    (List.range (cs.count (.status id))).map fun i =>
      .ok (.of id (if i < settle.toNat + 1 then via else Machine.settled via))
  /-- If the call is made again then it is accepted, and the account stays as it is. -/
  again : (((a.answer c).2.after cs).answer c).1.isOk = true ∧
    (((a.answer c).2.after cs).answer c).2 = (a.answer c).2.after cs

/-- A stop of a running instance, or a start of a stopped one, begins a passage that lasts as long
as the account is set to, whatever is called before and after, if nothing leads the instance
back. -/
theorem lasts_of_leads (s : Setup) (before : List Call) (leads : Leads id c source via)
    (here : ((ofSetup s).after before).state? id = some source) (cs : List Call)
    (onward : ∀ x ∈ (((ofSetup s).after before).answer c).2.replies cs,
      x.call = c.back → x.reply.isOk = false) :
    Lasts s.settlePolls ((ofSetup s).after before) id c via cs := by
  have settle : ((ofSetup s).after before).settle = s.settlePolls.toNat :=
    after_invariant (P := fun a => a.settle = s.settlePolls.toNat)
      (fun a c _ same => (settle_answer a c).trans same) rfl
  have once : ((ofSetup s).after before).ids.Nodup := by
    rw [ids_after]
    exact (ids_ofSetup_pairwise s).imp fun before => before.ne
  generalize (ofSetup s).after before = a at here onward settle once
  obtain ⟨⟨x, accepted⟩, due⟩ := leads.answer here
  obtain ⟨shown, left⟩ := due.readings_replies leads onward
  rw [settle] at shown
  refine ⟨by rw [accepted]; rfl, shown, left.answer_again ?_ leads⟩
  rw [ids_after, ids_answer]
  exact once

/-- A running instance of an account that counts one reading. -/
def haltingSetup : Setup := ⟨1, [⟨"i-1", "t3.micro", .running⟩], [], []⟩

/-- What is called while the instance halts: among its readings it is stopped again, started, which
is refused, and given another type, which is refused until it has stopped. -/
def haltingCalls : List Call :=
  [.status "i-1", .stop "i-1", .start "i-1", .instances, .status "i-1", .modify "i-1" "m5.large",
    .status "i-2", .status "i-1", .modify "i-1" "m5.large", .stop "i-1", .status "i-1"]

/-- Two readings show that the instance is stopping, and the other ones that it has stopped. -/
theorem lasts_of_halting :
    Lasts 1 (ofSetup haltingSetup) "i-1" (.stop "i-1") .stopping haltingCalls ∧
      readings "i-1" (((ofSetup haltingSetup).answer (.stop "i-1")).2.replies haltingCalls) =
        [.ok (.of "i-1" .stopping), .ok (.of "i-1" .stopping), .ok (.of "i-1" .stopped),
          .ok (.of "i-1" .stopped)] := by
  have lasts : Lasts 1 (ofSetup haltingSetup) "i-1" (.stop "i-1") .stopping haltingCalls :=
    lasts_of_leads haltingSetup [] .stop rfl haltingCalls (by decide +kernel)
  exact ⟨lasts, lasts.readings⟩

end Account

end InstanceResize
