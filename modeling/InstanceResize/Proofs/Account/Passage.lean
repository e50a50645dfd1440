import InstanceResize.Proofs.Account.Company

/-!
# On the way from one state to another

A stop leads a running instance to a halt, and a start leads a stopped one back, each by way of a
state in between. The account counts the readings of that state. Every reading brings the instance
nearer to where it is led, whoever makes it, and no call about something else takes it farther away.

* `Machine.Due`, `Account.Due`: how many readings still show the state in between.
* `Leads`: the two calls that lead an instance somewhere.
* `Leads.answer`: an instance that is led somewhere shows the state in between once more than the
  account is set to.
* `Due.answer_status`: what a reading shows, and what is left after it.
* `Patient`: the calls that do not lead an instance anywhere.
* `Used.due`: what others leave of a passage if their calls are patient.
-/

namespace InstanceResize.Account

/-! ## Machines -/

namespace Machine

/-- Nothing leads out of a state that another one leads to. -/
@[simp] theorem settled_settled (s : State) : settled (settled s) = settled s := by
  cases s <;> rfl

/-- What a reading shows if so many readings still show the state in between. -/
def shown (via : State) : Nat → State
  | 0 => settled via
  | _ + 1 => via

/-- So many readings of a machine still show the state in between, and all later ones the state that
this leads to. -/
def Due (via : State) (n : Nat) (m : Machine) : Prop :=
  m.state = shown via n ∧ ∀ k, n = k + 1 → m.remaining = k

variable {via : State} {n : Nat} {m : Machine}

/-- A machine that has arrived stays where it is. -/
theorem due_zero : m.Due via 0 ↔ m.state = settled via :=
  ⟨fun h => h.1, fun h => ⟨h, nofun⟩⟩

/-- Every reading brings a machine nearer. -/
theorem Due.observe (h : m.Due via n) : m.observe.Due via (n - 1) := by
  obtain ⟨state, remaining⟩ := h
  unfold Machine.observe
  cases n with
  | zero =>
    refine due_zero.mpr ?_
    have arrived : m.state = settled via := state
    split
    · exact arrived
    · exact (congrArg settled arrived).trans (settled_settled via)
  | succ n =>
    have between : m.state = via := state
    have counter : m.remaining = n := remaining n rfl
    cases n with
    | zero =>
      rw [if_neg (by omega)]
      exact due_zero.mpr (congrArg settled between)
    | succ n =>
      rw [if_pos (by omega)]
      refine ⟨between, ?_⟩
      rintro k hk
      show m.remaining - 1 = k
      omega

end Machine

/-! ## Accounts -/

/-- So many readings of an instance still show the state in between. -/
def Due (a : Account) (id : String) (via : State) (n : Nat) : Prop :=
  ∃ m, a.roster.find? id = some m ∧ m.Due via n

variable {a b : Account} {id : String} {via source : State} {n : Nat} {c : Call}

/-- An instance has arrived if it is in the state that it was led to. -/
theorem due_zero : a.Due id via 0 ↔ a.state? id = some (Machine.settled via) := by
  rw [state?_eq_some_iff]
  constructor
  · rintro ⟨m, found, due⟩
    exact ⟨m, found, Machine.due_zero.mp due⟩
  · rintro ⟨m, found, state⟩
    exact ⟨m, found, Machine.due_zero.mpr state⟩

/-- A reading shows the state that the instance is in, and brings it nearer. -/
theorem Due.answer_status (h : a.Due id via n) :
    (a.answer (.status id)).1 = .ok (.of id (Machine.shown via n)) ∧
      (a.answer (.status id)).2.Due id via (n - 1) := by
  obtain ⟨m, found, due⟩ := h
  have reading : a.answer (.status id) = _ := read_of_some found
  rw [reading]
  refine ⟨congrArg (fun s => Except.ok (Status.of id s)) due.1, m.observe, ?_, due.observe⟩
  simp [Roster.find?_update, found]

/-- A call that has nothing to do with an instance leaves its passage. -/
theorem Due.answer_of_not_regards (h : a.Due id via n) (other : c.regards id = false) :
    (a.answer c).2.Due id via n := by
  obtain ⟨m, found, due⟩ := h
  exact ⟨m, (find?_answer other).trans found, due⟩

/-! ## The two passages -/

/-- The calls that lead an instance from one state to another, and the state in between. -/
inductive Leads (id : String) : Call → State → State → Prop where
  | stop : Leads id (.stop id) .running .stopping
  | start : Leads id (.start id) .stopped .pending

/-- The state in between is not where the instance is led, and the engine waits in it. -/
theorem Leads.waits (h : Leads id c source via) :
    via ≠ Machine.settled via ∧ via.canReach (Machine.settled via) = true := by
  cases h <;> exact ⟨nofun, rfl⟩

/-- Where an instance is led from is a state that it can have been led to. -/
theorem Leads.exists_due (h : Leads id c source via) :
    ∃ back, ∀ a : Account, a.Due id back 0 ↔ a.state? id = some source := by
  cases h with
  | stop => exact ⟨.pending, fun a => due_zero⟩
  | start => exact ⟨.stopping, fun a => due_zero⟩

theorem Machine.transition_of_source {m : Machine} {settle : Nat} {call : String}
    (here : m.state = source) (hv : source ≠ via) (hs : source ≠ Machine.settled via) :
    m.transition settle call source via = .ok { m with state := via, remaining := settle } :=
  Machine.transition_eq_ok_iff.mpr (.inr ⟨here ▸ hv, here ▸ hs, here, rfl⟩)

/-- A change to a machine that makes it due makes its instance due. -/
theorem due_change {m m' : Machine} {f : Machine → Except ProviderError Machine}
    (found : a.roster.find? id = some m) (h : f m = .ok m') (due : m'.Due via n) :
    (a.change id f).1 = .ok () ∧ (a.change id f).2.Due id via n := by
  rw [change_of_ok found h]
  refine ⟨rfl, m', ?_, due⟩
  simp [Roster.find?_update, found]

/-- A call that leads an instance somewhere is accepted, and as many readings as the account is set
to, and one more, show the state in between. -/
theorem Leads.answer (h : Leads id c source via) (here : a.state? id = some source) :
    (∃ x, (a.answer c).1 = .ok x) ∧ (a.answer c).2.Due id via (a.settle + 1) := by
  obtain ⟨m, found, state⟩ := state?_eq_some_iff.mp here
  have due : ({ m with state := via, remaining := a.settle } : Machine).Due via (a.settle + 1) :=
    ⟨rfl, fun k hk => Nat.succ.inj hk⟩
  cases h with
  | stop =>
    have moves : m.transition a.settle "stop" .running .stopping =
        .ok { m with state := .stopping, remaining := a.settle } :=
      Machine.transition_of_source state (by decide) (by decide)
    have led := due_change (f := (·.transition a.settle "stop" .running .stopping)) found moves due
    exact ⟨⟨(), led.1⟩, led.2⟩
  | start =>
    have moves : m.transition a.settle "start" .stopped .pending =
        .ok { m with state := .pending, remaining := a.settle } :=
      Machine.transition_of_source state (by decide) (by decide)
    have led := due_change (f := (·.transition a.settle "start" .stopped .pending)) found moves due
    exact ⟨⟨(), led.1⟩, led.2⟩

/-! ## What others leave of a passage -/

/-- The calls that do not lead an instance anywhere: they read its status, or have nothing to do
with it. -/
def Patient (id : String) (c : Call) : Prop := c = .status id ∨ c.regards id = false

theorem Due.answer_patient (h : a.Due id via n) (patient : Patient id c) :
    ∃ n', n' ≤ n ∧ (a.answer c).2.Due id via n' := by
  rcases patient with rfl | other
  · exact ⟨n - 1, Nat.sub_le n 1, h.answer_status.2⟩
  · exact ⟨n, Nat.le_refl n, h.answer_of_not_regards other⟩

variable {others : Call → Prop}

/-- Others can only bring an instance nearer, and if there are none then nothing is done to it. -/
theorem Used.due (h : a.Used others b) (patient : ∀ c, others c → Patient id c)
    (due : a.Due id via n) :
    ∃ n', b.Due id via n' ∧ n' ≤ n ∧ ((∀ c, ¬ others c) → n' = n) := by
  -- The invariant of the second case says too little for the first one: it only bounds the number.
  by_cases none : ∀ c, ¬ others c
  · have same : b = a :=
      h.invariant (P := fun d => d = a) (fun _ c hc _ => absurd hc (none c)) rfl
    exact ⟨n, same ▸ due, Nat.le_refl n, fun _ => rfl⟩
  · have near : ∃ n', n' ≤ n ∧ b.Due id via n' := by
      refine h.invariant (P := fun d => ∃ n', n' ≤ n ∧ d.Due id via n') ?_ ⟨n, Nat.le_refl n, due⟩
      rintro d c hc ⟨k, hk, due⟩
      obtain ⟨k', hk', due'⟩ := due.answer_patient (patient c hc)
      exact ⟨k', Nat.le_trans hk' hk, due'⟩
    obtain ⟨n', hn, due'⟩ := near
    exact ⟨n', due', hn, fun nobody => absurd nobody none⟩

/-- Others leave an instance where it is if it is not on its way. -/
theorem Used.state? (h : a.Used others b) (patient : ∀ c, others c → Patient id c)
    (leads : Leads id c source via) (here : a.state? id = some source) :
    b.state? id = some source := by
  obtain ⟨back, arrived⟩ := leads.exists_due
  obtain ⟨n', due, near, -⟩ := h.due patient ((arrived a).mpr here)
  obtain rfl := Nat.eq_zero_of_le_zero near
  exact (arrived b).mp due

end InstanceResize.Account
