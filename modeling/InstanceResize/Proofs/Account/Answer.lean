import InstanceResize.Proofs.Account.Standing

/-!
# What a call does to an account

A call leaves an account as it is, or moves the machine of one instance, or associates one address.
There is nothing else that it can do, and a call that is answered with an error does nothing at
all. What a call leaves alone follows from this.

* `Call.regards`: the calls that have to do with the machine of an instance.
* `Machine.Moves`: what such a call makes of the machine.
* `associateFirst_eq_ok_iff`: which address an association takes.
* `Account.answer_cases`: the three things that a call can do.
* `Account.answer_of_error`: a call that is answered with an error does nothing.
-/

namespace InstanceResize

/-- Whether a call reads, stops, starts or modifies an instance. An association does none of these;
the instance only has to be there. -/
def Call.regards (id : String) : Call → Bool
  | status other | stop other | start other | modify other _ => other = id
  | associate _ _ | addresses | instances | instanceTypes => false

/-- A call that has to do with the machine of an instance is about this instance. -/
theorem Call.instanceId?_of_regards {id : String} {c : Call} (h : c.regards id = true) :
    c.instanceId? = some id := by
  cases c with
  | status other => exact congrArg some (of_decide_eq_true h)
  | stop other => exact congrArg some (of_decide_eq_true h)
  | start other => exact congrArg some (of_decide_eq_true h)
  | modify other type => exact congrArg some (of_decide_eq_true h)
  | _ => cases h

/-- A call about one instance has nothing to do with the machine of another one. -/
theorem Call.regards_of_instanceId? {id other : String} {c : Call}
    (about : c.instanceId? = some id) (h : other ≠ id) : c.regards other = false := by
  refine Bool.eq_false_iff.mpr fun regards => ?_
  have about' : c.instanceId? = some other := instanceId?_of_regards regards
  exact h (Option.some.inj (about'.symm.trans about))

namespace Account

/-! ## Machines -/

namespace Machine

variable {m m' : Machine} {settle : Nat} {types : List InstanceType}

/-- A call that leads from one state to another is accepted if it was made already, and then does
nothing, or if the instance is where it leads from. -/
theorem transition_eq_ok_iff {call : String} {source via : State} :
    m.transition settle call source via = .ok m' ↔
      ((m.state = via ∨ m.state = settled via) ∧ m' = m) ∨
        (m.state ≠ via ∧ m.state ≠ settled via ∧ m.state = source ∧
          m' = { m with state := via, remaining := settle }) := by
  unfold transition
  by_cases made : m.state = via ∨ m.state = settled via
  · have other : ¬ (m.state ≠ via ∧ m.state ≠ settled via ∧ m.state = source ∧
        m' = { m with state := via, remaining := settle }) :=
      fun h => made.elim h.1 h.2.1
    rw [if_pos made]
    simp only [made, other, true_and, or_false]
    exact ⟨fun h => (Except.ok.inj h).symm, fun h => congrArg Except.ok h.symm⟩
  · obtain ⟨hv, hs⟩ := not_or.mp made
    by_cases here : m.state = source
    · simp [here ▸ hv, here ▸ hs, here, eq_comm]
    · simp [hv, hs, here]

/-- A type is accepted for an instance that is stopped, if it has a name and may be asked for. -/
theorem modify_eq_ok_iff {type : String} :
    m.modify types type = .ok m' ↔
      m.state = .stopped ∧ Text.trim type ≠ "" ∧
        (types = [] ∨ types.any (·.name == type) = true) ∧
        m' = { m with instanceType := type } := by
  unfold modify
  by_cases stopped : m.state = .stopped
  · rw [if_neg (not_not_intro stopped)]
    by_cases blank : Text.trim type = ""
    · rw [if_pos blank]
      exact iff_of_false nofun fun h => h.2.1 blank
    · rw [if_neg blank]
      by_cases offered : types = [] ∨ types.any (·.name == type) = true
      · have known : ¬ (types ≠ [] ∧ ¬ types.any (·.name == type) = true) := by
          intro h
          exact offered.elim h.1 h.2
        rw [if_neg known]
        constructor
        · intro h
          exact ⟨stopped, blank, offered, (Except.ok.inj h).symm⟩
        · rintro ⟨-, -, -, rfl⟩
          rfl
      · have unknown : types ≠ [] ∧ ¬ types.any (·.name == type) = true := not_or.mp offered
        rw [if_pos unknown]
        exact iff_of_false nofun fun h => offered h.2.2.1
  · rw [if_pos stopped]
    exact iff_of_false nofun fun h => stopped h.1

@[simp] theorem instanceType_observe (m : Machine) : m.observe.instanceType = m.instanceType := by
  unfold observe
  split <;> rfl

/-- What a call makes of the machine of its instance. -/
inductive Moves (settle : Nat) (types : List InstanceType) (id : String) :
    Call → Machine → Machine → Prop where
  | read (m : Machine) : Moves settle types id (.status id) m m.observe
  | stopped {m m' : Machine} (h : m.transition settle "stop" .running .stopping = .ok m') :
      Moves settle types id (.stop id) m m'
  | started {m m' : Machine} (h : m.transition settle "start" .stopped .pending = .ok m') :
      Moves settle types id (.start id) m m'
  | modified {m m' : Machine} {type : String} (h : m.modify types type = .ok m') :
      Moves settle types id (.modify id type) m m'

variable {id : String} {c : Call}

theorem Moves.regards (h : Moves settle types id c m m') : c.regards id = true := by
  cases h <;> exact decide_eq_true rfl

/-- Only a call that asks for a type changes the type of a machine. -/
theorem Moves.instanceType_eq (h : Moves settle types id c m m') (hc : c.isChange = false) :
    m'.instanceType = m.instanceType := by
  cases h with
  | read => exact instanceType_observe m
  | stopped h =>
    rcases transition_eq_ok_iff.mp h with ⟨-, rfl⟩ | ⟨-, -, -, rfl⟩ <;> rfl
  | started h =>
    rcases transition_eq_ok_iff.mp h with ⟨-, rfl⟩ | ⟨-, -, -, rfl⟩ <;> rfl
  | modified h => cases hc

end Machine

/-! ## Addresses -/

/-- An address as it is once it is associated with an instance. -/
def associated (id allocation : String) (x : Address) : Address :=
  { x with associationId := some ("eipassoc-" ++ allocation), instanceId := some id }

/-- An association takes the first address of its allocation, which has to be open, and leaves all
others. -/
theorem associateFirst_eq_ok_iff {id allocation : String} {xs ys : List Address} :
    associateFirst id allocation xs = .ok ys ↔
      ∃ ahead x rest, xs = ahead ++ x :: rest ∧ (∀ y ∈ ahead, y.allocationId ≠ allocation) ∧
        x.allocationId = allocation ∧ x.isOpen = true ∧
        ys = ahead ++ associated id allocation x :: rest := by
  -- An open address further on is of no use if the first one of its allocation is taken, so the
  -- addresses ahead are known to be of other allocations.
  induction xs generalizing ys with
  | nil =>
    constructor
    · intro h
      cases h
    · rintro ⟨ahead, x, rest, h, -⟩
      simp at h
  | cons a xs ih =>
    unfold associateFirst
    by_cases first : a.allocationId = allocation
    · rw [if_pos first]
      constructor
      · intro h
        by_cases free : a.isOpen = true
        · rw [if_pos free] at h
          have hys : associated id allocation a :: xs = ys := Except.ok.inj h
          exact ⟨[], a, xs, rfl, by simp, first, free, hys.symm⟩
        · rw [if_neg free] at h
          cases h
      · rintro ⟨_ | ⟨b, ahead⟩, x, rest, split, before, -, free, rfl⟩
        · obtain ⟨rfl, rfl⟩ := List.cons.inj split
          rw [if_pos free]
          rfl
        · obtain ⟨rfl, -⟩ := List.cons.inj split
          exact absurd first (before a List.mem_cons_self)
    · rw [if_neg first]
      constructor
      · intro h
        cases later : associateFirst id allocation xs with
        | error e =>
          rw [later] at h
          cases h
        | ok zs =>
          rw [later] at h
          obtain ⟨ahead, x, rest, rfl, before, hx, free, rfl⟩ := ih.mp later
          have hys : a :: (ahead ++ associated id allocation x :: rest) = ys := Except.ok.inj h
          refine ⟨a :: ahead, x, rest, rfl, ?_, hx, free, hys.symm⟩
          intro y hy
          rcases List.mem_cons.mp hy with rfl | hy
          · exact first
          · exact before y hy
      · rintro ⟨_ | ⟨b, ahead⟩, x, rest, split, before, hx, free, rfl⟩
        · obtain ⟨rfl, -⟩ := List.cons.inj split
          exact absurd hx first
        · obtain ⟨rfl, rfl⟩ := List.cons.inj split
          have later := ih.mpr ⟨ahead, x, rest, rfl,
            fun y hy => before y (List.mem_cons_of_mem _ hy), hx, free, rfl⟩
          rw [later]
          rfl

/-! ## The three things that a call can do -/

variable {a : Account} {id : String} {m m' : Machine} {c : Call}

section

variable {f : Machine → Except ProviderError Machine} {e : ProviderError}

theorem change_of_none (h : a.roster.find? id = none) :
    a.change id f = (.error (.notFound id), a) := by
  unfold change
  rw [h]

theorem change_of_ok (found : a.roster.find? id = some m) (h : f m = .ok m') :
    a.change id f = (.ok (), { a with roster := a.roster.update id m' }) := by
  unfold change
  simp only [found, h]

theorem change_of_error (found : a.roster.find? id = some m) (h : f m = .error e) :
    a.change id f = (.error e, a) := by
  unfold change
  simp only [found, h]

/-- A change is refused and does nothing, or it changes the machine of its instance. -/
theorem change_cases (a : Account) (id : String) (f : Machine → Except ProviderError Machine) :
    (∃ e, a.change id f = (.error e, a)) ∨
      ∃ m m', a.roster.find? id = some m ∧ f m = .ok m' ∧
        a.change id f = (.ok (), { a with roster := a.roster.update id m' }) := by
  cases found : a.roster.find? id with
  | none => exact .inl ⟨_, change_of_none found⟩
  | some m =>
    cases h : f m with
    | error e => exact .inl ⟨e, change_of_error found h⟩
    | ok m' => exact .inr ⟨m, m', rfl, h, change_of_ok found h⟩

theorem read_of_none (h : a.roster.find? id = none) : a.read id = (.error (.notFound id), a) := by
  unfold read
  rw [h]

theorem read_of_some (found : a.roster.find? id = some m) :
    a.read id = (.ok (.of id m.state), { a with roster := a.roster.update id m.observe }) := by
  unfold read
  rw [found]

/-- An association is refused and does nothing, or it takes the first address of its allocation. -/
theorem associate_cases (a : Account) (id allocation : String) :
    (∃ e, a.associate id allocation = (.error e, a)) ∨
      ∃ m addresses, a.roster.find? id = some m ∧
        associateFirst id allocation a.addresses = .ok addresses ∧
        a.associate id allocation = (.ok (), { a with addresses }) := by
  unfold associate
  cases a.roster.find? id with
  | none => exact .inl ⟨_, rfl⟩
  | some m =>
    cases associateFirst id allocation a.addresses with
    | error e => exact .inl ⟨e, rfl⟩
    | ok addresses => exact .inr ⟨m, addresses, rfl, rfl, rfl⟩

end

/-- A call leaves an account as it is, or moves the machine of one instance, or associates one
address. -/
theorem answer_cases (a : Account) (c : Call) :
    (a.answer c).2 = a ∨
      (∃ id m m', a.roster.find? id = some m ∧ m.Moves a.settle a.instanceTypes id c m' ∧
        (a.answer c).2 = { a with roster := a.roster.update id m' }) ∨
      ∃ id allocation addresses, c = .associate id allocation ∧
        associateFirst id allocation a.addresses = .ok addresses ∧
        (a.answer c).2 = { a with addresses } := by
  cases c with
  | status id =>
    cases found : a.roster.find? id with
    | none => exact .inl (congrArg Prod.snd (read_of_none found))
    | some m =>
      exact .inr (.inl ⟨id, m, _, found, .read m, congrArg Prod.snd (read_of_some found)⟩)
  | stop id =>
    rcases a.change_cases id (·.transition a.settle "stop" .running .stopping) with
      ⟨e, h⟩ | ⟨m, m', found, hm, h⟩
    · exact .inl (congrArg Prod.snd h)
    · exact .inr (.inl ⟨id, m, m', found, .stopped hm, congrArg Prod.snd h⟩)
  | start id =>
    rcases a.change_cases id (·.transition a.settle "start" .stopped .pending) with
      ⟨e, h⟩ | ⟨m, m', found, hm, h⟩
    · exact .inl (congrArg Prod.snd h)
    · exact .inr (.inl ⟨id, m, m', found, .started hm, congrArg Prod.snd h⟩)
  | modify id type =>
    rcases a.change_cases id (·.modify a.instanceTypes type) with ⟨e, h⟩ | ⟨m, m', found, hm, h⟩
    · exact .inl (congrArg Prod.snd h)
    · exact .inr (.inl ⟨id, m, m', found, .modified hm, congrArg Prod.snd h⟩)
  | associate id allocation =>
    rcases a.associate_cases id allocation with ⟨e, h⟩ | ⟨m, addresses, -, taken, h⟩
    · exact .inl (congrArg Prod.snd h)
    · exact .inr (.inr ⟨id, allocation, addresses, rfl, taken, congrArg Prod.snd h⟩)
  | addresses => exact .inl rfl
  | instances => exact .inl rfl
  | instanceTypes => exact .inl rfl

/-- A call that is answered with an error does nothing. -/
theorem answer_of_error {e : ProviderError} (h : (a.answer c).1 = .error e) :
    (a.answer c).2 = a := by
  have change : ∀ id f, (a.change id f).1 = .error e → (a.change id f).2 = a := by
    intro id f h
    rcases a.change_cases id f with ⟨e', hf⟩ | ⟨m, m', -, -, hf⟩
    · rw [hf]
    · rw [hf] at h
      cases h
  cases c with
  | status id =>
    have h : (a.read id).1 = .error e := h
    cases found : a.roster.find? id with
    | none => exact congrArg Prod.snd (read_of_none found)
    | some m =>
      rw [read_of_some found] at h
      cases h
  | stop id => exact change id _ h
  | start id => exact change id _ h
  | modify id type => exact change id _ h
  | associate id allocation =>
    have h : (a.associate id allocation).1 = .error e := h
    rcases a.associate_cases id allocation with ⟨e', ha⟩ | ⟨m, addresses, -, -, ha⟩
    · exact congrArg Prod.snd ha
    · rw [ha] at h
      cases h
  | addresses => cases h
  | instances => cases h
  | instanceTypes => cases h

/-! ## What a call leaves alone -/

@[simp] theorem settle_answer (a : Account) (c : Call) : (a.answer c).2.settle = a.settle := by
  rcases a.answer_cases c with h | ⟨id, m, m', -, -, h⟩ | ⟨id, allocation, addresses, -, -, h⟩ <;>
    rw [h]

@[simp] theorem instanceTypes_answer (a : Account) (c : Call) :
    (a.answer c).2.instanceTypes = a.instanceTypes := by
  rcases a.answer_cases c with h | ⟨id, m, m', -, -, h⟩ | ⟨id, allocation, addresses, -, -, h⟩ <;>
    rw [h]

/-- A call that has nothing to do with an instance leaves its machine. -/
theorem find?_answer (h : c.regards id = false) :
    (a.answer c).2.roster.find? id = a.roster.find? id := by
  rcases a.answer_cases c with ha | ⟨other, m, m', -, moves, ha⟩ | ⟨other, _, addresses, -, -, ha⟩
  · rw [ha]
  · have different : id ≠ other := by
      rintro rfl
      rw [moves.regards] at h
      cases h
    rw [ha]
    simp [Roster.find?_update, different]
  · rw [ha]

/-- Only an association changes an address. -/
theorem addresses_answer (h : ∀ id allocation, c ≠ .associate id allocation) :
    (a.answer c).2.addresses = a.addresses := by
  rcases a.answer_cases c with ha | ⟨id, m, m', -, -, ha⟩ | ⟨id, allocation, addresses, hc, -, -⟩
  · rw [ha]
  · rw [ha]
  · exact absurd hc (h id allocation)

/-- Only a call that asks for a type changes the type of an instance. -/
theorem instanceType?_answer (h : c.isChange = true → c.regards id = false) :
    (a.answer c).2.instanceType? id = a.instanceType? id := by
  unfold instanceType?
  cases regards : c.regards id with
  | false => rw [find?_answer regards]
  | true =>
    have calm : c.isChange = false := by
      refine Bool.eq_false_iff.mpr fun change => ?_
      rw [h change] at regards
      cases regards
    rcases a.answer_cases c with ha | ⟨other, m, m', found, moves, ha⟩ | ⟨_, _, _, rfl, -, -⟩
    · rw [ha]
    · have about := Call.instanceId?_of_regards moves.regards
      obtain rfl : other = id :=
        Option.some.inj (about.symm.trans (Call.instanceId?_of_regards regards))
      rw [ha]
      simp [Roster.find?_update, found, moves.instanceType_eq calm]
    · cases calm

end Account

end InstanceResize
