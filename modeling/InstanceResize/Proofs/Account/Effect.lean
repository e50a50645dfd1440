import InstanceResize.Proofs.Account.Company

/-!
# What a change does to an account

A change gives an instance another type, or associates an address with it. It is the only call that
does so, and it does nothing else.

* `Account.Accepts`: an account offers what a change asks for.
* `Account.InForce`: a change has been made and stands.
* `Account.Kept`: an instance has its type and every address is as it was.
* `Account.Applied`: a change has been made to an account, and nothing else to types and addresses.
* `Account.Beside`: all that has to do with other instances is as it was.
* `Mutation.Spared`: the calls that do not meddle with a change.
-/

namespace InstanceResize

/-- Whether a call leaves what a change asks for and what it makes: it asks for no type of the
instance, or for no association of the allocation. -/
def Mutation.Spared (id : String) : Mutation → Call → Prop
  | .resize _, c => c.isChange = true → c.regards id = false
  | .associate allocation, c => ∀ other, c ≠ .associate other allocation

/-- A call that makes no change meddles with none. -/
theorem Mutation.spared_of_not_change {id : String} {c : Call} (h : c.isChange = false)
    (m : Mutation) : m.Spared id c := by
  cases m with
  | resize type =>
    intro change
    rw [h] at change
    cases change
  | associate allocation =>
    rintro other rfl
    cases h

namespace Account

/-! ## What can be said of a change -/

/-- An account offers what a change asks for: a type that has a name and may be asked for, or an
allocation whose first address is open. -/
def Accepts (a : Account) : Mutation → Prop
  | .resize type =>
    Text.trim type ≠ "" ∧
      (a.instanceTypes = [] ∨ a.instanceTypes.any (·.name == type) = true)
  | .associate allocation =>
    ∃ x, a.addresses.find? (·.allocationId = allocation) = some x ∧ x.isOpen = true

/-- A change is in force: the instance has the type, or the first address of the allocation is
associated with the instance. -/
def InForce (a : Account) (id : String) : Mutation → Prop
  | .resize type => a.instanceType? id = some type
  | .associate allocation =>
    ∃ x, a.addresses.find? (·.allocationId = allocation) = some x ∧
      x.associationId = some ("eipassoc-" ++ allocation) ∧ x.instanceId = some id

/-- An instance has its type, and every address is as it was. -/
structure Kept (id : String) (a b : Account) : Prop where
  instanceType : b.instanceType? id = a.instanceType? id
  addresses : b.addresses = a.addresses

/-- A change has been made, and nothing else to the type of the instance or to any address: of the
addresses, only the first one of the allocation is another one. -/
def Applied (id : String) (a b : Account) : Mutation → Prop
  | .resize type => b.instanceType? id = some type ∧ b.addresses = a.addresses
  | .associate allocation =>
    b.instanceType? id = a.instanceType? id ∧
      ∃ ahead x rest, a.addresses = ahead ++ x :: rest ∧
        (∀ y ∈ ahead, y.allocationId ≠ allocation) ∧ x.allocationId = allocation ∧
        b.addresses = ahead ++ associated id allocation x :: rest

/-- All that an account is besides one instance and the addresses is as it was. -/
structure Beside (id : String) (a b : Account) : Prop where
  settle : b.settle = a.settle
  instanceTypes : b.instanceTypes = a.instanceTypes
  machines : ∀ other, other ≠ id → b.roster.find? other = a.roster.find? other

variable {a b d : Account} {id : String} {m : Mutation} {c : Call}

theorem Kept.refl (id : String) (a : Account) : Kept id a a := ⟨rfl, rfl⟩

theorem Kept.trans (h₁ : Kept id a b) (h₂ : Kept id b d) : Kept id a d :=
  ⟨h₂.instanceType.trans h₁.instanceType, h₂.addresses.trans h₁.addresses⟩

theorem Beside.refl (id : String) (a : Account) : Beside id a a := ⟨rfl, rfl, fun _ _ => rfl⟩

theorem Beside.trans (h₁ : Beside id a b) (h₂ : Beside id b d) : Beside id a d where
  settle := h₂.settle.trans h₁.settle
  instanceTypes := h₂.instanceTypes.trans h₁.instanceTypes
  machines other h := (h₂.machines other h).trans (h₁.machines other h)

/-- A change that has been made is still made if nothing has changed before and since. -/
theorem Applied.congr {a' b' : Account} (before : Kept id a' a) (h : Applied id a b m)
    (since : Kept id b b') : Applied id a' b' m := by
  cases m with
  | resize type =>
    exact ⟨since.instanceType.trans h.1, since.addresses.trans (h.2.trans before.addresses)⟩
  | associate allocation =>
    obtain ⟨type, ahead, x, rest, split, first, hx, made⟩ := h
    refine ⟨since.instanceType.trans (type.trans before.instanceType), ahead, x, rest, ?_, first,
      hx, since.addresses.trans made⟩
    exact before.addresses.symm.trans split

/-- The first address of an allocation in a list that begins with others. -/
theorem find?_allocation {allocation : String} {ahead rest : List Address} {x : Address}
    (first : ∀ y ∈ ahead, y.allocationId ≠ allocation) (hx : x.allocationId = allocation) :
    (ahead ++ x :: rest).find? (·.allocationId = allocation) = some x := by
  refine List.find?_eq_some_iff_append.mpr ⟨decide_eq_true hx, ahead, rest, rfl, ?_⟩
  intro y hy
  simpa using first y hy

/-- A change that has been made is in force. -/
theorem Applied.inForce (h : Applied id a b m) : b.InForce id m := by
  cases m with
  | resize type => exact h.1
  | associate allocation =>
    obtain ⟨-, ahead, x, rest, -, first, hx, made⟩ := h
    refine ⟨associated id allocation x, ?_, rfl, rfl⟩
    rw [made]
    exact find?_allocation first hx

/-! ## What a call does to these -/

/-- A call about an instance leaves all that has to do with others. -/
theorem beside_answer (about : c.instanceId? = some id) : Beside id a (a.answer c).2 where
  settle := settle_answer a c
  instanceTypes := instanceTypes_answer a c
  machines _ h := find?_answer (Call.regards_of_instanceId? about h)

/-- A call that makes no change leaves the types and the addresses. -/
theorem kept_answer (calm : c.isChange = false) : Kept id a (a.answer c).2 where
  instanceType := instanceType?_answer fun change => by
    rw [calm] at change
    cases change
  addresses := addresses_answer fun _ _ hc => by
    rw [hc] at calm
    cases calm

/-- A change that is accepted does what it says, and nothing else. -/
theorem applied_answer {x : (Call.ofMutation id m).Result}
    (h : (a.answer (.ofMutation id m)).1 = .ok x) :
    Applied id a (a.answer (.ofMutation id m)).2 m := by
  cases m with
  | resize type =>
    have h : (a.change id (·.modify a.instanceTypes type)).1 = .ok () := h
    show Applied id a (a.change id (·.modify a.instanceTypes type)).2 (.resize type)
    rcases a.change_cases id (·.modify a.instanceTypes type) with
      ⟨e, hc⟩ | ⟨n, n', found, hm, hc⟩
    · rw [hc] at h
      cases h
    · obtain ⟨-, -, -, rfl⟩ := Machine.modify_eq_ok_iff.mp hm
      rw [hc]
      refine ⟨?_, rfl⟩
      simp [instanceType?, Roster.find?_update, found]
  | associate allocation =>
    have h : (a.associate id allocation).1 = .ok () := h
    show Applied id a (a.associate id allocation).2 (.associate allocation)
    rcases a.associate_cases id allocation with ⟨e, hc⟩ | ⟨n, addresses, -, taken, hc⟩
    · rw [hc] at h
      cases h
    · obtain ⟨ahead, y, rest, split, first, hy, -, rfl⟩ := associateFirst_eq_ok_iff.mp taken
      rw [hc]
      exact ⟨rfl, ahead, y, rest, split, first, hy, rfl⟩

/-- A change leaves the state of its instance. -/
theorem state?_answer_ofMutation (m : Mutation) :
    (a.answer (.ofMutation id m)).2.state? id = a.state? id := by
  cases m with
  | associate allocation => exact state?_associate allocation
  | resize type =>
    show (a.change id (·.modify a.instanceTypes type)).2.state? id = a.state? id
    rcases a.change_cases id (·.modify a.instanceTypes type) with ⟨e, hc⟩ | ⟨n, n', found, hm, hc⟩
    · rw [hc]
    · obtain ⟨-, -, -, rfl⟩ := Machine.modify_eq_ok_iff.mp hm
      rw [hc]
      simp [state?, Roster.find?_update, found]

/-- An account associates the first address of an allocation with an instance that is there, if it
is open. -/
theorem answer_associate_of_accepts {allocation : String} {n : Machine}
    (found : a.roster.find? id = some n) (accepts : a.Accepts (.associate allocation)) :
    (a.answer (.associate id allocation)).1 = .ok () := by
  obtain ⟨x, hx, free⟩ := accepts
  obtain ⟨here, ahead, rest, split, others⟩ := List.find?_eq_some_iff_append.mp hx
  have first : ∀ y ∈ ahead, y.allocationId ≠ allocation := by
    intro y hy
    simpa using others y hy
  have taken : associateFirst id allocation a.addresses =
      .ok (ahead ++ associated id allocation x :: rest) :=
    associateFirst_eq_ok_iff.mpr
      ⟨ahead, x, rest, split, first, of_decide_eq_true here, free, rfl⟩
  show (a.associate id allocation).1 = .ok ()
  unfold associate
  simp only [found, taken]

/-- An account takes a change of an instance that is stopped if it offers what is asked for. -/
theorem answer_of_accepts (stopped : a.state? id = some .stopped) (accepts : a.Accepts m) :
    ∃ x, (a.answer (.ofMutation id m)).1 = .ok x := by
  obtain ⟨n, found, hn⟩ := state?_eq_some_iff.mp stopped
  cases m with
  | resize type =>
    have taken : n.modify a.instanceTypes type = .ok { n with instanceType := type } :=
      Machine.modify_eq_ok_iff.mpr ⟨hn, accepts.1, accepts.2, rfl⟩
    exact ⟨(), congrArg Prod.fst (change_of_ok (f := (·.modify a.instanceTypes type)) found taken)⟩
  | associate allocation => exact ⟨(), answer_associate_of_accepts found accepts⟩

/-- A call that associates no address of an allocation leaves the first one of it. -/
theorem find?_addresses_answer {allocation : String}
    (h : ∀ other, c ≠ .associate other allocation) :
    (a.answer c).2.addresses.find? (·.allocationId = allocation) =
      a.addresses.find? (·.allocationId = allocation) := by
  rcases a.answer_cases c with ha | ⟨_, _, _, -, -, ha⟩ | ⟨other, another, ys, rfl, taken, ha⟩
  · rw [ha]
  · rw [ha]
  · have different : another ≠ allocation := fun same => h other (congrArg _ same)
    obtain ⟨ahead, x, rest, split, -, rfl, -, rfl⟩ := associateFirst_eq_ok_iff.mp taken
    rw [ha, split]
    simp [List.find?_append, associated, different]

theorem Accepts.answer (h : a.Accepts m) (spared : m.Spared id c) : (a.answer c).2.Accepts m := by
  cases m with
  | resize type =>
    unfold Accepts
    rw [instanceTypes_answer]
    exact h
  | associate allocation =>
    obtain ⟨x, hx, free⟩ := h
    exact ⟨x, (find?_addresses_answer spared).trans hx, free⟩

theorem InForce.answer (h : a.InForce id m) (spared : m.Spared id c) :
    (a.answer c).2.InForce id m := by
  cases m with
  | resize type => exact (instanceType?_answer spared).trans h
  | associate allocation =>
    obtain ⟨x, hx, associated⟩ := h
    exact ⟨x, (find?_addresses_answer spared).trans hx, associated⟩

/-! ## What a program does to these -/

section

variable {es : List Exchange}

/-- What every call keeps that leaves a change alone is kept by others who leave it alone, and by a
program that makes no change. -/
theorem Answers.keeps {others : Call → Prop} {P : Account → Prop} (h : a.Answers others es b)
    (keeps : ∀ d c, m.Spared id c → P d → P (d.answer c).2)
    (spared : ∀ c, others c → m.Spared id c) (calm : ∀ x ∈ es, x.call.isChange = false)
    (start : P a) : P b :=
  h.invariant (fun d c hc => keeps d c (spared c hc))
    (fun d x hx _ => keeps d x.call (Mutation.spared_of_not_change (calm x hx) m)) start

/-- If a program alone uses an account, and makes calls about one instance only, then all is kept
that has to do with others. -/
theorem Answers.beside (h : a.Answers nobody es b)
    (about : ∀ x ∈ es, x.call.instanceId? = some id) : Beside id a b := by
  refine h.invariant (P := fun b => Beside id a b) (fun _ _ none _ => none.elim) ?_
    (Beside.refl id a)
  intro b x hx _ before
  exact before.trans (beside_answer (about x hx))

/-- If a program alone uses an account, and no change of it is accepted, then all is kept that a
change is about. -/
theorem Answers.kept (h : a.Answers nobody es b)
    (refused : ∀ x ∈ es, x.call.isChange = true → ∃ e, x.reply = .error e) : Kept id a b := by
  refine h.invariant (P := fun b => Kept id a b) (fun _ _ none _ => none.elim) ?_ (Kept.refl id a)
  intro b x hx reply before
  cases change : x.call.isChange with
  | false => exact before.trans (kept_answer change)
  | true =>
    obtain ⟨e, declined⟩ := refused x hx change
    rw [answer_of_error (reply.trans declined)]
    exact before

end

end Account

end InstanceResize
