import InstanceResize.Provider.Account

/-!
# What a call does to the state of an instance

* `Account.state?`: the state that an instance of an account is in.
* `state?_answer_of_other`: a call about something else leaves it.
* `running_answer`: only a stop leads a running instance out of that state.
-/

namespace InstanceResize

namespace Account

namespace Roster

theorem find?_cons (entry : String × Machine) (roster : Roster) (id : String) :
    Roster.find? (entry :: roster) id =
      if id = entry.1 then some entry.2 else Roster.find? roster id := by
  rw [find?, List.lookup_cons]
  by_cases h : id = entry.1
  · simp [h]
  · have different : (id == entry.1) = false := by simpa using h
    simp [find?, different, h]

/-- The instances of a roster after one of them was changed. -/
theorem find?_update (roster : Roster) (id other : String) (m : Machine) :
    (roster.update id m).find? other =
      if other = id then (roster.find? id).map fun _ => m else roster.find? other := by
  induction roster with
  | nil => simp [update, Roster.find?]
  | cons entry roster ih =>
    have step : update (entry :: roster) id m =
        (if entry.1 = id then (id, m) else entry) :: update roster id m := rfl
    rw [step, find?_cons, find?_cons, find?_cons, ih]
    by_cases he : entry.1 = id
    · by_cases ho : other = id <;> simp [he, ho]
    · by_cases ho : other = id
      · subst ho
        simp [he, Ne.symm he]
      · simp [he, ho]

end Roster

/-- The state that an instance is in, if there is one with the identifier. -/
def state? (a : Account) (id : String) : Option State := (a.roster.find? id).map (·.state)

section

variable {a : Account} {id other : String} {f : Machine → Except ProviderError Machine}
  {m : Machine}

theorem state?_eq_some_iff {s : State} :
    a.state? id = some s ↔ ∃ m, a.roster.find? id = some m ∧ m.state = s :=
  Option.map_eq_some_iff

/-- A change to one instance leaves every other one. -/
theorem state?_change_of_ne (h : other ≠ id) : (a.change id f).2.state? other = a.state? other := by
  rw [change]
  split
  · rfl
  · split
    · simp [state?, Roster.find?_update, h]
    · rfl

theorem state?_read_of_ne (h : other ≠ id) : (a.read id).2.state? other = a.state? other := by
  rw [read]
  split
  · rfl
  · simp [state?, Roster.find?_update, h]

/-- A change to an instance is one to its machine. -/
theorem state?_change_self (found : a.roster.find? id = some m) :
    (a.change id f).2.state? id = some ((f m).toOption.getD m).state := by
  simp only [change, found]
  cases f m with
  | ok m' => simp [state?, Roster.find?_update, found, Except.toOption]
  | error e => simp [state?, found, Except.toOption]

theorem state?_read_self (found : a.roster.find? id = some m) :
    (a.read id).2.state? id = some m.observe.state := by
  rw [read, found]
  simp [state?, Roster.find?_update, found]

theorem state?_associate (allocation : String) :
    (a.associate id allocation).2.state? other = a.state? other := by
  rw [associate]
  split
  · rfl
  · split <;> rfl

/-- A call that is not about an instance leaves its state. -/
theorem state?_answer_of_other {c : Call} (h : c.instanceId? ≠ some id) :
    (a.answer c).2.state? id = a.state? id := by
  have different : ∀ other, c.instanceId? = some other → id ≠ other := by
    rintro other about rfl
    exact h about
  cases c with
  | status other => exact state?_read_of_ne (different other rfl)
  | stop other => exact state?_change_of_ne (different other rfl)
  | start other => exact state?_change_of_ne (different other rfl)
  | modify other type => exact state?_change_of_ne (different other rfl)
  | associate other allocation => exact state?_associate allocation
  | addresses => rfl
  | instances => rfl
  | instanceTypes => rfl

/-- A reading shows the state that an instance is in. -/
theorem state?_of_read {s : Status} (h : (a.answer (.status id)).1 = .ok s) :
    a.state? id = some s.state := by
  cases found : a.roster.find? id with
  | none => simp [answer, read, found] at h
  | some m =>
    have shown : s = Status.of id m.state := by simpa [answer, read, found] using h.symm
    rw [shown, Status.state_of, state?, found]
    rfl

/-- A running instance goes on running under every call but a stop of it. -/
theorem running_answer {c : Call} (running : a.state? id = some .running)
    (goes_on : c ≠ .stop id) : (a.answer c).2.state? id = some .running := by
  by_cases about : c.instanceId? = some id
  · obtain ⟨m, found, hm⟩ := state?_eq_some_iff.mp running
    cases c with
    | status other =>
      obtain rfl : other = id := Option.some.inj about
      refine (state?_read_self found).trans ?_
      rw [Machine.observe]
      split <;> simp [hm, Machine.settled]
    | stop other =>
      obtain rfl : other = id := Option.some.inj about
      exact absurd rfl goes_on
    | start other =>
      obtain rfl : other = id := Option.some.inj about
      refine (state?_change_self found).trans ?_
      simp [Machine.transition, hm, Machine.settled, Except.toOption]
    | modify other type =>
      obtain rfl : other = id := Option.some.inj about
      refine (state?_change_self found).trans ?_
      simp [Machine.modify, hm, Except.toOption]
    | associate other allocation => exact (state?_associate allocation).trans running
    | addresses => exact running
    | instances => exact running
    | instanceTypes => exact running
  · rw [state?_answer_of_other about, running]

end

end Account

end InstanceResize
