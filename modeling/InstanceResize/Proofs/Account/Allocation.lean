import InstanceResize.Proofs.Account.Effect
import InstanceResize.Proofs.Account.Lifecycle

/-!
# Allocations

The addresses of an account are listed in one order for good, each under its allocation. The only
thing that ever happens to an address is that an open one is associated with an instance, and that
is for good as well. So an allocation can be given to one instance only, the one that is named by
the first call that asks for it.

* `Address.label`: what of an address stays whatever happens to it.
* `addresses_answer_cases`: what a call does to the addresses.
* `getElem?_after_of_closed`: an address that is not open stays as it is.
* `answer_associate_eq_ok_iff`: an allocation is given to an instance that is there, as long as its
  first address is open.
* `accepts_after_iff`: the first address of an allocation is open until somebody is given it.
* `Account.Closed`: the first address of an allocation is associated with an instance.
-/

namespace InstanceResize

/-- What of an address is the same whatever instance it is associated with. -/
def Address.label (x : Address) : String × String := (x.publicIp, x.allocationId)

namespace Account

variable {a : Account} {c : Call} {cs : List Call} {id allocation : String} {i : Nat} {x : Address}

/-- An association with a name is one. -/
theorem isOpen_associated (id allocation : String) (x : Address) :
    (associated id allocation x).isOpen = false := by
  simp [Address.isOpen, associated]

/-! ## One call -/

/-- An address is the first one of an allocation in a list. -/
def IsFirst (allocation : String) (xs : List Address) (i : Nat) (x : Address) : Prop :=
  xs[i]? = some x ∧ x.allocationId = allocation ∧
    ∀ j y, j < i → xs[j]? = some y → y.allocationId ≠ allocation

/-- It is the one that is found by the allocation. -/
theorem IsFirst.find?_eq {xs : List Address} (h : IsFirst allocation xs i x) :
    xs.find? (·.allocationId = allocation) = some x := by
  obtain ⟨here, hx, first⟩ := h
  obtain ⟨within, hi⟩ := List.getElem?_eq_some_iff.mp here
  refine List.find?_eq_some_iff_getElem.mpr ⟨decide_eq_true hx, i, within, hi, fun j before => ?_⟩
  have other := first j xs[j] before (List.getElem?_eq_getElem _)
  simpa using other

theorem exists_isFirst {xs : List Address}
    (h : xs.find? (·.allocationId = allocation) = some x) : ∃ i, IsFirst allocation xs i x := by
  obtain ⟨hx, i, within, hi, first⟩ := List.find?_eq_some_iff_getElem.mp h
  refine ⟨i, hi ▸ List.getElem?_eq_getElem within, of_decide_eq_true hx, fun j y before hy => ?_⟩
  obtain ⟨_, rfl⟩ := List.getElem?_eq_some_iff.mp hy
  simpa using first j before

/-- What a call does to the addresses: nothing, or it associates the first one of an allocation,
which has to be open. -/
theorem addresses_answer_cases (a : Account) (c : Call) :
    (a.answer c).2.addresses = a.addresses ∨
      ∃ id allocation i x, c = .associate id allocation ∧ IsFirst allocation a.addresses i x ∧
        x.isOpen = true ∧
        (a.answer c).2.addresses = a.addresses.set i (associated id allocation x) := by
  rcases a.answer_cases c with h | ⟨_, _, _, -, -, h⟩ | ⟨id, allocation, ys, hc, taken, h⟩
  · exact .inl (by rw [h])
  · exact .inl (by rw [h])
  · obtain ⟨ahead, x, rest, split, first, hx, free, rfl⟩ := associateFirst_eq_ok_iff.mp taken
    refine .inr ⟨id, allocation, ahead.length, x, hc, ⟨?_, hx, fun j y before hy => ?_⟩, free, ?_⟩
    · rw [split]
      simp
    · rw [split, List.getElem?_append_left before] at hy
      exact first y (List.mem_of_getElem? hy)
    · rw [h, split]
      simp

@[simp] theorem map_label_answer (a : Account) (c : Call) :
    (a.answer c).2.addresses.map Address.label = a.addresses.map Address.label := by
  rcases a.addresses_answer_cases c with h | ⟨id, allocation, i, x, -, ⟨here, -, -⟩, -, h⟩
  · rw [h]
  · obtain ⟨within, hx⟩ := List.getElem?_eq_some_iff.mp here
    rw [h, List.map_set]
    show (a.addresses.map Address.label).set i x.label = a.addresses.map Address.label
    rw [← hx, ← List.getElem_map Address.label (h := by simpa using within)]
    exact List.set_getElem_self _

/-- An address that is not open stays as it is. -/
theorem getElem?_answer_of_closed (here : a.addresses[i]? = some x) (closed : x.isOpen = false) :
    (a.answer c).2.addresses[i]? = some x := by
  rcases a.addresses_answer_cases c with h | ⟨_, _, j, y, -, ⟨there, -, -⟩, free, h⟩
  · rw [h, here]
  · have elsewhere : j ≠ i := by
      rintro rfl
      rw [here] at there
      rw [Option.some.inj there, free] at closed
      cases closed
    rw [h, List.getElem?_set_ne elsewhere, here]

/-- An allocation is given to an instance that is there, as long as its first address is open. -/
theorem answer_associate_eq_ok_iff :
    (a.answer (.associate id allocation)).1 = .ok () ↔
      id ∈ a.ids ∧ a.Accepts (.associate allocation) := by
  show (a.associate id allocation).1 = .ok () ↔ _
  constructor
  · intro ok
    rcases a.associate_cases id allocation with ⟨e, h⟩ | ⟨m, ys, found, taken, -⟩
    · rw [h] at ok
      cases ok
    · obtain ⟨ahead, x, rest, split, first, hx, free, -⟩ := associateFirst_eq_ok_iff.mp taken
      refine ⟨Roster.mem_ids_iff.mpr ⟨m, found⟩, x, ?_, free⟩
      rw [split]
      exact find?_allocation first hx
  · rintro ⟨known, accepts⟩
    obtain ⟨m, found⟩ := Roster.mem_ids_iff.mp known
    exact answer_associate_of_accepts found accepts

/-- Whoever asks for an allocation whose first address is not open is refused. -/
theorem answer_associate_of_closed (known : id ∈ a.ids)
    (first : a.addresses.find? (·.allocationId = allocation) = some x) (closed : x.isOpen = false) :
    (a.answer (.associate id allocation)).1 =
      .error (.rejected "associate_address"
        ("allocation " ++ allocation ++ " is already associated")) := by
  obtain ⟨m, found⟩ := Roster.mem_ids_iff.mp known
  have refused : ∀ xs : List Address, xs.find? (·.allocationId = allocation) = some x →
      associateFirst id allocation xs = .error (.rejected "associate_address"
        ("allocation " ++ allocation ++ " is already associated")) := by
    intro xs
    induction xs with
    | nil => nofun
    | cons y xs ih =>
      intro first
      unfold associateFirst
      by_cases here : y.allocationId = allocation
      · obtain rfl : y = x := by simpa [here] using first
        rw [if_pos here, closed]
        rfl
      · have later : xs.find? (·.allocationId = allocation) = some x := by
          simpa [here] using first
        rw [if_neg here, ih later]
        rfl
  show (a.associate id allocation).1 = _
  unfold associate
  simp only [found, refused _ first]

/-- The first address of an allocation is associated with an instance. -/
def Closed (a : Account) (allocation : String) : Prop :=
  ∃ x, a.addresses.find? (·.allocationId = allocation) = some x ∧ x.isOpen = false

/-- An allocation that is taken cannot be had. -/
theorem Closed.not_accepts (h : a.Closed allocation) : ¬ a.Accepts (.associate allocation) := by
  rintro ⟨y, found, free⟩
  obtain ⟨x, first, closed⟩ := h
  rw [first] at found
  rw [Option.some.inj found, free] at closed
  cases closed

/-- An allocation that an instance has been given is taken. -/
theorem InForce.closed (h : a.InForce id (.associate allocation)) : a.Closed allocation := by
  obtain ⟨x, first, named, -⟩ := h
  exact ⟨x, first, by simp [Address.isOpen, named]⟩

/-- An allocation that is given to somebody is taken. -/
theorem closed_of_ok (h : (a.answer (.associate id allocation)).1 = .ok ()) :
    (a.answer (.associate id allocation)).2.Closed allocation :=
  (applied_answer (m := .associate allocation) h).inForce.closed

/-- The first address of an allocation is open after a call if it was before, unless the call asks
for the allocation on behalf of an instance that is there. -/
theorem accepts_answer_iff : (a.answer c).2.Accepts (.associate allocation) ↔
    a.Accepts (.associate allocation) ∧ ∀ id, c = .associate id allocation → id ∉ a.ids := by
  by_cases asks : ∃ id, c = .associate id allocation
  · obtain ⟨id, rfl⟩ := asks
    cases reply : (a.answer (.associate id allocation)).1 with
    | ok u =>
      have known := (answer_associate_eq_ok_iff.mp reply).1
      exact iff_of_false (closed_of_ok reply).not_accepts fun h => h.2 id rfl known
    | error e =>
      rw [answer_of_error reply]
      refine ⟨fun accepts => ⟨accepts, fun other same known => ?_⟩, And.left⟩
      cases same
      cases reply.symm.trans (answer_associate_eq_ok_iff.mpr ⟨known, accepts⟩)
  · have spared : ∀ id, c ≠ .associate id allocation := fun id h => asks ⟨id, h⟩
    show (∃ x, (a.answer c).2.addresses.find? _ = some x ∧ _) ↔ _
    rw [find?_addresses_answer spared]
    exact (and_iff_left fun id h => absurd h (spared id)).symm

theorem IsFirst.set {xs : List Address} (h : IsFirst allocation xs i x) (id : String) :
    IsFirst allocation (xs.set i (associated id allocation x)) i (associated id allocation x) := by
  obtain ⟨here, hx, first⟩ := h
  obtain ⟨within, -⟩ := List.getElem?_eq_some_iff.mp here
  refine ⟨List.getElem?_set_self within, hx, fun j y before hy => ?_⟩
  rw [List.getElem?_set_ne (Nat.ne_of_gt before)] at hy
  exact first j y before hy

/-- An allocation that is given to somebody is given by its first address, and all other addresses
stay as they are. -/
theorem exists_isFirst_of_ok (h : (a.answer (.associate id allocation)).1 = .ok ()) :
    ∃ i x, IsFirst allocation a.addresses i x ∧
      (a.answer (.associate id allocation)).2.addresses =
        a.addresses.set i (associated id allocation x) := by
  rcases a.addresses_answer_cases (.associate id allocation) with
    same | ⟨_, _, i, x, asked, isFirst, -, made⟩
  · obtain ⟨x, first, closed⟩ := closed_of_ok h
    rw [same] at first
    exact absurd (answer_associate_eq_ok_iff.mp h).2 (Closed.not_accepts ⟨x, first, closed⟩)
  · obtain ⟨rfl, rfl⟩ := Call.associate.inj asked
    exact ⟨i, x, isFirst, made⟩

/-! ## Any calls -/

@[simp] theorem ids_after (a : Account) (cs : List Call) : (a.after cs).ids = a.ids :=
  after_invariant (P := fun b => b.ids = a.ids) (fun b c _ same => (ids_answer b c).trans same) rfl

/-- The addresses keep their order, their names and their allocations. -/
theorem map_label_after (a : Account) (cs : List Call) :
    (a.after cs).addresses.map Address.label = a.addresses.map Address.label :=
  after_invariant (P := fun b => b.addresses.map Address.label = a.addresses.map Address.label)
    (fun b c _ same => (map_label_answer b c).trans same) rfl

/-- An address that is not open stays as it is. -/
theorem getElem?_after_of_closed (here : a.addresses[i]? = some x) (closed : x.isOpen = false)
    (cs : List Call) : (a.after cs).addresses[i]? = some x :=
  after_invariant (P := fun b => b.addresses[i]? = some x)
    (fun _ _ _ here => getElem?_answer_of_closed here closed) here

/-- The first address of an allocation is the first one of it for good. -/
theorem IsFirst.after (h : IsFirst allocation a.addresses i x) (closed : x.isOpen = false)
    (cs : List Call) : IsFirst allocation (a.after cs).addresses i x := by
  obtain ⟨here, hx, first⟩ := h
  refine ⟨getElem?_after_of_closed here closed cs, hx, fun j y before hy => ?_⟩
  have labels := congrArg (·[j]?) (a.map_label_after cs)
  simp only [List.getElem?_map, hy, Option.map_some] at labels
  obtain ⟨z, hz, label⟩ := Option.map_eq_some_iff.mp labels.symm
  have same : z.allocationId = y.allocationId := congrArg Prod.snd label
  exact same ▸ first j z before hz

/-- The first address of an allocation is open as long as nobody has asked for it on behalf of an
instance that is there. -/
theorem accepts_after_iff : (a.after cs).Accepts (.associate allocation) ↔
    a.Accepts (.associate allocation) ∧ ∀ id, .associate id allocation ∈ cs → id ∉ a.ids := by
  induction cs generalizing a with
  | nil => exact (and_iff_left fun id member => absurd member List.not_mem_nil).symm
  | cons c cs ih =>
    show ((a.answer c).2.after cs).Accepts _ ↔ _
    rw [ih, accepts_answer_iff, ids_answer, and_assoc]
    refine and_congr_right fun _ => ?_
    constructor
    · rintro ⟨now, later⟩ id member
      rcases List.mem_cons.mp member with rfl | member
      · exact now id rfl
      · exact later id member
    · intro all
      exact ⟨fun id same => all id (same ▸ List.mem_cons_self),
        fun id member => all id (List.mem_cons_of_mem c member)⟩

/-- An allocation that is taken is taken for good. -/
theorem Closed.after (h : a.Closed allocation) (cs : List Call) :
    (a.after cs).Closed allocation := by
  obtain ⟨x, first, closed⟩ := h
  obtain ⟨i, isFirst⟩ := exists_isFirst first
  exact ⟨x, (isFirst.after closed cs).find?_eq, closed⟩

end Account

end InstanceResize
