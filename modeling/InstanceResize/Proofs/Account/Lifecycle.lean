import InstanceResize.Proofs.Account.Company
import Mathlib.Data.String.Basic

/-!
# The lifecycle of an instance

Whatever calls an account takes, its instances stay the same ones, and each of them goes through
its states in one order: from running by way of stopping to stopped, and from there by way of
pending back to running. Nothing else is ever done to an instance, except that a stopped one may be
given another type.

* `Roster.ids`, `Account.ids`: the identifiers of the instances, which are in order.
* `Passes`: the four ways from one state to the next.
* `Machine.Steady`: a machine counts readings only while it is on its way.
* `Machine.Moves.passes`, `Machine.Moves.steady`: what one call does to a machine.
* `Lifecycle`, `lifecycle_of_calls`: what any call does to an account that any calls were made to.
-/

namespace InstanceResize.Account

/-! ## Identifiers -/

namespace Roster

variable {roster : Roster} {id other : String} {m : Machine} {entry : String × Machine}

/-- The identifiers of the instances. -/
def ids (roster : Roster) : List String := roster.map Prod.fst

@[simp] theorem ids_nil : ids [] = [] := rfl

@[simp] theorem ids_cons (entry : String × Machine) (roster : Roster) :
    ids (entry :: roster) = entry.1 :: ids roster := rfl

@[simp] theorem ids_update (roster : Roster) (id : String) (m : Machine) :
    (roster.update id m).ids = roster.ids := by
  unfold update ids
  rw [List.map_map]
  refine List.map_congr_left fun entry _ => ?_
  show (if entry.1 = id then (id, m) else entry).1 = entry.1
  split
  · next same => exact same.symm
  · rfl

/-- An instance has an identifier exactly if it is found by it. -/
theorem mem_ids_iff : id ∈ roster.ids ↔ ∃ m, roster.find? id = some m := by
  induction roster with
  | nil => simp [find?]
  | cons entry roster ih =>
    rw [ids_cons, List.mem_cons, find?_cons]
    by_cases here : id = entry.1
    · simp [here]
    · simp [here, ih]

/-- What is found by its identifier is in the roster. -/
theorem mem_of_find? (found : roster.find? id = some m) : (id, m) ∈ roster := by
  induction roster with
  | nil => cases found
  | cons entry roster ih =>
    rw [find?_cons] at found
    by_cases here : id = entry.1
    · rw [if_pos here] at found
      rw [here, ← Option.some.inj found]
      exact List.mem_cons_self
    · rw [if_neg here] at found
      exact List.mem_cons_of_mem entry (ih found)

/-- Where every identifier stands once, an instance of the roster is found by its own. -/
theorem find?_of_mem (once : roster.ids.Nodup) (member : (id, m) ∈ roster) :
    roster.find? id = some m := by
  induction roster with
  | nil => cases member
  | cons entry roster ih =>
    obtain ⟨apart, once⟩ := List.nodup_cons.mp once
    rw [find?_cons]
    rcases List.mem_cons.mp member with rfl | member
    · exact if_pos rfl
    · have other : id ≠ entry.1 := by
        rintro rfl
        exact apart (List.mem_map.mpr ⟨_, member, rfl⟩)
      rw [if_neg other]
      exact ih once member

/-- A roster is as it was if an instance is put into its own place. -/
theorem update_self (once : roster.ids.Nodup) (found : roster.find? id = some m) :
    roster.update id m = roster := by
  have same : ∀ entry ∈ roster, (if entry.1 = id then (id, m) else entry) = entry := by
    rintro ⟨other, m'⟩ member
    by_cases here : other = id
    · subst here
      rw [find?_of_mem once member] at found
      rw [if_pos rfl, Option.some.inj found]
    · exact if_neg here
  exact (List.map_congr_left same).trans (List.map_id roster)

/-- An instance that is put into its place is there, and nothing else is new. -/
theorem mem_of_mem_insert (h : entry ∈ insert id m roster) : entry = (id, m) ∨ entry ∈ roster := by
  induction roster with
  | nil => exact .inl (List.mem_singleton.mp h)
  | cons first roster ih =>
    unfold insert at h
    split at h
    · exact List.mem_cons.mp h
    · split at h
      · exact (List.mem_cons.mp h).imp_right (List.mem_cons_of_mem first)
      · rcases List.mem_cons.mp h with rfl | h
        · exact .inr List.mem_cons_self
        · exact (ih h).imp_right (List.mem_cons_of_mem first)

theorem mem_ids_insert : other ∈ (insert id m roster).ids ↔ other = id ∨ other ∈ roster.ids := by
  induction roster with
  | nil => simp [insert]
  | cons first roster ih =>
    unfold insert
    split
    · simp
    · split
      · next same => simp [same]
      · rw [ids_cons, List.mem_cons, ih, ids_cons, List.mem_cons]
        exact or_left_comm

/-- An instance that is put into its place leaves the others in their order. -/
theorem pairwise_insert (h : roster.ids.Pairwise (· < ·)) :
    (insert id m roster).ids.Pairwise (· < ·) := by
  induction roster with
  | nil => exact List.pairwise_singleton ..
  | cons first roster ih =>
    obtain ⟨least, rest⟩ := List.pairwise_cons.mp h
    unfold insert
    split
    · next before =>
      refine List.pairwise_cons.mpr ⟨fun other member => ?_, h⟩
      rcases List.mem_cons.mp member with rfl | member
      · exact before
      · exact before.trans (least other member)
    · next notBefore =>
      split
      · next same => exact List.pairwise_cons.mpr ⟨same ▸ least, rest⟩
      · next different =>
        refine List.pairwise_cons.mpr ⟨fun other member => ?_, ih rest⟩
        rcases mem_ids_insert.mp member with rfl | member
        · exact lt_of_le_of_ne (not_lt.mp notBefore) (Ne.symm different)
        · exact least other member

end Roster

/-- The identifiers of the instances of an account. -/
def ids (a : Account) : List String := a.roster.ids

/-- What every instance of a set-up keeps that is put into its place is kept by all of them. -/
theorem ofSetup_invariant {P : Roster → Prop} {s : Setup}
    (keeps : ∀ roster, ∀ seed ∈ s.instances, P roster →
      P (roster.insert seed.id ⟨seed.instanceType, seed.state, 0⟩))
    (start : P []) : P (ofSetup s).roster := by
  have all : ∀ (seeds : List Seed) (roster : Roster), (∀ seed ∈ seeds, seed ∈ s.instances) →
      P roster → P (seeds.foldl (fun roster seed =>
        Roster.insert seed.id ⟨seed.instanceType, seed.state, 0⟩ roster) roster) := by
    intro seeds
    induction seeds with
    | nil => exact fun _ _ holds => holds
    | cons seed seeds ih =>
      intro roster known holds
      refine ih _ (fun other member => known other (List.mem_cons_of_mem seed member)) ?_
      exact keeps roster seed (known seed List.mem_cons_self) holds
  exact all s.instances [] (fun _ member => member) start

/-- The instances of an account are in the order of their identifiers. -/
theorem ids_ofSetup_pairwise (s : Setup) : (ofSetup s).ids.Pairwise (· < ·) :=
  ofSetup_invariant (P := fun roster => roster.ids.Pairwise (· < ·))
    (fun _ _ _ ordered => Roster.pairwise_insert ordered) List.Pairwise.nil

/-- An account has the identifiers that it was set up with. -/
theorem mem_ids_ofSetup {s : Setup} {id : String} :
    id ∈ (ofSetup s).ids ↔ ∃ seed ∈ s.instances, seed.id = id := by
  have all : ∀ (seeds : List Seed) (roster : Roster),
      id ∈ (seeds.foldl (fun roster seed =>
        Roster.insert seed.id ⟨seed.instanceType, seed.state, 0⟩ roster) roster).ids ↔
          (∃ seed ∈ seeds, seed.id = id) ∨ id ∈ roster.ids := by
    intro seeds
    induction seeds with
    | nil => simp
    | cons seed seeds ih =>
      intro roster
      rw [List.foldl_cons, ih, Roster.mem_ids_insert, List.exists_mem_cons_iff, eq_comm,
        or_left_comm, or_assoc]
  have here := all s.instances []
  rw [Roster.ids_nil] at here
  exact here.trans (or_iff_left List.not_mem_nil)

/-! ## States -/

/-- The four ways from one state of an instance to the next, and the calls that lead there. -/
inductive Passes (id : String) : Call → State → State → Prop where
  | stop : Passes id (.stop id) .running .stopping
  | halt : Passes id (.status id) .stopping .stopped
  | start : Passes id (.start id) .stopped .pending
  | wake : Passes id (.status id) .pending .running

/-- Nothing leads out of a state that is the last one or is not known. -/
theorem not_passes_of_final {id : String} {c : Call} {s t : State}
    (final : s = .terminated ∨ s = .unknown) : ¬ Passes id c s t := by
  rintro (_ | _ | _ | _) <;> rcases final with h | h <;> cases h

namespace Machine

variable {m m' : Machine} {settle : Nat} {types : List InstanceType} {id : String} {c : Call}

/-- A machine counts no more readings than an account is set to, and none unless it is on its way
from one state to another. -/
def Steady (settle : Nat) (m : Machine) : Prop :=
  m.remaining ≤ settle ∧ (m.state ≠ .stopping → m.state ≠ .pending → m.remaining = 0)

/-- A reading counts down, or a machine that has come to its end of the way has arrived. -/
theorem observe_cases (m : Machine) :
    (0 < m.remaining ∧ m.observe = { m with remaining := m.remaining - 1 }) ∨
      m.remaining = 0 ∧ m.observe = { m with state := settled m.state } := by
  unfold observe
  by_cases counting : 0 < m.remaining
  · exact .inl ⟨counting, if_pos counting⟩
  · exact .inr ⟨Nat.eq_zero_of_not_pos counting, if_neg counting⟩

/-- A call leaves the state of a machine or leads it to the next one. -/
theorem Moves.passes (h : Moves settle types id c m m') :
    m'.state = m.state ∨ Passes id c m.state m'.state := by
  cases h with
  | read =>
    rcases m.observe_cases with ⟨-, seen⟩ | ⟨-, seen⟩
    · exact .inl (by rw [seen])
    · rw [seen]
      show settled m.state = m.state ∨ Passes id _ m.state (settled m.state)
      cases m.state with
      | stopping => exact .inr .halt
      | pending => exact .inr .wake
      | _ => exact .inl rfl
  | stopped h =>
    rcases transition_eq_ok_iff.mp h with ⟨-, rfl⟩ | ⟨-, -, here, rfl⟩
    · exact .inl rfl
    · exact .inr (here ▸ .stop)
  | started h =>
    rcases transition_eq_ok_iff.mp h with ⟨-, rfl⟩ | ⟨-, -, here, rfl⟩
    · exact .inl rfl
    · exact .inr (here ▸ .start)
  | modified h =>
    obtain ⟨-, -, -, rfl⟩ := modify_eq_ok_iff.mp h
    exact .inl rfl

/-- A call leaves a machine that counts as it should. -/
theorem Moves.steady (h : Moves settle types id c m m') (steady : m.Steady settle) :
    m'.Steady settle := by
  obtain ⟨bounded, idle⟩ := steady
  cases h with
  | read =>
    rcases m.observe_cases with ⟨counting, seen⟩ | ⟨arrived, seen⟩
    · rw [seen]
      refine ⟨Nat.le_trans (Nat.sub_le _ 1) bounded, fun notStopping notPending => ?_⟩
      exact absurd (idle notStopping notPending) (Nat.ne_of_gt counting)
    · rw [seen]
      exact ⟨bounded, fun _ _ => arrived⟩
  | stopped h =>
    rcases transition_eq_ok_iff.mp h with ⟨-, rfl⟩ | ⟨-, -, -, rfl⟩
    · exact ⟨bounded, idle⟩
    · exact ⟨Nat.le_refl settle, fun notStopping _ => absurd rfl notStopping⟩
  | started h =>
    rcases transition_eq_ok_iff.mp h with ⟨-, rfl⟩ | ⟨-, -, -, rfl⟩
    · exact ⟨bounded, idle⟩
    · exact ⟨Nat.le_refl settle, fun _ notPending => absurd rfl notPending⟩
  | modified h =>
    obtain ⟨-, -, -, rfl⟩ := modify_eq_ok_iff.mp h
    exact ⟨bounded, idle⟩

/-- A call leaves the type of a machine, or it asks for another one, which may be asked for, and the
machine is stopped. -/
theorem Moves.retypes (h : Moves settle types id c m m') :
    m'.instanceType = m.instanceType ∨ c = .modify id m'.instanceType ∧ m.state = .stopped ∧
      Text.trim m'.instanceType ≠ "" ∧
        (types = [] ∨ types.any (·.name == m'.instanceType) = true) := by
  cases h with
  | modified h =>
    obtain ⟨stopped, named, offered, rfl⟩ := modify_eq_ok_iff.mp h
    exact .inr ⟨rfl, stopped, named, offered⟩
  | read => exact .inl (instanceType_observe m)
  | stopped h =>
    have moves : Moves settle types id (.stop id) m m' := .stopped h
    exact .inl (moves.instanceType_eq rfl)
  | started h =>
    have moves : Moves settle types id (.start id) m m' := .started h
    exact .inl (moves.instanceType_eq rfl)

end Machine

/-! ## One call -/

variable {a : Account} {c : Call} {id : String} {m m' : Machine}

@[simp] theorem ids_answer (a : Account) (c : Call) : (a.answer c).2.ids = a.ids := by
  unfold ids
  rcases a.answer_cases c with h | ⟨id, m, m', -, -, h⟩ | ⟨id, allocation, addresses, -, -, h⟩
  · rw [h]
  · rw [h, Roster.ids_update]
  · rw [h]

/-- A call leaves the machine of an instance as it is or moves it. -/
theorem answer_moves (found : a.roster.find? id = some m)
    (found' : (a.answer c).2.roster.find? id = some m') :
    m' = m ∨ m.Moves a.settle a.instanceTypes id c m' := by
  rcases a.answer_cases c with h | ⟨other, n, n', here, moves, h⟩ | ⟨_, _, addresses, -, -, h⟩
  · rw [h, found] at found'
    exact .inl (Option.some.inj found').symm
  · rw [h] at found'
    by_cases same : id = other
    · subst same
      rw [here] at found
      have moved : n' = m' := by simpa [Roster.find?_update, here] using found'
      exact .inr (moved ▸ Option.some.inj found ▸ moves)
    · have left : some m = some m' := by simpa [Roster.find?_update, same, found] using found'
      exact .inl (Option.some.inj left).symm
  · rw [h] at found'
    have left : a.roster.find? id = some m' := found'
    rw [found] at left
    exact .inl (Option.some.inj left).symm

/-- A call that does something to an account is answered with a result. -/
theorem exists_ok_of_answer_ne (h : (a.answer c).2 ≠ a) : ∃ x, (a.answer c).1 = .ok x := by
  cases reply : (a.answer c).1 with
  | error e => exact absurd (answer_of_error reply) h
  | ok x => exact ⟨x, rfl⟩

/-- An instance that is found after a call was found before it. -/
theorem exists_find?_of_answer (found : (a.answer c).2.roster.find? id = some m') :
    ∃ m, a.roster.find? id = some m := by
  rw [← Roster.mem_ids_iff]
  show id ∈ a.ids
  rw [← ids_answer a c]
  exact Roster.mem_ids_iff.mpr ⟨m', found⟩

/-- An instance that is found before a call is found after it. -/
theorem exists_find?_answer (found : a.roster.find? id = some m) (c : Call) :
    ∃ m', (a.answer c).2.roster.find? id = some m' := by
  rw [← Roster.mem_ids_iff]
  show id ∈ (a.answer c).2.ids
  rw [ids_answer]
  exact Roster.mem_ids_iff.mpr ⟨m, found⟩

/-- Every machine of an account counts as it should. -/
def Steady (a : Account) : Prop := ∀ id m, a.roster.find? id = some m → m.Steady a.settle

theorem Steady.answer (h : a.Steady) (c : Call) : (a.answer c).2.Steady := by
  intro id m' found'
  rw [settle_answer]
  obtain ⟨m, found⟩ := exists_find?_of_answer found'
  rcases answer_moves found found' with rfl | moves
  · exact h id m' found
  · exact moves.steady (h id m found)

/-- An account that has been set up counts nothing yet. -/
theorem steady_ofSetup (s : Setup) : (ofSetup s).Steady := by
  have idle : ∀ entry ∈ (ofSetup s).roster, entry.2.remaining = 0 := by
    refine ofSetup_invariant (P := fun roster => ∀ entry ∈ roster, entry.2.remaining = 0) ?_ nofun
    intro roster seed _ idle entry member
    rcases Roster.mem_of_mem_insert member with rfl | member
    · rfl
    · exact idle entry member
  intro id m found
  have zero : m.remaining = 0 := idle (id, m) (Roster.mem_of_find? found)
  exact ⟨zero ▸ Nat.zero_le _, fun _ _ => zero⟩

/-- An instance in a state that nothing leads out of stays in it. -/
theorem state?_answer_of_final {s : State} (final : s = .terminated ∨ s = .unknown)
    (here : a.state? id = some s) : (a.answer c).2.state? id = some s := by
  obtain ⟨m, found, rfl⟩ := state?_eq_some_iff.mp here
  have stays : id ∈ (a.answer c).2.ids := by
    rw [ids_answer]
    exact Roster.mem_ids_iff.mpr ⟨m, found⟩
  obtain ⟨m', found'⟩ := Roster.mem_ids_iff.mp stays
  refine state?_eq_some_iff.mpr ⟨m', found', ?_⟩
  rcases answer_moves found found' with rfl | moves
  · rfl
  · exact moves.passes.resolve_right (not_passes_of_final final)

/-! ## Any calls -/

/-- What a call does to an account `a` that was set up in a certain way: it leaves `b` and is
answered with `r`. -/
structure Lifecycle (s : Setup) (a b : Account) (c : Call) (r : c.Reply) : Prop where
  /-- The instances are those of the set-up, each once. -/
  known : ∀ id, id ∈ a.ids ↔ ∃ seed ∈ s.instances, seed.id = id
  once : a.ids.Nodup
  ids : b.ids = a.ids
  /-- A state is left only in the order of the lifecycle, by a call that is accepted. -/
  passes : ∀ id m m', a.roster.find? id = some m → b.roster.find? id = some m' →
    m'.state = m.state ∨ Passes id c m.state m'.state ∧ ∃ x, r = .ok x
  /-- No state comes after one that is the last or is not known, whatever calls are made. -/
  final : ∀ id state, state = .terminated ∨ state = .unknown → a.state? id = some state →
    ∀ cs, (a.after cs).state? id = some state
  /-- Readings are counted only on the way, and no more of them than the set-up says. -/
  counter : ∀ id m, a.roster.find? id = some m → m.remaining ≤ s.settlePolls.toNat ∧
    (m.state ≠ .stopping → m.state ≠ .pending → m.remaining = 0)
  /-- A type is given to a stopped instance only, by a call that is accepted. It has a name and is
  among those of the set-up, if there are any. -/
  retypes : ∀ id m m', a.roster.find? id = some m → b.roster.find? id = some m' →
    m'.instanceType = m.instanceType ∨ c = .modify id m'.instanceType ∧ (∃ x, r = .ok x) ∧
      m.state = .stopped ∧ Text.trim m'.instanceType ≠ "" ∧
        (s.instanceTypes = [] ∨ ∃ t ∈ s.instanceTypes, t.name = m'.instanceType)
  refused : ∀ e, r = .error e → b = a
  /-- A call about one instance leaves all others. -/
  others : ∀ id, c.instanceId? = some id → ∀ other, other ≠ id →
    b.roster.find? other = a.roster.find? other
  /-- A call about no instance leaves everything. -/
  listings : c.instanceId? = none → b = a

/-- The types of an account are those of its set-up in their order. -/
theorem offered_ofSetup {s : Setup} {type : String} :
    (InstanceType.catalogue s.instanceTypes = [] ∨
        (InstanceType.catalogue s.instanceTypes).any (·.name == type) = true) ↔
      (s.instanceTypes = [] ∨ ∃ t ∈ s.instanceTypes, t.name = type) := by
  have same : (InstanceType.catalogue s.instanceTypes).Perm s.instanceTypes :=
    List.mergeSort_perm ..
  have empty : InstanceType.catalogue s.instanceTypes = [] ↔ s.instanceTypes = [] := by
    rw [← List.length_eq_zero_iff, ← List.length_eq_zero_iff, same.length_eq]
  simp only [List.any_eq_true, same.mem_iff, empty, beq_iff_eq]

/-- Whatever calls were made to an account, the next call does to its instances only what their
lifecycle allows. -/
theorem lifecycle_of_calls (s : Setup) (cs : List Call) (c : Call) :
    Lifecycle s ((ofSetup s).after cs) (((ofSetup s).after cs).answer c).2 c
      (((ofSetup s).after cs).answer c).1 := by
  have settle : ((ofSetup s).after cs).settle = s.settlePolls.toNat :=
    after_invariant (P := fun a => a.settle = s.settlePolls.toNat)
      (fun a c _ same => (settle_answer a c).trans same) rfl
  have types : ((ofSetup s).after cs).instanceTypes = InstanceType.catalogue s.instanceTypes :=
    after_invariant (P := fun a => a.instanceTypes = InstanceType.catalogue s.instanceTypes)
      (fun a c _ same => (instanceTypes_answer a c).trans same) rfl
  have ids : ((ofSetup s).after cs).ids = (ofSetup s).ids :=
    after_invariant (P := fun a => a.ids = (ofSetup s).ids)
      (fun a c _ same => (ids_answer a c).trans same) rfl
  have steady : ((ofSetup s).after cs).Steady :=
    after_invariant (fun _ c _ steady => steady.answer c) (steady_ofSetup s)
  generalize (ofSetup s).after cs = a at settle types ids steady
  have accepted : ∀ id m m', a.roster.find? id = some m →
      (a.answer c).2.roster.find? id = some m' → m' ≠ m → ∃ x, (a.answer c).1 = .ok x := by
    intro id m m' found found' different
    refine exists_ok_of_answer_ne fun same => different ?_
    rw [same, found] at found'
    exact (Option.some.inj found').symm
  refine ⟨fun id => ?_, ?_, ids_answer a c, ?_, ?_, ?_, ?_, fun e => answer_of_error, ?_, ?_⟩
  · rw [ids]
    exact mem_ids_ofSetup
  · rw [ids]
    exact (ids_ofSetup_pairwise s).imp fun before => before.ne
  · intro id m m' found found'
    by_cases same : m'.state = m.state
    · exact .inl same
    · have different : m' ≠ m := fun equal => same (congrArg Machine.state equal)
      have moves := (answer_moves found found').resolve_left different
      exact .inr ⟨moves.passes.resolve_left same, accepted id m m' found found' different⟩
  · intro id state final here cs
    exact after_invariant (P := fun a => a.state? id = some state)
      (fun _ _ _ here => state?_answer_of_final final here) here
  · intro id m found
    rw [← settle]
    exact steady id m found
  · intro id m m' found found'
    by_cases same : m'.instanceType = m.instanceType
    · exact .inl same
    · have different : m' ≠ m := fun equal => same (congrArg Machine.instanceType equal)
      have moves := (answer_moves found found').resolve_left different
      obtain ⟨asked, stopped, named, offered⟩ := moves.retypes.resolve_left same
      rw [types] at offered
      exact .inr ⟨asked, accepted id m m' found found' different, stopped, named,
        offered_ofSetup.mp offered⟩
  · intro id about other different
    exact find?_answer (Call.regards_of_instanceId? about different)
  · intro listing
    cases c with
    | addresses => rfl
    | instances => rfl
    | instanceTypes => rfl
    | _ => cases listing

end InstanceResize.Account
