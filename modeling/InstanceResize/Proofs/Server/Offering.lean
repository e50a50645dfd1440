import InstanceResize.Proofs.Server.Listing
import Mathlib.Data.List.Nodup

/-!
# What a server offers, and what an account takes

A server lists the addresses that are open and the types of the catalogue. Each entry of these lists
is judged on its own. The account goes by keys instead: it looks up the first address of an
allocation, and it takes no type without a name. So all that is offered can be had if the first
address of each allocation is open, and if every type has a name.

* `accepts_of_open`: an open address whose allocation is no other one's.
* `answer_modify_of_listed`: the types of the catalogue that can be had.
* `Offering`, `offering_of_calls`: what a server lists, and what of it can be had.
* `not_accepted_of_muddled`: an address and a type that are offered and cannot be had.
-/

namespace InstanceResize

open Account Server

namespace Account

variable {a : Account} {id : String} {x : Address} {t : InstanceType}

/-! ## Addresses -/

theorem map_allocationId_after (a : Account) (cs : List Call) :
    (a.after cs).addresses.map (·.allocationId) = a.addresses.map (·.allocationId) := by
  have labels := congrArg (List.map Prod.snd) (a.map_label_after cs)
  rwa [List.map_map, List.map_map] at labels

/-- An allocation has a first address if it has one. -/
theorem exists_isFirst_of_mem {xs : List Address} (member : x ∈ xs) :
    ∃ i y, IsFirst x.allocationId xs i y := by
  cases found : xs.find? (·.allocationId = x.allocationId) with
  | none => exact absurd (decide_eq_true rfl) (List.find?_eq_none.mp found x member)
  | some y =>
    obtain ⟨i, isFirst⟩ := exists_isFirst found
    exact ⟨i, y, isFirst⟩

/-- If the first address of an allocation is open, then it can be had. -/
theorem accepts_of_isFirst (listed : x ∈ Address.openOnes a.addresses)
    (free : ∀ i y, IsFirst x.allocationId a.addresses i y → y.isOpen = true) :
    a.Accepts (.associate x.allocationId) := by
  obtain ⟨i, y, isFirst⟩ := exists_isFirst_of_mem (List.mem_filter.mp listed).1
  exact ⟨y, isFirst.find?_eq, free i y isFirst⟩

/-- An open address whose allocation is no other one's can be had. -/
theorem accepts_of_open (apart : (a.addresses.map (·.allocationId)).Nodup)
    (listed : x ∈ Address.openOnes a.addresses) : a.Accepts (.associate x.allocationId) := by
  obtain ⟨member, free⟩ := List.mem_filter.mp listed
  refine accepts_of_isFirst listed fun i y isFirst => ?_
  obtain rfl : y = x :=
    List.inj_on_of_nodup_map apart (List.mem_of_getElem? isFirst.1) member isFirst.2.1
  exact free

/-! ## Types -/

/-- A type of the catalogue is taken for an instance that is stopped exactly if it has a name. -/
theorem answer_modify_of_listed (stopped : a.state? id = some .stopped)
    (listed : t ∈ a.instanceTypes) :
    (a.answer (.modify id t.name)).1 = .ok () ↔ Text.trim t.name ≠ "" := by
  obtain ⟨m, found, here⟩ := state?_eq_some_iff.mp stopped
  have known : a.instanceTypes.any (·.name == t.name) = true :=
    List.any_eq_true.mpr ⟨t, listed, beq_self_eq_true _⟩
  show (a.change id (·.modify a.instanceTypes t.name)).1 = .ok () ↔ _
  constructor
  · intro taken
    rcases a.change_cases id (·.modify a.instanceTypes t.name) with ⟨e, h⟩ | ⟨_, _, -, h, -⟩
    · rw [h] at taken
      cases taken
    · exact (Machine.modify_eq_ok_iff.mp h).2.1
  · intro named
    have taken := Machine.modify_eq_ok_iff.mpr ⟨here, named, .inr known, rfl⟩
    rw [change_of_ok found taken]

end Account

/-! ## What is offered -/

/-- What a server lists of an account that was set up in a certain way and took certain calls, and
what of it can be had. -/
structure Offering (s : Setup) (cs : List Call) : Prop where
  /-- A request for the addresses is answered with those that are open. -/
  addresses : ∀ (scene : Scene) r, scene.world.provider = .simulated ((ofSetup s).after cs) →
    r.method = "GET" → Route.ofPath? r.path = some .addresses →
    scene.Responds r
      (.document 200 ((Schema.list Address.schema).document
        (Address.openOnes ((ofSetup s).after cs).addresses)))
      ((ofSetup s).after cs)
  /-- A request for the types is answered with all of them. -/
  types : ∀ (scene : Scene) r, scene.world.provider = .simulated ((ofSetup s).after cs) →
    r.method = "GET" → Route.ofPath? r.path = some .instanceTypes →
    scene.Responds r
      (.document 200 ((Schema.list InstanceType.schema).document
        ((ofSetup s).after cs).instanceTypes))
      ((ofSetup s).after cs)
  /-- Every instance can be given a listed address if the first address of its allocation is
  open. -/
  address : ∀ x ∈ Address.openOnes ((ofSetup s).after cs).addresses,
    (∀ i y, IsFirst x.allocationId ((ofSetup s).after cs).addresses i y → y.isOpen = true) →
    ∀ id ∈ ((ofSetup s).after cs).ids,
      (((ofSetup s).after cs).answer (.associate id x.allocationId)).1 = .ok ()
  /-- So it can be given any of them if no two addresses were set up with one allocation. -/
  apart : (s.addresses.map (·.allocationId)).Nodup →
    ∀ x ∈ Address.openOnes ((ofSetup s).after cs).addresses, ∀ id ∈ ((ofSetup s).after cs).ids,
      (((ofSetup s).after cs).answer (.associate id x.allocationId)).1 = .ok ()
  /-- Every instance that is stopped can be changed to a listed type exactly if it has a name. -/
  type : ∀ t ∈ ((ofSetup s).after cs).instanceTypes,
    ∀ id, ((ofSetup s).after cs).state? id = some .stopped →
      ((((ofSetup s).after cs).answer (.modify id t.name)).1 = .ok () ↔ Text.trim t.name ≠ "")

/-- Whatever calls an account has taken, a server lists its open addresses and its types, and these
can be had if their keys are in order. -/
theorem offering_of_calls (s : Setup) (cs : List Call) : Offering s cs := by
  refine ⟨?_, ?_, ?_, ?_, ?_⟩
  · intro scene r simulated get path
    exact Scene.responds_of_route (c := .addresses) simulated get path fun _ => rfl
  · intro scene r simulated get path
    exact Scene.responds_of_route (c := .instanceTypes) simulated get path fun _ => rfl
  · intro x listed free id known
    exact answer_associate_eq_ok_iff.mpr ⟨known, accepts_of_isFirst listed free⟩
  · intro apart x listed id known
    refine answer_associate_eq_ok_iff.mpr ⟨known, accepts_of_open ?_ listed⟩
    rw [map_allocationId_after]
    exact apart
  · intro t listed id stopped
    exact answer_modify_of_listed stopped listed

/-- Two addresses with one allocation, the first of which is taken, and a type without a name. -/
def muddledSetup : Setup where
  settlePolls := 0
  instances := [⟨"i-1", "t3.nano", .stopped⟩]
  addresses :=
    [⟨"203.0.113.10", "eipalloc-1", some "eipassoc-9", some "i-9"⟩,
      .free "203.0.113.11" "eipalloc-1"]
  instanceTypes := [⟨" ", 2, 512, "EBS only", "Up to 5 Gigabit"⟩]

/-- An address is listed and cannot be had, since another one of its allocation is taken; a type is
listed and cannot be had, since it has no name. -/
theorem not_accepted_of_muddled :
    Address.free "203.0.113.11" "eipalloc-1" ∈ Address.openOnes (ofSetup muddledSetup).addresses ∧
      "i-1" ∈ (ofSetup muddledSetup).ids ∧
      ((ofSetup muddledSetup).answer (.associate "i-1" "eipalloc-1")).1 =
        .error (.rejected "associate_address" "allocation eipalloc-1 is already associated") ∧
      (∃ t ∈ (ofSetup muddledSetup).instanceTypes, t.name = " ") ∧
      (ofSetup muddledSetup).state? "i-1" = some .stopped ∧
      ((ofSetup muddledSetup).answer (.modify "i-1" " ")).1 =
        .error (.rejected "modify_instance_type" "instance type is empty") := by
  have offered : muddledSetup.instanceTypes[0] ∈ (ofSetup muddledSetup).instanceTypes := by
    simp [ofSetup, muddledSetup, InstanceType.catalogue]
  exact ⟨by decide, by decide, by rfl, ⟨_, offered, rfl⟩, by rfl, by rfl⟩

end InstanceResize
