import InstanceResize.Proofs.Account.Allocation
import InstanceResize.Proofs.Account.Apart
import InstanceResize.Proofs.Text.Order

/-!
# What a listing says

A listing has one row for each instance that an account was set up with, in the order of the bytes
of their identifiers. A row says what a reading of the instance would show. The calls that name an
instance do not find it exactly if there is no row for it. Listings do nothing to an account.

* `Roster.find?_insert`, `find?_ofSetup`: of several instances with one identifier the last counts.
* `Alike.after`: what is done to an instance does not depend on anything else in its account.
* `isRejection_of_answer`: an instance that is there is found, even by a call that is refused.
* `answer_of_missing`: one that is not there is not found, whatever the call.
* `mem_summaries_iff`: the rows of a listing.
* `after_filter`: listings among other calls do nothing.
* `Listed`, `listed_of_calls`: all of it.
-/

namespace InstanceResize

/-- Whether a call names an instance, which the listings do not. -/
def Call.isPointed (c : Call) : Bool := c.instanceId?.isSome

namespace Account

variable {a b : Account} {id other : String} {c : Call} {m : Machine} {e : ProviderError}

/-! ## Setting up -/

theorem Roster.find?_insert (id other : String) (m : Machine) (roster : Roster) :
    (roster.insert id m).find? other = if other = id then some m else roster.find? other := by
  induction roster with
  | nil => rw [insert, find?_cons]
  | cons entry roster ih =>
    unfold insert
    split
    · rw [find?_cons]
    · split
      · next same =>
        rw [find?_cons, find?_cons, ← same]
        split <;> rfl
      · next different =>
        rw [find?_cons, find?_cons, ih]
        by_cases here : other = id
        · rw [if_pos here, if_pos here, if_neg (here ▸ different)]
        · rw [if_neg here, if_neg here]

/-- Of several instances with one identifier the last one counts. -/
theorem find?_ofSetup {s : Setup} {ahead behind : List Seed} {seed : Seed}
    (split : s.instances = ahead ++ seed :: behind) (last : ∀ later ∈ behind, later.id ≠ seed.id) :
    (ofSetup s).roster.find? seed.id = some ⟨seed.instanceType, seed.state, 0⟩ := by
  have later : ∀ (seeds : List Seed) (roster : Roster), (∀ x ∈ seeds, x.id ≠ seed.id) →
      Roster.find? (seeds.foldl (fun roster x =>
        Roster.insert x.id ⟨x.instanceType, x.state, 0⟩ roster) roster) seed.id =
          roster.find? seed.id := by
    intro seeds
    induction seeds with
    | nil => exact fun _ _ => rfl
    | cons x seeds ih =>
      intro roster different
      rw [List.foldl_cons, ih _ fun y member => different y (List.mem_cons_of_mem x member),
        Roster.find?_insert, if_neg (different x List.mem_cons_self).symm]
  show Roster.find? (s.instances.foldl _ []) seed.id = _
  rw [split, List.foldl_append, List.foldl_cons, later _ _ last, Roster.find?_insert, if_pos rfl]

/-- What is done to an instance does not depend on anything else in its account. -/
theorem Alike.after (h : Alike id a b) (cs : List Call) : Alike id (a.after cs) (b.after cs) :=
  (h.replies_filter cs).2.trans ((Alike.refl id b).replies_filter cs).2.symm

/-! ## Instances that are there, and others -/

theorem Machine.isRejection_of_transition {settle : Nat} {call : String} {source via : State}
    (h : m.transition settle call source via = .error e) : e.isRejection = true := by
  unfold transition at h
  split at h
  · cases h
  · split at h
    · cases h
    · exact Except.error.inj h ▸ rfl

theorem Machine.isRejection_of_modify {types : List InstanceType} {type : String}
    (h : m.modify types type = .error e) : e.isRejection = true := by
  unfold modify at h
  split at h
  · exact Except.error.inj h ▸ rfl
  · split at h
    · exact Except.error.inj h ▸ rfl
    · split at h
      · exact Except.error.inj h ▸ rfl
      · cases h

theorem isRejection_of_associateFirst {allocation : String} {xs : List Address}
    (h : associateFirst id allocation xs = .error e) : e.isRejection = true := by
  induction xs generalizing e with
  | nil => exact Except.error.inj h ▸ rfl
  | cons x xs ih =>
    unfold associateFirst at h
    split at h
    · split at h
      · cases h
      · exact Except.error.inj h ▸ rfl
    · cases rest : associateFirst id allocation xs with
      | ok ys =>
        rw [rest] at h
        cases h
      | error e' =>
        rw [rest] at h
        exact Except.error.inj h ▸ ih rest

theorem isRejection_of_change {f : Machine → Except ProviderError Machine}
    (found : a.roster.find? id = some m) (refuses : ∀ e, f m = .error e → e.isRejection = true)
    (h : (a.change id f).1 = .error e) : e.isRejection = true := by
  cases made : f m with
  | ok m' =>
    rw [change_of_ok found made] at h
    cases h
  | error e' =>
    rw [change_of_error found made] at h
    exact Except.error.inj h ▸ refuses e' made

/-- An instance that is there is found by every call that names it. If the call is answered with an
error, then it is refused. -/
theorem isRejection_of_answer (found : a.roster.find? id = some m) (about : c.instanceId? = some id)
    (h : (a.answer c).1 = .error e) : e.isRejection = true := by
  cases c with
  | status other =>
    obtain rfl : other = id := Option.some.inj about
    rw [answer, read_of_some found] at h
    cases h
  | stop other =>
    obtain rfl : other = id := Option.some.inj about
    exact isRejection_of_change found (fun _ => Machine.isRejection_of_transition) h
  | start other =>
    obtain rfl : other = id := Option.some.inj about
    exact isRejection_of_change found (fun _ => Machine.isRejection_of_transition) h
  | modify other type =>
    obtain rfl : other = id := Option.some.inj about
    exact isRejection_of_change found (fun _ => Machine.isRejection_of_modify) h
  | associate other allocation =>
    obtain rfl : other = id := Option.some.inj about
    have h : (a.associate other allocation).1 = .error e := h
    unfold associate at h
    rw [found] at h
    cases taken : associateFirst other allocation a.addresses with
    | ok ys =>
      rw [taken] at h
      cases h
    | error e' =>
      rw [taken] at h
      exact Except.error.inj h ▸ isRejection_of_associateFirst taken
  | _ => cases about

/-- An instance that is not there is not found, whatever the call. -/
theorem answer_of_missing (missing : a.roster.find? id = none) (about : c.instanceId? = some id) :
    a.answer c = (.error (.notFound id), a) := by
  cases c with
  | status other =>
    obtain rfl : other = id := Option.some.inj about
    exact read_of_none missing
  | stop other =>
    obtain rfl : other = id := Option.some.inj about
    exact change_of_none missing
  | start other =>
    obtain rfl : other = id := Option.some.inj about
    exact change_of_none missing
  | modify other type =>
    obtain rfl : other = id := Option.some.inj about
    exact change_of_none missing
  | associate other allocation =>
    obtain rfl : other = id := Option.some.inj about
    show a.associate other allocation = _
    unfold associate
    rw [missing]
  | _ => cases about

/-! ## Rows -/

/-- The row of an instance in a listing. -/
def Machine.row (id : String) (m : Machine) : Summary := ⟨id, m.instanceType, m.state⟩

theorem map_instanceId_summaries (a : Account) : a.summaries.map (·.instanceId) = a.ids := by
  unfold summaries ids Roster.ids
  rw [List.map_map]
  rfl

/-- The rows of a listing are those of the instances. -/
theorem mem_summaries_iff (once : a.ids.Nodup) {row : Summary} :
    row ∈ a.summaries ↔
      ∃ m, a.roster.find? row.instanceId = some m ∧ row = m.row row.instanceId := by
  constructor
  · intro member
    obtain ⟨⟨id, m⟩, there, rfl⟩ := List.mem_map.mp member
    exact ⟨m, Roster.find?_of_mem once there, rfl⟩
  · rintro ⟨m, found, same⟩
    rw [same]
    exact List.mem_map.mpr ⟨_, Roster.mem_of_find? found, rfl⟩

/-- An instance has a row exactly if it is found. -/
theorem find?_eq_none_iff :
    a.roster.find? id = none ↔ ∀ row ∈ a.summaries, row.instanceId ≠ id := by
  have known : id ∈ a.summaries.map (·.instanceId) ↔ ∃ m, a.roster.find? id = some m := by
    rw [map_instanceId_summaries]
    exact Roster.mem_ids_iff
  rw [List.mem_map] at known
  cases found : a.roster.find? id with
  | none =>
    refine iff_of_true rfl fun row member same => ?_
    obtain ⟨m, there⟩ := known.mp ⟨row, member, same⟩
    exact nomatch found.symm.trans there
  | some m =>
    refine iff_of_false nofun fun missing => ?_
    obtain ⟨row, member, same⟩ := known.mpr ⟨m, found⟩
    exact missing row member same

/-! ## Listings among other calls -/

theorem answer_of_not_isPointed (h : c.isPointed = false) : (a.answer c).2 = a := by
  cases c with
  | addresses => rfl
  | instances => rfl
  | instanceTypes => rfl
  | _ => cases h

/-- Listings among other calls do nothing. -/
theorem after_filter (a : Account) (cs : List Call) :
    a.after (cs.filter Call.isPointed) = a.after cs := by
  induction cs generalizing a with
  | nil => rfl
  | cons c cs ih =>
    cases pointed : c.isPointed with
    | true =>
      rw [List.filter_cons_of_pos pointed]
      exact ih (a.answer c).2
    | false =>
      rw [List.filter_cons_of_neg (Bool.eq_false_iff.mp pointed), ih a]
      show a.after cs = (a.answer c).2.after cs
      rw [answer_of_not_isPointed pointed]

/-! ## All of it -/

/-- What the rows of a listing say of an account that was set up in a certain way and took certain
calls. -/
structure Listed (s : Setup) (cs : List Call) (rows : List Summary) : Prop where
  listing : (((ofSetup s).after cs).answer .instances).1 = .ok rows
  /-- There is one row for each identifier of the set-up, and the bytes of these are in order. -/
  known : ∀ id, (∃ row ∈ rows, row.instanceId = id) ↔ ∃ seed ∈ s.instances, seed.id = id
  ordered : (rows.map fun row => Text.Utf8.encode row.instanceId).Pairwise (· < ·)
  /-- Of several instances with one identifier the last one counts: its row is as it would be if
  there were no others, and begins with what it was set up with. -/
  last : ∀ ahead seed behind, s.instances = ahead ++ seed :: behind →
    (∀ later ∈ behind, later.id ≠ seed.id) → ∃ row ∈ rows, row.instanceId = seed.id ∧
      (((ofSetup { s with instances := [seed] }).after cs).answer .instances).1 = .ok [row] ∧
      (cs = [] → row = ⟨seed.id, seed.instanceType, seed.state⟩)
  /-- A row has the state that a reading shows, and the type of the instance. -/
  status : ∀ row ∈ rows, (((ofSetup s).after cs).answer (.status row.instanceId)).1 =
    .ok (.of row.instanceId row.state)
  type : ∀ row ∈ rows,
    ((ofSetup s).after cs).instanceType? row.instanceId = some row.instanceType
  /-- A call that names an instance does not find it exactly if there is no row for it. -/
  found : ∀ row ∈ rows, ∀ c, c.instanceId? = some row.instanceId →
    ∀ id, (((ofSetup s).after cs).answer c).1 ≠ .error (.notFound id)
  missing : ∀ c id, c.instanceId? = some id → (∀ row ∈ rows, row.instanceId ≠ id) →
    (((ofSetup s).after cs).answer c).1 = .error (.notFound id)
  /-- It does not matter how many listings are among the calls, and where. -/
  listings : ∀ ds, ds.filter Call.isPointed = cs.filter Call.isPointed →
    (ofSetup s).after ds = (ofSetup s).after cs

/-- The row of the last instance of an identifier is as if there were no others. -/
theorem exists_row_of_last {s : Setup} {ahead behind : List Seed} {seed : Seed}
    (split : s.instances = ahead ++ seed :: behind) (last : ∀ later ∈ behind, later.id ≠ seed.id)
    (cs : List Call) : ∃ m, ((ofSetup s).after cs).roster.find? seed.id = some m ∧
      ((ofSetup { s with instances := [seed] }).after cs).summaries = [m.row seed.id] ∧
      (cs = [] → m = ⟨seed.instanceType, seed.state, 0⟩) := by
  let single : Setup := { s with instances := [seed] }
  have own : (ofSetup single).roster.find? seed.id = some ⟨seed.instanceType, seed.state, 0⟩ :=
    find?_ofSetup (List.nil_append [seed]).symm nofun
  have alike : Alike seed.id (ofSetup single) (ofSetup s) := by
    refine ⟨?_, rfl, rfl⟩
    rw [find?_ofSetup split last]
    exact own.symm
  have ids : ((ofSetup single).after cs).ids = [seed.id] := ids_after _ cs
  obtain ⟨⟨id, m⟩, roster⟩ : ∃ entry, ((ofSetup single).after cs).roster = [entry] :=
    List.length_eq_one_iff.mp (by simpa [Account.ids, Roster.ids] using congrArg List.length ids)
  obtain rfl : id = seed.id := by simpa [Account.ids, roster] using ids
  have found : ((ofSetup single).after cs).roster.find? seed.id = some m := by
    rw [roster, Roster.find?_cons, if_pos rfl]
  refine ⟨m, (alike.after cs).machine.trans found, ?_, ?_⟩
  · show List.map _ ((ofSetup single).after cs).roster = _
    rw [roster]
    rfl
  · rintro rfl
    exact Option.some.inj (found.symm.trans own)

theorem listed_of_calls (s : Setup) (cs : List Call) :
    Listed s cs ((ofSetup s).after cs).summaries := by
  have ids : ((ofSetup s).after cs).ids = (ofSetup s).ids := ids_after _ cs
  have ordered : ((ofSetup s).after cs).ids.Pairwise (· < ·) := ids ▸ ids_ofSetup_pairwise s
  have once : ((ofSetup s).after cs).ids.Nodup := ordered.imp fun before => before.ne
  refine ⟨rfl, fun id => ?_, ?_, ?_, ?_, ?_, ?_, ?_, ?_⟩
  · rw [← mem_ids_ofSetup, ← ids, ← map_instanceId_summaries, List.mem_map]
  · rw [← map_instanceId_summaries, List.pairwise_map] at ordered
    exact List.pairwise_map.mpr (ordered.imp fun before => Text.Utf8.encode_lt_encode before)
  · intro ahead seed behind split last
    obtain ⟨m, found, alone, start⟩ := exists_row_of_last split last cs
    refine ⟨m.row seed.id, (mem_summaries_iff once).mpr ⟨m, found, rfl⟩, rfl, ?_, ?_⟩
    · exact congrArg Except.ok alone
    · intro none
      rw [start none]
      rfl
  · intro row member
    obtain ⟨m, found, same⟩ := (mem_summaries_iff once).mp member
    have read := congrArg Prod.fst (read_of_some found)
    rw [same]
    exact read
  · intro row member
    obtain ⟨m, found, same⟩ := (mem_summaries_iff once).mp member
    have type : row.instanceType = m.instanceType := congrArg Summary.instanceType same
    rw [instanceType?, found, type]
    rfl
  · intro row member c about id refused
    obtain ⟨m, found, -⟩ := (mem_summaries_iff once).mp member
    cases isRejection_of_answer found about refused
  · intro c id about missing
    exact congrArg Prod.fst (answer_of_missing (find?_eq_none_iff.mpr missing) about)
  · intro ds same
    rw [← after_filter, same, after_filter]

end Account

end InstanceResize
