import InstanceResize.Proofs.Account.Company

/-!
# Instances of one account do not get in each other's way

All instances share an account, what it is set to, and the types that it offers. Yet what a call
does to an instance is settled by the machine of this instance and by these two alone, which no call
changes. So the answers about an instance are the same without any calls that have to do with
others.

* `Account.Alike`: two accounts that are the same as far as one instance is concerned.
* `Alike.answer`: they answer calls that have to do with the instance in the same way.
* `alike_answer`: other calls leave an account as it is, as far as the instance is concerned.
* `Account.replies`: what an account answers, one call after the other.
* `Alike.replies_filter`: the answers about an instance without those about others.
-/

namespace InstanceResize.Account

/-- Two accounts are the same as far as one instance is concerned. -/
structure Alike (id : String) (a b : Account) : Prop where
  machine : b.roster.find? id = a.roster.find? id
  settle : b.settle = a.settle
  instanceTypes : b.instanceTypes = a.instanceTypes

variable {id : String} {a b d : Account} {c : Call}

theorem Alike.refl (id : String) (a : Account) : Alike id a a := ⟨rfl, rfl, rfl⟩

theorem Alike.symm (h : Alike id a b) : Alike id b a :=
  ⟨h.machine.symm, h.settle.symm, h.instanceTypes.symm⟩

theorem Alike.trans (h₁ : Alike id a b) (h₂ : Alike id b d) : Alike id a d where
  machine := h₂.machine.trans h₁.machine
  settle := h₂.settle.trans h₁.settle
  instanceTypes := h₂.instanceTypes.trans h₁.instanceTypes

/-! ## One call -/

/-- Accounts that are alike stay so if their machines become the same. -/
theorem Alike.update (h : Alike id a b) (m : Machine) :
    Alike id { a with roster := a.roster.update id m }
      { b with roster := b.roster.update id m } where
  machine := by
    rw [Roster.find?_update, Roster.find?_update, if_pos rfl, if_pos rfl, h.machine]
  settle := h.settle
  instanceTypes := h.instanceTypes

/-- A change to the instance is the same on accounts that are alike. -/
theorem Alike.change (h : Alike id a b) (f : Machine → Except ProviderError Machine) :
    (b.change id f).1 = (a.change id f).1 ∧ Alike id (a.change id f).2 (b.change id f).2 := by
  cases found : a.roster.find? id with
  | none =>
    rw [change_of_none found, change_of_none (h.machine.trans found)]
    exact ⟨rfl, h⟩
  | some m =>
    have found' : b.roster.find? id = some m := h.machine.trans found
    cases hm : f m with
    | error e =>
      rw [change_of_error found hm, change_of_error found' hm]
      exact ⟨rfl, h⟩
    | ok m' =>
      rw [change_of_ok found hm, change_of_ok found' hm]
      exact ⟨rfl, h.update m'⟩

/-- So is a reading of it. -/
theorem Alike.read (h : Alike id a b) :
    (b.read id).1 = (a.read id).1 ∧ Alike id (a.read id).2 (b.read id).2 := by
  cases found : a.roster.find? id with
  | none =>
    rw [read_of_none found, read_of_none (h.machine.trans found)]
    exact ⟨rfl, h⟩
  | some m =>
    rw [read_of_some found, read_of_some (h.machine.trans found)]
    exact ⟨rfl, h.update m.observe⟩

/-- Accounts that are alike for an instance answer the calls that have to do with its machine in the
same way, and stay alike. -/
theorem Alike.answer (h : Alike id a b) (regards : c.regards id = true) :
    (b.answer c).1 = (a.answer c).1 ∧ Alike id (a.answer c).2 (b.answer c).2 := by
  cases c with
  | status other =>
    obtain rfl : other = id := of_decide_eq_true regards
    exact h.read
  | stop other =>
    obtain rfl : other = id := of_decide_eq_true regards
    show (b.change other (·.transition b.settle "stop" .running .stopping)).1 = _ ∧
      Alike other _ (b.change other (·.transition b.settle "stop" .running .stopping)).2
    rw [h.settle]
    exact h.change _
  | start other =>
    obtain rfl : other = id := of_decide_eq_true regards
    show (b.change other (·.transition b.settle "start" .stopped .pending)).1 = _ ∧
      Alike other _ (b.change other (·.transition b.settle "start" .stopped .pending)).2
    rw [h.settle]
    exact h.change _
  | modify other type =>
    obtain rfl : other = id := of_decide_eq_true regards
    show (b.change other (·.modify b.instanceTypes type)).1 = _ ∧
      Alike other _ (b.change other (·.modify b.instanceTypes type)).2
    rw [h.instanceTypes]
    exact h.change _
  | _ => cases regards

/-- A call that has nothing to do with the machine of an instance leaves the account as it is, as
far as the instance is concerned. -/
theorem alike_answer (other : c.regards id = false) : Alike id a (a.answer c).2 where
  machine := find?_answer other
  settle := settle_answer a c
  instanceTypes := instanceTypes_answer a c

/-! ## Several calls -/

/-- What an account answers, one call after the other. -/
def replies : Account → List Call → List Exchange
  | _, [] => []
  | a, c :: cs => ⟨c, (a.answer c).1⟩ :: replies (a.answer c).2 cs

theorem replies_cons (a : Account) (c : Call) (cs : List Call) :
    a.replies (c :: cs) = ⟨c, (a.answer c).1⟩ :: (a.answer c).2.replies cs := rfl

/-- The answers about the machine of an instance, and the machine in the end, are the same on
accounts that are alike, if all other calls are left out on one of them. -/
theorem Alike.replies_filter (h : Alike id a b) (cs : List Call) :
    (a.replies cs).filter (·.call.regards id) = b.replies (cs.filter (·.regards id)) ∧
      Alike id (a.after cs) (b.after (cs.filter (·.regards id))) := by
  induction cs generalizing a b with
  | nil => exact ⟨rfl, h⟩
  | cons c cs ih =>
    cases regards : c.regards id with
    | true =>
      obtain ⟨same, alike⟩ := h.answer regards
      obtain ⟨answers, left⟩ := ih alike
      rw [List.filter_cons_of_pos regards, replies_cons, replies_cons,
        List.filter_cons_of_pos (p := fun x : Exchange => x.call.regards id) regards, answers, same]
      exact ⟨rfl, left⟩
    | false =>
      have skipped : ¬ c.regards id = true := by
        rw [regards]
        exact Bool.false_ne_true
      obtain ⟨answers, left⟩ := ih ((alike_answer regards).symm.trans h)
      rw [List.filter_cons_of_neg skipped, replies_cons,
        List.filter_cons_of_neg (p := fun x : Exchange => x.call.regards id) skipped]
      exact ⟨answers, left⟩

end InstanceResize.Account
