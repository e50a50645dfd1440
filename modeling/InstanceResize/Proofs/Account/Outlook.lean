import InstanceResize.Proofs.Account.Duration

/-!
# What further readings can show

An instance that nobody starts can still come to a halt if it is about to, or to run if it is about
to. Nothing else becomes of it, however often it is read. So there are states that it does not show
any more, and which ones they are can be told from a single reading.

* `State.canReach_eq_false_iff`: the states from which others are not reached.
* `state?_after_of_stuck`: an instance in such a state does not come to the others.
* `OutOfReach`: a state that an instance does not show any more, unless it is started.
* `outOfReach_of_answer`: which states these are after a reading.
* `reading`: what each further reading of an instance shows if nothing else is done to it.
-/

namespace InstanceResize

theorem State.canReach_eq_false_iff {s t : State} :
    s.canReach t = false ↔ s = .terminated ∨ s = .stopping ∧ t = .running := by
  cases s <;> cases t <;> simp [canReach]

namespace Account

variable {a b : Account} {id : String} {c : Call} {cs : List Call} {s t : State}

/-! ## Readings among other calls -/

/-- The state of an instance is left as it is by a call, or led to the next one. -/
theorem exists_state?_answer (here : a.state? id = some s) (c : Call) :
    ∃ s', (a.answer c).2.state? id = some s' ∧ (s' = s ∨ Passes id c s s') := by
  obtain ⟨m, found, rfl⟩ := state?_eq_some_iff.mp here
  obtain ⟨m', found'⟩ := exists_find?_answer found c
  refine ⟨m'.state, state?_eq_some_iff.mpr ⟨m', found', rfl⟩, ?_⟩
  rcases answer_moves found found' with rfl | moves
  · exact .inl rfl
  · exact moves.passes

/-- An instance in a state from which another one is not reached does not come to the other one, as
long as nobody starts it. -/
theorem state?_after_of_stuck (here : a.state? id = some s) (stuck : s.canReach t = false)
    (other : s ≠ t) (unstarted : ∀ c ∈ cs, c ≠ .start id) :
    (a.after cs).state? id ≠ some t := by
  rcases State.canReach_eq_false_iff.mp stuck with rfl | ⟨rfl, rfl⟩
  · have stays : (a.after cs).state? id = some .terminated :=
      after_invariant (P := fun b => b.state? id = some .terminated)
        (fun _ _ _ here => state?_answer_of_final (.inl rfl) here) here
    rw [stays]
    exact fun same => other (Option.some.inj same)
  · -- A halt is all that becomes of an instance that is about to halt.
    have halts : (a.after cs).state? id = some .stopping ∨
        (a.after cs).state? id = some .stopped := by
      refine after_invariant (P := fun b => b.state? id = some .stopping ∨
        b.state? id = some .stopped) ?_ (.inl here)
      rintro b c member (here | here)
      · obtain ⟨s', there, rfl | passes⟩ := exists_state?_answer here c
        · exact .inl there
        · cases passes
          exact .inr there
      · obtain ⟨s', there, rfl | passes⟩ := exists_state?_answer here c
        · exact .inr there
        · cases passes
          exact absurd rfl (unstarted _ member)
    rcases halts with halts | halts <;> rw [halts] <;> decide

/-- Every reading among several calls is answered by what the calls before it have left. -/
theorem exists_of_mem_readings {r : Except ProviderError Status}
    (h : r ∈ readings id (a.replies cs)) :
    ∃ before behind, cs = before ++ .status id :: behind ∧
      ((a.after before).answer (.status id)).1 = r := by
  induction cs generalizing a with
  | nil => cases h
  | cons c cs ih =>
    have later : r ∈ readings id ((a.answer c).2.replies cs) →
        ∃ before behind, c :: cs = before ++ .status id :: behind ∧
          ((a.after before).answer (.status id)).1 = r := by
      intro member
      obtain ⟨before, behind, rfl, answer⟩ := ih member
      exact ⟨c :: before, behind, rfl, answer⟩
    by_cases read : c = .status id
    · subst read
      rw [replies_cons, readings_cons_status] at h
      rcases List.mem_cons.mp h with rfl | member
      · exact ⟨[], cs, rfl, rfl⟩
      · exact later member
    · rw [replies_cons, readings_cons_of_ne read] at h
      exact later h

/-- No reading of an instance shows a state any more, whatever else is called, unless somebody
starts the instance. -/
def OutOfReach (a : Account) (id : String) (target : State) : Prop :=
  ∀ cs, (∀ c ∈ cs, c ≠ .start id) →
    ∀ status, .ok status ∈ readings id (a.replies cs) → status.state ≠ target

/-- After a reading, all states but the one that it shows are out of reach that are not reached from
there. -/
theorem outOfReach_of_answer {status : Status} (shown : (a.answer (.status id)).1 = .ok status)
    (stuck : status.state.canReach t = false) (other : status.state ≠ t) :
    (a.answer (.status id)).2.OutOfReach id t := by
  intro cs unstarted later member same
  obtain ⟨before, behind, rfl, answer⟩ := exists_of_mem_readings member
  have there : (a.after (.status id :: before)).state? id = some t := same ▸ state?_of_read answer
  refine state?_after_of_stuck (state?_of_read shown) stuck other (fun c member => ?_) there
  rcases List.mem_cons.mp member with rfl | member
  · exact nofun
  · exact unstarted c (List.mem_append_left _ member)

/-! ## Readings and nothing else -/

/-- The answer to a reading of an instance after so many others of it. -/
def reading (a : Account) (id : String) (k : Nat) : Except ProviderError Status :=
  ((a.after (List.replicate k (.status id))).answer (.status id)).1

theorem reading_succ (a : Account) (id : String) (k : Nat) :
    a.reading id (k + 1) = (a.answer (.status id)).2.reading id k := rfl

/-- What is shown does not depend on anything that has to do with other instances. -/
theorem Alike.reading (h : Alike id a b) (k : Nat) : b.reading id k = a.reading id k := by
  induction k generalizing a b with
  | zero => exact (h.answer (c := .status id) (decide_eq_true rfl)).1
  | succ k ih =>
    rw [reading_succ, reading_succ]
    exact ih (h.answer (c := .status id) (decide_eq_true rfl)).2

/-- A reading that shows a state from which another one is not reached is not followed by one that
shows the other one. -/
theorem reading_ne_of_stuck {i k : Nat} {status later : Status} (before : i < k)
    (shown : a.reading id i = .ok status) (stuck : status.state.canReach t = false)
    (other : status.state ≠ t) (shows : a.reading id k = .ok later) : later.state ≠ t := by
  obtain ⟨j, rfl⟩ := Nat.exists_eq_add_of_lt before
  have there : ((a.after (.replicate i (.status id))).after
      (.replicate (j + 1) (.status id))).state? id = some later.state := by
    rw [← after_append, List.replicate_append_replicate]
    exact state?_of_read shows
  intro same
  refine state?_after_of_stuck (state?_of_read shown) stuck other (fun c member => ?_)
    (same ▸ there)
  rw [List.eq_of_mem_replicate member]
  exact nofun

/-! ## Readings beside others -/

variable {others : Call → Prop}

/-- Others who have nothing to do with an instance leave the account as it is, as far as the
instance is concerned. -/
theorem Used.alike (h : a.Used others b) (apart : ∀ c, others c → c.regards id = false) :
    Alike id a b :=
  h.invariant (P := fun b => Alike id a b)
    (fun _ c hc alike => alike.trans (alike_answer (apart c hc))) (Alike.refl id a)

end Account

end InstanceResize
