import InstanceResize.Engine.Program

/-!
# What happens in a run

A program asks, and what is outside of it answers: a provider, a clock, and whoever may cancel the
program. A run is written down moment by moment. A call has a beginning and an end, and so has a
pause, because a program can be cancelled in between; it cannot be cancelled at any other moment
of the run, because it goes from one such wait to the next in one step.

* `Moment`: one thing that happens.
* `exchanges`, `begun`, `pauses`, `emitted`: the calls, the pauses and the events among moments.
* `exchange`: what happens in a call.
-/

namespace InstanceResize

/-- A call together with the answer to it. -/
structure Exchange where
  call : Call
  reply : call.Reply

/-- One thing that happens in a run. -/
inductive Moment where
  /-- A call begins. -/
  | call (c : Call)
  /-- A call is answered. -/
  | reply (c : Call) (r : c.Reply)
  /-- A pause begins. -/
  | rest (ms : UInt64)
  /-- A pause is over. -/
  | wake
  /-- The program is cancelled. -/
  | cancel
  | emit (e : Event)

namespace Moment

/-- The exchange that a moment ends. -/
@[simp] def exchange? : Moment → Option Exchange
  | reply c r => some ⟨c, r⟩
  | _ => none

/-- The call that begins at a moment. -/
@[simp] def call? : Moment → Option Call
  | call c => some c
  | _ => none

/-- The pause that begins at a moment. -/
@[simp] def pause? : Moment → Option UInt64
  | rest ms => some ms
  | _ => none

/-- The event that is emitted at a moment. -/
@[simp] def event? : Moment → Option Event
  | emit e => some e
  | _ => none

/-- Whether the program is cancelled at a moment. -/
@[simp] def isCancel : Moment → Bool
  | cancel => true
  | _ => false

end Moment

/-- Where the one member of a list stands that has a property. -/
theorem append_cons_unique {α : Type} {P : α → Prop} {as bs cs ds : List α} {x y : α}
    (has : ∀ a ∈ as, ¬ P a) (hbs : ∀ b ∈ bs, ¬ P b) (hy : P y)
    (h : as ++ x :: bs = cs ++ y :: ds) : cs = as ∧ ds = bs := by
  rcases List.append_eq_append_iff.mp h with ⟨_ | ⟨z, u⟩, rfl, ht⟩ | ⟨_ | ⟨z, u⟩, rfl, ht⟩
  · exact ⟨List.append_nil _, (List.cons.inj ht).2.symm⟩
  · obtain ⟨rfl, rfl⟩ := List.cons.inj ht
    exact absurd hy (hbs y (by simp))
  · exact ⟨(List.append_nil _).symm, (List.cons.inj ht).2⟩
  · obtain ⟨rfl, rfl⟩ := List.cons.inj ht
    exact absurd hy (has y (by simp))

/-! ## What moments say -/

/-- The calls that were answered, with their answers. -/
def exchanges (t : List Moment) : List Exchange := t.filterMap Moment.exchange?

/-- The calls that were begun. -/
def begun (t : List Moment) : List Call := t.filterMap Moment.call?

/-- The pauses that were begun. -/
def pauses (t : List Moment) : List UInt64 := t.filterMap Moment.pause?

/-- The events that were emitted. -/
def emitted (t : List Moment) : List Event := t.filterMap Moment.event?

/-- Whether the program was cancelled. -/
def wasCancelled (t : List Moment) : Bool := t.any Moment.isCancel

section

variable (m : Moment) (t u : List Moment)

@[simp] theorem exchanges_nil : exchanges [] = [] := rfl

@[simp] theorem exchanges_cons : exchanges (m :: t) = m.exchange?.toList ++ exchanges t := by
  cases m <;> rfl

@[simp] theorem exchanges_append : exchanges (t ++ u) = exchanges t ++ exchanges u :=
  List.filterMap_append

@[simp] theorem begun_nil : begun [] = [] := rfl

@[simp] theorem begun_cons : begun (m :: t) = m.call?.toList ++ begun t := by
  cases m <;> rfl

@[simp] theorem begun_append : begun (t ++ u) = begun t ++ begun u := List.filterMap_append

@[simp] theorem pauses_nil : pauses [] = [] := rfl

@[simp] theorem pauses_cons : pauses (m :: t) = m.pause?.toList ++ pauses t := by
  cases m <;> rfl

@[simp] theorem pauses_append : pauses (t ++ u) = pauses t ++ pauses u := List.filterMap_append

@[simp] theorem emitted_nil : emitted [] = [] := rfl

@[simp] theorem emitted_cons : emitted (m :: t) = m.event?.toList ++ emitted t := by
  cases m <;> rfl

@[simp] theorem emitted_append : emitted (t ++ u) = emitted t ++ emitted u :=
  List.filterMap_append

@[simp] theorem wasCancelled_nil : wasCancelled [] = false := rfl

@[simp] theorem wasCancelled_cons : wasCancelled (m :: t) = (m.isCancel || wasCancelled t) :=
  List.any_cons

@[simp] theorem wasCancelled_append :
    wasCancelled (t ++ u) = (wasCancelled t || wasCancelled u) := List.any_append

end

/-- A program is cancelled once only. -/
theorem cancel_unique {t u pre post : List Moment} (ht : wasCancelled t = false)
    (hu : wasCancelled u = false) (h : t ++ .cancel :: u = pre ++ .cancel :: post) :
    pre = t ∧ post = u :=
  append_cons_unique (List.any_eq_false.mp ht) (List.any_eq_false.mp hu) rfl h

/-- Nothing happens but that events are emitted. -/
def Silent (t : List Moment) : Prop := ∀ m ∈ t, ∃ e, m = .emit e

theorem silent_nil : Silent [] := fun _ h => absurd h List.not_mem_nil

theorem silent_emit (e : Event) : Silent [.emit e] := fun _ h => ⟨e, List.mem_singleton.mp h⟩

theorem Silent.append {t u : List Moment} (ht : Silent t) (hu : Silent u) : Silent (t ++ u) :=
  fun m hm => (List.mem_append.mp hm).elim (ht m) (hu m)

theorem begun_of_silent {t : List Moment} (h : Silent t) : begun t = [] :=
  List.filterMap_eq_nil_iff.mpr fun m hm => by
    obtain ⟨e, rfl⟩ := h m hm
    rfl

/-- Something else than an event comes before a silent end. -/
theorem Silent.exists_cons {past t u : List Moment} {m : Moment} (silent : Silent u)
    (h : past ++ u = m :: t) (hm : ∀ e, m ≠ .emit e) :
    ∃ past', past = m :: past' ∧ t = past' ++ u := by
  rcases past with _ | ⟨x, past⟩
  · obtain ⟨e, he⟩ := silent m (by simp [show u = m :: t from h])
    exact absurd he (hm e)
  · obtain ⟨rfl, rfl⟩ := List.cons.inj h
    exact ⟨past, rfl, rfl⟩

/-! ## A call -/

/-- A whole call; the program may be struck by its cancellation meanwhile. -/
def exchange (c : Call) (r : c.Reply) (struck : Bool) : List Moment :=
  if struck then [.call c, .cancel, .reply c r] else [.call c, .reply c r]

section

variable (c : Call) (r : c.Reply) (struck : Bool)

@[simp] theorem exchanges_exchange : exchanges (exchange c r struck) = [⟨c, r⟩] := by
  cases struck <;> rfl

@[simp] theorem begun_exchange : begun (exchange c r struck) = [c] := by
  cases struck <;> rfl

@[simp] theorem pauses_exchange : pauses (exchange c r struck) = [] := by
  cases struck <;> rfl

@[simp] theorem emitted_exchange : emitted (exchange c r struck) = [] := by
  cases struck <;> rfl

@[simp] theorem wasCancelled_exchange : wasCancelled (exchange c r struck) = struck := by
  cases struck <;> rfl

end

theorem exchange_append_inj {c : Call} {r r' : c.Reply} {struck struck' : Bool}
    {t t' : List Moment} (h : exchange c r struck ++ t = exchange c r' struck' ++ t') :
    struck = struck' ∧ r = r' ∧ t = t' := by
  cases struck with
  | false =>
    cases struck' with
    | false => simpa [exchange] using h
    | true => simp [exchange] at h
  | true =>
    cases struck' with
    | false => simp [exchange] at h
    | true => simpa [exchange] using h

/-- A whole call comes before a silent end. -/
theorem Silent.exists_exchange {c : Call} {r : c.Reply} {struck : Bool} {past t u : List Moment}
    (silent : Silent u) (h : past ++ u = exchange c r struck ++ t) :
    ∃ past', past = exchange c r struck ++ past' ∧ t = past' ++ u := by
  cases struck with
  | false =>
    have h : past ++ u = .call c :: .reply c r :: t := h
    obtain ⟨past₁, rfl, h₁⟩ := silent.exists_cons h nofun
    obtain ⟨past₂, rfl, rfl⟩ := silent.exists_cons h₁.symm nofun
    exact ⟨past₂, rfl, rfl⟩
  | true =>
    have h : past ++ u = .call c :: .cancel :: .reply c r :: t := h
    obtain ⟨past₁, rfl, h₁⟩ := silent.exists_cons h nofun
    obtain ⟨past₂, rfl, h₂⟩ := silent.exists_cons h₁.symm nofun
    obtain ⟨past₃, rfl, rfl⟩ := silent.exists_cons h₂.symm nofun
    exact ⟨past₃, rfl, rfl⟩

/-- The moments of a call. -/
theorem exchange_eq_append_cons {c : Call} {r : c.Reply} {struck : Bool} {pre post : List Moment}
    {m : Moment} (h : exchange c r struck = pre ++ m :: post) :
    (pre = [] ∧ m = .call c ∧ exchanges post = [⟨c, r⟩]) ∨
      (struck = true ∧ pre = [.call c] ∧ m = .cancel ∧ post = [.reply c r]) ∨
      m = .reply c r := by
  cases struck with
  | false =>
    rcases pre with _ | ⟨x, _ | ⟨y, pre⟩⟩
    · cases h
      exact .inl ⟨rfl, rfl, rfl⟩
    · cases h
      exact .inr (.inr rfl)
    · simp [exchange] at h
  | true =>
    rcases pre with _ | ⟨x, _ | ⟨y, _ | ⟨z, pre⟩⟩⟩
    · cases h
      exact .inl ⟨rfl, rfl, rfl⟩
    · cases h
      exact .inr (.inl ⟨rfl, rfl, rfl, rfl⟩)
    · cases h
      exact .inr (.inr rfl)
    · simp [exchange] at h

/-- Where a moment can stand if a call is the first thing that happens. -/
theorem exchange_append_eq_append_cons {c : Call} {r : c.Reply} {struck : Bool}
    {t pre post : List Moment} {m : Moment} (h : exchange c r struck ++ t = pre ++ m :: post) :
    (pre = [] ∧ m = .call c ∧ exchanges post = ⟨c, r⟩ :: exchanges t) ∨
      (struck = true ∧ pre = [.call c] ∧ m = .cancel ∧ post = .reply c r :: t) ∨
      m = .reply c r ∨ ∃ pre', pre = exchange c r struck ++ pre' ∧ t = pre' ++ m :: post := by
  rcases List.append_eq_append_iff.mp h with ⟨pre', hp, ht⟩ | ⟨_ | ⟨x, u⟩, he, ht⟩
  · exact .inr (.inr (.inr ⟨pre', hp, ht⟩))
  · exact .inr (.inr (.inr ⟨[], by simpa using he.symm, ht.symm⟩))
  · obtain ⟨rfl, rfl⟩ := List.cons.inj ht
    rcases exchange_eq_append_cons he with ⟨rfl, rfl, hu⟩ | ⟨rfl, rfl, rfl, rfl⟩ | rfl
    · exact .inl ⟨rfl, rfl, by simp [hu]⟩
    · exact .inr (.inl ⟨rfl, rfl, rfl, rfl⟩)
    · exact .inr (.inr (.inl rfl))

end InstanceResize
