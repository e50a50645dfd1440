import InstanceResize.Proofs.Run.Moment

/-!
# Runs of a program

* `Program.Runs`: the runs of a program, with what happens in them. They start with a program that
  is cancelled or is not.
* `Program.runs_bind`: a run of one program after another is a run of the one and then a run of
  the other.
* `Program.Runs.struck`: a program is only cancelled in a call or in a pause, and once.
* `Program.Runs.decided`: a run has one result only once all is answered.
* `Program.Happens`: the runs with all that happens in them, a cancellation before the start
  included.
-/

namespace InstanceResize

namespace Program

variable {α β : Type}

/-- The runs of a program that is cancelled at their start, or is not: what happens in them, and
the result. Nobody cancels a program twice. A pause of a program that is cancelled is over before
it begins, and a cancellation at the end of a pause comes before that end. -/
inductive Runs : Program α → Bool → List Moment → α → Prop where
  | done (b : Bool) (a : α) : Runs (.done a) b [] a
  | call {b : Bool} {c : Call} {next : c.Reply → Program α} {r : c.Reply} {t : List Moment} {a : α}
      (struck : Bool) (once : struck = true → b = false)
      (rest : Runs (next r) (b || struck) t a) :
      Runs (.call c next) b (exchange c r struck ++ t) a
  | passOver {ms : UInt64} {next : Bool → Program α} {t : List Moment} {a : α}
      (rest : Runs (next true) true t a) : Runs (.wait ms next) true t a
  | interrupt {ms : UInt64} {next : Bool → Program α} {t : List Moment} {a : α}
      (rest : Runs (next true) true t a) :
      Runs (.wait ms next) false (.rest ms :: .cancel :: t) a
  | sleep {ms : UInt64} {next : Bool → Program α} {t : List Moment} {a : α}
      (rest : Runs (next false) false t a) :
      Runs (.wait ms next) false (.rest ms :: .wake :: t) a
  | cancelled {b : Bool} {next : Bool → Program α} {t : List Moment} {a : α}
      (rest : Runs (next b) b t a) : Runs (.cancelled next) b t a
  | emit {b : Bool} {e : Event} {next : Program α} {t : List Moment} {a : α}
      (rest : Runs next b t a) : Runs (.emit e next) b (.emit e :: t) a

/-- The runs of a program with all that happens in them, also before they start. -/
def Happens (p : Program α) (t : List Moment) (a : α) : Prop :=
  p.Runs false t a ∨ ∃ u, t = .cancel :: u ∧ p.Runs true u a

variable {b : Bool} {t : List Moment} {a a' : α}

@[simp] theorem runs_done : (done a).Runs b t a' ↔ t = [] ∧ a' = a := by
  constructor
  · intro h
    cases h
    exact ⟨rfl, rfl⟩
  · rintro ⟨rfl, rfl⟩
    exact .done b _

theorem runs_call {c : Call} {next : c.Reply → Program α} :
    (call c next).Runs b t a ↔
      ∃ struck r u, (struck = true → b = false) ∧ t = exchange c r struck ++ u ∧
        (next r).Runs (b || struck) u a := by
  constructor
  · intro h
    cases h with
    | call struck once rest => exact ⟨struck, _, _, once, rfl, rest⟩
  · rintro ⟨struck, r, u, once, rfl, rest⟩
    exact .call struck once rest

/-- A program that is cancelled passes over its pauses. -/
@[simp] theorem runs_wait_true {ms : UInt64} {next : Bool → Program α} :
    (wait ms next).Runs true t a ↔ (next true).Runs true t a := by
  constructor
  · intro h
    cases h
    assumption
  · exact .passOver

theorem runs_wait_false {ms : UInt64} {next : Bool → Program α} :
    (wait ms next).Runs false t a ↔
      (∃ u, t = .rest ms :: .cancel :: u ∧ (next true).Runs true u a) ∨
        ∃ u, t = .rest ms :: .wake :: u ∧ (next false).Runs false u a := by
  constructor
  · intro h
    cases h with
    | interrupt rest => exact .inl ⟨_, rfl, rest⟩
    | sleep rest => exact .inr ⟨_, rfl, rest⟩
  · rintro (⟨u, rfl, rest⟩ | ⟨u, rfl, rest⟩)
    · exact .interrupt rest
    · exact .sleep rest

@[simp] theorem runs_cancelled {next : Bool → Program α} :
    (cancelled next).Runs b t a ↔ (next b).Runs b t a := by
  constructor
  · intro h
    cases h
    assumption
  · exact .cancelled

theorem runs_emit {e : Event} {next : Program α} :
    (emit e next).Runs b t a ↔ ∃ u, t = .emit e :: u ∧ next.Runs b u a := by
  constructor
  · intro h
    cases h with
    | emit rest => exact ⟨_, rfl, rest⟩
  · rintro ⟨u, rfl, rest⟩
    exact .emit rest

/-- Every call that begins is answered, and before another one begins. -/
theorem Runs.begun_eq {p : Program α} (h : p.Runs b t a) :
    begun t = (exchanges t).map Exchange.call := by
  induction h with
  | call struck once rest ih => simp [ih]
  | done => rfl
  | passOver rest ih => exact ih
  | cancelled rest ih => exact ih
  | _ rest ih => simpa using ih

/-- After a call has begun, its answer is the first of all answers. -/
theorem Runs.answered {p : Program α} {pre post : List Moment} {c : Call}
    (h : p.Runs b (pre ++ .call c :: post) a) : ∃ r rest, exchanges post = ⟨c, r⟩ :: rest := by
  generalize ht : pre ++ .call c :: post = t at h
  induction h generalizing pre with
  | done b a => simp at ht
  | call struck once rest ih =>
    rcases exchange_append_eq_append_cons ht.symm with ⟨-, hc, he⟩ | ⟨-, -, hc, -⟩ | hc | ⟨u, -, hu⟩
    · obtain rfl := Moment.call.inj hc
      exact ⟨_, _, he⟩
    · cases hc
    · cases hc
    · exact ih hu.symm
  | passOver rest ih => exact ih ht
  | interrupt rest ih =>
    rcases pre with _ | ⟨x, _ | ⟨y, pre⟩⟩ <;> simp at ht
    exact ih ht.2.2
  | sleep rest ih =>
    rcases pre with _ | ⟨x, _ | ⟨y, pre⟩⟩ <;> simp at ht
    exact ih ht.2.2
  | cancelled rest ih => exact ih ht
  | emit rest ih =>
    rcases pre with _ | ⟨x, pre⟩ <;> simp at ht
    exact ih ht.2

/-- Nobody cancels a program twice, and one that is cancelled does not pause. -/
theorem Runs.calm {p : Program α} (h : p.Runs true t a) :
    wasCancelled t = false ∧ pauses t = [] := by
  generalize hb : true = b at h
  induction h with
  | done => exact ⟨rfl, rfl⟩
  | call struck once rest ih =>
    cases struck with
    | true => exact absurd (hb.trans (once rfl)) (by decide)
    | false => simpa using ih (by simpa using hb)
  | passOver rest ih => exact ih rfl
  | interrupt rest ih => cases hb
  | sleep rest ih => cases hb
  | cancelled rest ih => exact ih hb
  | emit rest ih => simpa using ih hb

/-- What happens before and after a cancellation. -/
inductive Struck : List Moment → List Moment → Prop where
  /-- A call is under way, and is answered. -/
  | calling (pre : List Moment) (c : Call) (r : c.Reply) (post : List Moment) :
      Struck (pre ++ [.call c]) (.reply c r :: post)
  | pausing (pre : List Moment) (ms : UInt64) (post : List Moment) :
      Struck (pre ++ [.rest ms]) post

theorem Struck.after {pre post : List Moment} (h : Struck pre post) (past : List Moment) :
    Struck (past ++ pre) post := by
  cases h with
  | calling pre c r post =>
    rw [← List.append_assoc]
    exact .calling _ c r post
  | pausing pre ms post =>
    rw [← List.append_assoc]
    exact .pausing _ ms post

/-- A program that runs is only cancelled in a call or in a pause, and once. -/
theorem Runs.struck {p : Program α} {pre post : List Moment}
    (h : p.Runs b (pre ++ .cancel :: post) a) :
    b = false ∧ wasCancelled pre = false ∧ wasCancelled post = false ∧ Struck pre post := by
  have hb : b = false := by
    cases b with
    | false => rfl
    | true => simpa using h.calm.1
  refine ⟨hb, ?_⟩
  generalize ht : pre ++ .cancel :: post = t at h
  induction h generalizing pre with
  | done b a => simp at ht
  | @call b c next r t a struck once rest ih =>
    rcases exchange_append_eq_append_cons ht.symm with
      ⟨-, hc, -⟩ | ⟨rfl, rfl, -, rfl⟩ | hc | ⟨u, rfl, rfl⟩
    · cases hc
    · rw [hb, Bool.false_or] at rest
      exact ⟨rfl, by simpa using rest.calm.1, .calling [] c r t⟩
    · cases hc
    · cases struck with
      | true =>
        rw [hb, Bool.false_or] at rest
        simpa using rest.calm.1
      | false =>
        obtain ⟨before, after, place⟩ := ih (by simpa using hb) rfl
        exact ⟨by simpa using before, after, place.after _⟩
  | passOver rest ih => exact ih hb ht
  | @interrupt ms next t a rest ih =>
    rcases pre with _ | ⟨x, _ | ⟨y, pre⟩⟩
    · cases ht
    · obtain ⟨rfl, rfl⟩ : x = .rest ms ∧ post = t := by simpa using ht
      exact ⟨rfl, rest.calm.1, .pausing [] ms _⟩
    · obtain ⟨rfl, rfl, rfl⟩ : x = .rest ms ∧ y = .cancel ∧ pre ++ .cancel :: post = t := by
        simpa using ht
      simpa using rest.calm.1
  | @sleep ms next t a rest ih =>
    rcases pre with _ | ⟨x, _ | ⟨y, pre⟩⟩
    · cases ht
    · cases ht
    · obtain ⟨rfl, rfl, rfl⟩ : x = .rest ms ∧ y = .wake ∧ pre ++ .cancel :: post = t := by
        simpa using ht
      obtain ⟨before, after, place⟩ := ih rfl rfl
      exact ⟨by simpa using before, after, place.after [.rest ms, .wake]⟩
  | cancelled rest ih => exact ih hb ht
  | @emit b e next t a rest ih =>
    rcases pre with _ | ⟨x, pre⟩
    · cases ht
    · obtain ⟨rfl, rfl⟩ : x = .emit e ∧ pre ++ .cancel :: post = t := by simpa using ht
      obtain ⟨before, after, place⟩ := ih hb rfl
      exact ⟨by simpa using before, after, place.after [.emit e]⟩

/-- A run has one result only once all is answered. -/
theorem Runs.decided {p : Program α} {past u u' : List Moment} {a' : α}
    (h : p.Runs b (past ++ u) a) (silent : Silent u) (h' : p.Runs b (past ++ u') a') : a' = a := by
  generalize ht : past ++ u = t at h
  induction h generalizing past u u' with
  | done b a => exact (runs_done.mp h').2
  | @call b c next r t a struck once rest ih =>
    obtain ⟨past, rfl, rfl⟩ := silent.exists_exchange ht
    obtain ⟨struck', r', v, -, hv, rest'⟩ := runs_call.mp h'
    rw [List.append_assoc] at hv
    obtain ⟨rfl, rfl, rfl⟩ := exchange_append_inj hv
    exact ih silent rest' rfl
  | passOver rest ih => exact ih silent (runs_wait_true.mp h') ht
  | @interrupt ms next t a rest ih =>
    obtain ⟨past₁, rfl, h₁⟩ := silent.exists_cons ht nofun
    obtain ⟨past₂, rfl, rfl⟩ := silent.exists_cons h₁.symm nofun
    rcases runs_wait_false.mp h' with ⟨v, hv, rest'⟩ | ⟨v, hv, rest'⟩
    · cases hv
      exact ih silent rest' rfl
    · cases hv
  | @sleep ms next t a rest ih =>
    obtain ⟨past₁, rfl, h₁⟩ := silent.exists_cons ht nofun
    obtain ⟨past₂, rfl, rfl⟩ := silent.exists_cons h₁.symm nofun
    rcases runs_wait_false.mp h' with ⟨v, hv, rest'⟩ | ⟨v, hv, rest'⟩
    · cases hv
    · cases hv
      exact ih silent rest' rfl
  | cancelled rest ih => exact ih silent (runs_cancelled.mp h') ht
  | @emit b e next t a rest ih =>
    obtain ⟨v, hv, rest'⟩ := runs_emit.mp h'
    rcases past with _ | ⟨x, past⟩
    · obtain rfl : u = .emit e :: t := ht
      exact ih (fun m hm => silent m (List.mem_cons_of_mem _ hm))
        (show next.Runs b ([] ++ v) a' from rest') rfl
    · obtain ⟨rfl, rfl⟩ := List.cons.inj ht
      obtain ⟨-, rfl⟩ := List.cons.inj hv
      exact ih silent rest' rfl

/-! ## One program after another -/

theorem Runs.bind {p : Program α} {f : α → Program β} {u : List Moment} {y : β}
    (hp : p.Runs b t a) (hf : (f a).Runs (b || wasCancelled t) u y) :
    (p.bind f).Runs b (t ++ u) y := by
  induction hp with
  | done b a => simpa [Program.bind] using hf
  | call struck once rest ih =>
    rw [List.append_assoc]
    exact .call struck once (ih (by simpa [Bool.or_assoc] using hf))
  | passOver rest ih => exact .passOver (ih (by simpa using hf))
  | interrupt rest ih => exact .interrupt (ih (by simpa using hf))
  | sleep rest ih => exact .sleep (ih (by simpa using hf))
  | cancelled rest ih => exact .cancelled (ih hf)
  | emit rest ih => exact .emit (ih (by simpa using hf))

/-- A run of one program after another is a run of the first and then a run of the second, which is
cancelled at its start if the first was cancelled at its start or meanwhile. -/
theorem runs_bind {p : Program α} {f : α → Program β} {y : β} :
    (p.bind f).Runs b t y ↔
      ∃ t₁ a t₂, t = t₁ ++ t₂ ∧ p.Runs b t₁ a ∧ (f a).Runs (b || wasCancelled t₁) t₂ y := by
  constructor
  · intro h
    induction p generalizing b t with
    | done a => exact ⟨[], a, t, rfl, .done b a, by simpa [Program.bind] using h⟩
    | call c next ih =>
      obtain ⟨struck, r, u, once, rfl, hu⟩ := runs_call.mp h
      obtain ⟨t₁, a, t₂, rfl, h₁, h₂⟩ := ih r hu
      refine ⟨exchange c r struck ++ t₁, a, t₂, by simp, .call struck once h₁, ?_⟩
      simpa [Bool.or_assoc] using h₂
    | wait ms next ih =>
      cases b with
      | true =>
        obtain ⟨t₁, a, t₂, rfl, h₁, h₂⟩ := ih true (runs_wait_true.mp h)
        exact ⟨t₁, a, t₂, rfl, .passOver h₁, h₂⟩
      | false =>
        rcases runs_wait_false.mp h with ⟨u, rfl, hu⟩ | ⟨u, rfl, hu⟩
        · obtain ⟨t₁, a, t₂, rfl, h₁, h₂⟩ := ih true hu
          exact ⟨_, a, t₂, rfl, .interrupt h₁, by simpa using h₂⟩
        · obtain ⟨t₁, a, t₂, rfl, h₁, h₂⟩ := ih false hu
          exact ⟨_, a, t₂, rfl, .sleep h₁, by simpa using h₂⟩
    | cancelled next ih =>
      obtain ⟨t₁, a, t₂, rfl, h₁, h₂⟩ := ih b (runs_cancelled.mp h)
      exact ⟨t₁, a, t₂, rfl, .cancelled h₁, h₂⟩
    | emit e next ih =>
      obtain ⟨u, rfl, hu⟩ := runs_emit.mp h
      obtain ⟨t₁, a, t₂, rfl, h₁, h₂⟩ := ih hu
      exact ⟨_, a, t₂, rfl, .emit h₁, by simpa using h₂⟩
  · rintro ⟨t₁, a, t₂, rfl, h₁, h₂⟩
    exact h₁.bind h₂

end Program

end InstanceResize
