import InstanceResize.Proofs.Run.Runs

/-!
# Whoever is outside of a program

* `Outside`: a provider and whoever may cancel the program. Both may go by all that has happened.
* `Outside.handler`: answers what a program asks, and writes down what happens.
* `Outside.chronicle` and `Outside.result`: all that happens in a run, and its result. They are
  defined for every program, because a program is a tree without infinite branches.
* `Program.happens_iff`: these are exactly the runs of a program.
-/

namespace InstanceResize

/-- What is outside of a program. -/
structure Outside where
  /-- The answer to a call, after all that has happened. -/
  reply : List Moment → (c : Call) → c.Reply
  /-- Whether the program is cancelled at this moment, unless it is already. -/
  cancels : List Moment → Bool

namespace Outside

/-- Whether the program is cancelled now and was not before. -/
def strikes (o : Outside) (past : List Moment) : Bool := !wasCancelled past && o.cancels past

/-- All that has happened once the program could be cancelled. -/
def strike (o : Outside) (past : List Moment) : List Moment :=
  if o.strikes past then past ++ [.cancel] else past

/-- Answers what a program asks. A pause can be cut short at any time up to its end. -/
def handler (o : Outside) : Handler (StateM (List Moment)) where
  call c := modifyGet fun past =>
    let past := o.strike (past ++ [.call c])
    let r := o.reply past c
    (r, past ++ [.reply c r])
  wait ms := modifyGet fun past =>
    if wasCancelled past then (true, past)
    else
      let past := past ++ [.rest ms]
      if o.strikes past then (true, past ++ [.cancel]) else (false, past ++ [.wake])
  cancelled := modifyGet fun past => (wasCancelled past, past)
  emit e := modify (· ++ [.emit e])

variable {α : Type}

/-- The run of a program after all that has happened. -/
def runAfter (o : Outside) (p : Program α) (past : List Moment) : α × List Moment :=
  ((p.interpret o.handler).run past).run

/-- All that happens in the run of a program, which may be cancelled before it starts. -/
def chronicle (o : Outside) (p : Program α) : List Moment := (o.runAfter p (o.strike [])).2

/-- The result of the run of a program. -/
def result (o : Outside) (p : Program α) : α := (o.runAfter p (o.strike [])).1

/-! ## One step of a run -/

/-- A call is answered, and the program may be struck meanwhile. -/
theorem strike_reply (o : Outside) (past : List Moment) (c : Call) (r : c.Reply) :
    o.strike (past ++ [.call c]) ++ [.reply c r] =
      past ++ exchange c r (o.strikes (past ++ [.call c])) := by
  cases h : o.strikes (past ++ [.call c]) <;> simp [strike, exchange, h]

theorem not_wasCancelled_of_strikes {o : Outside} {past : List Moment} {m : Moment}
    (h : o.strikes (past ++ [m]) = true) : wasCancelled past = false := by
  simp only [strikes, Bool.and_eq_true, Bool.not_eq_true', wasCancelled_append,
    Bool.or_eq_false_iff] at h
  exact h.1.1

theorem runAfter_call (o : Outside) (c : Call) (next : c.Reply → Program α)
    (past : List Moment) {r : c.Reply} (hr : o.reply (o.strike (past ++ [.call c])) c = r) :
    o.runAfter (.call c next) past =
      o.runAfter (next r) (past ++ exchange c r (o.strikes (past ++ [.call c]))) := by
  rw [← strike_reply, ← hr]
  rfl

theorem runAfter_wait (o : Outside) (ms : UInt64) (next : Bool → Program α)
    (past : List Moment) :
    o.runAfter (.wait ms next) past =
      if wasCancelled past then o.runAfter (next true) past
      else if o.strikes (past ++ [.rest ms]) then
        o.runAfter (next true) (past ++ [.rest ms, .cancel])
      else o.runAfter (next false) (past ++ [.rest ms, .wake]) := by
  cases hb : wasCancelled past <;> cases hs : o.strikes (past ++ [.rest ms]) <;>
    simp [runAfter, Program.interpret, handler, hb, hs]

theorem runAfter_cancelled (o : Outside) (next : Bool → Program α) (past : List Moment) :
    o.runAfter (.cancelled next) past = o.runAfter (next (wasCancelled past)) past := rfl

theorem runAfter_emit (o : Outside) (e : Event) (next : Program α) (past : List Moment) :
    o.runAfter (.emit e next) past = o.runAfter next (past ++ [.emit e]) := rfl

/-- One program after another runs after all that the first one does. -/
theorem runAfter_bind (o : Outside) {β : Type} (p : Program α) (f : α → Program β)
    (past : List Moment) :
    o.runAfter (p.bind f) past = o.runAfter (f (o.runAfter p past).1) (o.runAfter p past).2 := by
  induction p generalizing past with
  | done a => rfl
  | call c next ih =>
    rw [Program.bind, runAfter_call o c _ past rfl, runAfter_call o c next past rfl]
    exact ih _ _
  | wait ms next ih =>
    rw [Program.bind, runAfter_wait, runAfter_wait]
    split
    · exact ih true past
    · split
      · exact ih true _
      · exact ih false _
  | cancelled next ih =>
    rw [Program.bind, runAfter_cancelled, runAfter_cancelled]
    exact ih _ past
  | emit e next ih =>
    rw [Program.bind, runAfter_emit, runAfter_emit]
    exact ih _

/-! ## Every chronicle is a run -/

theorem runs_runAfter (o : Outside) (p : Program α) (past : List Moment) :
    ∃ t, (o.runAfter p past).2 = past ++ t ∧
      p.Runs (wasCancelled past) t (o.runAfter p past).1 := by
  induction p generalizing past with
  | done a => exact ⟨[], by simp [runAfter, Program.interpret], .done _ a⟩
  | call c next ih =>
    rw [runAfter_call o c next past rfl]
    obtain ⟨t, ht, h⟩ := ih _ (past ++ exchange c _ (o.strikes (past ++ [.call c])))
    refine ⟨exchange c _ _ ++ t, by rw [ht, List.append_assoc],
      .call _ not_wasCancelled_of_strikes ?_⟩
    simpa using h
  | wait ms next ih =>
    rw [runAfter_wait]
    cases hb : wasCancelled past with
    | true =>
      obtain ⟨t, ht, h⟩ := ih true past
      rw [hb] at h
      exact ⟨t, ht, .passOver h⟩
    | false =>
      cases o.strikes (past ++ [.rest ms]) with
      | true =>
        obtain ⟨t, ht, h⟩ := ih true (past ++ [.rest ms, .cancel])
        exact ⟨.rest ms :: .cancel :: t, by simp [ht], .interrupt (by simpa using h)⟩
      | false =>
        obtain ⟨t, ht, h⟩ := ih false (past ++ [.rest ms, .wake])
        exact ⟨.rest ms :: .wake :: t, by simp [ht], .sleep (by simpa [hb] using h)⟩
  | cancelled next ih =>
    obtain ⟨t, ht, h⟩ := ih (wasCancelled past) past
    exact ⟨t, ht, .cancelled h⟩
  | emit e next ih =>
    rw [runAfter_emit]
    obtain ⟨t, ht, h⟩ := ih (past ++ [.emit e])
    exact ⟨.emit e :: t, by simp [ht], .emit (by simpa using h)⟩

/-- All that happens in a run, and its result, belong to a run. -/
theorem happens (o : Outside) (p : Program α) : p.Happens (o.chronicle p) (o.result p) := by
  obtain ⟨t, ht, h⟩ := o.runs_runAfter p (o.strike [])
  cases hs : o.strikes [] with
  | true =>
    have start : o.strike [] = [.cancel] := by simp [strike, hs]
    rw [start] at ht h
    refine .inr ⟨t, ?_, ?_⟩
    · rw [chronicle, start, ht]
      rfl
    · rw [result, start]
      exact h
  | false =>
    have start : o.strike [] = [] := by simp [strike, hs]
    rw [start] at ht h
    refine .inl ?_
    rw [chronicle, result, start, ht]
    exact h

/-- All that happens in a run that is cancelled before its start, or is not. -/
theorem exists_runs_chronicle (o : Outside) (p : Program α) :
    ∃ b t, p.Runs b t (o.result p) ∧ o.chronicle p = if b then .cancel :: t else t := by
  rcases o.happens p with h | ⟨u, hu, h⟩
  · exact ⟨false, _, h, rfl⟩
  · exact ⟨true, u, h, hu⟩

/-- What happens in a run after it could be cancelled before its start. -/
theorem exists_runs (o : Outside) (p : Program α) :
    ∃ b t, p.Runs b t (o.result p) ∧ exchanges (o.chronicle p) = exchanges t ∧
      begun (o.chronicle p) = begun t ∧ pauses (o.chronicle p) = pauses t := by
  obtain ⟨b, t, h, told⟩ := o.exists_runs_chronicle p
  refine ⟨b, t, h, ?_⟩
  rw [told]
  cases b <;> simp

/-- What happens in a run up to a moment and after it. -/
theorem exists_runs_of_append (o : Outside) (p : Program α) {pre post : List Moment} {m : Moment}
    (hm : m ≠ .cancel) (h : o.chronicle p = pre ++ m :: post) :
    ∃ b pre', p.Runs b (pre' ++ m :: post) (o.result p) ∧ exchanges pre = exchanges pre' := by
  rcases o.happens p with hr | ⟨u, hu, hr⟩
  · exact ⟨false, pre, h ▸ hr, rfl⟩
  · rcases pre with _ | ⟨x, pre⟩
    · exact absurd (List.cons.inj (h.symm.trans hu)).1 hm
    · obtain ⟨rfl, rfl⟩ := List.cons.inj (h.symm.trans hu)
      exact ⟨true, pre, hr, by simp⟩

/-! ## Runs that nobody cancels -/

theorem strike_of_calm {o : Outside} (calm : ∀ past, o.cancels past = false)
    (past : List Moment) : o.strikes past = false ∧ o.strike past = past := by
  have quiet : o.strikes past = false := by simp [strikes, calm]
  exact ⟨quiet, by simp [strike, quiet]⟩

theorem wasCancelled_runAfter_of_calm {o : Outside} (calm : ∀ past, o.cancels past = false)
    (p : Program α) (past : List Moment) :
    wasCancelled (o.runAfter p past).2 = wasCancelled past := by
  induction p generalizing past with
  | done a => rfl
  | call c next ih =>
    rw [runAfter_call o c next past rfl, (strike_of_calm calm _).1, ih]
    simp
  | wait ms next ih =>
    rw [runAfter_wait]
    split
    · exact ih true past
    · rw [(strike_of_calm calm _).1, if_neg Bool.false_ne_true, ih]
      simp
  | cancelled next ih => exact ih _ past
  | emit e next ih =>
    rw [runAfter_emit, ih]
    simp

/-- If nobody ever cancels a program, then all that happens is a run that is not cancelled. -/
theorem runs_chronicle_of_calm {o : Outside} (calm : ∀ past, o.cancels past = false)
    (p : Program α) :
    p.Runs false (o.chronicle p) (o.result p) ∧ wasCancelled (o.chronicle p) = false := by
  unfold chronicle result
  rw [(strike_of_calm calm []).2]
  refine ⟨?_, wasCancelled_runAfter_of_calm calm p []⟩
  obtain ⟨t, told, runs⟩ := o.runs_runAfter p []
  rw [told]
  exact runs

/-! ## Every run is a chronicle -/

/-- Does again what was once done. -/
def replay (all : List Moment) : Outside where
  reply past c :=
    match all[past.length]? with
    | some (.reply c' r) => if h : c' = c then h ▸ r else .error default
    | _ => .error default
  cancels past := all[past.length]?.any Moment.isCancel

variable {p : Program α} {b : Bool} {t all past : List Moment} {a : α}

theorem replay_strikes (m : Moment) (rest : List Moment) (h : all = past ++ m :: rest) :
    (replay all).strikes past = (!wasCancelled past && m.isCancel) := by
  subst h
  simp [replay, strikes]

theorem replay_reply (rest : List Moment) {c : Call} {r : c.Reply}
    (h : all = past ++ .reply c r :: rest) : (replay all).reply past c = r := by
  subst h
  simp [replay]

/-- A run is done again after all that has happened before it. -/
theorem runAfter_replay (h : p.Runs b t a) (hb : wasCancelled past = b)
    (hall : all = past ++ t) : (replay all).runAfter p past = (a, all) := by
  induction h generalizing past with
  | done b a => simp [runAfter, Program.interpret, hall]
  | @call b c next r t a struck once rest ih =>
    have hs : (replay all).strikes (past ++ [.call c]) = struck := by
      cases struck with
      | true =>
        rw [replay_strikes .cancel (.reply c r :: t) (by simp [hall, exchange])]
        simp [hb, once rfl]
      | false =>
        rw [replay_strikes (.reply c r) t (by simp [hall, exchange])]
        simp
    have hr : (replay all).reply ((replay all).strike (past ++ [.call c])) c = r := by
      rw [strike, hs]
      cases struck <;> exact replay_reply t (by simp [hall, exchange])
    rw [runAfter_call _ _ _ _ hr, hs]
    exact ih (by simp [hb]) (by simp [hall])
  | passOver rest ih =>
    rw [runAfter_wait, if_pos hb]
    exact ih hb hall
  | @interrupt ms next t a rest ih =>
    have hs : (replay all).strikes (past ++ [.rest ms]) = true := by
      rw [replay_strikes .cancel t (by simp [hall])]
      simp [hb]
    rw [runAfter_wait, if_neg (by simp [hb]), if_pos hs]
    exact ih (by simp) (by simp [hall])
  | @sleep ms next t a rest ih =>
    have hs : (replay all).strikes (past ++ [.rest ms]) = false := by
      rw [replay_strikes .wake t (by simp [hall])]
      simp
    rw [runAfter_wait, if_neg (by simp [hb]), if_neg (by simp [hs])]
    exact ih (by simp [hb]) (by simp [hall])
  | cancelled rest ih =>
    rw [runAfter_cancelled, hb]
    exact ih hb hall
  | emit rest ih =>
    rw [runAfter_emit]
    exact ih (by simp [hb]) (by simp [hall])

end Outside

namespace Program

variable {α : Type} {p : Program α} {b : Bool} {t : List Moment} {a : α}

/-- A cancellation comes after the beginning of a call or a pause. -/
theorem Runs.head?_ne_cancel (h : p.Runs b t a) : t.head? ≠ some .cancel := by
  induction h with
  | call struck once rest ih => cases struck <;> simp [exchange]
  | passOver rest ih => exact ih
  | cancelled rest ih => exact ih
  | _ => simp

/-- The runs of a program are what can happen to it in some surroundings. -/
theorem happens_iff :
    p.Happens t a ↔ ∃ o : Outside, o.chronicle p = t ∧ o.result p = a := by
  constructor
  · rintro (h | ⟨u, rfl, h⟩)
    · have calm : (Outside.replay t).strike [] = [] := by
        rcases t with _ | ⟨m, t⟩
        · rfl
        · have head := h.head?_ne_cancel
          cases m with
          | cancel => exact absurd rfl head
          | _ => rfl
      have again : (Outside.replay t).runAfter p [] = (a, t) := Outside.runAfter_replay h rfl rfl
      exact ⟨.replay t, by rw [Outside.chronicle, calm, again], by rw [Outside.result, calm, again]⟩
    · have struck : (Outside.replay (.cancel :: u)).strike [] = [.cancel] := rfl
      have again : (Outside.replay (.cancel :: u)).runAfter p [.cancel] = (a, .cancel :: u) :=
        Outside.runAfter_replay h rfl rfl
      exact ⟨.replay (.cancel :: u), by rw [Outside.chronicle, struck, again],
        by rw [Outside.result, struck, again]⟩
  · rintro ⟨o, rfl, rfl⟩
    exact o.happens p

end Program

end InstanceResize
