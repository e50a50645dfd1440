import InstanceResize.Rehearsal.Stage

/-!
# What a sink delivers

A sink lets every event through up to the first terminal one and none after it, whether it keeps
its events or hands them to a listener.

* `throughTerminal`: the events up to the first terminal one, this one included.
* `Sink.fresh`: a sink without events, of either kind.
* `events_foldl_emit`: a fresh sink delivers the events up to the first terminal one.
-/

namespace InstanceResize

/-- The events up to the first terminal one. -/
def throughTerminal : List Event → List Event
  | [] => []
  | e :: es => if e.isTerminal then [e] else e :: throughTerminal es

@[simp] theorem throughTerminal_nil : throughTerminal [] = [] := rfl

theorem throughTerminal_cons_of_terminal {e : Event} (h : e.isTerminal = true) (es : List Event) :
    throughTerminal (e :: es) = [e] := by
  simp [throughTerminal, h]

theorem throughTerminal_cons_of_not_terminal {e : Event} (h : e.isTerminal = false)
    (es : List Event) : throughTerminal (e :: es) = e :: throughTerminal es := by
  simp [throughTerminal, h]

/-- Events before the first terminal one are let through. -/
theorem throughTerminal_append {es : List Event} (h : ∀ e ∈ es, e.isTerminal = false)
    (rest : List Event) : throughTerminal (es ++ rest) = es ++ throughTerminal rest := by
  induction es with
  | nil => rfl
  | cons e es ih =>
    rw [List.cons_append, throughTerminal_cons_of_not_terminal (h e List.mem_cons_self),
      ih fun x hx => h x (List.mem_cons_of_mem e hx), List.cons_append]

/-- Nothing is let through after a terminal event. -/
theorem throughTerminal_append_of_any {es : List Event} (h : es.any Event.isTerminal = true)
    (rest : List Event) : throughTerminal (es ++ rest) = throughTerminal es := by
  induction es with
  | nil => cases h
  | cons e es ih =>
    cases he : e.isTerminal with
    | true => simp [throughTerminal_cons_of_terminal he]
    | false =>
      have later : es.any Event.isTerminal = true := by simpa [he] using h
      simp [throughTerminal_cons_of_not_terminal he, ih later]

theorem throughTerminal_eq_self {es : List Event} (h : es.any Event.isTerminal = false) :
    throughTerminal es = es := by
  have calm : ∀ e ∈ es, e.isTerminal = false := by simpa using h
  simpa using throughTerminal_append calm []

theorem length_throughTerminal_le (es : List Event) : (throughTerminal es).length ≤ es.length := by
  induction es with
  | nil => exact Nat.le_refl _
  | cons e es ih =>
    cases h : e.isTerminal with
    | true => simp [throughTerminal_cons_of_terminal h]
    | false => simpa [throughTerminal_cons_of_not_terminal h] using ih

/-- Nothing more is cut off the second time. -/
theorem throughTerminal_idem (es : List Event) :
    throughTerminal (throughTerminal es) = throughTerminal es := by
  induction es with
  | nil => rfl
  | cons e es ih =>
    cases h : e.isTerminal with
    | true => simp [throughTerminal_cons_of_terminal h]
    | false => simp [throughTerminal_cons_of_not_terminal h, ih]

/-- Nothing is left after the terminal event. -/
theorem eq_nil_of_throughTerminal_eq_append {es done queue : List Event}
    (h : throughTerminal es = done ++ queue) (ended : done.any Event.isTerminal = true) :
    queue = [] := by
  have again : done ++ queue = throughTerminal done := by
    rw [← h, ← throughTerminal_idem, h, throughTerminal_append_of_any ended]
  have length := congrArg List.length again
  have le := length_throughTerminal_le done
  rw [List.length_append] at length
  exact List.eq_nil_of_length_eq_zero (by omega)

/-! ## Sinks of either kind -/

theorem Collector.foldl_emit_of_terminated {c : Collector} (h : c.terminated = true)
    (es : List Event) : es.foldl Collector.emit c = c := by
  induction es with
  | nil => rfl
  | cons e es ih => rwa [List.foldl_cons, Collector.emit, if_pos h]

/-- A sink that keeps its events keeps them up to the first terminal one. -/
theorem Collector.foldl_emit {c : Collector} (h : c.terminated = false) (es : List Event) :
    es.foldl Collector.emit c = ⟨c.events ++ throughTerminal es, es.any Event.isTerminal⟩ := by
  induction es generalizing c with
  | nil => simp [← h]
  | cons e es ih =>
    rw [List.foldl_cons, Collector.emit, if_neg (by simp [h])]
    cases he : e.isTerminal with
    | true =>
      rw [Collector.foldl_emit_of_terminated rfl]
      simp [throughTerminal_cons_of_terminal he, he]
    | false =>
      rw [ih rfl]
      simp [throughTerminal_cons_of_not_terminal he, he]

theorem Channel.foldl_emit_of_terminated {c : Channel} (h : c.terminated = true)
    (es : List Event) : es.foldl Channel.emit c = c := by
  induction es with
  | nil => rfl
  | cons e es ih => rwa [List.foldl_cons, Channel.emit, if_pos h]

/-- A sink with a listener holds its events up to the first terminal one. -/
theorem Channel.foldl_emit {c : Channel} (h : c.terminated = false) (hr : c.readable = true)
    (es : List Event) :
    es.foldl Channel.emit c =
      { c with queue := c.queue ++ throughTerminal es, terminated := es.any Event.isTerminal } := by
  induction es generalizing c with
  | nil => simp [← h]
  | cons e es ih =>
    rw [List.foldl_cons, Channel.emit, if_neg (by simp [h]), if_pos hr]
    cases he : e.isTerminal with
    | true =>
      rw [Channel.foldl_emit_of_terminated rfl]
      simp [throughTerminal_cons_of_terminal he, he]
    | false =>
      rw [@ih ⟨_, _, _, _, _⟩ rfl hr]
      simp [throughTerminal_cons_of_not_terminal he, he]

/-- A listener takes off what there is up to the first terminal event. -/
theorem Channel.drain_eq {c : Channel} (h : c.finished = false) (fuel : Nat) :
    (c.drain fuel).1 = (throughTerminal c.queue).take fuel := by
  induction fuel generalizing c with
  | zero => simp [Channel.drain]
  | succ fuel ih =>
    rw [Channel.drain, Channel.next, if_neg (by simp [h])]
    cases hq : c.queue with
    | nil => cases c.writable <;> rfl
    | cons e queue =>
      cases he : e.isTerminal with
      | true =>
        have ended : ∀ fuel, (Channel.drain fuel { c with queue, finished := true }).1 = [] := by
          intro fuel
          cases fuel <;> simp [Channel.drain, Channel.next]
        simp only [throughTerminal_cons_of_terminal he, he, ended, List.take_succ_cons,
          List.take_nil]
      | false =>
        simp only [throughTerminal_cons_of_not_terminal he, he, List.take_succ_cons]
        exact congrArg (e :: ·) (@ih ⟨_, _, _, _, _⟩ rfl)

/-- A listener gets an event if there is one, and then has come to the end if it is terminal. -/
theorem Channel.next_eq_event_iff {c c' : Channel} {e : Event} :
    c.next = (.event e, c') ↔ c.finished = false ∧
      ∃ queue, c.queue = e :: queue ∧ c' = { c with queue, finished := e.isTerminal } := by
  rw [Channel.next]
  cases c.finished with
  | true => simp
  | false =>
    cases c.queue with
    | nil => cases c.writable <;> simp
    | cons x queue => grind

/-- A listener gets nothing yet if there is no event but one can still come. -/
theorem Channel.next_eq_pending_iff {c : Channel} :
    c.next.1 = .pending ↔ c.finished = false ∧ c.queue = [] ∧ c.writable = true := by
  rw [Channel.next]
  cases c.finished with
  | true => simp
  | false =>
    cases c.queue with
    | nil => cases c.writable <;> simp
    | cons e queue => simp

/-- The sinks without events, of either kind. -/
inductive Sink.Fresh : Sink → Prop where
  | collector : Sink.Fresh (.collector .empty)
  | channel : Sink.Fresh (.channel .empty)

theorem Sink.foldl_emit_collector (c : Collector) (es : List Event) :
    es.foldl Sink.emit (.collector c) = .collector (es.foldl Collector.emit c) := by
  induction es generalizing c with
  | nil => rfl
  | cons e es ih => exact ih (c.emit e)

theorem Sink.foldl_emit_channel (c : Channel) (es : List Event) :
    es.foldl Sink.emit (.channel c) = .channel (es.foldl Channel.emit c) := by
  induction es generalizing c with
  | nil => rfl
  | cons e es ih => exact ih (c.emit e)

/-- A fresh sink delivers the events up to the first terminal one. -/
theorem Sink.Fresh.events_foldl_emit {s : Sink} (h : s.Fresh) (es : List Event) :
    (es.foldl Sink.emit s).events = throughTerminal es := by
  cases h with
  | collector =>
    rw [Sink.foldl_emit_collector, Collector.foldl_emit rfl]
    exact List.nil_append _
  | channel =>
    rw [Sink.foldl_emit_channel, Channel.foldl_emit rfl rfl, Sink.events, Channel.drain_eq rfl]
    have held : Channel.empty.queue ++ throughTerminal es = throughTerminal es := rfl
    simp only [held, throughTerminal_idem]
    exact List.take_of_length_le (Nat.le_succ _)

/-- A fresh sink is terminated once a terminal event has come. -/
theorem Sink.Fresh.terminated_foldl_emit {s : Sink} (h : s.Fresh) (es : List Event) :
    (es.foldl Sink.emit s).terminated = es.any Event.isTerminal := by
  cases h with
  | collector => rw [Sink.foldl_emit_collector, Collector.foldl_emit rfl]; rfl
  | channel => rw [Sink.foldl_emit_channel, Channel.foldl_emit rfl rfl]; rfl

end InstanceResize
