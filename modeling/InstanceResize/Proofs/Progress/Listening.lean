import InstanceResize.Proofs.Progress.Delivery

/-!
# What a listener gets

Somebody puts events into a channel and a listener takes them off, in turns of any kind, and each of
the two may leave at any time. The listener gets the events up to the first terminal one in their
order. It is told to wait exactly as long as there is something to wait for.

* `Channel.Move`: what can be done with a channel.
* `emissions`: the events that are put in.
* `Transmission`: a channel with all that was put in and all that the listener got.
* `Transmission.Sound`: what holds of them after any moves.
* `Transmission.answers_of_finished`: a listener that has come to the end stays there.
* `delivered_of_moves`: what a channel delivers, and a sink that keeps its events.
-/

namespace InstanceResize

namespace Channel

/-- What can be done with a channel. -/
inductive Move where
  | emit (e : Event)
  /-- The listener asks for an event. -/
  | listen
  | dropSink
  | dropStream

/-! ## What a move leaves alone -/

/-- An event changes no more than the queue, and whether a terminal event has come. -/
theorem emit_cases (c : Channel) (e : Event) :
    ∃ queue terminated, c.emit e = { c with queue, terminated } := by
  unfold emit
  split
  · exact ⟨c.queue, c.terminated, rfl⟩
  · exact ⟨_, _, rfl⟩

/-- Listening changes no more than the queue, and whether the listener has come to the end. -/
theorem next_cases (c : Channel) : ∃ queue finished, c.next.2 = { c with queue, finished } := by
  unfold next
  split
  · exact ⟨c.queue, c.finished, rfl⟩
  · split
    · exact ⟨_, _, rfl⟩
    · split
      · exact ⟨c.queue, c.finished, rfl⟩
      · exact ⟨c.queue, _, rfl⟩

@[simp] theorem emit_readable (c : Channel) (e : Event) : (c.emit e).readable = c.readable := by
  obtain ⟨queue, terminated, h⟩ := c.emit_cases e
  rw [h]

@[simp] theorem emit_writable (c : Channel) (e : Event) : (c.emit e).writable = c.writable := by
  obtain ⟨queue, terminated, h⟩ := c.emit_cases e
  rw [h]

@[simp] theorem emit_finished (c : Channel) (e : Event) : (c.emit e).finished = c.finished := by
  obtain ⟨queue, terminated, h⟩ := c.emit_cases e
  rw [h]

@[simp] theorem next_readable (c : Channel) : c.next.2.readable = c.readable := by
  obtain ⟨queue, finished, h⟩ := c.next_cases
  rw [h]

@[simp] theorem next_writable (c : Channel) : c.next.2.writable = c.writable := by
  obtain ⟨queue, finished, h⟩ := c.next_cases
  rw [h]

/-- A listener that has come to the end is told so and stays there. -/
theorem next_of_finished {c : Channel} (h : c.finished = true) : c.next = (.ended, c) := by
  rw [next, if_pos h]

theorem next_of_queue {c : Channel} {e : Event} {queue : List Event} (h : c.finished = false)
    (waiting : c.queue = e :: queue) :
    c.next = (.event e, { c with queue, finished := e.isTerminal }) :=
  next_eq_event_iff.mpr ⟨h, queue, waiting, rfl⟩

theorem next_of_writable {c : Channel} (h : c.finished = false) (empty : c.queue = [])
    (open_ : c.writable = true) : c.next = (.pending, c) := by
  simp [next, h, empty, open_]

theorem next_of_not_writable {c : Channel} (h : c.finished = false) (empty : c.queue = [])
    (closed : c.writable = false) : c.next = (.ended, { c with finished := true }) := by
  simp [next, h, empty, closed]

end Channel

open Channel (Move)

/-- The event that a listener gets, if it gets one. -/
def Listened.event? : Listened → Option Event
  | event e => some e
  | _ => none

/-- The events that are put into a channel. Nothing is put in once the sink is dropped. -/
def emissions : List Move → List Event
  | [] => []
  | .emit e :: ms => e :: emissions ms
  | .listen :: ms => emissions ms
  | .dropSink :: _ => []
  | .dropStream :: ms => emissions ms

/-- A channel, what was put into it, and what the listener got. -/
structure Transmission where
  channel : Channel
  emitted : List Event
  /-- What the listener got each time that it asked. -/
  answers : List Listened

namespace Transmission

/-- Nothing has been done yet. -/
def start : Transmission := ⟨.empty, [], []⟩

/-- A transmission after a move. Nobody emits once the sink is dropped, and nobody listens once the
stream is. -/
def move (t : Transmission) : Move → Transmission
  | .emit e =>
    if t.channel.writable then { t with channel := t.channel.emit e, emitted := t.emitted ++ [e] }
    else t
  | .listen =>
    if t.channel.readable then
      { t with channel := t.channel.next.2, answers := t.answers ++ [t.channel.next.1] }
    else t
  | .dropSink => { t with channel := t.channel.dropSink }
  | .dropStream => { t with channel := t.channel.dropStream }

/-- A transmission after several moves. -/
def after (ms : List Move) : Transmission := ms.foldl move start

/-- The events that the listener got. -/
def heard (t : Transmission) : List Event := t.answers.filterMap Listened.event?

/-- The events that a listener may get. -/
def due (t : Transmission) : List Event := throughTerminal t.emitted

/-- The listener got a terminal event, or was told that nothing comes any more. -/
def Told (t : Transmission) : Prop :=
  t.heard.any Event.isTerminal = true ∨ Listened.ended ∈ t.answers

/-- The listener got all that it may get, and nothing comes any more. -/
def Complete (t : Transmission) : Prop :=
  t.heard = t.due ∧ (t.heard.any Event.isTerminal = true ∨ t.channel.writable = false)

variable {t : Transmission} {ms : List Move}

/-! ## What was put in, and who is still there -/

theorem emitted_moves (t : Transmission) (ms : List Move) :
    (ms.foldl move t).emitted =
      t.emitted ++ if t.channel.writable then emissions ms else [] := by
  induction ms generalizing t with
  | nil => simp [emissions]
  | cons m ms ih =>
    rw [List.foldl_cons, ih]
    cases m with
    | emit e => cases h : t.channel.writable <;> simp [move, h, emissions]
    | listen => cases h : t.channel.readable <;> simp [move, h, emissions]
    | dropSink => simp [move, Channel.dropSink, emissions]
    | dropStream => rfl

theorem writable_moves (t : Transmission) (ms : List Move) :
    (ms.foldl move t).channel.writable = true ↔
      t.channel.writable = true ∧ Move.dropSink ∉ ms := by
  induction ms generalizing t with
  | nil => simp
  | cons m ms ih =>
    rw [List.foldl_cons, ih]
    cases m with
    | emit e => cases h : t.channel.writable <;> simp [move, h]
    | listen => cases h : t.channel.readable <;> simp [move, h]
    | dropSink => simp [move, Channel.dropSink]
    | dropStream => simp [move, Channel.dropStream]

theorem readable_moves (t : Transmission) (ms : List Move) :
    (ms.foldl move t).channel.readable = true ↔
      t.channel.readable = true ∧ Move.dropStream ∉ ms := by
  induction ms generalizing t with
  | nil => simp
  | cons m ms ih =>
    rw [List.foldl_cons, ih]
    cases m with
    | emit e => cases h : t.channel.writable <;> simp [move, h]
    | listen => cases h : t.channel.readable <;> simp [move, h]
    | dropSink => simp [move, Channel.dropSink]
    | dropStream => simp [move, Channel.dropStream]

/-! ## What holds after any moves -/

/-- What the listener got belongs to what was put in. -/
structure Sound (t : Transmission) : Prop where
  terminated : t.channel.terminated = t.emitted.any Event.isTerminal
  heard : t.heard <+: t.due
  /-- What it did not get yet is waiting. -/
  waiting : t.channel.readable = true → t.due = t.heard ++ t.channel.queue
  finished : t.channel.finished = true ↔ t.Told
  complete : t.channel.finished = true → t.Complete

theorem sound_start : start.Sound where
  terminated := rfl
  heard := List.prefix_refl _
  waiting _ := rfl
  finished := by simp [start, Channel.empty, Told, Transmission.heard]
  complete := nofun

/-- Nothing is put in after a terminal event. -/
theorem Sound.emit_of_terminated (h : t.Sound) (ended : t.channel.terminated = true) (e : Event) :
    Sound ⟨t.channel.emit e, t.emitted ++ [e], t.answers⟩ := by
  have terminal : t.emitted.any Event.isTerminal = true := h.terminated.symm.trans ended
  have same : throughTerminal (t.emitted ++ [e]) = throughTerminal t.emitted :=
    throughTerminal_append_of_any terminal [e]
  have kept : t.channel.emit e = t.channel := by rw [Channel.emit, if_pos ended]
  rw [kept]
  refine ⟨by simp [ended, terminal], ?_, fun readable => ?_, h.finished, fun finished => ?_⟩
  · show t.heard <+: throughTerminal (t.emitted ++ [e])
    rw [same]
    exact h.heard
  · show throughTerminal (t.emitted ++ [e]) = t.heard ++ t.channel.queue
    rw [same]
    exact h.waiting readable
  · obtain ⟨all, closed⟩ := h.complete finished
    refine ⟨?_, closed⟩
    show t.heard = throughTerminal (t.emitted ++ [e])
    rw [same]
    exact all

/-- Before a terminal event, all that is put in waits for the listener. -/
theorem Sound.emit_of_not_terminated (h : t.Sound) (open_ : t.channel.writable = true)
    (before : t.channel.terminated = false) (e : Event) :
    Sound ⟨t.channel.emit e, t.emitted ++ [e], t.answers⟩ := by
  have calm : t.emitted.any Event.isTerminal = false := h.terminated.symm.trans before
  have all : t.due = t.emitted := throughTerminal_eq_self calm
  have more : throughTerminal (t.emitted ++ [e]) = t.emitted ++ [e] := by
    rw [throughTerminal_append (by simpa using calm)]
    cases terminal : e.isTerminal with
    | true => rw [throughTerminal_cons_of_terminal terminal]
    | false => rw [throughTerminal_cons_of_not_terminal terminal, throughTerminal_nil]
  have unfinished : t.channel.finished = false := by
    refine Bool.eq_false_iff.mpr fun finished => ?_
    obtain ⟨heard, terminal | closed⟩ := h.complete finished
    · rw [heard, all, calm] at terminal
      cases terminal
    · rw [open_] at closed
      cases closed
  have put : t.channel.emit e =
      { t.channel with
        queue := if t.channel.readable then t.channel.queue ++ [e] else t.channel.queue
        terminated := e.isTerminal } := by
    rw [Channel.emit, if_neg (by simp [before])]
  refine ⟨by simp [put, calm], ?_, fun readable => ?_, ?_, fun finished => ?_⟩
  · show t.heard <+: throughTerminal (t.emitted ++ [e])
    rw [more, ← all]
    exact h.heard.trans (List.prefix_append _ _)
  · show throughTerminal (t.emitted ++ [e]) = t.heard ++ (t.channel.emit e).queue
    have readable : t.channel.readable = true := by simpa using readable
    simp only [more, put, if_pos readable]
    rw [← List.append_assoc, ← h.waiting readable, all]
  · rw [Channel.emit_finished]
    exact h.finished
  · rw [Channel.emit_finished, unfinished] at finished
    cases finished

/-- The listener gets the event that waits in front. -/
theorem Sound.heard_event (h : t.Sound) (readable : t.channel.readable = true) {e : Event}
    {queue : List Event} (unfinished : t.channel.finished = false)
    (waiting : t.channel.queue = e :: queue) :
    Sound ⟨{ t.channel with queue, finished := e.isTerminal }, t.emitted,
      t.answers ++ [.event e]⟩ := by
  have due : t.due = t.heard ++ [e] ++ queue := by
    rw [h.waiting readable, waiting, List.append_assoc]
    rfl
  have heard : ∀ c, (Transmission.mk c t.emitted (t.answers ++ [.event e])).heard =
      t.heard ++ [e] := by
    intro c
    simp [Transmission.heard, Listened.event?]
  have untold : ¬ t.Told := by
    rw [← h.finished, unfinished]
    exact Bool.false_ne_true
  obtain ⟨calm, notEnded⟩ := not_or.mp untold
  refine ⟨h.terminated, ?_, fun _ => ?_, ?_, fun terminal => ⟨?_, ?_⟩⟩
  · rw [heard]
    exact ⟨queue, due.symm⟩
  · rw [heard]
    exact due
  · simp [Told, heard, Bool.eq_false_iff.mpr calm, notEnded]
  · have terminal : e.isTerminal = true := terminal
    have rest : queue = [] := eq_nil_of_throughTerminal_eq_append due (by simp [terminal])
    rw [heard]
    show t.heard ++ [e] = t.due
    rw [due, rest, List.append_nil]
  · have terminal : e.isTerminal = true := terminal
    exact .inl (by simp [heard, terminal])

/-- What the listener is told when there is no event for it. -/
theorem Sound.heard_nothing (h : t.Sound) {l : Listened} (none : l.event? = none)
    {finished : Bool} (told : finished = true ↔ t.channel.finished = true ∨ l = .ended)
    (complete : finished = true → t.Complete) :
    Sound ⟨{ t.channel with finished }, t.emitted, t.answers ++ [l]⟩ := by
  have heard : ∀ c, (Transmission.mk c t.emitted (t.answers ++ [l])).heard = t.heard := by
    intro c
    simp [Transmission.heard, none]
  refine ⟨h.terminated, ?_, fun readable => ?_, ?_, fun finished => ?_⟩
  · rw [heard]
    exact h.heard
  · rw [heard]
    exact h.waiting readable
  · rw [told, h.finished]
    simp only [Told, heard, List.mem_append, List.mem_singleton, or_assoc, @eq_comm _ l]
  · obtain ⟨all, closed⟩ := complete finished
    exact ⟨(heard _).trans all, by rw [heard]; exact closed⟩

/-- Whatever the listener gets, it belongs to what was put in. -/
theorem Sound.listen (h : t.Sound) (readable : t.channel.readable = true) :
    Sound ⟨t.channel.next.2, t.emitted, t.answers ++ [t.channel.next.1]⟩ := by
  cases finished : t.channel.finished with
  | true =>
    rw [Channel.next_of_finished finished]
    exact h.heard_nothing rfl (by simp [finished]) h.complete
  | false =>
    cases waiting : t.channel.queue with
    | cons e queue =>
      rw [Channel.next_of_queue finished waiting]
      exact h.heard_event readable finished waiting
    | nil =>
      cases open_ : t.channel.writable with
      | true =>
        rw [Channel.next_of_writable finished waiting open_]
        exact h.heard_nothing rfl (by simp [finished]) h.complete
      | false =>
        rw [Channel.next_of_not_writable finished waiting open_]
        have all : t.heard = t.due := by rw [h.waiting readable, waiting, List.append_nil]
        exact h.heard_nothing rfl (by simp) fun _ => ⟨all, .inr open_⟩

/-- Every move keeps to what was put in. -/
theorem Sound.move (h : t.Sound) (m : Move) : (t.move m).Sound := by
  cases m with
  | emit e =>
    cases open_ : t.channel.writable with
    | false => rwa [Transmission.move, if_neg (by simp [open_])]
    | true =>
      rw [Transmission.move, if_pos open_]
      cases ended : t.channel.terminated with
      | true => exact h.emit_of_terminated ended e
      | false => exact h.emit_of_not_terminated open_ ended e
  | listen =>
    cases readable : t.channel.readable with
    | false => rwa [Transmission.move, if_neg (by simp [readable])]
    | true =>
      rw [Transmission.move, if_pos readable]
      exact h.listen readable
  | dropSink =>
    exact ⟨h.terminated, h.heard, h.waiting, h.finished,
      fun finished => ⟨(h.complete finished).1, .inr rfl⟩⟩
  | dropStream => exact ⟨h.terminated, h.heard, nofun, h.finished, h.complete⟩

/-- What the listener got belongs to what was put in, after any moves. -/
theorem sound_after (ms : List Move) : (after ms).Sound := by
  suffices moves : ∀ t, Sound t → Sound (ms.foldl Transmission.move t) from moves _ sound_start
  induction ms with
  | nil => exact fun _ h => h
  | cons m ms ih => exact fun t h => ih _ (h.move m)

/-! ## The end -/

/-- A listener that has come to the end stays there. -/
theorem answers_of_finished (h : t.channel.finished = true) (ms : List Move) :
    ∃ n, (ms.foldl move t).answers = t.answers ++ List.replicate n .ended := by
  induction ms generalizing t with
  | nil => exact ⟨0, (List.append_nil _).symm⟩
  | cons m ms ih =>
    rw [List.foldl_cons]
    cases m with
    | emit e =>
      rw [move]
      split
      · exact ih (t := ⟨_, _, _⟩) (by simpa using h)
      · exact ih h
    | listen =>
      rw [move, Channel.next_of_finished h]
      split
      · obtain ⟨n, rest⟩ := ih (t := ⟨t.channel, t.emitted, t.answers ++ [.ended]⟩) h
        refine ⟨n + 1, ?_⟩
        rw [rest, List.append_assoc, List.replicate_succ]
        rfl
      · exact ih h
    | dropSink => exact ih (t := ⟨t.channel.dropSink, _, _⟩) h
    | dropStream => exact ih (t := ⟨t.channel.dropStream, _, _⟩) h

/-- What a listener gets when it asks. -/
theorem Sound.answer (h : t.Sound) (readable : t.channel.readable = true) :
    (∀ e, t.channel.next.1 = .event e ↔ ∃ rest, t.due = t.heard ++ e :: rest) ∧
      (t.channel.next.1 = .pending ↔ t.heard = t.due ∧
        t.heard.any Event.isTerminal = false ∧ t.channel.writable = true) ∧
      (t.channel.next.1 = .ended ↔ t.Complete) := by
  have due := h.waiting readable
  cases finished : t.channel.finished with
  | true =>
    obtain ⟨all, closed⟩ := h.complete finished
    rw [Channel.next_of_finished finished]
    refine ⟨fun e => iff_of_false nofun ?_, iff_of_false nofun ?_, iff_of_true rfl ⟨all, closed⟩⟩
    · rintro ⟨rest, more⟩
      have length := congrArg List.length (all.trans more)
      simp at length
    · rintro ⟨-, calm, open_⟩
      rcases closed with terminal | closed
      · rw [calm] at terminal
        cases terminal
      · rw [open_] at closed
        cases closed
  | false =>
    have calm : t.heard.any Event.isTerminal = false := by
      refine Bool.eq_false_iff.mpr fun terminal => ?_
      rw [h.finished.mpr (.inl terminal)] at finished
      cases finished
    cases waiting : t.channel.queue with
    | cons e queue =>
      rw [waiting] at due
      have more : t.heard ≠ t.due := by
        intro all
        rw [all] at due
        have length := congrArg List.length due
        simp at length
      rw [Channel.next_of_queue finished waiting]
      refine ⟨fun e' => ?_, iff_of_false nofun fun all => more all.1,
        iff_of_false nofun fun all => more all.1⟩
      rw [due]
      constructor
      · rintro ⟨⟩
        exact ⟨queue, rfl⟩
      · rintro ⟨rest, same⟩
        rw [(List.cons.inj (List.append_cancel_left same)).1]
    | nil =>
      rw [waiting, List.append_nil] at due
      have none_left : ∀ e, ¬ ∃ rest, t.due = t.heard ++ e :: rest := by
        rintro e ⟨rest, more⟩
        have length := congrArg List.length (due.symm.trans more)
        simp at length
      cases open_ : t.channel.writable with
      | true =>
        rw [Channel.next_of_writable finished waiting open_]
        refine ⟨fun e => iff_of_false nofun (none_left e), iff_of_true rfl ⟨due.symm, calm, rfl⟩,
          iff_of_false nofun ?_⟩
        rintro ⟨-, terminal | closed⟩
        · rw [calm] at terminal
          cases terminal
        · rw [open_] at closed
          cases closed
      | false =>
        rw [Channel.next_of_not_writable finished waiting open_]
        exact ⟨fun e => iff_of_false nofun (none_left e), iff_of_false nofun fun open_ =>
          absurd open_.2.2 nofun, iff_of_true rfl ⟨due.symm, .inr open_⟩⟩

theorem emitted_after (ms : List Move) : (after ms).emitted = emissions ms :=
  emitted_moves start ms

/-- What comes of the events that are put in while moves are made. -/
structure Delivered (ms : List Move) : Prop where
  /-- A sink that keeps its events keeps those up to the first terminal one. -/
  kept : ((emissions ms).foldl Collector.emit .empty).events = throughTerminal (emissions ms)
  last : ((emissions ms).foldl Collector.emit .empty).last? =
    (throughTerminal (emissions ms)).getLast?
  /-- Both sinks are terminated from the first terminal event on, whoever listens. -/
  terminated : (after ms).channel.terminated = (emissions ms).any Event.isTerminal ∧
    ((emissions ms).foldl Collector.emit .empty).terminated = (emissions ms).any Event.isTerminal
  heard : (after ms).heard <+: throughTerminal (emissions ms)
  /-- A listener that asks gets the next event if there is one. If there is none, it is told to wait
  as long as another one can come, and else that nothing comes any more. -/
  asked : Move.dropStream ∉ ms → ∃ l,
    (after (ms ++ [.listen])).answers = (after ms).answers ++ [l] ∧
    (∀ e, l = .event e ↔ ∃ rest, throughTerminal (emissions ms) = (after ms).heard ++ e :: rest) ∧
    (l = .pending ↔ (after ms).heard = throughTerminal (emissions ms) ∧
      (after ms).heard.any Event.isTerminal = false ∧ Move.dropSink ∉ ms) ∧
    (l = .ended ↔ (after ms).heard = throughTerminal (emissions ms) ∧
      ((after ms).heard.any Event.isTerminal = true ∨ Move.dropSink ∈ ms))
  /-- After a terminal event, or once it is told so, nothing comes any more. -/
  ended : (after ms).Told → ∀ more, ∃ n,
    (after (ms ++ more)).answers = (after ms).answers ++ List.replicate n .ended

/-- Whatever is done in which order, a sink that keeps its events keeps those up to the first
terminal one, and a listener gets the same events one by one. -/
theorem delivered_of_moves (ms : List Move) : Delivered ms := by
  have sound := sound_after ms
  have due : (after ms).due = throughTerminal (emissions ms) := by
    rw [Transmission.due, emitted_after]
  have collected := Collector.foldl_emit (c := .empty) rfl (emissions ms)
  have closed : (after ms).channel.writable = false ↔ Move.dropSink ∈ ms := by
    rw [← Bool.not_eq_true, after, writable_moves]
    simp [start, Channel.empty]
  have kept : ((emissions ms).foldl Collector.emit .empty).events =
      throughTerminal (emissions ms) := by
    rw [collected]
    exact List.nil_append _
  refine ⟨kept, congrArg List.getLast? kept, ⟨?_, by rw [collected]⟩, due ▸ sound.heard,
    fun stays => ?_, fun told more => ?_⟩
  · rw [sound.terminated, emitted_after]
  · have readable : (after ms).channel.readable = true := by
      rw [after, readable_moves]
      exact ⟨rfl, stays⟩
    obtain ⟨event, pending, ended⟩ := sound.answer readable
    refine ⟨(after ms).channel.next.1, ?_, ?_, ?_, ?_⟩
    · rw [after, List.foldl_append, List.foldl_cons, List.foldl_nil]
      show ((after ms).move .listen).answers = _
      rw [move, if_pos readable]
    · rw [← due]
      exact event
    · rw [pending, due, ← closed, Bool.not_eq_false]
    · rw [ended, Complete, due, closed]
  · rw [after, List.foldl_append]
    exact answers_of_finished (sound.finished.mpr told) more

end Transmission

end InstanceResize
