import InstanceResize.Proofs.Relay.Traffic
import InstanceResize.Proofs.Run.Playing

/-!
# What a connection conveys

A connection sends the events of its workflow in their order, each one once, up to the first
terminal one. A client that goes away gets the beginning of them, and not how the workflow ended.

* `frames` and `records`: what went to the client, with the signs of life or without them.
* `Conveys`: which events went to the client, and which wait to be sent.
* `Goes.conveys`: this is kept by all that a connection does by itself.
* `Traced`: a connection goes along with what happens in a run.
* `Served.traced`: a connection goes along with the run of the engine.
-/

namespace InstanceResize.Relay

/-- The frames that went to the client, in their order. -/
def frames (l : Link) : List Frame := l.sent.reverse.map Prod.snd

/-- The frames that went to the client, signs of life left aside. -/
def records (l : Link) : List Frame := (frames l).filter (· ≠ .ping)

/-- The frame of an event. -/
def record (e : Event) : Frame := .text (Link.encodeEvent e)

/-- Of the events `es` of a workflow so far, the events `done` went to the client. -/
structure Conveys (es done : List Event) (l : Link) : Prop where
  readable : l.events.readable = true
  terminated : l.events.terminated = es.any Event.isTerminal
  records : records l = done.map record
  /-- The events went in their order, and none came before its time. -/
  early : done <+: throughTerminal es
  /-- The others wait to be sent. -/
  waiting : l.isGone = false → done ++ l.events.queue = throughTerminal es
  finished : l.isGone = false → l.events.finished = done.any Event.isTerminal
  /-- A client that is gone was not told how the workflow ended. -/
  untold : l.isGone = true → done.any Event.isTerminal = false

section

variable {es done : List Event} {l l' : Link}

@[simp] theorem frames_note (l : Link) (f : Frame) : frames (l.note f) = frames l ++ [f] := by
  simp [frames, Link.note]

theorem frames_send_true {f : Frame} (h : l.send f = (true, l')) : frames l' = frames l ++ [f] := by
  obtain ⟨-, rfl⟩ := send_true h
  exact frames_note l f

theorem records_send_true {f : Frame} (h : l.send f = (true, l')) :
    records l' = records l ++ [f].filter (· ≠ .ping) := by
  rw [records, frames_send_true h, List.filter_append, records]

/-- A connection conveys the same if neither its events nor its records change. -/
theorem Conveys.congr (h : Conveys es done l) (events : l'.events = l.events)
    (same : Relay.records l' = Relay.records l) (gone : l'.isGone = l.isGone) :
    Conveys es done l' where
  readable := by rw [events]; exact h.readable
  terminated := by rw [events]; exact h.terminated
  records := same.trans h.records
  early := h.early
  waiting here := by rw [events]; exact h.waiting (gone ▸ here)
  finished here := by rw [events]; exact h.finished (gone ▸ here)
  untold left := h.untold (gone ▸ left)

/-- A client that goes away keeps what it got. -/
theorem Conveys.lost (h : Conveys es done l) (here : l.isGone = false)
    (unfinished : l.events.finished = false) (gone : l'.isGone = true)
    (events : ∃ queue finished, l'.events = { l.events with queue, finished })
    (same : Relay.records l' = Relay.records l) : Conveys es done l' := by
  obtain ⟨queue, finished, events⟩ := events
  have stays {P : Prop} (h' : l'.isGone = false) : P := absurd (gone.symm.trans h') nofun
  exact {
    readable := by rw [events]; exact h.readable
    terminated := by rw [events]; exact h.terminated
    records := same.trans h.records
    early := h.early
    waiting := stays
    finished := stays
    untold := fun _ => (h.finished here).symm.trans unfinished }

/-- An event that goes to the client is the next one of those that are let through. -/
theorem Conveys.sent (h : Conveys es done l) {e : Event} {events : Channel}
    (here : l.isGone = false) (next : l.events.next = (.event e, events))
    (accepted : ({ l with events } : Link).sendEvent e = (true, l')) :
    Conveys es (done ++ [e]) l' := by
  obtain ⟨unfinished, queue, waits, rfl⟩ := Channel.next_eq_event_iff.mp next
  obtain ⟨-, now, -, stays⟩ := send_cases accepted
  have waiting : (done ++ [e]) ++ queue = throughTerminal es := by
    rw [List.append_assoc, ← h.waiting here, waits]
    rfl
  have none_before : done.any Event.isTerminal = false := (h.finished here).symm.trans unfinished
  exact {
    readable := by rw [now]; exact h.readable
    terminated := by rw [now]; exact h.terminated
    records := by
      rw [records_send_true accepted, List.map_append]
      exact congrArg (· ++ [record e]) h.records
    early := ⟨queue, waiting⟩
    waiting := fun _ => by rw [now]; exact waiting
    finished := fun _ => by simp [now, none_before]
    untold := fun gone => absurd (gone.symm.trans (stays.trans here)) nofun }

theorem records_takeIn (time : Nat) (a : Arrival) (rest : List (Nat × Arrival)) :
    records (l.takeIn time a rest) = records l := by
  rw [Link.takeIn]
  split <;> rfl

theorem isGone_takeIn (time : Nat) (a : Arrival) (rest : List (Nat × Arrival)) :
    (l.takeIn time a rest).isGone = (l.isGone || a.isFarewell) := by
  rw [Link.takeIn]
  cases h : a.isFarewell with
  | true => simp
  | false => simp [Link.isGone]

/-- What a connection conveys is kept by all that it does by itself. -/
theorem Goes.conveys (h : Goes l l') (c : Conveys es done l) : ∃ done', Conveys es done' l' := by
  cases h with
  | sent here next accepted => exact ⟨_, c.sent here next accepted⟩
  | @refused l₁ e events here next declined =>
    obtain ⟨unfinished, queue, -, rfl⟩ := Channel.next_eq_event_iff.mp next
    obtain ⟨-, rfl⟩ := send_false declined
    exact ⟨done, c.lost here unfinished (isGone_lose _) ⟨queue, _, rfl⟩ rfl⟩
  | @arrived time a rest here idle comes =>
    refine ⟨done, ?_⟩
    have unfinished := (Channel.next_eq_pending_iff.mp idle).1
    have gone := isGone_takeIn (l := l) time a rest
    cases farewell : a.isFarewell with
    | true =>
      have gone : (l.takeIn time a rest).isGone = true := by simp [gone, farewell]
      exact c.lost here unfinished gone ⟨_, _, events_takeIn l time a rest⟩
        (records_takeIn time a rest)
    | false =>
      exact c.congr (events_takeIn l time a rest) (records_takeIn time a rest)
        (by simp [gone, farewell])
  | beaten here idle =>
    refine ⟨done, ?_⟩
    have unfinished := (Channel.next_eq_pending_iff.mp idle).1
    obtain ⟨l₁, ⟨-, events, -, sent, -, gone⟩, accepted | ⟨-, lost⟩⟩ := beat_cases l
    · have same : records l.beat = records l := by
        rw [records_send_true accepted]
        simp [records, frames, sent]
      exact c.congr (events_beat l) same ((send_cases accepted).2.2.2.trans gone)
    · have same : records l.beat = records l := by
        rw [lost]
        simp [records, frames, Link.lose, sent]
      exact c.lost here unfinished (by rw [lost]; exact isGone_lose l₁)
        ⟨_, _, events_beat l⟩ same
  | passed now => exact ⟨done, c.congr rfl rfl rfl⟩

theorem GoesOn.conveys (h : GoesOn l l') (c : Conveys es done l) :
    ∃ done', Conveys es done' l' := by
  refine h.invariant (P := fun l => ∃ done, Conveys es done l) ?_ ⟨done, c⟩
  intro l₁ l₂ step conveys
  obtain ⟨done₁, c₁⟩ := conveys
  exact step.conveys c₁

/-- An event that the engine emits waits to be sent, unless one was terminal before. -/
theorem Conveys.emit (h : Conveys es done l) (e : Event) :
    Conveys (es ++ [e]) done { l with events := l.events.emit e } := by
  cases ended : es.any Event.isTerminal with
  | true =>
    have same : l.events.emit e = l.events := by
      rw [Channel.emit, if_pos (h.terminated.trans ended)]
    have through := throughTerminal_append_of_any ended [e]
    rw [same]
    exact { h with
      terminated := h.terminated.trans (by simp [ended])
      early := by rw [through]; exact h.early
      waiting := fun here => (h.waiting here).trans through.symm }
  | false =>
    have now : l.events.emit e =
        { l.events with queue := l.events.queue ++ [e], terminated := e.isTerminal } := by
      rw [Channel.emit, if_neg (by simp [h.terminated, ended]), if_pos h.readable]
    have calm : ∀ x ∈ es, x.isTerminal = false := by simpa using ended
    have through : throughTerminal (es ++ [e]) = throughTerminal es ++ [e] := by
      have last : throughTerminal [e] = [e] := by simp [throughTerminal]
      rw [throughTerminal_append calm, throughTerminal_eq_self ended, last]
    rw [now]
    exact { h with
      terminated := by simp [ended]
      early := by rw [through]; exact h.early.trans (List.prefix_append _ _)
      waiting := fun here => by
        rw [through, ← h.waiting here]
        exact (List.append_assoc ..).symm }

end

/-! ## A client that stays -/

/-- A client that is there and stays: it accepts every frame and does not say farewell. -/
structure Stays (l : Link) : Prop where
  here : l.isGone = false
  unbounded : l.budget = none
  loyal : ∀ x ∈ l.arrivals, x.2.isFarewell = false

section

variable {l l' : Link}

theorem Stays.send (h : Stays l) {f : Frame} {sent : Bool} (sends : l.send f = (sent, l')) :
    sent = true ∧ Stays l' := by
  cases sent with
  | true =>
    obtain ⟨-, -, arrivals, gone⟩ := send_cases sends
    obtain ⟨-, rfl⟩ := send_true sends
    have unbounded : l.budget.map (· - 1) = none := by rw [h.unbounded]; rfl
    exact ⟨rfl, gone.trans h.here, unbounded, arrivals ▸ h.loyal⟩
  | false =>
    have bounded := (send_false sends).1
    exact absurd (h.unbounded.symm.trans bounded) nofun

/-- A client that stays is not lost. -/
theorem Goes.stays (h : Goes l l') (stays : Stays l) : Stays l' := by
  cases h with
  | @sent _ e events here next accepted =>
    have taken : Stays { l with events } := ⟨stays.here, stays.unbounded, stays.loyal⟩
    exact (taken.send accepted).2
  | refused here next declined =>
    have bounded : l.budget = some 0 := (send_false declined).1
    rw [stays.unbounded] at bounded
    cases bounded
  | @arrived time a rest here idle comes =>
    have loyal : ∀ x ∈ (time, a) :: rest, x.2.isFarewell = false := comes ▸ stays.loyal
    have farewell : a.isFarewell = false := loyal (time, a) List.mem_cons_self
    rw [Link.takeIn]
    simp only [farewell]
    exact ⟨stays.here, stays.unbounded, fun x hx => loyal x (List.mem_cons_of_mem _ hx)⟩
  | beaten here idle =>
    obtain ⟨l₁, ⟨-, -, arrivals, -, budget, gone⟩, sends⟩ := beat_cases l
    have stays₁ : Stays l₁ :=
      ⟨gone.trans stays.here, budget.trans stays.unbounded, arrivals ▸ stays.loyal⟩
    rcases sends with accepted | ⟨declined, -⟩
    · exact (stays₁.send accepted).2
    · exact absurd (stays₁.send declined).1 Bool.false_ne_true
  | passed now => exact ⟨stays.here, stays.unbounded, stays.loyal⟩

theorem GoesOn.stays (h : GoesOn l l') (stays : Stays l) : Stays l' :=
  h.invariant (fun _ _ step => step.stays) stays

end

/-! ## What a run notices of a connection -/

/-- The cancellation of a run whose client is found to be gone. -/
def strike (struck : Bool) : List Moment := if struck then [.cancel] else []

section

variable (struck : Bool)

@[simp] theorem exchanges_strike : exchanges (strike struck) = [] := by cases struck <;> rfl

@[simp] theorem begun_strike : begun (strike struck) = [] := by cases struck <;> rfl

@[simp] theorem emitted_strike : emitted (strike struck) = [] := by cases struck <;> rfl

@[simp] theorem wasCancelled_strike : wasCancelled (strike struck) = struck := by
  cases struck <;> rfl

theorem exchange_eq (c : Call) (r : c.Reply) :
    exchange c r struck = [.call c] ++ strike struck ++ [.reply c r] := by
  cases struck <;> rfl

end

section

variable {l l' : Link}

theorem Kept.calls_eq (h : Kept l l') : l'.world.calls = l.world.calls := by
  rw [World.calls, h.log, World.calls]

theorem GoesOn.isGone_eq (h : GoesOn l l') :
    l'.isGone = (l.isGone || (!l.isGone && l'.isGone)) := by
  have mono := h.kept.gone
  cases before : l.isGone with
  | true => simp [mono before]
  | false => rfl

theorem once_of_struck (struck : (!l.isGone && l'.isGone) = true) : l.isGone = false := by
  cases here : l.isGone with
  | true => simp [here] at struck
  | false => rfl

end

/-! ## A connection and a run -/

/-- A connection goes along with what happens in a run: the calls are made, the events are conveyed,
and the run is cancelled exactly when the client is found to be gone. -/
structure Traced (l : Link) (t : List Moment) (l' : Link) : Prop where
  gone : l'.isGone = (l.isGone || wasCancelled t)
  calls : l'.world.calls = l.world.calls ++ begun t
  conveys : ∀ {es done}, Conveys es done l → ∃ done', Conveys (es ++ emitted t) done' l'
  stays : Stays l → Stays l'

section

variable {l l₁ l' : Link} {t u : List Moment}

theorem Traced.trans (h : Traced l t l₁) (h' : Traced l₁ u l') : Traced l (t ++ u) l' where
  gone := by rw [h'.gone, h.gone, wasCancelled_append, Bool.or_assoc]
  calls := by rw [h'.calls, h.calls, begun_append, List.append_assoc]
  conveys c := by
    obtain ⟨done₁, c₁⟩ := h.conveys c
    rw [emitted_append, ← List.append_assoc]
    exact h'.conveys c₁
  stays := h'.stays ∘ h.stays

/-- What only concerns the provider and the clock. -/
theorem traced_world (l : Link) {world : World} (calls : world.calls = l.world.calls ++ begun t)
    (events : emitted t = []) (calm : wasCancelled t = false) :
    Traced l t { l with world } where
  gone := by
    rw [calm, Bool.or_false]
    rfl
  calls := calls
  conveys {es done} h := ⟨done, by
    rw [events, List.append_nil]
    exact h.congr rfl rfl rfl⟩
  stays h := ⟨h.here, h.unbounded, h.loyal⟩

/-- What is none of the connection's business. -/
theorem traced_self (l : Link) (calls : begun t = []) (events : emitted t = [])
    (calm : wasCancelled t = false) : Traced l t l :=
  traced_world l (by simp [calls]) events calm

theorem traced_emit (l : Link) (e : Event) :
    Traced l [.emit e] { l with events := l.events.emit e } where
  gone := (Bool.or_false _).symm
  calls := (List.append_nil _).symm
  conveys h := ⟨_, h.emit e⟩
  stays h := ⟨h.here, h.unbounded, h.loyal⟩

/-- A client that was there and is found to be gone cancels the run. -/
theorem GoesOn.traced (h : GoesOn l l') : Traced l (strike (!l.isGone && l'.isGone)) l' where
  gone := by
    rw [wasCancelled_strike]
    exact h.isGone_eq
  calls := by
    rw [begun_strike, List.append_nil]
    exact h.kept.calls_eq
  conveys c := by
    rw [emitted_strike, List.append_nil]
    exact h.conveys c
  stays := h.stays

/-- A call and its answer, with all that the connection does meanwhile. -/
theorem traced_exchange {c : Call} {world : World} (r : c.Reply)
    (meanwhile : GoesOn { l with world := l.world.begin c } l₁)
    (same : world.calls = l₁.world.calls) :
    Traced l (exchange c r (!l.isGone && l₁.isGone)) { l₁ with world } := by
  have begins : Traced l [.call c] { l with world := l.world.begin c } :=
    traced_world l (World.calls_begin _ c) rfl rfl
  have ends : Traced l₁ [.reply c r] { l₁ with world } :=
    traced_world l₁ (same.trans (List.append_nil _).symm) rfl rfl
  rw [exchange_eq]
  exact (begins.trans meanwhile.traced).trans ends

end

/-! ## The engine and the connection -/

/-- Every program has a run, cancelled at its start or not. -/
theorem exists_runs_of_program {α : Type} (p : Program α) (b : Bool) : ∃ t a, p.Runs b t a := by
  induction p generalizing b with
  | done a => exact ⟨[], a, .done b a⟩
  | call c next ih =>
    obtain ⟨t, a, h⟩ := ih (.error default) b
    exact ⟨_, a, .call false nofun (by simpa using h)⟩
  | wait ms next ih =>
    cases b with
    | true =>
      obtain ⟨t, a, h⟩ := ih true true
      exact ⟨t, a, .passOver h⟩
    | false =>
      obtain ⟨t, a, h⟩ := ih false false
      exact ⟨_, a, .sleep h⟩
  | cancelled next ih =>
    obtain ⟨t, a, h⟩ := ih b b
    exact ⟨t, a, .cancelled h⟩
  | emit e next ih =>
    obtain ⟨t, a, h⟩ := ih b
    exact ⟨_, a, .emit h⟩

variable {α : Type}

/-- A call is answered as it would have been at once. -/
theorem GoesOn.answer_eq {c : Call} {l l₁ : Link} {world : World} {reply : Option c.Reply}
    (meanwhile : GoesOn { l with world := l.world.begin c } l₁)
    (answer : l₁.world.finish c = (reply, world)) :
    l.world.provider.answer c = (reply, world.provider) := by
  have kept : l₁.world.provider = l.world.provider := meanwhile.kept.provider
  have said : (l₁.world.provider.answer c).1 = reply := congrArg Prod.fst answer
  have left : (l₁.world.provider.answer c).2 = world.provider :=
    congrArg (fun x => x.2.provider) answer
  rw [← kept]
  exact Prod.ext said left

/-- A connection goes along with the run of a program, as far as the program gets. If no call brings
it down, this is the whole run, with the answers of the provider. -/
theorem Served.traced {p : Program α} {l l' : Link} {result : Option α}
    (h : Served p l result l') :
    ∃ t rest a, p.Runs l.isGone (t ++ rest) a ∧ Traced l t l' ∧
      ∀ b, result = some b → b = a ∧ rest = [] ∧
        l.world.provider.Replies (exchanges t) l'.world.provider := by
  induction h with
  | done a l =>
    refine ⟨[], [], a, .done _ a, traced_self l rfl rfl rfl, ?_⟩
    intro b same
    exact ⟨(Option.some.inj same).symm, rfl, rfl⟩
  | @call c next l l₁ l' world r result meanwhile answer rest ih =>
    obtain ⟨t, u, a, runs, traced, whole⟩ := ih
    have same : world.calls = l₁.world.calls := by
      rw [← World.calls_finish l₁.world c, answer]
    have before : Traced l (exchange c r (!l.isGone && l₁.isGone)) { l₁ with world } :=
      traced_exchange r meanwhile same
    refine ⟨_, u, a, ?_, before.trans traced, ?_⟩
    · rw [List.append_assoc]
      exact .call _ once_of_struck (meanwhile.isGone_eq ▸ runs)
    · intro b ended
      obtain ⟨rfl, rfl, replies⟩ := whole b ended
      have answered := meanwhile.answer_eq answer
      refine ⟨rfl, rfl, ?_⟩
      rw [exchanges_append, exchanges_exchange]
      exact ⟨congrArg Prod.fst answered, congrArg Prod.snd answered ▸ replies⟩
  | @down c next l l₁ world meanwhile answer =>
    have begins : Traced l [.call c] { l with world := l.world.begin c } :=
      traced_world l (World.calls_begin _ c) rfl rfl
    have ends : Traced l₁ [] { l₁ with world } := by
      refine traced_world l₁ ?_ rfl rfl
      rw [begun_nil, List.append_nil, ← World.calls_finish l₁.world c, answer]
    -- The run could have gone on if the call had been answered.
    obtain ⟨u, a, runs⟩ := exists_runs_of_program (next (.error default)) l₁.isGone
    refine ⟨_, .reply c (.error default) :: u, a, ?_, (begins.trans meanwhile.traced).trans ends,
      nofun⟩
    have whole : [.call c] ++ strike (!l.isGone && l₁.isGone) ++ [] ++
        .reply c (.error default) :: u =
        exchange c (.error default) (!l.isGone && l₁.isGone) ++ u := by
      simp [exchange_eq]
    have runs : (Program.call c next).Runs l.isGone
        (exchange c (.error default) (!l.isGone && l₁.isGone) ++ u) a :=
      .call _ once_of_struck (meanwhile.isGone_eq ▸ runs)
    exact whole ▸ runs
  | @wait ms next l l₁ l' result meanwhile rest ih =>
    obtain ⟨t, u, a, runs, traced, whole⟩ := ih
    have goes := meanwhile.traced.trans traced
    have kept : l₁.world.provider = l.world.provider := meanwhile.kept.provider
    rw [kept] at whole
    cases before : l.isGone with
    | true =>
      have after : l₁.isGone = true := meanwhile.kept.gone before
      rw [after] at runs
      rw [before] at goes
      exact ⟨t, u, a, .passOver runs, goes, whole⟩
    | false =>
      cases after : l₁.isGone with
      | true =>
        rw [after] at runs
        rw [before, after] at goes
        have rests : Traced l [.rest ms] l := traced_self l rfl rfl rfl
        exact ⟨_, u, a, .interrupt runs, rests.trans goes, whole⟩
      | false =>
        rw [after] at runs
        rw [before, after] at goes
        have rests : Traced l [.rest ms, .wake] l := traced_self l rfl rfl rfl
        exact ⟨_, u, a, .sleep runs, rests.trans goes, whole⟩
  | cancelled rest ih =>
    obtain ⟨t, u, a, runs, traced, whole⟩ := ih
    exact ⟨t, u, a, .cancelled runs, traced, whole⟩
  | @emit e next l l' result rest ih =>
    obtain ⟨t, u, a, runs, traced, whole⟩ := ih
    exact ⟨_, u, a, .emit runs, (traced_emit l e).trans traced, whole⟩

end InstanceResize.Relay
