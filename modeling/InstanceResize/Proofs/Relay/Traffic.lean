import InstanceResize.Proofs.Progress.Delivery
import InstanceResize.Relay.Session
import Mathlib.Logic.Relation

/-!
# How a connection goes on

While the engine calls its provider or waits, the connection goes on by itself: it sends the events
that are there, takes in what comes from the client, and gives signs of life. Which of these things
comes next, and how far the connection gets before the engine goes on, is left open here. The
connection in virtual time is one of these ways.

The engine gives way nowhere else. From the end of a call or a wait up to the next one it goes on
without a break: nothing is sent, and nothing is taken in, between an event that it tells and a look
at whether the client is gone.

* `Goes` and `GoesOn`: what a connection does by itself, one thing or some of them.
* `GoesOn.invariant`: what each of these things keeps, all of them keep.
* `Served`: the engine works, and the connection goes on during its calls and waits.
* `Relayed`: the whole connection.
* `relayed_relay`: the connection in virtual time goes on in one of these ways.
-/

namespace InstanceResize.Relay

/-! ## What a connection does by itself -/

/-- One thing that a connection does by itself. It listens to the client, and gives signs of life,
only when no event waits to be sent and the last one was not terminal. -/
inductive Goes : Link → Link → Prop where
  /-- The client accepts an event. -/
  | sent {l l' : Link} {e : Event} {events : Channel} (here : l.isGone = false)
      (next : l.events.next = (.event e, events))
      (accepted : ({ l with events } : Link).sendEvent e = (true, l')) : Goes l l'
  /-- The client does not accept an event. -/
  | refused {l l' : Link} {e : Event} {events : Channel} (here : l.isGone = false)
      (next : l.events.next = (.event e, events))
      (declined : ({ l with events } : Link).sendEvent e = (false, l')) : Goes l l'.lose
  /-- Something comes from the client. -/
  | arrived {l : Link} {time : Nat} {a : Arrival} {rest : List (Nat × Arrival)}
      (here : l.isGone = false) (idle : l.events.next.1 = .pending)
      (comes : l.arrivals = (time, a) :: rest) : Goes l (l.takeIn time a rest)
  /-- It is time for a sign of life. -/
  | beaten {l : Link} (here : l.isGone = false) (idle : l.events.next.1 = .pending) :
      Goes l l.beat
  /-- The clock moves. -/
  | passed (l : Link) (now : Nat) : Goes l { l with world := { l.world with now } }

/-- Some things that a connection does by itself, one after the other. -/
abbrev GoesOn : Link → Link → Prop := Relation.ReflTransGen Goes

/-! ## What a connection touches by itself -/

section

variable {l l' : Link}

theorem send_true {f : Frame} (h : l.send f = (true, l')) :
    l.budget ≠ some 0 ∧ l' = { l.note f with budget := l.budget.map (· - 1) } := by
  rw [Link.send] at h
  cases hb : l.budget with
  | none =>
    obtain rfl : l.note f = l' := by simpa [hb] using h
    exact ⟨nofun, by simp [Link.note, hb]⟩
  | some n =>
    cases n with
    | zero => simp [hb] at h
    | succ n =>
      obtain rfl : { l.note f with budget := some n } = l' := by simpa [hb] using h
      exact ⟨by simp, by simp⟩

theorem send_false {f : Frame} (h : l.send f = (false, l')) : l.budget = some 0 ∧ l' = l := by
  rw [Link.send] at h
  cases hb : l.budget with
  | none => simp [hb] at h
  | some n =>
    cases n with
    | zero => exact ⟨rfl, by simpa [hb, eq_comm] using h⟩
    | succ n => simp [hb] at h

/-- What a connection leaves alone. -/
structure Kept (l l' : Link) : Prop where
  provider : l'.world.provider = l.world.provider
  log : l'.world.log = l.world.log
  writable : l'.events.writable = l.events.writable
  /-- A client that is gone does not come back. -/
  gone : l.isGone = true → l'.isGone = true

theorem kept_refl (l : Link) : Kept l l := ⟨rfl, rfl, rfl, id⟩

theorem Kept.trans {l'' : Link} (h : Kept l l') (h' : Kept l' l'') : Kept l l'' :=
  ⟨h'.provider.trans h.provider, h'.log.trans h.log, h'.writable.trans h.writable,
    h'.gone ∘ h.gone⟩

theorem kept_lose (l : Link) : Kept l l.lose := by
  refine ⟨rfl, rfl, rfl, fun gone => ?_⟩
  rw [Link.isGone, Option.isSome_iff_exists] at gone
  obtain ⟨t, gone⟩ := gone
  simp [Link.lose, Link.isGone, gone]

@[simp] theorem isGone_lose (l : Link) : l.lose.isGone = true := by
  cases h : l.goneAt <;> simp [Link.lose, Link.isGone, h]

/-- Nothing but the frames changes when something is sent, whether it is accepted or not. -/
theorem send_cases {f : Frame} {sent : Bool} (h : l.send f = (sent, l')) :
    Kept l l' ∧ l'.events = l.events ∧ l'.arrivals = l.arrivals ∧ l'.isGone = l.isGone := by
  cases sent with
  | true =>
    obtain ⟨-, rfl⟩ := send_true h
    exact ⟨⟨rfl, rfl, rfl, id⟩, rfl, rfl, rfl⟩
  | false =>
    obtain ⟨-, rfl⟩ := send_false h
    exact ⟨kept_refl _, rfl, rfl, rfl⟩

theorem kept_takeIn (l : Link) (time : Nat) (a : Arrival) (rest : List (Nat × Arrival)) :
    Kept l (l.takeIn time a rest) := by
  have taken : Kept l { l with
      arrivals := rest, world := { l.world with now := max l.world.now time } } :=
    ⟨rfl, rfl, rfl, id⟩
  rw [Link.takeIn]
  split
  · exact taken.trans (kept_lose _)
  · exact taken

@[simp] theorem events_takeIn (l : Link) (time : Nat) (a : Arrival)
    (rest : List (Nat × Arrival)) : (l.takeIn time a rest).events = l.events := by
  rw [Link.takeIn]
  split <;> rfl

/-- A sign of life is sent, or the client is found to be gone. -/
theorem beat_cases (l : Link) : ∃ l₁ : Link,
    (Kept l l₁ ∧ l₁.events = l.events ∧ l₁.arrivals = l.arrivals ∧ l₁.sent = l.sent ∧
      l₁.budget = l.budget ∧ l₁.isGone = l.isGone) ∧
    (l₁.send .ping = (true, l.beat) ∨ l₁.send .ping = (false, l₁) ∧ l.beat = l₁.lose) := by
  refine ⟨{ l with
      world := { l.world with now := max l.world.now l.pingAt }
      pingAt := l.pingAt + Link.heartbeat },
    ⟨⟨rfl, rfl, rfl, id⟩, rfl, rfl, rfl, rfl, rfl⟩, ?_⟩
  rw [Link.beat]
  split
  · next l' accepted => exact .inl accepted
  · next l' declined =>
    obtain ⟨-, rfl⟩ := send_false declined
    exact .inr ⟨declined, rfl⟩

theorem kept_beat (l : Link) : Kept l l.beat := by
  obtain ⟨l₁, ⟨kept, -⟩, accepted | ⟨-, gone⟩⟩ := beat_cases l
  · exact kept.trans (send_cases accepted).1
  · exact gone ▸ kept.trans (kept_lose l₁)

@[simp] theorem events_beat (l : Link) : l.beat.events = l.events := by
  obtain ⟨l₁, ⟨-, events, -⟩, accepted | ⟨-, gone⟩⟩ := beat_cases l
  · exact (send_cases accepted).2.1.trans events
  · rw [gone]
    exact events

theorem Goes.kept (h : Goes l l') : Kept l l' := by
  have taken {e : Event} {events : Channel} (next : l.events.next = (.event e, events)) :
      Kept l { l with events } := by
    obtain ⟨-, queue, -, rfl⟩ := Channel.next_eq_event_iff.mp next
    exact ⟨rfl, rfl, rfl, id⟩
  cases h with
  | sent here next accepted => exact (taken next).trans (send_cases accepted).1
  | refused here next declined =>
    exact ((taken next).trans (send_cases declined).1).trans (kept_lose _)
  | arrived here idle comes => exact kept_takeIn _ _ _ _
  | beaten here idle => exact kept_beat _
  | passed now => exact ⟨rfl, rfl, rfl, id⟩

/-- What everything keeps that a connection does by itself is kept however long it goes on. -/
theorem GoesOn.invariant {P : Link → Prop} (step : ∀ l l', Goes l l' → P l → P l')
    (h : GoesOn l l') (start : P l) : P l' := by
  induction h with
  | refl => exact start
  | tail on last ih => exact step _ _ last ih

theorem GoesOn.kept (h : GoesOn l l') : Kept l l' :=
  h.invariant (fun _ _ step kept => kept.trans step.kept) (kept_refl l)

end

/-! ## The connection in virtual time -/

section

variable {l : Link}

/-- A connection has nothing to send, unless it is over. -/
def Rests (l : Link) : Prop :=
  l.isGone = false → l.events.finished = false → l.events.next.1 = .pending

theorem goesOn_happenings (wake fuel : Nat) (rests : Rests l) :
    GoesOn l (l.happenings wake fuel) := by
  induction fuel generalizing l with
  | zero => exact .refl
  | succ fuel ih =>
    rw [Link.happenings]
    split
    · exact .refl
    · next goes =>
      obtain ⟨here, unfinished⟩ : l.isGone = false ∧ l.events.finished = false := by
        simpa using goes
      have idle := rests here unfinished
      have beats : GoesOn l (l.beat.happenings wake fuel) :=
        .head (.beaten here idle) (ih fun _ _ => by rwa [events_beat])
      split
      · next time a rest comes =>
        split
        · exact .head (.arrived here idle comes) (ih fun _ _ => by rwa [events_takeIn])
        · split
          · exact beats
          · exact .refl
      · split
        · exact beats
        · exact .refl

theorem goesOn_elapseTo (wake : Nat) (rests : Rests l) : GoesOn l (l.elapseTo wake) := by
  rw [Link.elapseTo]
  have on := goesOn_happenings wake (l.bound wake) rests
  split
  · exact on
  · exact on.tail (.passed _ wake)

theorem goesOn_flush (fuel : Nat) : GoesOn l (l.flush fuel) := by
  induction fuel generalizing l with
  | zero => exact .refl
  | succ fuel ih =>
    rw [Link.flush]
    split
    · exact .refl
    · next goes =>
      have here : l.isGone = false := by simpa using goes
      split
      · next e events next =>
        split
        · next l' accepted => exact .head (.sent here next accepted) ih
        · next l' declined => exact .single (.refused here next declined)
      · exact .refl

/-- A connection sends all that waits to be sent. -/
theorem rests_flush {fuel : Nat} (enough : l.events.queue.length < fuel)
    (writable : l.events.writable = true) : Rests (l.flush fuel) := by
  induction fuel generalizing l with
  | zero => exact absurd enough (Nat.not_lt_zero _)
  | succ fuel ih =>
    rw [Link.flush]
    split
    · next gone => exact fun here => absurd (gone.symm.trans here) nofun
    · split
      · next e events next =>
        obtain ⟨-, queue, waiting, rfl⟩ := Channel.next_eq_event_iff.mp next
        split
        · next l' accepted =>
          have events := (send_cases accepted).2.1
          rw [waiting, List.length_cons] at enough
          exact ih (by rw [events]; exact Nat.lt_of_succ_lt_succ enough)
            (by rw [events]; exact writable)
        · next l' declined => exact fun here => absurd ((isGone_lose l').symm.trans here) nofun
      · next nothing =>
        intro here unfinished
        refine Channel.next_eq_pending_iff.mpr ⟨unfinished, ?_, writable⟩
        cases waiting : l.events.queue with
        | nil => rfl
        | cons e queue =>
          exact absurd (Channel.next_eq_event_iff.mpr ⟨unfinished, queue, waiting, rfl⟩)
            (nothing e _)

end

/-! ## The engine and the connection -/

variable {α : Type}

/-- The engine works, and the connection goes on during its calls and waits: what came of its
program, unless a call brought it down. After a wait it goes on with whether the client is gone. The
connection stays as it is when the engine tells an event and when it looks whether the client is
gone. -/
inductive Served : Program α → Link → Option α → Link → Prop where
  | done (a : α) (l : Link) : Served (.done a) l (some a) l
  | call {c : Call} {next : c.Reply → Program α} {l l₁ l' : Link} {world : World} {r : c.Reply}
      {result : Option α} (meanwhile : GoesOn { l with world := l.world.begin c } l₁)
      (answer : l₁.world.finish c = (some r, world))
      (rest : Served (next r) { l₁ with world } result l') : Served (.call c next) l result l'
  | down {c : Call} {next : c.Reply → Program α} {l l₁ : Link} {world : World}
      (meanwhile : GoesOn { l with world := l.world.begin c } l₁)
      (answer : l₁.world.finish c = (none, world)) :
      Served (.call c next) l none { l₁ with world }
  | wait {ms : UInt64} {next : Bool → Program α} {l l₁ l' : Link} {result : Option α}
      (meanwhile : GoesOn l l₁) (rest : Served (next l₁.isGone) l₁ result l') :
      Served (.wait ms next) l result l'
  | cancelled {next : Bool → Program α} {l l' : Link} {result : Option α}
      (rest : Served (next l.isGone) l result l') : Served (.cancelled next) l result l'
  | emit {e : Event} {next : Program α} {l l' : Link} {result : Option α}
      (rest : Served next { l with events := l.events.emit e } result l') :
      Served (.emit e next) l result l'

/-- The end of a connection over which the engine ran. -/
inductive Ended : Link → Link → Prop where
  /-- The client was gone before. -/
  | gone {l : Link} (gone : l.isGone = true) : Ended l l
  /-- The client was told how the workflow ended. -/
  | closed {l : Link} (here : l.isGone = false) (finished : l.events.finished = true) :
      Ended l l.close
  /-- The engine did not say how the workflow ended. -/
  | broken {l : Link} (here : l.isGone = false) (unfinished : l.events.finished = false)
      (empty : l.events.queue = []) :
      Ended l (fail .transport "workflow ended without a result" l)

/-- A connection for a session, from its beginning to its end. It goes on by itself before the
workflow, during the calls and waits of the engine, and after the workflow. -/
inductive Relayed (config : EngineConfig) (session : Session) (l : Link) : Link → Prop where
  /-- There is no workflow. -/
  | turnedAway {l' : Link} (turned : greet session l = .error l') : Relayed config session l l'
  /-- The workflow runs. -/
  | served {mutation : Mutation} {l₀ l₁ l₂ l₃ l' : Link}
      {result : Option (Except RunError Workflow)} (named : greet session l = .ok (mutation, l₀))
      (before : GoesOn
        { l₀ with events := .empty, pingAt := l₀.world.now + Link.heartbeat } l₁)
      (served : Served
        (Engine.execute config ⟨session.instanceId, session.declaredState, mutation⟩) l₁ result l₂)
      (after : GoesOn l₂ l₃) (ended : Ended l₃ l') : Relayed config session l l'

/-! ## The engine in virtual time -/

/-- The run of a program over a connection. -/
def drive (p : Program α) (l : Link) : Option α × Link := (p.interpret handler : Running α).run l

section

variable {l l' : Link} {c : Call} {next : c.Reply → Program α}

theorem drive_call_of_some {r : c.Reply} (h : call l c = (some r, l')) :
    drive (.call c next) l = drive (next r) l' :=
  run_bind_of_some h _

theorem drive_call_of_none (h : call l c = (none, l')) : drive (.call c next) l = (none, l') :=
  run_bind_of_none h _

theorem drive_wait (ms : UInt64) (next : Bool → Program α) :
    drive (.wait ms next) l = drive (next (pause l ms.toNat).1) (pause l ms.toNat).2 := rfl

theorem drive_cancelled (next : Bool → Program α) :
    drive (.cancelled next) l = drive (next l.isGone) l := rfl

theorem drive_emit (e : Event) (next : Program α) :
    drive (.emit e next) l = drive next { l with events := l.events.emit e } := rfl

end

section

variable {l : Link}

theorem goesOn_outlast (duration : Nat) (writable : l.events.writable = true) :
    GoesOn l (outlast l duration) := by
  have sends : GoesOn l l.flushAll := goesOn_flush _
  have rests : Rests l.flushAll := rests_flush (Nat.lt_succ_self _) writable
  rw [outlast]
  split
  · exact .refl
  · exact (sends.trans (goesOn_elapseTo _ rests)).tail (.passed _ _)

/-- A connection goes on while a call is under way. -/
theorem goesOn_call (c : Call) (writable : l.events.writable = true) :
    ∃ l₁, GoesOn { l with world := l.world.begin c } l₁ ∧
      call l c = ((l₁.world.finish c).1, { l₁ with world := (l₁.world.finish c).2 }) :=
  ⟨_, goesOn_outlast (l.world.duration c) writable, rfl⟩

/-- A connection goes on during a pause, which ends early when the client is gone. -/
theorem goesOn_pause (ms : Nat) (writable : l.events.writable = true) :
    GoesOn l (pause l ms).2 ∧ (pause l ms).1 = (pause l ms).2.isGone := by
  have sends : GoesOn l l.flushAll := goesOn_flush _
  have rests : Rests l.flushAll := rests_flush (Nat.lt_succ_self _) writable
  rw [pause]
  split
  · next gone => exact ⟨.refl, gone.symm⟩
  · refine ⟨?_, rfl⟩
    dsimp only
    split
    · exact sends
    · exact sends.trans (goesOn_elapseTo _ rests)

theorem writable_emit (e : Event) (c : Channel) : (c.emit e).writable = c.writable := by
  rw [Channel.emit]
  split <;> rfl

/-- The run of a program over a connection is a way the engine and the connection can go. -/
theorem served_drive (p : Program α) (writable : l.events.writable = true) :
    Served p l (drive p l).1 (drive p l).2 ∧ (drive p l).2.events.writable = true := by
  induction p generalizing l with
  | done a => exact ⟨.done a l, writable⟩
  | call c next ih =>
    obtain ⟨l₁, meanwhile, answered⟩ := goesOn_call c writable
    have writable₁ : l₁.events.writable = true := meanwhile.kept.writable.trans writable
    rcases answer : l₁.world.finish c with ⟨_ | r, world⟩
    · rw [answer] at answered
      rw [drive_call_of_none answered]
      exact ⟨.down meanwhile answer, writable₁⟩
    · rw [answer] at answered
      rw [drive_call_of_some answered]
      obtain ⟨rest, kept⟩ := ih r (l := { l₁ with world }) writable₁
      exact ⟨.call meanwhile answer rest, kept⟩
  | wait ms next ih =>
    obtain ⟨meanwhile, cut⟩ := goesOn_pause ms.toNat writable
    rw [drive_wait, cut]
    obtain ⟨rest, kept⟩ := ih (pause l ms.toNat).2.isGone (l := (pause l ms.toNat).2)
      (meanwhile.kept.writable.trans writable)
    exact ⟨.wait meanwhile rest, kept⟩
  | cancelled next ih =>
    rw [drive_cancelled]
    obtain ⟨rest, kept⟩ := ih l.isGone writable
    exact ⟨.cancelled rest, kept⟩
  | emit e next ih =>
    rw [drive_emit]
    obtain ⟨rest, kept⟩ := ih (l := { l with events := l.events.emit e })
      ((writable_emit e l.events).trans writable)
    exact ⟨.emit rest, kept⟩

theorem ended_finish (writable : l.events.writable = true) :
    ∃ l₁, GoesOn l l₁ ∧ Ended l₁ (finish l) := by
  refine ⟨l.flushAll, goesOn_flush _, ?_⟩
  have rests : Rests l.flushAll := rests_flush (Nat.lt_succ_self _) writable
  rw [finish]
  split
  · next gone => exact .gone gone
  · next goes =>
    have here : l.flushAll.isGone = false := by simpa using goes
    split
    · next finished => exact .closed here finished
    · next unfinished =>
      have unfinished : l.flushAll.events.finished = false := by simpa using unfinished
      exact .broken here unfinished (Channel.next_eq_pending_iff.mp (rests here unfinished)).2.1

end

/-- The connection in virtual time is one of the ways in which a connection can go. -/
theorem relayed_relay (config : EngineConfig) (session : Session) (l : Link) :
    Relayed config session l (relay config session l) := by
  rw [relay]
  split
  · next l' turned => exact .turnedAway turned
  · next mutation l₀ named =>
    have before : GoesOn { l₀ with events := .empty, pingAt := l₀.world.now + Link.heartbeat }
        (catchUp { l₀ with events := .empty, pingAt := l₀.world.now + Link.heartbeat }) :=
      goesOn_happenings _ _ fun _ _ => rfl
    obtain ⟨served, writable⟩ := served_drive
      (Engine.execute config ⟨session.instanceId, session.declaredState, mutation⟩)
      (before.kept.writable.trans rfl)
    obtain ⟨l₃, after, ended⟩ := ended_finish writable
    exact .served named before served after ended

end InstanceResize.Relay
