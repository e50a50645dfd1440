import InstanceResize.Proofs.Progress.Delivery
import InstanceResize.Proofs.Run.Runs
import InstanceResize.Rehearsal.Scene

/-!
# Programs with a provider

A run of a program is a run with a certain provider if the answers are those of the provider. Nobody
who runs a program on a stage, and does not cancel it, has a choice: the answers decide all.

* `World.calls`: the calls that were made, in their order.
* `Provider.Steady`: a provider that answers every call.
* `Provider.Replies`: what a provider answers, one call after the other.
* `Moment.span`, `spent`: how long it takes what happens.
* `Stage.play_of_runs`: a run with a provider is what happens on a stage with this provider.
* `Scene.perform_of_runs`: and it is what is performed in a scene with this provider.
-/

namespace InstanceResize

/-! ## Calls -/

/-- The calls that were made, in their order. -/
def World.calls (w : World) : List Call := w.log.reverse.map Prod.snd

@[simp] theorem World.calls_begin (w : World) (c : Call) : (w.begin c).calls = w.calls ++ [c] := by
  simp [World.calls, World.begin]

@[simp] theorem World.calls_finish (w : World) (c : Call) : (w.finish c).2.calls = w.calls := rfl

@[simp] theorem World.calls_elapse (w : World) (ms : Nat) : (w.elapse ms).calls = w.calls := rfl

/-! ## What a provider answers -/

namespace Provider

/-- A provider after some calls. -/
def after (p : Provider) (cs : List Call) : Provider := cs.foldl (fun p c => (p.answer c).2) p

/-- A provider that answers every call, whatever it was asked before. -/
def Steady (p : Provider) : Prop := ∀ cs c, ((p.after cs).answer c).1 ≠ none

theorem Steady.exists_reply {p : Provider} (h : p.Steady) (c : Call) :
    ∃ r, (p.answer c).1 = some r :=
  Option.ne_none_iff_exists'.mp (h [] c)

theorem Steady.answer {p : Provider} (h : p.Steady) (c : Call) : (p.answer c).2.Steady :=
  fun cs d => h (c :: cs) d

/-- Every provider answers but one that replays raw readings, which may bring its caller down. -/
theorem steady_of_ne_raw {p : Provider} (h : ∀ r, p ≠ .raw r) : p.Steady := by
  intro cs
  induction cs generalizing p with
  | nil =>
    intro c
    cases p with
    | raw r => exact absurd rfl (h r)
    | _ => exact Option.some_ne_none _
  | cons d cs ih =>
    have kept : ∀ r, (p.answer d).2 ≠ .raw r := by
      intro r
      cases p with
      | raw r => exact absurd rfl (h r)
      | _ => exact nofun
    exact ih kept

/-- What a provider answers, one call after the other, and the provider that is left. -/
def Replies : Provider → List Exchange → Provider → Prop
  | p, [], p' => p' = p
  | p, x :: xs, p' => (p.answer x.call).1 = some x.reply ∧ Replies (p.answer x.call).2 xs p'

end Provider

/-! ## Time -/

/-- How long a moment takes that is not cut short, if the calls take the given times. -/
def Moment.span (latency : List (String × Nat)) : Moment → Nat
  | .call c => min ((latency.lookup c.name).getD 0) World.longestWait
  | .rest ms => min ms.toNat World.longestWait
  | _ => 0

/-- How long it takes what happens. -/
def spent (latency : List (String × Nat)) : List Moment → Nat
  | [] => 0
  | m :: t => m.span latency + spent latency t

section

variable (latency : List (String × Nat))

@[simp] theorem spent_nil : spent latency [] = 0 := rfl

@[simp] theorem spent_cons (m : Moment) (t : List Moment) :
    spent latency (m :: t) = m.span latency + spent latency t := rfl

@[simp] theorem spent_append (t u : List Moment) :
    spent latency (t ++ u) = spent latency t + spent latency u := by
  induction t with
  | nil => simp
  | cons m t ih => rw [List.cons_append, spent_cons, spent_cons, ih, Nat.add_assoc]

end

/-! ## A program on a stage -/

namespace Stage

variable {α : Type} {s s' : Stage}

/-- Nobody cancels what runs on a stage. -/
def Free (s : Stage) : Prop := s.cancelAt = none ∧ s.trigger = none

theorem Free.not_isCancelled (h : s.Free) : s.isCancelled = false := by
  simp [isCancelled, h.1]

theorem Free.begin (h : s.Free) (c : Call) :
    s.begin c = { s with world := s.world.begin c } := by
  simp [Stage.begin, h.2]

/-- A call that is answered, on a stage where nobody cancels. -/
theorem Free.call (h : s.Free) {c : Call} {r : c.Reply}
    (answer : (s.world.provider.answer c).1 = some r) :
    ∃ s', s.call c = (some r, s') ∧ s'.Free ∧ s'.sink = s.sink ∧
      s'.world.provider = (s.world.provider.answer c).2 ∧
      s'.world.calls = s.world.calls ++ [c] ∧ s'.world.latency = s.world.latency ∧
      s'.world.now = s.world.now + (Moment.call c).span s.world.latency := by
  rw [Stage.call, h.begin]
  refine ⟨_, Prod.ext answer rfl, h, rfl, rfl, ?_, rfl, rfl⟩
  simp

theorem Free.wait (h : s.Free) (ms : Nat) :
    s.wait ms = (false, { s with world := s.world.elapse ms }) := by
  simp [Stage.wait, h.not_isCancelled, h.1]

/-- A run that is not cancelled, with the answers of the provider, is what happens on a stage, and
takes as long as what happens takes. -/
theorem play_of_runs {p : Program α} {b : Bool} {t : List Moment} {a : α} {left : Provider}
    (h : p.Runs b t a) (start : b = false) (calm : wasCancelled t = false) (free : s.Free)
    (replies : s.world.provider.Replies (exchanges t) left) :
    ∃ s', s.play p = (some a, s') ∧ s'.world.provider = left ∧
      s'.sink = (emitted t).foldl Sink.emit s.sink ∧
      s'.world.calls = s.world.calls ++ begun t ∧
      s'.world.now = s.world.now + spent s.world.latency t := by
  induction h generalizing s with
  | done b a => exact ⟨s, rfl, replies.symm, rfl, (List.append_nil _).symm, rfl⟩
  | @call b c next r t a struck once rest ih =>
    obtain ⟨rfl, calm'⟩ : struck = false ∧ wasCancelled t = false := by simpa using calm
    have replies' : s.world.provider.Replies (⟨c, r⟩ :: exchanges t) left := by simpa using replies
    obtain ⟨s₁, called, free₁, sink₁, provider₁, calls₁, latency₁, now₁⟩ :=
      free.call (c := c) (r := r) replies'.1
    obtain ⟨s', played, provider', sink', calls', now'⟩ :=
      ih (by simp [start]) calm' free₁ (provider₁ ▸ replies'.2)
    refine ⟨s', (run_bind_of_some called _).trans played, provider', ?_, ?_, ?_⟩
    · simpa [sink₁] using sink'
    · simpa [calls₁] using calls'
    · have reply : (Moment.reply c r).span s.world.latency = 0 := rfl
      rw [now', latency₁, now₁, spent_append, exchange, if_neg Bool.false_ne_true, spent_cons,
        spent_cons, reply, spent_nil]
      omega
  | passOver rest ih => cases start
  | interrupt rest ih => cases calm
  | @sleep ms next t a rest ih =>
    have free₁ : Free { s with world := s.world.elapse ms.toNat } := free
    obtain ⟨s', played, provider', sink', calls', now'⟩ := ih rfl calm free₁ replies
    refine ⟨s', ?_, provider', sink', calls', ?_⟩
    · have waited : (handler.wait ms : Playing Bool).run s =
          (some false, { s with world := s.world.elapse ms.toNat }) := by
        show (some (s.wait ms.toNat).1, (s.wait ms.toNat).2) = _
        rw [free.wait]
      exact (run_bind_of_some waited _).trans played
    · have later : ({ s with world := s.world.elapse ms.toNat } : Stage).world.now =
          s.world.now + (Moment.rest ms).span s.world.latency := rfl
      have wake : Moment.wake.span s.world.latency = 0 := rfl
      rw [now', later, spent_cons, spent_cons, wake]
      show _ + spent s.world.latency t = _
      omega
  | @cancelled b next t a rest ih =>
    obtain ⟨s', played, others⟩ := ih start calm free replies
    refine ⟨s', ?_, others⟩
    have asked : (handler.cancelled : Playing Bool).run s = (some b, s) := by
      show (some s.isCancelled, s) = _
      rw [free.not_isCancelled, start]
    exact (run_bind_of_some asked _).trans played
  | @emit b e next t a rest ih =>
    have free₁ : Free { s with sink := s.sink.emit e } := free
    obtain ⟨s', played, provider', sink', calls', now'⟩ := ih start calm free₁ replies
    have silent : (Moment.emit e).span s.world.latency = 0 := rfl
    refine ⟨s', played, provider', sink', calls', ?_⟩
    rw [now', spent_cons, silent, Nat.zero_add]

end Stage

/-! ## A program in a scene -/

/-- The sink that a program is watched with has no events if there were none before. -/
theorem Scene.fresh_sink (viaChannel : Bool) : (sink ⟨viaChannel, [], none, none⟩).Fresh := by
  cases viaChannel with
  | false => exact .collector
  | true => exact .channel

/-- A run that is not cancelled, with the answers of the provider, is what is performed in a scene:
the events up to the first terminal one are delivered, and the time passes that it takes. -/
theorem Scene.perform_of_runs {α : Type} (scene : Scene) {p : Program α} {t : List Moment} {a : α}
    {left : Provider} (h : p.Runs false t a) (calm : wasCancelled t = false)
    (replies : scene.world.provider.Replies (exchanges t) left) (viaChannel : Bool) :
    ∃ world : World, scene.perform ⟨viaChannel, [], none, none⟩ p =
        (some ⟨a, throughTerminal (emitted t), (emitted t).any Event.isTerminal⟩,
          ⟨world, scene.config⟩) ∧
      world.provider = left ∧ world.calls = scene.world.calls ++ begun t ∧
      world.now = scene.world.now + spent scene.world.latency t := by
  let stage : Stage := ⟨scene.world, sink ⟨viaChannel, [], none, none⟩, none, none⟩
  obtain ⟨s', played, provider, told, calls, now⟩ :=
    Stage.play_of_runs (s := stage) h rfl calm ⟨rfl, rfl⟩ replies
  have events : s'.sink.events = throughTerminal (emitted t) := by
    rw [told]
    exact (fresh_sink viaChannel).events_foldl_emit _
  have terminated : s'.sink.terminated = (emitted t).any Event.isTerminal := by
    rw [told]
    exact (fresh_sink viaChannel).terminated_foldl_emit _
  refine ⟨s'.world, ?_, provider, calls, now⟩
  have performed : scene.perform ⟨viaChannel, [], none, none⟩ p =
      ((stage.play p).1.map fun outcome =>
        ⟨outcome, (stage.play p).2.sink.events, (stage.play p).2.sink.terminated⟩,
        ⟨(stage.play p).2.world, scene.config⟩) := rfl
  rw [performed, played, events, terminated]
  rfl

end InstanceResize
