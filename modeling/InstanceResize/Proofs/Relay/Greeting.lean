import InstanceResize.Proofs.Relay.Conveyance

/-!
# How a connection begins

A client has ten seconds to name its target. What is not a text does not count. Without a target
that is valid no workflow runs: a client that leaves gets nothing, and any other one gets a failure.

* `Mute`: what comes from a client before it names its target.
* `greet_of_farewell`, `greet_of_silence`, `greet_of_malformed`, `greet_of_blank`, `greet_of_named`:
  how a connection begins, for each of the things that a client can do first.
* `exists_mute`: every client does one of these things first.
* `accepted`: what a client takes of the frames that are sent.
* `Refused`: a connection without a workflow, to a client that is told why.
-/

namespace InstanceResize.Relay

/-- What comes from a client in time and does not count. -/
def Mute (idle : List (Nat × Arrival)) : Prop :=
  ∀ x ∈ idle, x.1 < Link.patience ∧ (x.2 = .binary ∨ x.2 = .ping ∨ x.2 = .pong)

/-- The same connection at another time. -/
def atTime (l : Link) (now : Nat) : Link := { l with world := { l.world with now } }

section

variable {idle rest : List (Nat × Arrival)} {world : World} {budget : Option Nat}

/-- What does not count only takes time. -/
theorem awaitText_of_mute {limit : Nat} (l : Link) (mute : ∀ x ∈ idle,
    x.1 < limit ∧ (x.2 = .binary ∨ x.2 = .ping ∨ x.2 = .pong)) (comes : l.arrivals = idle ++ rest) :
    ∃ now, awaitText limit l l.arrivals =
      awaitText limit { l with arrivals := rest, world := { l.world with now } } rest := by
  induction idle generalizing l with
  | nil =>
    refine ⟨l.world.now, ?_⟩
    rw [← show l.arrivals = rest from comes]
  | cons x idle ih =>
    obtain ⟨time, a⟩ := x
    obtain ⟨soon, kind⟩ := mute (time, a) List.mem_cons_self
    obtain ⟨now, goes⟩ := ih { l with
        arrivals := idle ++ rest, world := { l.world with now := max l.world.now time } }
      (fun x hx => mute x (List.mem_cons_of_mem _ hx)) rfl
    refine ⟨now, ?_⟩
    rw [comes, List.cons_append, awaitText, if_neg (by simpa using soon)]
    rcases kind with rfl | rfl | rfl <;> exact goes

theorem awaitText_new (mute : Mute idle) (rest : List (Nat × Arrival)) (world : World)
    (budget : Option Nat) : ∃ now,
      awaitText (world.now + Link.patience) (.new world (idle ++ rest) budget)
        (Link.new world (idle ++ rest) budget).arrivals =
      awaitText (world.now + Link.patience) (atTime (.new world rest budget) now)
        (Link.new world rest budget).arrivals := by
  have mute : ∀ x ∈ idle.map fun x => (world.now + x.1, x.2),
      x.1 < world.now + Link.patience ∧ (x.2 = .binary ∨ x.2 = .ping ∨ x.2 = .pong) := by
    intro x hx
    obtain ⟨y, hy, rfl⟩ := List.mem_map.mp hx
    exact ⟨Nat.add_lt_add_left (mute y hy).1 _, (mute y hy).2⟩
  exact awaitText_of_mute (.new world (idle ++ rest) budget) mute List.map_append

/-- A client that leaves before it names a target. -/
theorem greet_of_farewell {session : Session} {time : Nat} {a : Arrival} (mute : Mute idle)
    (soon : time < Link.patience) (farewell : a.isFarewell = true) :
    ∃ now, greet session (.new world (idle ++ (time, a) :: rest) budget) =
      .error (atTime (.new world rest budget) now).lose := by
  obtain ⟨now, waits⟩ := awaitText_new mute ((time, a) :: rest) world budget
  refine ⟨max now (world.now + time), ?_⟩
  have start : (Link.new world (idle ++ (time, a) :: rest) budget).world.now = world.now := rfl
  rw [greet, start, waits]
  have early : ¬ world.now + Link.patience ≤ world.now + time := by omega
  simp only [Link.new, List.map_cons, awaitText, early]
  cases a with
  | close => rfl
  | error => rfl
  | leave => rfl
  | _ => cases farewell

/-- A client that does not name a target in time. -/
theorem greet_of_silence {session : Session} (mute : Mute idle)
    (late : ∀ x ∈ rest.head?, Link.patience ≤ x.1) :
    ∃ now, greet session (.new world (idle ++ rest) budget) =
      .error (fail .transport "no target received within 10s"
        (atTime (.new world rest budget) now)) := by
  obtain ⟨now, waits⟩ := awaitText_new mute rest world budget
  refine ⟨world.now + Link.patience, ?_⟩
  have start : (Link.new world (idle ++ rest) budget).world.now = world.now := rfl
  rw [greet, start, waits]
  cases rest with
  | nil => rfl
  | cons x rest =>
    obtain ⟨time, a⟩ := x
    have tooLate : world.now + Link.patience ≤ world.now + time :=
      Nat.add_le_add_left (late (time, a) rfl) _
    simp only [Link.new, List.map_cons, awaitText, tooLate]
    rfl

/-- A client that sends a text in time. -/
theorem greet_of_text {session : Session} {time : Nat} {text : String} (mute : Mute idle)
    (soon : time < Link.patience) :
    ∃ now, greet session (.new world (idle ++ (time, .text text) :: rest) budget) =
      match Target.parse text with
      | .error reason => .error (fail .invalidPrecondition reason
          (atTime (.new world rest budget) now))
      | .ok target =>
        match session.kind.withTarget target.text with
        | .error r => .error (fail .invalidPrecondition r.message
            (atTime (.new world rest budget) now))
        | .ok mutation => .ok (mutation, atTime (.new world rest budget) now) := by
  obtain ⟨now, waits⟩ := awaitText_new mute ((time, .text text) :: rest) world budget
  refine ⟨max now (world.now + time), ?_⟩
  have start : (Link.new world (idle ++ (time, .text text) :: rest) budget).world.now =
      world.now := rfl
  rw [greet, start, waits]
  have early : ¬ world.now + Link.patience ≤ world.now + time := by omega
  simp only [Link.new, List.map_cons, awaitText, early]
  rfl

section

variable {session : Session} {time : Nat} {text : String} {target : Target}

/-- A client that sends a message that cannot be read. -/
theorem greet_of_malformed {reason : String} (mute : Mute idle) (soon : time < Link.patience)
    (parsed : Target.parse text = .error reason) :
    ∃ now, greet session (.new world (idle ++ (time, .text text) :: rest) budget) =
      .error (fail .invalidPrecondition reason (atTime (.new world rest budget) now)) := by
  obtain ⟨now, greets⟩ := @greet_of_text idle rest world budget session time text mute soon
  refine ⟨now, greets.trans ?_⟩
  simp only [parsed]

/-- A client that names a target of which nothing is left. -/
theorem greet_of_blank (mute : Mute idle) (soon : time < Link.patience)
    (parsed : Target.parse text = .ok target) (blank : Text.trim target.text = "") :
    ∃ now, greet session (.new world (idle ++ (time, .text text) :: rest) budget) =
      .error (fail .invalidPrecondition
        ("Validation error: " ++ (session.kind.name ++ " target must not be empty"))
        (atTime (.new world rest budget) now)) := by
  obtain ⟨now, greets⟩ := @greet_of_text idle rest world budget session time text mute soon
  refine ⟨now, greets.trans ?_⟩
  simp only [parsed, Mutation.Kind.withTarget_of_blank blank]
  rfl

/-- A client that names a valid target. -/
theorem greet_of_named (mute : Mute idle) (soon : time < Link.patience)
    (parsed : Target.parse text = .ok target) (named : Text.trim target.text ≠ "") :
    ∃ now, greet session (.new world (idle ++ (time, .text text) :: rest) budget) =
      .ok (session.kind.make (Text.trim target.text), atTime (.new world rest budget) now) := by
  obtain ⟨now, greets⟩ := @greet_of_text idle rest world budget session time text mute soon
  refine ⟨now, greets.trans ?_⟩
  simp only [parsed, Mutation.Kind.withTarget_of_named named]

end

/-- What a client does first of all that counts. -/
inductive Begins : List (Nat × Arrival) → Prop where
  /-- Nothing comes in time. -/
  | silence {rest : List (Nat × Arrival)} (late : ∀ x ∈ rest.head?, Link.patience ≤ x.1) :
      Begins rest
  | farewell {time : Nat} {a : Arrival} {rest : List (Nat × Arrival)}
      (soon : time < Link.patience) (leaves : a.isFarewell = true) : Begins ((time, a) :: rest)
  | text {time : Nat} {text : String} {rest : List (Nat × Arrival)}
      (soon : time < Link.patience) : Begins ((time, .text text) :: rest)

/-- Every client does something that counts first, or nothing in time. -/
theorem exists_mute (arrivals : List (Nat × Arrival)) :
    ∃ idle rest, arrivals = idle ++ rest ∧ Mute idle ∧ Begins rest := by
  induction arrivals with
  | nil => exact ⟨[], [], rfl, nofun, .silence nofun⟩
  | cons x arrivals ih =>
    obtain ⟨time, a⟩ := x
    by_cases late : Link.patience ≤ time
    · refine ⟨[], (time, a) :: arrivals, rfl, nofun, .silence fun x hx => ?_⟩
      obtain rfl : (time, a) = x := Option.some.inj hx
      exact late
    · have soon : time < Link.patience := Nat.lt_of_not_le late
      have first (h : Begins ((time, a) :: arrivals)) :
          ∃ idle rest, (time, a) :: arrivals = idle ++ rest ∧ Mute idle ∧ Begins rest :=
        ⟨[], _, rfl, nofun, h⟩
      have later (kind : a = .binary ∨ a = .ping ∨ a = .pong) :
          ∃ idle rest, (time, a) :: arrivals = idle ++ rest ∧ Mute idle ∧ Begins rest := by
        obtain ⟨idle, rest, rfl, mute, begins⟩ := ih
        refine ⟨(time, a) :: idle, rest, rfl, ?_, begins⟩
        intro x hx
        rcases List.mem_cons.mp hx with rfl | hx
        · exact ⟨soon, kind⟩
        · exact mute x hx
      cases a with
      | text s => exact first (.text soon)
      | binary => exact later (.inl rfl)
      | ping => exact later (.inr (.inl rfl))
      | pong => exact later (.inr (.inr rfl))
      | close => exact first (.farewell soon rfl)
      | error => exact first (.farewell soon rfl)
      | leave => exact first (.farewell soon rfl)

end

/-! ## A connection without a workflow -/

/-- What a client takes of the frames that are sent. -/
def accepted (budget : Option Nat) (fs : List Frame) : List Frame :=
  match budget with
  | none => fs
  | some n => fs.take n

/-- The client is told why there is no workflow, and nothing was done. -/
structure Refused (world : World) (budget : Option Nat) (cause : FailureCause) (text : String)
    (l : Link) : Prop where
  frames : frames l = accepted budget [record (.failure text (some cause)), .close] ++ [.ended]
  calls : l.world.calls = world.calls
  provider : l.world.provider = world.provider

section

variable {l : Link}

/-- What is sent is a frame more, if the client takes it. -/
theorem send_eq (l : Link) (f : Frame) :
    frames (l.send f).2 = frames l ++ accepted l.budget [f] ∧
      (l.send f).2.budget = l.budget.map (· - 1) ∧ (l.send f).2.world = l.world ∧
      (l.send f).2.isGone = l.isGone := by
  rcases h : l.send f with ⟨_ | _, l'⟩
  · obtain ⟨hb, rfl⟩ := send_false h
    simp [accepted, hb]
  · obtain ⟨hb, rfl⟩ := send_true h
    refine ⟨?_, rfl, rfl, rfl⟩
    rw [frames_send_true h]
    cases budget : l.budget with
    | none => rfl
    | some n =>
      cases n with
      | zero => exact absurd budget hb
      | succ n => simp [accepted]

theorem accepted_cons (budget : Option Nat) (f : Frame) (fs : List Frame) :
    accepted budget [f] ++ accepted (budget.map (· - 1)) fs = accepted budget (f :: fs) := by
  cases budget with
  | none => rfl
  | some n => cases n <;> simp [accepted]

theorem frames_close (l : Link) :
    frames l.close = frames l ++ accepted l.budget [.close] ++ [.ended] := by
  rw [Link.close, frames_note, (send_eq l .close).1]

/-- A connection that ends with a failure. -/
theorem frames_fail (cause : FailureCause) (text : String) (l : Link) :
    frames (fail cause text l) =
      frames l ++ accepted l.budget [record (.failure text (some cause)), .close] ++ [.ended] := by
  obtain ⟨sent, budget, -⟩ := send_eq l (record (.failure text (some cause)))
  have told : fail cause text l = (l.send (record (.failure text (some cause)))).2.close := rfl
  rw [told, frames_close, sent, budget, ← accepted_cons _ _ [.close], List.append_assoc (frames l)]

theorem world_fail (cause : FailureCause) (text : String) (l : Link) :
    (fail cause text l).world = l.world :=
  (send_eq _ .close).2.2.1.trans (send_eq l _).2.2.1

theorem isGone_close (l : Link) : l.close.isGone = l.isGone := (send_eq l .close).2.2.2

theorem isGone_fail (cause : FailureCause) (text : String) (l : Link) :
    (fail cause text l).isGone = l.isGone :=
  (isGone_close _).trans (send_eq l _).2.2.2

theorem refused_fail (cause : FailureCause) (text : String) (world : World)
    (rest : List (Nat × Arrival)) (budget : Option Nat) (now : Nat) :
    Refused world budget cause text (fail cause text (atTime (.new world rest budget) now)) where
  frames := frames_fail cause text _
  calls := by
    rw [world_fail]
    rfl
  provider := by
    rw [world_fail]
    rfl

end

end InstanceResize.Relay
