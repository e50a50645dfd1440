import InstanceResize.Proofs.Run.Course
import InstanceResize.Proofs.Run.Outside

/-!
# What a workflow says to a provider

The calls of a run have an order that no provider and no cancellation changes: a reading for the
origin, a stop and its readings, the change, a start and its readings. Each of these parts can be
missing, and where the run ends the later ones are.

* `Leg`: a call that leads the instance to a state, and the readings of the wait after it.
* `Dialogue`: the calls of a run, with their answers.
* `Dialogue.Lawful`: the dialogues that a run can have.
* `Dialogue.Completed`: the dialogues of the runs that succeed.
* `dialogue_of_run`: every run has a lawful dialogue, and succeeds exactly if it is completed.
-/

namespace InstanceResize.Engine

/-! ## Legs -/

/-- A reading succeeds and shows a state. -/
def Shows (target : State) (r : Reading) : Prop := ∃ s, r = .ok s ∧ s.state = target

/-- A call that leads the instance to a state, if it is made, and the readings after it. -/
structure Leg (c : Call) where
  answer : Option c.Reply
  readings : List Reading

namespace Leg

variable {c : Call}

/-- The call is not made. -/
def skipped : Leg c := ⟨none, []⟩

/-- The exchanges of a leg. -/
def exchanges (id : String) (leg : Leg c) : List Exchange :=
  leg.answer.toList.map (Exchange.mk c) ++ leg.readings.map (readingOf id)

/-- The legs that a run can have. -/
structure Lawful (target : State) (limit : Nat) (leg : Leg c) : Prop where
  /-- Nothing is read unless the call succeeds. -/
  accepted : leg.readings ≠ [] → ∃ x, leg.answer = some (.ok x)
  /-- No more is read than the policy allows. -/
  bounded : leg.readings.length ≤ limit
  /-- Nothing is read after a reading that decides. -/
  undecided : Undecided target leg.readings.dropLast

/-- The call succeeds and the last reading shows the target. -/
structure Reaches (target : State) (leg : Leg c) : Prop where
  accepted : ∃ x, leg.answer = some (.ok x)
  shown : ∃ r ∈ leg.readings.getLast?, Shows target r

/-- What an origin requires of a leg: if the instance was stopped from the first there is none. -/
def Serves (o : Origin) (target : State) (leg : Leg c) : Prop :=
  match o with
  | .running => leg.Reaches target
  | .stopped => leg = .skipped

/-- A leg is what a part of a run says to the provider, and whether the part succeeds. -/
structure Tells (id : String) (o : Origin) (target : State) (limit : Nat) (t : List Moment)
    (r : Except RunError Unit) (leg : Leg c) : Prop where
  said : InstanceResize.exchanges t = leg.exchanges id
  paused : (pauses t).length ≤ limit
  lawful : leg.Lawful target limit
  needed : leg ≠ .skipped → o = .running
  served : r = .ok () ↔ leg.Serves o target

@[simp] theorem exchanges_skipped (id : String) : (skipped : Leg c).exchanges id = [] := rfl

/-- A leg has its own call and readings only. -/
theorem call_of_mem_exchanges {leg : Leg c} {id : String} {x : Exchange}
    (hx : x ∈ leg.exchanges id) : x.call = c ∨ x.call = .status id := by
  rw [exchanges, List.mem_append, List.mem_map, List.mem_map] at hx
  rcases hx with ⟨_, -, rfl⟩ | ⟨_, -, rfl⟩
  · exact .inl rfl
  · exact .inr rfl

theorem lawful_skipped (target : State) (limit : Nat) :
    (skipped : Leg c).Lawful target limit where
  accepted h := absurd rfl h
  bounded := Nat.zero_le _
  undecided := undecided_nil

theorem not_reaches_skipped (target : State) : ¬ (skipped : Leg c).Reaches target := by
  rintro ⟨⟨x, hx⟩, -⟩
  cases hx

/-- An instance that was stopped from the first needs no leg. -/
theorem tells_skipped (id : String) (target : State) (limit : Nat) :
    (skipped : Leg c).Tells id .stopped target limit [] (.ok ()) where
  said := rfl
  paused := Nat.zero_le _
  lawful := lawful_skipped target limit
  needed h := absurd rfl h
  served := iff_of_true rfl rfl

end Leg

section

variable {id : String} {target : State} {policy : PollPolicy} {n : Nat} {b : Bool}
  {t : List Moment} {v : Except PollError State} {rs : List Reading} {r : Reading}

/-- A wait ends well with the first reading that shows the target. -/
theorem verdict?_eq_ok_iff {s : State} :
    verdict? target r = some (.ok s) ↔ s = target ∧ Shows target r := by
  rw [verdict?_eq_some_iff]
  constructor
  · rintro ⟨x, rfl, ⟨hx, h⟩ | ⟨-, -, h⟩⟩
    · exact ⟨Except.ok.inj h, x, rfl, hx⟩
    · cases h
  · rintro ⟨rfl, x, rfl, hx⟩
    exact ⟨x, rfl, .inl ⟨hx, rfl⟩⟩

theorem not_shows_of_verdict?_eq_none (h : verdict? target r = none) : ¬ Shows target r := by
  intro shows
  have decided : verdict? target r = some (.ok target) := verdict?_eq_ok_iff.mpr ⟨rfl, shows⟩
  rw [h] at decided
  cases decided

/-- What a wait reads, and whether it ends well. -/
structure Reads (id : String) (target : State) (n : Nat) (t : List Moment)
    (v : Except PollError State) (rs : List Reading) : Prop where
  said : exchanges t = rs.map (readingOf id)
  paused : (pauses t).length ≤ n
  bounded : rs.length ≤ n
  undecided : Undecided target rs.dropLast
  settles : (∃ s, v = .ok s) ↔ ∃ r ∈ rs.getLast?, Shows target r

/-- A wait that ends with a reading. -/
theorem reads_concat (left : rs.length < n) (undecided : Undecided target rs) (struck : Bool)
    (settles : (∃ s, v = .ok s) ↔ Shows target r) :
    Reads id target n (rounds id policy rs ++ round id policy r struck) v (rs ++ [r]) where
  said := by simp
  paused := by simpa using Nat.succ_le_of_lt left
  bounded := by simpa using Nat.succ_le_of_lt left
  undecided := by simpa using undecided
  settles := by simpa using settles

theorem Waited.reads (h : Waited id target policy n b t v) : ∃ rs, Reads id target n t v rs := by
  cases h with
  | off => exact ⟨[], rfl, Nat.zero_le _, Nat.zero_le _, undecided_nil, by simp⟩
  | asleep rs undecided left =>
    refine ⟨rs, by simp, by simpa using Nat.succ_le_of_lt left, Nat.le_of_lt left,
      fun r hr => undecided r (List.dropLast_subset rs hr), ?_⟩
    have none_shows : ∀ r ∈ rs.getLast?, ¬ Shows target r := fun r hr =>
      not_shows_of_verdict?_eq_none (undecided r (List.mem_of_getLast? hr))
    simpa using none_shows
  | reading rs r undecided open_ left =>
    exact ⟨_, reads_concat (Nat.lt_of_succ_lt left) undecided true
      (by simpa using not_shows_of_verdict?_eq_none open_)⟩
  | decided rs r v struck undecided decides left =>
    refine ⟨_, reads_concat left undecided struck ⟨?_, fun shows => ⟨target, ?_⟩⟩⟩
    · rintro ⟨s, rfl⟩
      exact (verdict?_eq_ok_iff.mp decides).2
    · exact Option.some.inj (decides.symm.trans (verdict?_eq_ok_iff.mpr ⟨rfl, shows⟩))
  | exhausted rs r struck undecided open_ left =>
    exact ⟨_, reads_concat (Nat.lt_of_succ_le (Nat.le_of_eq left)) undecided struck
      (by simpa using not_shows_of_verdict?_eq_none open_)⟩

/-- The leg of a call that brings an instance to a state. -/
theorem Brought.tells {w : Workflow} {c : Call} {r : Except RunError Unit}
    (h : Brought w target c policy b t r) :
    ∃ leg : Leg c, leg.Tells w.instanceId .running target policy.maxAttempts.toNat t r := by
  cases h with
  | off =>
    exact ⟨.skipped, rfl, Nat.zero_le _, Leg.lawful_skipped _ _, fun _ => rfl,
      iff_of_false (by simp) (Leg.not_reaches_skipped target)⟩
  | declined e struck =>
    refine ⟨⟨some (.error e), []⟩, by simp [Leg.exchanges], by simp, ?_, fun _ => rfl, ?_⟩
    · exact ⟨fun h => absurd rfl h, Nat.zero_le _, undecided_nil⟩
    · refine iff_of_false (by simp) ?_
      rintro ⟨⟨x, hx⟩, -⟩
      cases hx
  | @awaited x struck u v wait =>
    obtain ⟨rs, reads⟩ := wait.reads
    refine ⟨⟨some (.ok x), rs⟩, by simp [Leg.exchanges, reads.said], by simpa using reads.paused,
      ⟨fun _ => ⟨x, rfl⟩, reads.bounded, reads.undecided⟩, fun _ => rfl, ?_⟩
    have settled_iff : settled v = .ok () ↔ ∃ s, v = .ok s := by
      cases v <;> simp [settled]
    rw [settled_iff, reads.settles]
    exact ⟨fun shown => ⟨⟨x, rfl⟩, shown⟩, fun reaches => reaches.shown⟩

end

/-! ## Dialogues -/

/-- The calls of a run, with their answers. -/
structure Dialogue (request : Request) where
  /-- The reading that confirms the origin. -/
  confirmation : Option Reading
  stop : Leg (.stop request.instanceId)
  change : Option (Call.ofMutation request.instanceId request.mutation).Reply
  start : Leg (.start request.instanceId)

/-- The origin that is declared, if it is asked for correctly. -/
def declared? (config : EngineConfig) (request : Request) : Option Origin :=
  match config.validate with
  | .error _ => none
  | .ok () => (Origin.parse request.declaredState).toOption

/-- The origin that a reading shows. -/
def originOf : Reading → Option Origin
  | .error _ => none
  | .ok s => Origin.ofState? s.state

/-- The origin that is established: the one that is declared, unless it is to be confirmed. -/
def established? (config : EngineConfig) (request : Request) (confirmation : Option Reading) :
    Option Origin :=
  (declared? config request).bind fun declared =>
    if config.verifyOrigin then confirmation.bind originOf else some declared

namespace Dialogue

variable {request : Request}

/-- The exchanges of a dialogue, in their order. -/
def exchanges (d : Dialogue request) : List Exchange :=
  d.confirmation.toList.map (readingOf request.instanceId) ++
    d.stop.exchanges request.instanceId ++
    d.change.toList.map (Exchange.mk (.ofMutation request.instanceId request.mutation)) ++
    d.start.exchanges request.instanceId

/-- The origin that is established. -/
def origin? (config : EngineConfig) (d : Dialogue request) : Option Origin :=
  established? config request d.confirmation

/-- The change is made. -/
def Changes (d : Dialogue request) : Prop := ∃ x, d.change = some (.ok x)

/-- The dialogues that a run can have. -/
structure Lawful (config : EngineConfig) (d : Dialogue request) : Prop where
  /-- Nothing is said about what is not asked for correctly. -/
  refused : declared? config request = none → d.exchanges = []
  confirmation : d.confirmation ≠ none → config.verifyOrigin = true
  /-- Only a running instance is stopped. -/
  halts : d.stop ≠ .skipped → d.origin? config = some .running
  stop : d.stop.Lawful .stopped config.stopPoll.maxAttempts.toNat
  /-- The instance was stopped from the first, or has been brought to a halt. -/
  changes : d.change ≠ none → ∃ o, d.origin? config = some o ∧ d.stop.Serves o .stopped
  /-- Only an instance that was running is started, after the change. -/
  restarts : d.start ≠ .skipped → d.origin? config = some .running ∧ d.Changes
  start : d.start.Lawful .running config.startPoll.maxAttempts.toNat

/-- All is done that the origin requires. -/
structure Completed (o : Origin) (d : Dialogue request) : Prop where
  stop : d.stop.Serves o .stopped
  changes : d.Changes
  start : d.start.Serves o .running

/-- The only change that a dialogue makes is the one that was asked for. -/
theorem eq_ofMutation_of_isChange {d : Dialogue request} {x : Exchange} (h : x ∈ d.exchanges)
    (change : x.call.isChange = true) :
    x.call = .ofMutation request.instanceId request.mutation := by
  rw [exchanges] at h
  simp only [List.mem_append, List.mem_map] at h
  rcases h with ((⟨r, -, rfl⟩ | stops) | ⟨r, -, rfl⟩) | starts
  · cases change
  · rcases Leg.call_of_mem_exchanges stops with hx | hx <;> rw [hx] at change <;> cases change
  · rfl
  · rcases Leg.call_of_mem_exchanges starts with hx | hx <;> rw [hx] at change <;> cases change

end Dialogue

/-! ## The dialogue of a run -/

variable {config : EngineConfig} {request : Request} {o : Origin} {b : Bool} {t : List Moment}

theorem declared?_eq_some {declared : Origin} (valid : config.validate = .ok ())
    (known : Origin.parse request.declaredState = .ok declared) :
    declared? config request = some declared := by
  simp [declared?, valid, known, Except.toOption]

/-- The reading of an opening. -/
theorem Opened.confirmation {r : Except RunError Origin} (h : Opened config request b t r) :
    ∃ confirmation : Option Reading,
      exchanges t = confirmation.toList.map (readingOf request.instanceId) ∧ pauses t = [] ∧
      (declared? config request = none → confirmation = none) ∧
      (confirmation ≠ none → config.verifyOrigin = true) ∧
      ∀ o, r = .ok o ↔ established? config request confirmation = some o := by
  cases h with
  | misconfigured x invalid =>
    exact ⟨none, rfl, rfl, fun _ => rfl, fun h => absurd rfl h,
      by simp [established?, declared?, invalid]⟩
  | undeclared x valid unknown =>
    exact ⟨none, rfl, rfl, fun _ => rfl, fun h => absurd rfl h,
      by simp [established?, declared?, valid, unknown, Except.toOption]⟩
  | trusted declared valid known verify =>
    exact ⟨none, rfl, rfl, fun _ => rfl, fun h => absurd rfl h,
      by simp [established?, declared?_eq_some valid known, verify]⟩
  | @confirmed declared _ _ valid known verify confirmed =>
    have declares := declared?_eq_some valid known
    cases confirmed with
    | unread e struck once =>
      exact ⟨some (.error e), by simp [readingOf], by simp, by simp [declares], fun _ => verify,
        by simp [established?, declares, verify, originOf]⟩
    | unfit x struck once fit =>
      exact ⟨some (.ok x), by simp [readingOf], by simp, by simp [declares], fun _ => verify,
        by simp [established?, declares, verify, originOf, fit]⟩
    | read x observed struck once fit =>
      exact ⟨some (.ok x), by simp [readingOf], by simp, by simp [declares], fun _ => verify,
        by simp [established?, declares, verify, originOf, fit]⟩

/-- The leg before the change. -/
theorem Quiesced.tells {r : Except RunError Unit} (h : Quiesced config request o b t r) :
    ∃ leg : Leg (.stop request.instanceId), leg.Tells request.instanceId o .stopped
      config.stopPoll.maxAttempts.toNat t r := by
  cases h with
  | already => exact ⟨.skipped, Leg.tells_skipped _ _ _⟩
  | halted brought => exact brought.tells

/-- The leg after the change. -/
theorem Restored.tells {r : Except RunError Unit} (h : Restored config request o b t r) :
    ∃ leg : Leg (.start request.instanceId), leg.Tells request.instanceId o .running
      config.startPoll.maxAttempts.toNat t r := by
  cases h with
  | already => exact ⟨.skipped, Leg.tells_skipped _ _ _⟩
  | @restarted b t r brought =>
    obtain ⟨leg, tells⟩ := brought.tells
    have same : r.mapError (·.afterMutation request.mutation) = .ok () ↔ r = .ok () := by
      cases r with
      | error e =>
        constructor <;> intro h <;> cases h
      | ok _ => exact Iff.rfl
    exact ⟨leg, { tells with served := same.trans tells.served }⟩

theorem Changed.answer {r : Except RunError Unit}
    (h : Changed (workflowIn request o .mutating) b t r) :
    ∃ answer : Option (Call.ofMutation request.instanceId request.mutation).Reply,
      exchanges t = answer.toList.map
        (Exchange.mk (.ofMutation request.instanceId request.mutation)) ∧
      pauses t = [] ∧ (r = .ok () ↔ ∃ x, answer = some (.ok x)) := by
  cases h with
  | off => exact ⟨none, rfl, rfl, by simp⟩
  | declined e struck =>
    exact ⟨some (.error e), by simp [workflowIn], by simp, by simp⟩
  | made x struck =>
    exact ⟨some (.ok x), by simp [workflowIn], by simp, fun _ => ⟨x, rfl⟩, fun _ => rfl⟩

/-- A dialogue is lawful if its parts are and go with the origin that is established. -/
theorem Dialogue.Lawful.of_origin {d : Dialogue request} (origin : d.origin? config = some o)
    (confirmation : d.confirmation ≠ none → config.verifyOrigin = true)
    (halts : d.stop ≠ .skipped → o = .running)
    (stop : d.stop.Lawful .stopped config.stopPoll.maxAttempts.toNat)
    (changes : d.change ≠ none → d.stop.Serves o .stopped)
    (restarts : d.start ≠ .skipped → o = .running ∧ d.Changes)
    (start : d.start.Lawful .running config.startPoll.maxAttempts.toNat) : d.Lawful config where
  refused h := by simp [Dialogue.origin?, established?, h] at origin
  confirmation := confirmation
  halts h := halts h ▸ origin
  stop := stop
  changes h := ⟨o, origin, changes h⟩
  restarts h := ⟨(restarts h).1 ▸ origin, (restarts h).2⟩
  start := start

/-- A run that fails has no completed dialogue. -/
theorem Dialogue.failed_iff {d : Dialogue request} {e : RunError}
    (origin : d.origin? config = some o) (incomplete : ¬ d.Completed o) (w : Workflow) :
    (.error e : Except RunError Workflow) = .ok w ↔
      ∃ o, d.origin? config = some o ∧ d.Completed o ∧ w = workflowIn request o .done := by
  constructor
  · intro h
    cases h
  · rintro ⟨o', origin', completed, -⟩
    obtain rfl := Option.some.inj (origin.symm.trans origin')
    exact absurd completed incomplete

/-- The dialogue of a run that gets past the change. -/
theorem dialogue_of_restored {b₁ b₂ b₃ : Bool} {t u v w : List Moment}
    {r : Except RunError Unit} (opened : Opened config request b t (.ok o))
    (quiesced : Quiesced config request o b₁ u (.ok ()))
    (changed : Changed (workflowIn request o .mutating) b₂ v (.ok ()))
    (restored : Restored config request o b₃ w r) :
    ∃ d : Dialogue request, d.origin? config = some o ∧
      exchanges (t ++ u ++ v ++ w) = d.exchanges ∧ d.Lawful config ∧
      (pauses (t ++ u ++ v ++ w)).length ≤
        config.stopPoll.maxAttempts.toNat + config.startPoll.maxAttempts.toNat ∧
      (r = .ok () ↔ d.Completed o) := by
  obtain ⟨conf, he, hp, -, verified, origin⟩ := opened.confirmation
  obtain ⟨stop, halt⟩ := quiesced.tells
  obtain ⟨answer, hc, hpc, made⟩ := changed.answer
  obtain ⟨start, restart⟩ := restored.tells
  have ho : established? config request conf = some o := (origin o).mp rfl
  refine ⟨⟨conf, stop, answer, start⟩, ho,
    by simp [Dialogue.exchanges, he, halt.said, hc, restart.said], ?_, ?_, ?_⟩
  · exact .of_origin ho verified halt.needed halt.lawful (fun _ => halt.served.mp rfl)
      (fun h => ⟨restart.needed h, made.mp rfl⟩) restart.lawful
  · simpa [hp, hpc] using Nat.add_le_add halt.paused restart.paused
  · exact ⟨fun h => ⟨halt.served.mp rfl, made.mp rfl, restart.served.mp h⟩,
      fun completed => restart.served.mpr completed.start⟩

/-- The dialogue of a run. -/
theorem Course.dialogue {r : Except RunError Workflow} (h : Course config request b t r) :
    ∃ d : Dialogue request, exchanges t = d.exchanges ∧ d.Lawful config ∧
      (pauses t).length ≤
        config.stopPoll.maxAttempts.toNat + config.startPoll.maxAttempts.toNat ∧
      ∀ w, r = .ok w ↔
        ∃ o, d.origin? config = some o ∧ d.Completed o ∧ w = workflowIn request o .done := by
  cases h with
  | unopened opened =>
    obtain ⟨conf, he, hp, refused, verified, origin⟩ := opened.confirmation
    refine ⟨⟨conf, .skipped, none, .skipped⟩, by simp [Dialogue.exchanges, he], ?_, by simp [hp],
      ?_⟩
    · exact ⟨fun h => by simp [Dialogue.exchanges, refused h], verified, fun h => absurd rfl h,
        Leg.lawful_skipped _ _, fun h => absurd rfl h, fun h => absurd rfl h,
        Leg.lawful_skipped _ _⟩
    · intro w
      constructor
      · intro h
        cases h
      · rintro ⟨o, ho, -⟩
        cases (origin o).mpr ho
  | @unquiesced o e t u opened quiesced =>
    obtain ⟨conf, he, hp, -, verified, origin⟩ := opened.confirmation
    obtain ⟨stop, halt⟩ := quiesced.tells
    have ho : established? config request conf = some o := (origin o).mp rfl
    refine ⟨⟨conf, stop, none, .skipped⟩, by simp [Dialogue.exchanges, he, halt.said], ?_, ?_, ?_⟩
    · exact .of_origin ho verified halt.needed halt.lawful (fun h => absurd rfl h)
        (fun h => absurd rfl h) (Leg.lawful_skipped _ _)
    · simpa [hp] using Nat.le_add_right_of_le halt.paused
    · exact Dialogue.failed_iff ho fun completed => nomatch halt.served.mpr completed.stop
  | @unchanged o e t u v opened quiesced changed =>
    obtain ⟨conf, he, hp, -, verified, origin⟩ := opened.confirmation
    obtain ⟨stop, halt⟩ := quiesced.tells
    obtain ⟨answer, hc, hpc, made⟩ := changed.answer
    have ho : established? config request conf = some o := (origin o).mp rfl
    refine ⟨⟨conf, stop, answer, .skipped⟩, by simp [Dialogue.exchanges, he, halt.said, hc],
      ?_, ?_, ?_⟩
    · exact .of_origin ho verified halt.needed halt.lawful (fun _ => halt.served.mp rfl)
        (fun h => absurd rfl h) (Leg.lawful_skipped _ _)
    · simpa [hp, hpc] using Nat.le_add_right_of_le halt.paused
    · exact Dialogue.failed_iff ho fun completed => nomatch made.mpr completed.changes
  | unrestored opened quiesced changed restored =>
    obtain ⟨d, ho, he, lawful, hp, completed⟩ :=
      dialogue_of_restored opened quiesced changed restored
    exact ⟨d, he, lawful, hp, Dialogue.failed_iff ho fun h => nomatch completed.mpr h⟩
  | @finished o t u v w opened quiesced changed restored =>
    obtain ⟨d, ho, he, lawful, hp, completed⟩ :=
      dialogue_of_restored opened quiesced changed restored
    refine ⟨d, he, lawful, hp, fun x => ?_⟩
    constructor
    · rintro ⟨⟩
      exact ⟨o, ho, completed.mp rfl, rfl⟩
    · rintro ⟨o', ho', -, rfl⟩
      obtain rfl := Option.some.inj (ho.symm.trans ho')
      rfl

/-- All calls of a dialogue are about the instance. -/
theorem Dialogue.instanceId?_of_mem (d : Dialogue request) {x : Exchange}
    (hx : x ∈ d.exchanges) : x.call.instanceId? = some request.instanceId := by
  simp only [Dialogue.exchanges, Leg.exchanges, List.mem_append, List.mem_map] at hx
  rcases hx with ((reading | stop | reading) | change) | start | reading
  · obtain ⟨_, -, rfl⟩ := reading
    rfl
  · obtain ⟨_, -, rfl⟩ := stop
    rfl
  · obtain ⟨_, -, rfl⟩ := reading
    rfl
  · obtain ⟨_, -, rfl⟩ := change
    exact Call.instanceId?_ofMutation _ _
  · obtain ⟨_, -, rfl⟩ := start
    rfl
  · obtain ⟨_, -, rfl⟩ := reading
    rfl

/-- Every run has a lawful dialogue, whatever the provider answers and whenever somebody cancels
it. It ends after so many pauses at most, and succeeds exactly if all is done that the origin
requires. -/
theorem dialogue_of_run (config : EngineConfig) (request : Request) (outside : Outside) :
    ∃ d : Dialogue request,
      exchanges (outside.chronicle (run config request)) = d.exchanges ∧
      begun (outside.chronicle (run config request)) = d.exchanges.map Exchange.call ∧
      d.Lawful config ∧
      (∀ x ∈ d.exchanges, x.call.instanceId? = some request.instanceId) ∧
      (pauses (outside.chronicle (run config request))).length ≤
        config.stopPoll.maxAttempts.toNat + config.startPoll.maxAttempts.toNat ∧
      ∀ w, outside.result (run config request) = .ok w ↔
        ∃ o, d.origin? config = some o ∧ d.Completed o ∧ w = workflowIn request o .done := by
  obtain ⟨b, t, h, he, hb, hp⟩ := outside.exists_runs (run config request)
  obtain ⟨d, hd, lawful, bounded, succeeds⟩ := (course_of_runs h).dialogue
  refine ⟨d, he.trans hd, ?_, lawful, fun x hx => d.instanceId?_of_mem hx, ?_, succeeds⟩
  · rw [hb, h.begun_eq, hd]
  · rw [hp]
    exact bounded

end InstanceResize.Engine
