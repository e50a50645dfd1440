import InstanceResize.Proofs.Run.Declared
import Mathlib.Data.List.Forall2

/-!
# Codes that differ above the low byte

The state of an instance is read off the low byte of a code. So a workflow does the same in
surroundings that answer the same but for the other bits of the codes, and only a message about a
reading that shows no known state, which quotes the code, tells them apart.

* `State.ofCode_congr`, `State.Unlisted`: what the low byte says, and whether it says anything.
* `Status.Recoded`, `Call.Recoded`, `Event.Recoded`, `AllRecoded`: readings, answers, events and
  chronicles that are the same but for codes.
* `Outside.Recoded`: surroundings that do the same but for codes.
* `Outside.scripted`, `Outside.recoded_scripted`: a provider that goes by the calls it gets, and
  another one that answers the same but for codes.
* `Program.Recoded`: a program that does not go by codes, one case for each step.
* `Program.Recoded.runAfter`: such a program does the same in such surroundings.
* `recoded_execute`: a workflow is such a program.
-/

namespace InstanceResize

/-! ## The low byte -/

namespace State

/-- The rest of a number is its low byte, for a negative number too. -/
theorem lowByte_eq (code : Int32) : (lowByte code : Int) = (code &&& 255).toInt := by
  have nonneg : 0 ≤ code.toInt % 256 := Int.emod_nonneg _ (by decide)
  have low : (code.toBitVec &&& (255 : Int32).toBitVec).toNat = code.toBitVec.toNat % 256 := by
    rw [BitVec.toNat_and]
    exact Nat.and_two_pow_sub_one_eq_mod code.toBitVec.toNat 8
  rw [lowByte, Int.toNat_of_nonneg nonneg]
  show code.toBitVec.toInt % 256 = (code &&& 255).toBitVec.toInt
  rw [Int32.toBitVec_and, BitVec.toInt_eq_toNat_cond, BitVec.toInt_eq_toNat_cond, low]
  split <;> omega

/-- The state of a number depends on the low byte only. -/
theorem ofCode_congr {code code' : Int32} (same : code' &&& 255 = code &&& 255) :
    ofCode code' = ofCode code := by
  have bytes : lowByte code' = lowByte code := by
    have masked := congrArg Int32.toInt same
    rwa [← lowByte_eq, ← lowByte_eq, Int.natCast_inj] at masked
  rw [ofCode, ofCode, bytes]

/-- The low byte of a number is not in the table. -/
def Unlisted (code : Int32) : Prop := ∀ entry ∈ codes, (entry.1 : Int) ≠ (code &&& 255).toInt

/-- Such a number stands for no known state, and all others do. -/
theorem ofCode_eq_unknown_iff {code : Int32} : ofCode code = .unknown ↔ Unlisted code := by
  have known : ∀ entry ∈ codes, entry.2 ≠ unknown := by decide
  simp only [Unlisted, ← lowByte_eq, ne_eq, Int.natCast_inj]
  unfold ofCode
  cases found : codes.lookup (lowByte code) with
  | none =>
    refine iff_of_true rfl fun entry member same => ?_
    have other := List.lookup_eq_none_iff.mp found entry member
    simp [same] at other
  | some s =>
    obtain ⟨ahead, rest, split, -⟩ := List.lookup_eq_some_iff.mp found
    have member : (lowByte code, s) ∈ codes := by simp [split]
    exact iff_of_false (known _ member) fun unlisted => unlisted _ member rfl

end State

/-! ## The same but for the codes -/

/-- A reading is another one, but for bits of its code above the low byte. -/
structure Status.Recoded (s s' : Status) : Prop where
  instanceId : s'.instanceId = s.instanceId
  name : s'.name = s.name
  lowByte : s'.code &&& 255 = s.code &&& 255

theorem Status.Recoded.state {s s' : Status} (h : s.Recoded s') : s'.state = s.state :=
  State.ofCode_congr h.lowByte

/-- An answer is another one, but for the code of a reading. -/
inductive Call.Recoded : (c : Call) → c.Reply → c.Reply → Prop where
  | same (c : Call) (r : c.Reply) : Recoded c r r
  | status {id : String} {s s' : Status} (h : s.Recoded s') : Recoded (.status id) (.ok s) (.ok s')

/-- An event is another one, but for the code in a message about a reading that shows no known
state. -/
inductive Event.Recoded : Event → Event → Prop where
  | same (e : Event) : Recoded e e
  | unrecognised {s s' : Status} (h : s.Recoded s') (unlisted : State.Unlisted s.code) :
    Recoded
      (.message ("unrecognised instance status '" ++ s.name ++ "' (code " ++
        toString s.code.toInt ++ ")"))
      (.message ("unrecognised instance status '" ++ s.name ++ "' (code " ++
        toString s'.code.toInt ++ ")"))

/-- What happens is the same, but for codes. -/
inductive Moment.Recoded : Moment → Moment → Prop where
  | same (m : Moment) : Recoded m m
  | reply {c : Call} {r r' : c.Reply} (h : c.Recoded r r') : Recoded (.reply c r) (.reply c r')
  | emit {e e' : Event} (h : e.Recoded e') : Recoded (.emit e) (.emit e')

/-- All that happens is the same, one moment after the other, but for codes. -/
abbrev AllRecoded (t t' : List Moment) : Prop := List.Forall₂ Moment.Recoded t t'

/-- Surroundings do the same as others, but for the codes of readings, as long as the same has
happened but for codes. -/
structure Outside.Recoded (o o' : Outside) : Prop where
  reply : ∀ {past past'}, AllRecoded past past' →
    ∀ c : Call, c.Recoded (o.reply past c) (o'.reply past' c)
  cancels : ∀ {past past'}, AllRecoded past past' → o'.cancels past' = o.cancels past

section

variable {t t' u u' : List Moment}

theorem AllRecoded.append (h : AllRecoded t t') (h' : AllRecoded u u') :
    AllRecoded (t ++ u) (t' ++ u') :=
  List.rel_append h h'

theorem allRecoded_refl (t : List Moment) : AllRecoded t t :=
  List.forall₂_same.mpr fun m _ => .same m

theorem AllRecoded.wasCancelled_eq (h : AllRecoded t t') : wasCancelled t' = wasCancelled t := by
  induction h with
  | nil => rfl
  | cons first _ ih =>
    cases first with
    | same m => simp [ih]
    | _ => simpa using ih

theorem AllRecoded.begun_eq (h : AllRecoded t t') : begun t' = begun t := by
  induction h with
  | nil => rfl
  | cons first _ ih =>
    cases first with
    | same m => simp [ih]
    | _ => simpa using ih

theorem AllRecoded.emitted (h : AllRecoded t t') :
    List.Forall₂ Event.Recoded (InstanceResize.emitted t) (InstanceResize.emitted t') := by
  induction h with
  | nil => exact .nil
  | @cons m _ _ _ first _ ih =>
    cases first with
    | same =>
      cases m with
      | emit e => exact .cons (.same e) ih
      | _ => exact ih
    | reply h => exact ih
    | emit h => exact .cons h ih

end

namespace Outside

variable {o o' : Outside} {past past' : List Moment}

theorem Recoded.strikes_eq (h : o.Recoded o') (same : AllRecoded past past') :
    o'.strikes past' = o.strikes past := by
  rw [strikes, strikes, same.wasCancelled_eq, h.cancels same]

theorem Recoded.strike (h : o.Recoded o') (same : AllRecoded past past') :
    AllRecoded (o.strike past) (o'.strike past') := by
  rw [Outside.strike, Outside.strike, h.strikes_eq same]
  split
  · exact same.append (allRecoded_refl _)
  · exact same

/-- What a provider answers, and when somebody cancels, depends on the calls that were made. -/
def scripted (answers : List Call → (c : Call) → c.Reply) (cancels : List Call → Bool) :
    Outside where
  reply past := answers (begun past)
  cancels past := cancels (begun past)

theorem recoded_scripted {answers answers' : List Call → (c : Call) → c.Reply}
    {cancels : List Call → Bool} (h : ∀ cs (c : Call), c.Recoded (answers cs c) (answers' cs c)) :
    (scripted answers cancels).Recoded (scripted answers' cancels) where
  reply {past past'} same c := by
    show c.Recoded (answers (begun past) c) (answers' (begun past') c)
    rw [same.begun_eq]
    exact h _ c
  cancels same := congrArg cancels same.begun_eq

end Outside

/-! ## Programs that do not go by codes -/

namespace Program

variable {α β : Type}

/-- A program does the same as another one, after answers that are the same but for codes, and emits
the same but for codes. -/
inductive Recoded : Program α → Program α → Prop where
  | done (a : α) : Recoded (.done a) (.done a)
  | call {c : Call} {next next' : c.Reply → Program α}
    (h : ∀ r r', c.Recoded r r' → Recoded (next r) (next' r')) :
    Recoded (.call c next) (.call c next')
  | wait {ms : UInt64} {next next' : Bool → Program α} (h : ∀ b, Recoded (next b) (next' b)) :
    Recoded (.wait ms next) (.wait ms next')
  | cancelled {next next' : Bool → Program α} (h : ∀ b, Recoded (next b) (next' b)) :
    Recoded (.cancelled next) (.cancelled next')
  | emit {e e' : Event} {next next' : Program α} (he : e.Recoded e') (h : Recoded next next') :
    Recoded (.emit e next) (.emit e' next')

theorem Recoded.bind {p p' : Program α} {f f' : α → Program β} (hp : p.Recoded p')
    (hf : ∀ a, (f a).Recoded (f' a)) : (p.bind f).Recoded (p'.bind f') := by
  induction hp with
  | done a => exact hf a
  | call _ ih => exact .call ih
  | wait _ ih => exact .wait ih
  | cancelled _ ih => exact .cancelled ih
  | emit he _ ih => exact .emit he ih

/-- Surroundings that do the same but for codes make a program do the same but for codes. -/
theorem Recoded.runAfter {p p' : Program α} (h : p.Recoded p') {o o' : Outside}
    (outside : o.Recoded o') {past past' : List Moment} (same : AllRecoded past past') :
    (o'.runAfter p' past').1 = (o.runAfter p past).1 ∧
      AllRecoded (o.runAfter p past).2 (o'.runAfter p' past').2 := by
  -- What has happened on the two sides stays the same but for codes, so the surroundings go on to
  -- answer and to cancel in the same way.
  induction h generalizing past past' with
  | done a => exact ⟨rfl, same⟩
  | @call c next next' _ ih =>
    have begins := same.append (allRecoded_refl [.call c])
    have answer := outside.reply (outside.strike begins) c
    rw [Outside.runAfter_call o c next past rfl, Outside.runAfter_call o' c next' past' rfl,
      ← Outside.strike_reply, ← Outside.strike_reply]
    exact ih _ _ answer ((outside.strike begins).append (.cons (.reply answer) .nil))
  | @wait ms next next' _ ih =>
    rw [Outside.runAfter_wait, Outside.runAfter_wait, same.wasCancelled_eq,
      outside.strikes_eq (same.append (allRecoded_refl [.rest ms]))]
    split
    · exact ih true same
    · split
      · exact ih true (same.append (allRecoded_refl _))
      · exact ih false (same.append (allRecoded_refl _))
  | cancelled _ ih =>
    rw [Outside.runAfter_cancelled, Outside.runAfter_cancelled, same.wasCancelled_eq]
    exact ih _ same
  | emit he _ ih =>
    rw [Outside.runAfter_emit, Outside.runAfter_emit]
    exact ih (same.append (.cons (.emit he) .nil))

end Program

/-- A program that does not go by codes does the same in surroundings that are the same but for
codes. -/
theorem Outside.Recoded.chronicle {α : Type} {o o' : Outside} (h : o.Recoded o') {p : Program α}
    (blind : p.Recoded p) :
    o'.result p = o.result p ∧ AllRecoded (o.chronicle p) (o'.chronicle p) :=
  blind.runAfter h (h.strike .nil)

/-! ## Workflows -/

namespace Engine

section

variable {α β : Type} {target : State} {r r' : Reading} {id : String}

theorem verdict?_of_recoded (h : Call.Recoded (.status id) r r') :
    verdict? target r' = verdict? target r := by
  cases h with
  | same => rfl
  | status h => simp only [verdict?, h.state, h.name]

theorem seenAs_of_recoded (h : Call.Recoded (.status id) r r') : seenAs r' = seenAs r := by
  cases h with
  | same => rfl
  | status h => exact h.name

theorem originOf_of_recoded (h : Call.Recoded (.status id) r r') : originOf r' = originOf r := by
  cases h with
  | same => rfl
  | status h => simp only [originOf, h.state]

theorem confirmation_of_recoded (h : Call.Recoded (.status id) r r') :
    confirmation r' = confirmation r := by
  cases h with
  | same => rfl
  | status h => simp only [confirmation, unfitText, h.state, h.name]

theorem report_recoded (h : Call.Recoded (.status id) r r') :
    Event.Recoded (.message (report r)) (.message (report r')) := by
  cases h with
  | same => exact .same _
  | @status _ s s' h =>
    by_cases unknown : s.state = .unknown
    · rw [report, report, readingText, readingText, if_pos unknown, if_pos (h.state.trans unknown),
        h.name]
      exact .unrecognised h (State.ofCode_eq_unknown_iff.mp unknown)
    · rw [report, report, readingText, readingText, if_neg unknown, if_neg (h.state ▸ unknown),
        h.name]
      exact .same _

theorem recoded_step_bind {x : Step α} {f : α → Step β} (hx : x.run.Recoded x.run)
    (hf : ∀ a, (f a).run.Recoded (f a).run) : (x >>= f).run.Recoded (x >>= f).run := by
  rw [ExceptT.run_bind]
  refine Program.Recoded.bind hx fun r => ?_
  cases r with
  | error e => exact .done _
  | ok a => exact hf a

/-- A call that is no reading. -/
theorem recoded_calling {c : Call} (hc : ∀ x y, c.Recoded x y → y = x)
    (failure : ProviderError → RunError) :
    (calling c failure).run.Recoded (calling c failure).run := by
  rw [run_calling]
  refine .call fun x y h => ?_
  rw [hc x y h]
  exact .done _

theorem recoded_checkCancelled (w : Workflow) :
    (checkCancelled w).run.Recoded (checkCancelled w).run :=
  .cancelled fun b => by
    cases b with
    | false => exact .done _
    | true => exact .done _

theorem recoded_attempts (id : String) (target : State) (policy : PollPolicy) (n : Nat)
    (lastSeen : String) :
    (attempts id target policy n lastSeen).Recoded (attempts id target policy n lastSeen) := by
  induction n generalizing lastSeen with
  | zero => exact .done _
  | succ n ih =>
    rw [attempts_succ]
    refine .wait fun b => ?_
    cases b with
    | true => exact .done _
    | false =>
      refine .call fun r r' h => .emit (report_recoded h) ?_
      rw [verdict?_of_recoded h, seenAs_of_recoded h]
      cases verdict? target r with
      | none => exact ih _
      | some v => exact .done _

theorem recoded_pollUntil (id : String) (target : State) (policy : PollPolicy) :
    (pollUntil id target policy).Recoded (pollUntil id target policy) := by
  unfold pollUntil
  split
  · exact .done _
  · exact recoded_attempts id target policy _ _

theorem recoded_awaiting (id : String) (target : State) (policy : PollPolicy) :
    (awaiting id target policy).run.Recoded (awaiting id target policy).run := by
  refine Program.Recoded.bind (.bind (recoded_pollUntil id target policy) fun _ => .done _)
    fun r => ?_
  cases r with
  | error e => exact .done _
  | ok v =>
    cases v with
    | error e => exact .done _
    | ok s => exact .done _

theorem recoded_bringTo {c : Call} (hc : ∀ x y, c.Recoded x y → y = x) (w : Workflow)
    (target : State) (policy : PollPolicy) :
    (bringTo w target c policy).run.Recoded (bringTo w target c policy).run :=
  recoded_step_bind (recoded_checkCancelled w) fun _ =>
    recoded_step_bind (recoded_calling hc _) fun _ => recoded_awaiting w.instanceId target policy

theorem recoded_announce (es : List Event) {p p' : Program α} (h : p.Recoded p') :
    (announce es p).Recoded (announce es p') := by
  induction es with
  | nil => exact h
  | cons e es ih => exact .emit (.same e) ih

theorem recoded_confirmOrigin (id : String) (declared : Origin) :
    (confirmOrigin id declared).run.Recoded (confirmOrigin id declared).run := by
  rw [run_confirmOrigin]
  refine .call fun r r' h => ?_
  rw [staleNotice, staleNotice, originOf_of_recoded h, confirmation_of_recoded h]
  exact recoded_announce _ (.done _)

end

variable {config : EngineConfig} {request : Request}

theorem recoded_opening : (opening config request).run.Recoded (opening config request).run := by
  unfold opening
  split
  · exact .done _
  · split
    · exact .done _
    · split
      · exact recoded_confirmOrigin _ _
      · exact .done _

theorem eq_of_recoded_ofMutation {id : String} {m : Mutation} (x y : (Call.ofMutation id m).Reply)
    (h : (Call.ofMutation id m).Recoded x y) : y = x := by
  cases m with
  | resize type => cases h; rfl
  | associate allocation => cases h; rfl

theorem recoded_quiesce (o : Origin) :
    (quiesce config request o).run.Recoded (quiesce config request o).run := by
  cases o with
  | running => exact recoded_bringTo (fun _ _ h => by cases h; rfl) _ _ _
  | stopped => exact .done _

theorem recoded_restore (o : Origin) :
    (restore config request o).run.Recoded (restore config request o).run := by
  cases o with
  | running =>
    exact Program.Recoded.bind (recoded_bringTo (fun _ _ h => by cases h; rfl) _ _ _)
      fun _ => .done _
  | stopped => exact .done _

/-- A workflow does not go by the codes above the low byte. -/
theorem recoded_execute (config : EngineConfig) (request : Request) :
    (execute config request).Recoded (execute config request) := by
  rw [execute_eq, run_eq]
  refine Program.Recoded.bind ?_ fun r => .emit (.same _) (.done _)
  refine recoded_step_bind recoded_opening fun o => ?_
  refine recoded_step_bind (recoded_quiesce o) fun _ => ?_
  refine recoded_step_bind ?_ fun _ => recoded_step_bind (recoded_restore o) fun _ => .done _
  exact recoded_step_bind (recoded_checkCancelled _) fun _ =>
    recoded_step_bind (recoded_calling eq_of_recoded_ofMutation _) fun _ => .done _

end Engine

end InstanceResize
