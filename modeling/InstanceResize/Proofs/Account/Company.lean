import InstanceResize.Proofs.Account.Answer
import InstanceResize.Proofs.Run.Outside

/-!
# An account that others use as well

A program makes its calls to an account one after the other. Before each of them, and after the
last one, others may have made any number of calls of their own. Each call of the program is
answered by the account as the others have left it, and that is all that the program can notice of
them.

* `Account.after`: an account after several calls.
* `Account.Used`: what others can make of an account between two calls of a program.
* `Account.Answers`: an account gives certain answers to a program, while others use it as well.
* `Answers.append_iff`, `Answers.invariant`: answers one part after the other, and what they keep.
* `Account.outside`: an account, those who use it as well, and whoever may cancel the program, as
  what is outside of the program.
* `Account.chronicle_invariant`: what every call of a run keeps.
* `Account.answers_chronicle`: all that happens in a run has the answers of the account.
-/

namespace InstanceResize.Account

/-! ## What others make of an account -/

/-- An account after several calls, whoever makes them. -/
def after (a : Account) (cs : List Call) : Account := cs.foldl (fun a c => (a.answer c).2) a

theorem after_append (a : Account) (cs ds : List Call) :
    a.after (cs ++ ds) = (a.after cs).after ds := by
  unfold after
  rw [List.foldl_append]

/-- What every call of several keeps is kept by all of them. -/
theorem after_invariant {P : Account → Prop} {cs : List Call} {a : Account}
    (keeps : ∀ a c, c ∈ cs → P a → P (a.answer c).2) (start : P a) : P (a.after cs) := by
  induction cs generalizing a with
  | nil => exact start
  | cons c cs ih =>
    refine ih (fun a d hd => keeps a d (List.mem_cons_of_mem c hd)) ?_
    exact keeps a c List.mem_cons_self start

/-- What others can make of an account if they keep to certain calls. -/
def Used (others : Call → Prop) (a b : Account) : Prop :=
  ∃ cs, (∀ c ∈ cs, others c) ∧ a.after cs = b

/-- Nobody else makes any call. -/
def nobody : Call → Prop := fun _ => False

section

variable {others : Call → Prop} {a b d : Account}

theorem Used.refl (others : Call → Prop) (a : Account) : a.Used others a :=
  ⟨[], fun _ h => absurd h List.not_mem_nil, rfl⟩

theorem Used.trans (h₁ : a.Used others b) (h₂ : b.Used others d) : a.Used others d := by
  obtain ⟨cs, hcs, rfl⟩ := h₁
  obtain ⟨ds, hds, rfl⟩ := h₂
  refine ⟨cs ++ ds, ?_, a.after_append cs ds⟩
  intro c hc
  rcases List.mem_append.mp hc with hc | hc
  · exact hcs c hc
  · exact hds c hc

/-- What every call of the others keeps is kept by the others. -/
theorem Used.invariant {P : Account → Prop} (h : a.Used others b)
    (keeps : ∀ a c, others c → P a → P (a.answer c).2) (start : P a) : P b := by
  obtain ⟨cs, hcs, rfl⟩ := h
  exact after_invariant (fun a c hc => keeps a c (hcs c hc)) start

/-- Others do not change what an account is set to. -/
theorem Used.settle (h : a.Used others b) : b.settle = a.settle :=
  h.invariant (P := fun d => d.settle = a.settle) (fun d c _ same => (settle_answer d c).trans same)
    rfl

@[simp] theorem used_nobody : a.Used nobody b ↔ b = a := by
  constructor
  · intro h
    exact h.invariant (P := fun d => d = a) (fun _ _ none _ => none.elim) rfl
  · rintro rfl
    exact Used.refl nobody _

end

/-! ## What an account answers a program -/

/-- An account gives certain answers to the calls of a program, while others who keep to certain
calls use it as well, and then is left as another one. -/
def Answers (others : Call → Prop) : Account → List Exchange → Account → Prop
  | a, [], b => a.Used others b
  | a, x :: es, b => ∃ a', a.Used others a' ∧ (a'.answer x.call).1 = x.reply ∧
      Answers others (a'.answer x.call).2 es b

section

variable {others : Call → Prop} {a b : Account} {x : Exchange} {es fs : List Exchange}

theorem answers_cons : a.Answers others (x :: es) b ↔ ∃ a', a.Used others a' ∧
    (a'.answer x.call).1 = x.reply ∧ (a'.answer x.call).2.Answers others es b := Iff.rfl

/-- What others have done before belongs to what they do up to the first call. -/
theorem Used.answers {a' : Account} (h : a.Used others a') (rest : a'.Answers others es b) :
    a.Answers others es b := by
  cases es with
  | nil => exact h.trans rest
  | cons x es =>
    obtain ⟨a'', used, reply, rest⟩ := rest
    exact ⟨a'', h.trans used, reply, rest⟩

/-- Answers are given one part after the other. -/
theorem Answers.append_iff :
    a.Answers others (es ++ fs) b ↔ ∃ a', a.Answers others es a' ∧ a'.Answers others fs b := by
  induction es generalizing a with
  | nil =>
    constructor
    · intro h
      exact ⟨a, Used.refl others a, h⟩
    · rintro ⟨a', used, rest⟩
      exact Used.answers used rest
  | cons x es ih =>
    constructor
    · rintro ⟨a₁, used, reply, rest⟩
      obtain ⟨a', first, second⟩ := ih.mp rest
      exact ⟨a', ⟨a₁, used, reply, first⟩, second⟩
    · rintro ⟨a', ⟨a₁, used, reply, first⟩, second⟩
      exact ⟨a₁, used, reply, ih.mpr ⟨a', first, second⟩⟩

theorem Answers.append {a' : Account} (h₁ : a.Answers others es a')
    (h₂ : a'.Answers others fs b) : a.Answers others (es ++ fs) b :=
  append_iff.mpr ⟨a', h₁, h₂⟩

/-- One call, answered by the account as the others have left it. -/
theorem answers_singleton : a.Answers others [x] b ↔ ∃ a', a.Used others a' ∧
    (a'.answer x.call).1 = x.reply ∧ (a'.answer x.call).2.Used others b := Iff.rfl

/-- What the others keep, and every call of the program with its answer, is kept by all of them. -/
theorem Answers.invariant {P : Account → Prop} (h : a.Answers others es b)
    (foreign : ∀ a c, others c → P a → P (a.answer c).2)
    (own : ∀ a, ∀ x ∈ es, (a.answer x.call).1 = x.reply → P a → P (a.answer x.call).2)
    (start : P a) : P b := by
  induction es generalizing a with
  | nil => exact Used.invariant h foreign start
  | cons x es ih =>
    obtain ⟨a', used, reply, rest⟩ := h
    have arrived : P a' := used.invariant foreign start
    refine ih rest (fun a y hy => own a y (List.mem_cons_of_mem x hy)) ?_
    exact own a' x List.mem_cons_self reply arrived

/-- Nobody changes what an account is set to. -/
theorem Answers.settle (h : a.Answers others es b) : b.settle = a.settle :=
  h.invariant (P := fun d => d.settle = a.settle) (fun d c _ same => (settle_answer d c).trans same)
    (fun d x _ _ same => (settle_answer d x.call).trans same) rfl

/-- If nobody else uses an account, then each call meets it as the call before has left it. -/
theorem answers_nobody_cons : a.Answers nobody (x :: es) b ↔
    (a.answer x.call).1 = x.reply ∧ (a.answer x.call).2.Answers nobody es b := by
  rw [answers_cons]
  constructor
  · rintro ⟨a', used, reply, rest⟩
    obtain rfl := used_nobody.mp used
    exact ⟨reply, rest⟩
  · rintro ⟨reply, rest⟩
    exact ⟨a, Used.refl nobody a, reply, rest⟩

end

/-! ## What is outside of a program -/

/-- An account once a program has made some calls, the last one first. The others make theirs
before each of them and after the last one, and may go by the calls of the program so far. -/
def amid (a : Account) (others : List Exchange → List Call) : List Exchange → Account
  | [] => a.after (others [])
  | x :: past => ((a.amid others past).answer x.call).2.after (others (x :: past))

/-- An account, those who use it as well, and whoever may cancel the program. -/
def outside (a : Account) (others : List Exchange → List Call) (cancels : List Moment → Bool) :
    Outside where
  reply past c := ((a.amid others (exchanges past).reverse).answer c).1
  cancels := cancels

/-- Nobody makes any call beside those of the program. -/
def alone : List Exchange → List Call := fun _ => []

/-- Nobody ever cancels the program. -/
def never : List Moment → Bool := fun _ => false

variable {α : Type}

/-- The account once a program has ended. -/
def left (a : Account) (others : List Exchange → List Call) (cancels : List Moment → Bool)
    (p : Program α) : Account :=
  a.amid others (exchanges ((a.outside others cancels).chronicle p)).reverse

section

variable {a : Account} {others : List Exchange → List Call} {cancels : List Moment → Bool}
  {P : Call → Prop}

/-- One more call of a program, with the answer of the account. -/
theorem answers_amid_concat (allowed : ∀ past, ∀ c ∈ others past, P c) {es : List Exchange}
    (h : a.Answers P es (a.amid others es.reverse)) {x : Exchange}
    (reply : ((a.amid others es.reverse).answer x.call).1 = x.reply) :
    a.Answers P (es ++ [x]) (a.amid others (es ++ [x]).reverse) := by
  have next : ((a.amid others es.reverse).answer x.call).2.Used P
      (a.amid others (x :: es.reverse)) := ⟨others (x :: es.reverse), allowed _, rfl⟩
  rw [List.reverse_append]
  exact h.append ⟨_, Used.refl P _, reply, next⟩

/-- What one more call of a program keeps, with the answer of the account as the others have left
it, is kept by a run. -/
theorem runAfter_invariant {Q : List Exchange → Prop}
    (keeps : ∀ es x, ((a.amid others es.reverse).answer x.call).1 = x.reply → Q es → Q (es ++ [x]))
    (p : Program α) {past : List Moment} (start : Q (exchanges past)) :
    Q (exchanges ((a.outside others cancels).runAfter p past).2) := by
  induction p generalizing past with
  | done x => exact start
  | call c next ih =>
    have said : exchanges ((a.outside others cancels).strike (past ++ [.call c])) =
        exchanges past := by
      unfold Outside.strike
      split <;> simp
    have reply : (a.outside others cancels).reply
        ((a.outside others cancels).strike (past ++ [.call c])) c =
          ((a.amid others (exchanges past).reverse).answer c).1 := by
      show ((a.amid others (exchanges _).reverse).answer c).1 = _
      rw [said]
    rw [Outside.runAfter_call _ c next past reply]
    refine ih _ ?_
    rw [exchanges_append, exchanges_exchange]
    exact keeps _ ⟨c, _⟩ rfl start
  | wait ms next ih =>
    rw [Outside.runAfter_wait]
    split
    · exact ih true start
    · split
      · exact ih true (by simpa using start)
      · exact ih false (by simpa using start)
  | cancelled next ih => exact ih _ start
  | emit e next ih =>
    rw [Outside.runAfter_emit]
    exact ih (by simpa using start)

/-- What every call keeps, with the answer of the account as the others have left it, holds of all
that happens in a run. -/
theorem chronicle_invariant {Q : List Exchange → Prop}
    (keeps : ∀ es x, ((a.amid others es.reverse).answer x.call).1 = x.reply → Q es → Q (es ++ [x]))
    (start : Q []) (p : Program α) : Q (exchanges ((a.outside others cancels).chronicle p)) := by
  refine runAfter_invariant keeps p ?_
  unfold Outside.strike
  split <;> exact start

/-- All that happens in a run has the answers of the account, as it is used by the others. -/
theorem answers_chronicle (allowed : ∀ past, ∀ c ∈ others past, P c) (p : Program α) :
    a.Answers P (exchanges ((a.outside others cancels).chronicle p))
      (a.left others cancels p) :=
  chronicle_invariant (Q := fun es => a.Answers P es (a.amid others es.reverse))
    (fun _ _ reply h => answers_amid_concat allowed h reply) ⟨_, allowed [], rfl⟩ p

/-- Every call of a program is answered by the account as it and the others have left it by then. -/
theorem reply_chronicle (p : Program α) {past rest : List Exchange} {x : Exchange}
    (h : exchanges ((a.outside others cancels).chronicle p) = past ++ x :: rest) :
    ((a.amid others past.reverse).answer x.call).1 = x.reply := by
  have all : ∀ past x rest,
      exchanges ((a.outside others cancels).chronicle p) = past ++ x :: rest →
        ((a.amid others past.reverse).answer x.call).1 = x.reply := by
    refine chronicle_invariant (Q := fun es => ∀ past x rest, es = past ++ x :: rest →
      ((a.amid others past.reverse).answer x.call).1 = x.reply) ?_ ?_ p
    · intro es y reply said past x rest split
      rcases List.eq_nil_or_concat rest with rfl | ⟨rest, z, rfl⟩
      · obtain ⟨rfl, last⟩ := List.append_inj' split rfl
        obtain rfl := List.singleton_inj.mp last
        exact reply
      · rw [List.concat_eq_append, ← List.cons_append, ← List.append_assoc] at split
        exact said past x rest (List.append_inj' split rfl).1
    · intro past x rest none
      simp at none
  exact all past x rest h

end

end InstanceResize.Account
