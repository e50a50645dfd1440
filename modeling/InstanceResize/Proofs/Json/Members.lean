import InstanceResize.Json.Decode
import InstanceResize.Proofs.Json.Skipping

/-!
# The members of a table are read however they are spelled

A table is read member by member. What is to become of a member may depend on those before it, and
a member may be refused.

* `toOption_bind`: what one reader after another gives, apart from the faults they find.
* `text_of_spelt`: a text is read from a value exactly if it is one.
* `members_of_spelt`: the members of a table are read one after another, up to one that is refused.
-/

namespace InstanceResize.Json

variable {α β σ : Type} {ts : List Token} {cs rest : List Char}

/-- A reader behind another one gives nothing if the other one does not. -/
theorem toOption_bind (r : Reader α) (next : α → Reader β) (cs : List Char) :
    ((r >>= next) cs).toOption = (r cs).toOption.bind fun p => (next p.1 p.2).toOption := by
  show ((r cs).bind fun p => next p.1 p.2).toOption = _
  cases r cs with
  | error f => rfl
  | ok p => rfl

theorem colon_of_spelt (h : Spelt (.mark ':' :: ts) cs rest) :
    ∃ behind, colon cs = .ok ((), behind) ∧ Spelt ts behind rest := by
  obtain ⟨behind, front, spelt⟩ := next_mark h rfl
  refine ⟨behind, ?_, spelt⟩
  rw [colon, bind_of_ok front]
  rfl

/-! ## Texts -/

/-- The text of a value that is one. -/
def Value.text? : Value → Option String
  | text s => some s
  | _ => none

theorem Value.text?_eq_some_iff {v : Value} {s : String} : v.text? = some s ↔ v = .text s := by
  cases v <;> simp [text?]

/-- A text is read from a value exactly if it is one. -/
theorem text_of_spelt {v : Value} (h : Spelt v.tokens cs rest) :
    (text cs).toOption = v.text?.map (·, rest) := by
  cases shown : v.text? with
  | some s =>
    rw [Value.text?_eq_some_iff.mp shown, Value.tokens] at h
    obtain ⟨body, behind, front, spells, rfl⟩ := next_text h
    rw [text, bind_of_ok front]
    show ((take >>= fun _ => quoted) _).toOption = _
    rw [bind_of_ok (take_cons '"' _), quoted_of_spellsText spells]
    rfl
  | none =>
    -- No other value begins with a quotation mark. What it is instead only matters for the fault.
    obtain ⟨t, ts, tokens, begins, same⟩ := v.exists_tokens
    rw [tokens] at h
    obtain ⟨c, front, first, -, -, -, mark⟩ := next_begins begins h
    have other : c ≠ '"' := by
      intro quote
      obtain ⟨s, isText⟩ := mark quote
      rw [same s isText] at shown
      cases shown
    rw [text, bind_of_ok first]
    refine (congrArg Except.toOption (congrFun
      (g := found >>= fun value => fail (.notText value)) ?_ (c :: front))).trans ?_
    · split
      · next quote => exact absurd (Option.some.inj quote) other
      · rfl
    · rw [toOption_bind]
      cases (found (c :: front)).toOption <;> rfl

/-! ## Members -/

section members

variable {member : σ → Reader σ} {step : σ → String × Value → Option σ} {s : σ}
  {m : String × Value} {ms : List (String × Value)} {fuel : Nat}

/-- A member is read from behind the quotation mark of its key, or refused. -/
def ReadsMember (member : σ → Reader σ) (step : σ → String × Value → Option σ)
    (m : String × Value) : Prop :=
  ∀ s body behind rest, SpellsText m.1.toList body → Spelt (.mark ':' :: m.2.tokens) behind rest →
    Ends rest → (member s (body ++ '"' :: behind)).toOption = (step s m).map (·, rest)

/-- What comes behind the first member of a table, up to its end. -/
def furtherMembers (ms : List (String × Value)) : List Token :=
  further (ms.map Row.ofMember) ++ [.mark '\x7d']

theorem furtherMembers_cons (m : String × Value) (ms : List (String × Value)) :
    furtherMembers (m :: ms) =
      .mark ',' :: .text m.1 :: (.mark ':' :: m.2.tokens ++ furtherMembers ms) := by
  simp [furtherMembers, further, Row.ofMember, Row.tokens]

theorem length_le_furtherMembers (ms : List (String × Value)) :
    ms.length ≤ (furtherMembers ms).length := by
  induction ms with
  | nil => exact Nat.zero_le _
  | cons m ms ih =>
    rw [furtherMembers_cons]
    simp only [List.length_append, List.length_cons]
    omega

/-- Once its key has begun, a member is read before the further ones. -/
theorem members_step (reads : ReadsMember member step m) {first : Bool}
    {body behind : List Char} (another : anotherMember first cs = .ok (true, body ++ '"' :: behind))
    (spells : SpellsText m.1.toList body)
    (h : Spelt (.mark ':' :: m.2.tokens ++ furtherMembers ms) behind rest) :
    ∃ mid, Spelt (furtherMembers ms) mid rest ∧
      (members member (fuel + 1) first s cs).toOption =
        (step s m).bind fun t => (members member fuel false t mid).toOption := by
  obtain ⟨mid, own, others⟩ := spelt_append.mp h
  refine ⟨mid, others, ?_⟩
  have closed : Spelt (further (ms.map Row.ofMember) ++ [.mark Open.table.closing]) mid rest :=
    others
  have ends : Ends mid := ends_of_further closed
  rw [members, bind_of_ok another]
  show ((member s >>= _) _).toOption = _
  rw [toOption_bind, reads s body behind mid spells own ends]
  cases step s m <;> rfl

theorem members_end {first : Bool} (h : Spelt [.mark '\x7d'] cs rest) :
    members member (fuel + 1) first s cs = .ok (s, '\x7d' :: rest) := by
  obtain ⟨behind, front, rfl⟩ := next_mark h rfl
  have last : anotherMember first cs = .ok (false, '\x7d' :: behind) := by
    rw [anotherMember, bind_of_ok front]
    rfl
  rw [members, bind_of_ok last]
  rfl

/-- The members behind the first one are read up to the brace, which stays. -/
theorem members_further (reads : ∀ m ∈ ms, ReadsMember member step m)
    (enough : ms.length < fuel) (h : Spelt (furtherMembers ms) cs rest) :
    (members member fuel false s cs).toOption =
      (ms.foldlM step s).map (·, '\x7d' :: rest) := by
  induction ms generalizing fuel s cs with
  | nil =>
    obtain ⟨fuel, rfl⟩ := Nat.exists_eq_add_one_of_ne_zero (Nat.ne_zero_of_lt enough)
    rw [members_end h]
    rfl
  | cons m ms ih =>
    obtain ⟨fuel, rfl⟩ := Nat.exists_eq_add_one_of_ne_zero (Nat.ne_zero_of_lt enough)
    rw [furtherMembers_cons] at h
    obtain ⟨key, comma, h⟩ := next_mark h rfl
    obtain ⟨body, behind, quote, spells, h⟩ := next_text h
    have another : anotherMember false cs = .ok (true, body ++ '"' :: behind) := by
      rw [anotherMember, bind_of_ok comma]
      show (take >>= fun _ => next >>= _) _ = _
      rw [bind_of_ok (take_cons ',' _), bind_of_ok quote]
      rfl
    obtain ⟨mid, others, read⟩ := members_step (reads m List.mem_cons_self) another spells h
    rw [read, List.foldlM_cons]
    cases step s m with
    | none => rfl
    | some t =>
      exact ih (fun n hn => reads n (List.mem_cons_of_mem m hn)) (Nat.lt_of_succ_lt_succ enough)
        others

/-- However the members of a table are spelled, they are read up to the brace, which stays. -/
theorem members_of_spelt (reads : ∀ m ∈ ms, ReadsMember member step m)
    (h : Spelt (separated (Value.memberTokens ms) ++ [.mark '\x7d']) cs rest) :
    (bounded (fun fuel => members member fuel true s) cs).toOption =
      (ms.foldlM step s).map (·, '\x7d' :: rest) := by
  show (members member (cs.length + 1) true s cs).toOption = _
  cases ms with
  | nil =>
    rw [members_end h]
    rfl
  | cons m ms =>
    have split : separated (Value.memberTokens (m :: ms)) ++ [.mark '\x7d'] =
        .text m.1 :: (.mark ':' :: m.2.tokens ++ furtherMembers ms) := by
      simp [Value.memberTokens_eq, separated, furtherMembers, further, Row.ofMember, Row.tokens,
        List.flatMap_map]
    rw [split] at h
    have short : ms.length < cs.length := by
      have few := h.length_le
      have members := length_le_furtherMembers ms
      simp only [List.length_append, List.length_cons] at few
      omega
    obtain ⟨body, behind, quote, spells, h⟩ := next_text h
    have another : anotherMember true cs = .ok (true, body ++ '"' :: behind) := by
      rw [anotherMember, bind_of_ok quote]
      rfl
    obtain ⟨mid, others, read⟩ := members_step (reads m List.mem_cons_self) another spells h
    rw [read, List.foldlM_cons]
    cases step s m with
    | none => rfl
    | some t => exact members_further (fun n hn => reads n (List.mem_cons_of_mem m hn)) short others

end members

end InstanceResize.Json
