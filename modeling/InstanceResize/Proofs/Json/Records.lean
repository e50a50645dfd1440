import InstanceResize.Proofs.Document.Records
import InstanceResize.Proofs.Json.Values
import InstanceResize.Relay.Link

/-!
# Records on the wire

* `noControl_json`: the text of a document has no control characters.
* `RoundTrips`: a schema under which every value is what its encoding decodes to.
* `records_onWire`: events and all other records come back from the wire as they were sent.
-/

namespace InstanceResize.Json

variable {α : Type}

/-! ## Control characters -/

/-- A text without the characters below the space. -/
def NoControl (text : List Char) : Prop := ∀ c ∈ text, 0x20 ≤ c.toNat

theorem noControl_append {text more : List Char} (h : NoControl text) (h' : NoControl more) :
    NoControl (text ++ more) := by
  intro c member
  rcases List.mem_append.mp member with first | second
  · exact h c first
  · exact h' c second

theorem noControl_cons {c : Char} {text : List Char} (h : 0x20 ≤ c.toNat) (h' : NoControl text) :
    NoControl (c :: text) := by
  intro d member
  rcases List.mem_cons.mp member with rfl | later
  · exact h
  · exact h' d later

theorem noControl_of_all {text : List Char} (h : text.all (0x20 ≤ ·.toNat) = true) :
    NoControl text := fun c member => of_decide_eq_true (List.all_eq_true.mp h c member)

theorem noControl_hex {n : Nat} (h : n < 0x20) : NoControl (Text.hex 4 n) := by
  have each : ∀ n < 0x20, (Text.hex 4 n).all (0x20 ≤ ·.toNat) = true := by decide
  exact noControl_of_all (each n h)

theorem noControl_escape (c : Char) : NoControl (escape c) := by
  rcases escape_cases c with ⟨d, written, -, plain⟩ | ⟨written, control⟩ | ⟨written, -, -, plain⟩
  · rw [written]
    exact noControl_cons (by decide) (noControl_cons plain nofun)
  · rw [written]
    exact noControl_cons (by decide) (noControl_cons (by decide) (noControl_hex control))
  · rw [written]
    exact noControl_cons plain nofun

theorem noControl_quote (s : String) : NoControl (quote s) := by
  refine noControl_cons (by decide) (noControl_append ?_ (noControl_cons (by decide) nofun))
  intro d member
  obtain ⟨c, -, escaped⟩ := List.mem_flatMap.mp member
  exact noControl_escape c d escaped

theorem noControl_toString (n : Int) : NoControl (toString n).toList := by
  have digits : ∀ m, NoControl (Nat.toDigits 10 m) := by
    intro m c member
    obtain ⟨d, ds, written, all, -⟩ := Text.exists_toDigits_eq m
    have digit := Char.isDigit_iff_toNat.mp (all c (written ▸ member))
    exact Nat.le_trans (by decide) digit.1
  rcases lt_or_ge n 0 with negative | positive
  · obtain ⟨m, rfl⟩ : ∃ m : Nat, n = -(m : Int) := ⟨n.natAbs, by omega⟩
    rw [Text.toList_toString_neg (by omega)]
    exact noControl_cons (by decide) (digits m)
  · obtain ⟨m, rfl⟩ : ∃ m : Nat, n = (m : Int) := ⟨n.toNat, by omega⟩
    rw [Text.toList_toString]
    exact digits m

theorem noControl_commas {texts : List (List Char)} (h : ∀ text ∈ texts, NoControl text) :
    NoControl (commas texts) := by
  cases texts with
  | nil => exact nofun
  | cons text texts =>
    rw [commas_cons]
    refine noControl_append (h text List.mem_cons_self) fun c member => ?_
    obtain ⟨next, among, member⟩ := List.mem_flatMap.mp member
    exact noControl_cons (by decide) (h next (List.mem_cons_of_mem _ among)) c member

/-- The text of a document has no control characters. -/
theorem noControl_json {levels : Nat} {doc : Document} (h : doc.Readable levels) :
    NoControl doc.json := by
  induction h with
  | flag levels b =>
    cases b with
    | true => exact noControl_of_all (by decide)
    | false => exact noControl_of_all (by decide)
  | @whole levels n => exact noControl_toString n
  | text levels s => exact noControl_quote s
  | @list levels docs _ ih =>
    rw [Document.json, jsonItems_eq]
    refine noControl_cons (by decide)
      (noControl_append (noControl_commas ?_) (noControl_cons (by decide) nofun))
    intro text member
    obtain ⟨doc, among, rfl⟩ := List.mem_map.mp member
    exact ih doc among
  | @table levels ms _ ih =>
    rw [Document.json, jsonMembers_eq]
    refine noControl_cons (by decide)
      (noControl_append (noControl_commas ?_) (noControl_cons (by decide) nofun))
    intro text member
    obtain ⟨m, among, rfl⟩ := List.mem_map.mp member
    have written := noControl_append (noControl_quote m.1)
      (noControl_cons (c := ':') (by decide) (ih m among))
    rw [quote_append] at written
    exact written

/-! ## Round trips -/

/-- Every value is what its encoding decodes to. -/
def RoundTrips (schema : Schema α) : Prop := ∀ a, decode schema (encode schema a).toList = .ok a

theorem roundTrips {schema : Schema α} (fits : ∀ a, schema.Fits a)
    (within : schema.Within maxLevels) : RoundTrips schema :=
  fun a => decode_encode (fits a) within

/-- Records on the wire are what was sent. -/
structure OnWire : Prop where
  /-- An event takes up one line of text that is plain throughout. -/
  plain : ∀ e, NoControl (Relay.Link.encodeEvent e).toList
  event : ∀ e, decode Event.schema (Relay.Link.encodeEvent e).toList = .ok e
  /-- Different events have different texts. -/
  apart : Function.Injective Relay.Link.encodeEvent
  mutation : RoundTrips Mutation.schema
  status : RoundTrips Status.schema
  summary : RoundTrips Summary.schema
  instanceType : RoundTrips InstanceType.schema
  address : RoundTrips Address.schema
  pollPolicy : RoundTrips PollPolicy.schema
  engineConfig : RoundTrips EngineConfig.schema
  seed : RoundTrips Account.Seed.schema
  setup : RoundTrips Account.Setup.schema
  serverConfig : RoundTrips ServerConfig.schema
  target : RoundTrips Relay.Target.schema

/-- All records come back from the wire as they were sent. -/
theorem records_onWire : OnWire where
  plain e := by
    have readable : (Event.schema.document e).Readable maxLevels :=
      Event.schema.readable_document e e.fits (by repeat' constructor)
    rw [Relay.Link.encodeEvent, encode, String.toList_ofList]
    exact noControl_json readable
  event := roundTrips Event.fits (by repeat' constructor)
  apart e e' same := encode_inj e.fits e'.fits (by repeat' constructor) same
  mutation := roundTrips Mutation.fits (by repeat' constructor)
  status := roundTrips Status.fits (by repeat' constructor)
  summary := roundTrips Summary.fits (by repeat' constructor)
  instanceType := roundTrips InstanceType.fits (by repeat' constructor)
  address := roundTrips Address.fits (by repeat' constructor)
  pollPolicy := roundTrips PollPolicy.fits (by repeat' constructor)
  engineConfig := roundTrips EngineConfig.fits (by repeat' constructor)
  seed := roundTrips Account.Seed.fits (by repeat' constructor)
  setup := roundTrips Account.Setup.fits (by repeat' constructor)
  serverConfig := roundTrips ServerConfig.fits (by repeat' constructor)
  target := roundTrips Relay.Target.fits (by repeat' constructor)

end InstanceResize.Json
