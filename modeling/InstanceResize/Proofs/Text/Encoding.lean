import InstanceResize.Text.Utf8
import Mathlib.Tactic.IntervalCases

/-!
# Texts are read from their bytes

* `step_encodeChar`: the bytes of a character are read as that character.
* `decode?_encode`: the bytes of a text are read as that text.
-/

namespace InstanceResize.Text.Utf8

/-! ## Bytes -/

theorem toList_loop (bytes : ByteArray) (i : Nat) (read : List UInt8) :
    ByteArray.toList.loop bytes i read = read.reverse ++ bytes.data.toList.drop i := by
  fun_induction ByteArray.toList.loop bytes i read with
  | case1 i read more ih =>
    have inside : i < bytes.data.toList.length := by simpa using more
    have byte : bytes.get! i = bytes.data.toList[i] := by
      cases bytes
      exact getElem!_pos _ i more
    rw [ih, List.drop_eq_getElem_cons inside, byte]
    simp
  | case2 i read last =>
    rw [List.drop_eq_nil_of_le (by simpa using Nat.le_of_not_lt last), List.append_nil]

theorem encode_ofList (cs : List Char) :
    encode (String.ofList cs) = cs.flatMap String.utf8EncodeChar := by
  show ByteArray.toList.loop (cs.flatMap String.utf8EncodeChar).toByteArray 0 [] = _
  rw [toList_loop, List.data_toByteArray]
  rfl

/-! ## Characters -/

theorem within_ofNat {low high : UInt8} {n : Nat} (h : low.toNat ≤ n ∧ n ≤ high.toNat) :
    within low high (UInt8.ofNat n) = true := by
  have small : n < 256 := Nat.lt_of_le_of_lt h.2 high.toNat_lt
  simp [within, UInt8.le_iff_toNat_le, Nat.mod_eq_of_lt small, h]

theorem toNat_ofNat {n : Nat} (small : n < 256) : (UInt8.ofNat n).toNat = n := by
  simp [Nat.mod_eq_of_lt small]

theorem payload_ofNat {n : Nat} (small : n < 256) : payload (UInt8.ofNat n) = n % 64 := by
  rw [payload, toNat_ofNat small]

theorem three_of_within {first low high second third : UInt8} (h : within low high second = true)
    (h' : within 0x80 0xBF third = true) (rest : List UInt8) :
    three first low high (second :: third :: rest) =
      .char (Char.ofNat ((first.toNat % 16) * 4096 + payload second * 64 + payload third)) 2 := by
  rw [three, if_pos h]
  exact if_pos h'

theorem four_of_within {first low high second third fourth : UInt8}
    (h : within low high second = true) (h' : within 0x80 0xBF third = true)
    (h'' : within 0x80 0xBF fourth = true) (rest : List UInt8) :
    four first low high (second :: third :: fourth :: rest) =
      .char (Char.ofNat ((first.toNat % 8) * 262144 + payload second * 4096 + payload third * 64 +
        payload fourth)) 3 := by
  rw [four, if_pos h]
  show (if _ then (if _ then _ else _) else _) = _
  rw [if_pos h', if_pos h'']

/-- What follows a first byte that stands for three bytes or more. -/
theorem step_of_long {n : Nat} (h : 0xE0 ≤ n) (small : n < 256) (rest : List UInt8) :
    step (UInt8.ofNat n) rest =
      if n = 0xE0 then three (UInt8.ofNat n) 0xA0 0xBF rest
      else if n = 0xED then three (UInt8.ofNat n) 0x80 0x9F rest
      else if n ≤ 0xEF then three (UInt8.ofNat n) 0x80 0xBF rest
      else if n = 0xF0 then four (UInt8.ofNat n) 0x90 0xBF rest
      else if n ≤ 0xF3 then four (UInt8.ofNat n) 0x80 0xBF rest
      else if n = 0xF4 then four (UInt8.ofNat n) 0x80 0x8F rest
      else .broken 0 := by
  -- There are only thirty-two bytes of that size.
  interval_cases n <;> rfl

section steps

variable {a b c d : Nat} (rest : List UInt8)

theorem step_one (ha : a < 0x80) : step (UInt8.ofNat a) rest = .char (Char.ofNat a) 0 := by
  have first := toNat_ofNat (n := a) (by omega)
  unfold step
  rw [if_pos (by simp [UInt8.lt_iff_toNat_lt]; omega), first]

theorem step_two (ha : 0xC2 ≤ a ∧ a ≤ 0xDF) (hb : 0x80 ≤ b ∧ b ≤ 0xBF) :
    step (UInt8.ofNat a) (UInt8.ofNat b :: rest) = .char (Char.ofNat (a % 32 * 64 + b % 64)) 1 := by
  have first := toNat_ofNat (n := a) (by omega)
  unfold step
  rw [if_neg (by simp [UInt8.lt_iff_toNat_lt]; omega), if_pos (within_ofNat ha)]
  show (if _ then _ else _) = _
  rw [if_pos (within_ofNat hb), first, payload_ofNat (by omega)]

/-- The second byte is bounded by the first one: no character has more bytes than it needs, and
none is a surrogate. -/
theorem step_three (ha : 0xE0 ≤ a ∧ a ≤ 0xEF) (hb : 0x80 ≤ b ∧ b ≤ 0xBF)
    (hc : 0x80 ≤ c ∧ c ≤ 0xBF) (least : a = 0xE0 → 0xA0 ≤ b) (surrogate : a = 0xED → b ≤ 0x9F) :
    step (UInt8.ofNat a) (UInt8.ofNat b :: UInt8.ofNat c :: rest) =
      .char (Char.ofNat (a % 16 * 4096 + b % 64 * 64 + c % 64)) 2 := by
  have first := toNat_ofNat (n := a) (by omega)
  rw [step_of_long ha.1 (by omega)]
  split_ifs with e0 ed
  · rw [three_of_within (within_ofNat ⟨least e0, hb.2⟩) (within_ofNat hc), first,
      payload_ofNat (by omega), payload_ofNat (by omega)]
  · rw [three_of_within (within_ofNat ⟨hb.1, surrogate ed⟩) (within_ofNat hc), first,
      payload_ofNat (by omega), payload_ofNat (by omega)]
  · rw [three_of_within (within_ofNat hb) (within_ofNat hc), first, payload_ofNat (by omega),
      payload_ofNat (by omega)]
  all_goals omega

theorem step_four (ha : 0xF0 ≤ a ∧ a ≤ 0xF4) (hb : 0x80 ≤ b ∧ b ≤ 0xBF)
    (hc : 0x80 ≤ c ∧ c ≤ 0xBF) (hd : 0x80 ≤ d ∧ d ≤ 0xBF) (least : a = 0xF0 → 0x90 ≤ b)
    (last : a = 0xF4 → b ≤ 0x8F) :
    step (UInt8.ofNat a) (UInt8.ofNat b :: UInt8.ofNat c :: UInt8.ofNat d :: rest) =
      .char (Char.ofNat (a % 8 * 262144 + b % 64 * 4096 + c % 64 * 64 + d % 64)) 3 := by
  have first := toNat_ofNat (n := a) (by omega)
  rw [step_of_long (by omega) (by omega)]
  split_ifs with e0 ed ef f0 f3 f4
  · omega
  · omega
  · omega
  · rw [four_of_within (within_ofNat ⟨least f0, hb.2⟩) (within_ofNat hc) (within_ofNat hd), first,
      payload_ofNat (by omega), payload_ofNat (by omega), payload_ofNat (by omega)]
  · rw [four_of_within (within_ofNat hb) (within_ofNat hc) (within_ofNat hd), first,
      payload_ofNat (by omega), payload_ofNat (by omega), payload_ofNat (by omega)]
  · rw [four_of_within (within_ofNat ⟨hb.1, last f4⟩) (within_ofNat hc) (within_ofNat hd), first,
      payload_ofNat (by omega), payload_ofNat (by omega), payload_ofNat (by omega)]
  · omega

end steps

/-- The bytes of a character are read as that character. -/
theorem step_utf8EncodeChar (c : Char) : ∃ first more, String.utf8EncodeChar c = first :: more ∧
    ∀ rest, step first (more ++ rest) = .char c more.length := by
  have valid : c.val.toNat < 0xD800 ∨ 0xDFFF < c.val.toNat ∧ c.val.toNat < 0x110000 := c.valid
  have same {n : Nat} (h : n = c.val.toNat) : Char.ofNat n = c := h ▸ Char.ofNat_toNat c
  unfold String.utf8EncodeChar
  dsimp only
  generalize c.val.toNat = v at valid same
  split_ifs with one two three
  · refine ⟨_, _, rfl, fun rest => (step_one rest (by omega)).trans ?_⟩
    rw [same rfl]
    rfl
  · refine ⟨_, _, rfl, fun rest => (step_two rest (by omega) (by omega)).trans ?_⟩
    rw [same (by omega)]
    rfl
  · refine ⟨_, _, rfl, fun rest => (step_three rest (by omega) (by omega) (by omega) (by omega)
      (by omega)).trans ?_⟩
    rw [same (by omega)]
    rfl
  · refine ⟨_, _, rfl, fun rest => (step_four rest (by omega) (by omega) (by omega) (by omega)
      (by omega) (by omega)).trans ?_⟩
    rw [same (by omega)]
    rfl

/-! ## Texts -/

theorem pieces_flatMap (cs : List Char) :
    pieces (cs.flatMap String.utf8EncodeChar) = cs.map some := by
  induction cs with
  | nil => rw [List.flatMap_nil, pieces, List.map_nil]
  | cons c cs ih =>
    obtain ⟨first, more, bytes, read⟩ := step_utf8EncodeChar c
    rw [List.flatMap_cons, bytes, List.cons_append, pieces, read]
    dsimp only
    rw [List.drop_left, ih, List.map_cons]

/-- A text is read from its bytes. -/
theorem decode?_encode (s : String) : decode? (encode s) = some s := by
  obtain ⟨cs, rfl⟩ : ∃ cs, s = String.ofList cs := ⟨s.toList, String.ofList_toList.symm⟩
  have each : (cs.map some).mapM id = some cs := by
    induction cs with
    | nil => rfl
    | cons c cs ih =>
      rw [List.map_cons, List.mapM_cons, ih]
      rfl
  rw [decode?, encode_ofList, pieces_flatMap, each]
  rfl

end InstanceResize.Text.Utf8
