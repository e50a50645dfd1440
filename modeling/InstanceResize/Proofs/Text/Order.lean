import InstanceResize.Proofs.Text.Encoding
import Mathlib.Data.String.Basic

/-!
# Texts are in the order of their bytes

Texts are compared by their characters, and characters by their numbers. A character with a smaller
number is written with smaller bytes, so the bytes of two texts are in the same order as the texts.

* `utf8EncodeChar_append_lt`: the bytes of two characters, whatever follows them.
* `encode_lt_encode_iff`: the bytes of two texts.
-/

namespace InstanceResize.Text.Utf8

/-! ## Characters -/

/-- Bytes are compared by the first one that is different. -/
theorem ofNat_cons_lt_iff {m n : Nat} {s t : List UInt8} (hm : m < 256) (hn : n < 256) :
    UInt8.ofNat m :: s < UInt8.ofNat n :: t ↔ m < n ∨ m = n ∧ s < t := by
  rw [List.cons_lt_cons_iff, UInt8.lt_iff_toNat_lt, ← UInt8.toNat_inj, toNat_ofNat hm,
    toNat_ofNat hn]

/-- The bytes of a smaller character are smaller, whatever follows them. -/
theorem utf8EncodeChar_append_lt {c d : Char} (h : c < d) (s t : List UInt8) :
    String.utf8EncodeChar c ++ s < String.utf8EncodeChar d ++ t := by
  have less : c.val.toNat < d.val.toNat := h
  have last : d.val.toNat < 0x110000 := by
    have valid : d.val.toNat < 0xD800 ∨ 0xDFFF < d.val.toNat ∧ d.val.toNat < 0x110000 := d.valid
    omega
  unfold String.utf8EncodeChar
  dsimp only
  generalize c.val.toNat = m at less
  generalize d.val.toNat = n at less last
  have digits : ∀ k < 0x110000, k / 64 / 64 = k / 4096 ∧ k / 4096 / 64 = k / 262144 ∧
      k / 262144 % 8 = k / 262144 := by
    intro k small
    exact ⟨Nat.div_div_eq_div_mul k 64 64, Nat.div_div_eq_div_mul k 4096 64,
      Nat.mod_eq_of_lt (by omega)⟩
  have ofM := digits m (less.trans last)
  have ofN := digits n last
  -- A longer sequence starts with a greater byte; among those of one length the digits decide.
  split_ifs <;> simp (disch := omega) only [List.cons_append, ofNat_cons_lt_iff] <;> omega

theorem utf8EncodeChar_ne_nil (c : Char) : String.utf8EncodeChar c ≠ [] := by
  unfold String.utf8EncodeChar
  dsimp only
  split_ifs <;> exact List.cons_ne_nil _ _

/-! ## Texts -/

theorem flatMap_lt_flatMap {cs ds : List Char} (h : cs < ds) :
    cs.flatMap String.utf8EncodeChar < ds.flatMap String.utf8EncodeChar := by
  induction ds generalizing cs with
  | nil => exact absurd h (List.not_lt_nil cs)
  | cons d ds ih =>
    cases cs with
    | nil =>
      obtain ⟨first, more, bytes⟩ := List.exists_cons_of_ne_nil (utf8EncodeChar_ne_nil d)
      rw [List.flatMap_cons, bytes]
      exact List.nil_lt_cons _ _
    | cons c cs =>
      rw [List.flatMap_cons, List.flatMap_cons]
      rcases List.cons_lt_cons_iff.mp h with less | ⟨rfl, rest⟩
      · exact utf8EncodeChar_append_lt less _ _
      · exact List.append_left_lt (ih rest)

theorem encode_lt_encode {s t : String} (h : s < t) : encode s < encode t := by
  have order := flatMap_lt_flatMap (String.lt_iff_toList_lt.mp h)
  rwa [← encode_ofList, ← encode_ofList, String.ofList_toList, String.ofList_toList] at order

/-- Texts are in the order of their bytes. -/
theorem encode_lt_encode_iff {s t : String} : encode s < encode t ↔ s < t := by
  constructor
  · intro h
    rcases lt_trichotomy s t with less | rfl | greater
    · exact less
    · exact absurd h (List.lt_irrefl _)
    · exact absurd h (List.lt_asymm (encode_lt_encode greater))
  · exact encode_lt_encode

end InstanceResize.Text.Utf8
