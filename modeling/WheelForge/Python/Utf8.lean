import Mathlib.Algebra.GroupWithZero.Nat
import Mathlib.Data.List.Basic
import WheelForge.Python.Text

/-!
# UTF-8

`bytes.decode(errors=..)` and `str.encode()` on lists of bytes. A byte sequence that is no character
ends where the next byte cannot continue it, as in Python; the handler of errors puts a text in its
place. Decoding without a replacement never lengthens what it reads (`decode_length_le`), and what
was encoded is decoded again (`decode_encode`).
-/

set_option autoImplicit false

namespace WheelForge.Python

/-- `text.encode()`. -/
def encodeUtf8 (text : Text) : List UInt8 := text.flatMap String.utf8EncodeChar

theorem encodeUtf8_cons (c : Char) (text : Text) :
    encodeUtf8 (c :: text) = String.utf8EncodeChar c ++ encodeUtf8 text := rfl

theorem encodeUtf8_append (a b : Text) : encodeUtf8 (a ++ b) = encodeUtf8 a ++ encodeUtf8 b := by
  unfold encodeUtf8
  rw [List.flatMap_append]

/-- The value of a first byte, the number of bytes that continue it, and the least and the greatest
byte that may follow it. -/
def leadByte (b : Nat) : Option (Nat × Nat × Nat × Nat) :=
  if b < 0x80 then some (b, 0, 0x80, 0xbf)
  else if b < 0xc2 then none
  else if b < 0xe0 then some (b - 0xc0, 1, 0x80, 0xbf)
  else if b = 0xe0 then some (0, 2, 0xa0, 0xbf)
  else if b = 0xed then some (0xd, 2, 0x80, 0x9f)
  else if b < 0xf0 then some (b - 0xe0, 2, 0x80, 0xbf)
  else if b = 0xf0 then some (0, 3, 0x90, 0xbf)
  else if b < 0xf4 then some (b - 0xf0, 3, 0x80, 0xbf)
  else if b = 0xf4 then some (4, 3, 0x80, 0x8f)
  else none

/-- The value of a character after its first bytes, and the rest; `none` where it breaks off. -/
def scanTail : Nat → Nat → Nat → Nat → List UInt8 → Option Nat × List UInt8
  | 0, _, _, value, bytes => (some value, bytes)
  | _ + 1, _, _, _, [] => (none, [])
  | n + 1, low, high, value, b :: bytes =>
      if low ≤ b.toNat ∧ b.toNat ≤ high then
        scanTail n 0x80 0xbf (value * 64 + (b.toNat - 0x80)) bytes
      else (none, b :: bytes)

/-- The first character, or `none` for bytes that are none, and the rest. -/
def scanUtf8 (b : UInt8) (bytes : List UInt8) : Option Char × List UInt8 :=
  match leadByte b.toNat with
  | none => (none, bytes)
  | some (value, n, low, high) =>
      let r := scanTail n low high value bytes
      (r.1.map Char.ofNat, r.2)

/-- `fuel` bounds the number of characters and errors. -/
def decodeLoop (replacement : Text) : Nat → List UInt8 → Text
  | 0, _ => []
  | _ + 1, [] => []
  | fuel + 1, b :: bytes =>
      match scanUtf8 b bytes with
      | (some c, rest) => c :: decodeLoop replacement fuel rest
      | (none, rest) => replacement ++ decodeLoop replacement fuel rest

/-- `raw.decode(errors="replace")`. -/
def decodeReplace (raw : List UInt8) : Text := decodeLoop [Char.ofNat 0xfffd] raw.length raw

/-- `raw.decode(errors="ignore")`. -/
def decodeIgnore (raw : List UInt8) : Text := decodeLoop [] raw.length raw

/-! ## Sizes -/

theorem scanTail_rest_le (n low high value : Nat) (bytes : List UInt8) :
    (scanTail n low high value bytes).2.length ≤ bytes.length := by
  induction n generalizing low high value bytes with
  | zero => exact le_rfl
  | succ n ih =>
      cases bytes with
      | nil => exact le_rfl
      | cons b bytes =>
          unfold scanTail
          split
          · exact (ih _ _ _ bytes).trans (Nat.le_succ _)
          · exact le_rfl

/-- A character takes its bytes, and its value has six bits from each of them. -/
theorem scanTail_some {n low high value v : Nat} {bytes rest : List UInt8} (hhigh : high ≤ 0xbf)
    (h : scanTail n low high value bytes = (some v, rest)) :
    rest.length + n = bytes.length ∧ v < (value + 1) * 64 ^ n := by
  induction n generalizing low high value bytes with
  | zero =>
      cases h
      exact ⟨rfl, by omega⟩
  | succ n ih =>
      cases bytes with
      | nil => cases h
      | cons b bytes =>
          unfold scanTail at h
          split at h
          · next hb =>
              obtain ⟨hlength, hv⟩ := ih le_rfl h
              refine ⟨by rw [List.length_cons]; omega, ?_⟩
              have hvalue : value * 64 + (b.toNat - 0x80) + 1 ≤ (value + 1) * 64 := by omega
              have hpow := Nat.mul_le_mul_right (64 ^ n) hvalue
              rw [Nat.pow_succ, Nat.mul_comm (64 ^ n), ← Nat.mul_assoc]
              omega
          · cases h

/-- What the first byte says about the size of its character. -/
theorem leadByte_some {b value n low high : Nat} (h : leadByte b = some (value, n, low, high)) :
    high ≤ 0xbf ∧ n ≤ 3 ∧ (n = 0 → value < 0x80) ∧ (n = 1 → value < 0x20) ∧
      (n = 2 → value < 0x10) := by
  unfold leadByte at h
  split_ifs at h <;> simp only [Option.some.injEq, Prod.mk.injEq] at h <;> omega

theorem utf8Size_ofNat_le {v n : Nat} (hn : n ≤ 3) (h : n = 0 → v < 0x80)
    (h1 : n = 1 → v < 0x800) (h2 : n = 2 → v < 0x10000) : (Char.ofNat v).utf8Size ≤ n + 1 := by
  by_cases hvalid : v.isValidChar
  · have hval : (Char.ofNat v).val.toNat = v := by
      unfold Char.ofNat
      rw [dif_pos hvalid]
      rfl
    unfold Char.utf8Size
    simp only [UInt32.le_iff_toNat_le, hval]
    split_ifs with h7 h11 h16
    · omega
    · simp at h7 h11
      omega
    · simp at h11 h16
      omega
    · simp at h16
      omega
  · have hnul : Char.ofNat v = Char.ofNat 0 := by
      unfold Char.ofNat
      rw [dif_neg hvalid]
      rfl
    rw [hnul]
    have hone : (Char.ofNat 0).utf8Size = 1 := by decide
    omega

/-- The encoded character and the rest are not longer than what was read. -/
theorem scanUtf8_length (b : UInt8) (bytes : List UInt8) :
    (scanUtf8 b bytes).2.length ≤ bytes.length ∧
      ∀ c, (scanUtf8 b bytes).1 = some c →
        c.utf8Size + (scanUtf8 b bytes).2.length ≤ bytes.length + 1 := by
  unfold scanUtf8
  split
  · refine ⟨le_rfl, ?_⟩
    rintro c ⟨⟩
  · next value n low high hlead =>
      obtain ⟨hhigh, hn, h0, h1, h2⟩ := leadByte_some hlead
      refine ⟨scanTail_rest_le _ _ _ _ _, ?_⟩
      intro c hc
      dsimp only at hc ⊢
      obtain ⟨v, hv, rfl⟩ := Option.map_eq_some_iff.1 hc
      have htail : scanTail n low high value bytes =
          (some v, (scanTail n low high value bytes).2) := by rw [← hv]
      obtain ⟨hlength, hbound⟩ := scanTail_some hhigh htail
      have hsize : (Char.ofNat v).utf8Size ≤ n + 1 := by
        apply utf8Size_ofNat_le hn
        · rintro rfl
          have := h0 rfl
          omega
        · rintro rfl
          have := h1 rfl
          omega
        · rintro rfl
          have := h2 rfl
          omega
      omega

/-- Decoding that drops what is no character does not lengthen the bytes. -/
theorem decodeLoop_length (fuel : Nat) (raw : List UInt8) :
    (encodeUtf8 (decodeLoop [] fuel raw)).length ≤ raw.length := by
  induction fuel generalizing raw with
  | zero => exact Nat.zero_le _
  | succ fuel ih =>
      cases raw with
      | nil => exact le_rfl
      | cons b bytes =>
          obtain ⟨hrest, hchar⟩ := scanUtf8_length b bytes
          unfold decodeLoop
          split
          · next c rest hscan =>
              rw [hscan] at hrest hchar
              have hc := hchar c rfl
              have hih := ih rest
              rw [encodeUtf8_cons, List.length_append, String.length_utf8EncodeChar,
                List.length_cons]
              dsimp only at hc
              omega
          · next rest hscan =>
              rw [hscan] at hrest
              rw [List.nil_append, List.length_cons]
              exact (ih rest).trans (hrest.trans (Nat.le_succ _))

theorem decodeIgnore_length (raw : List UInt8) :
    (encodeUtf8 (decodeIgnore raw)).length ≤ raw.length :=
  decodeLoop_length _ _

/-! ## Round trip -/

theorem toNat_ofNat_of_lt {n : Nat} (h : n < 256) : (UInt8.ofNat n).toNat = n := by
  rw [UInt8.toNat_ofNat']
  omega

theorem scanTail_cons {n low high value x : Nat} {rest : List UInt8} (hx : x < 256)
    (h : low ≤ x ∧ x ≤ high) :
    scanTail (n + 1) low high value (UInt8.ofNat x :: rest) =
      scanTail n 0x80 0xbf (value * 64 + (x - 0x80)) rest := by
  rw [scanTail, toNat_ofNat_of_lt hx, if_pos h]

theorem scanUtf8_of_lead {x value n low high : Nat} {bytes rest : List UInt8} {c : Char}
    (hx : x < 256) (hlead : leadByte x = some (value, n, low, high))
    (htail : scanTail n low high value bytes = (some c.toNat, rest)) :
    scanUtf8 (UInt8.ofNat x) bytes = (some c, rest) := by
  unfold scanUtf8
  rw [toNat_ofNat_of_lt hx, hlead]
  dsimp only
  rw [htail, Option.map_some, Char.ofNat_toNat]

/-- The first byte of a character of three bytes; which second bytes may follow depends on it. -/
theorem leadByte_three {x : Nat} (h : x < 16) :
    ∃ low high, leadByte (x + 0xe0) = some (x, 2, low, high) ∧
      ∀ y, y < 64 → (x = 0 → 0x20 ≤ y) → (x = 0xd → y < 0x20) →
        low ≤ y + 0x80 ∧ y + 0x80 ≤ high := by
  obtain rfl | rfl | ⟨h0, hd⟩ : x = 0 ∨ x = 0xd ∨ (x ≠ 0 ∧ x ≠ 0xd) := by omega
  · exact ⟨0xa0, 0xbf, rfl, by omega⟩
  · exact ⟨0x80, 0x9f, rfl, by omega⟩
  · refine ⟨0x80, 0xbf, ?_, by omega⟩
    unfold leadByte
    rw [if_neg (by omega), if_neg (by omega), if_neg (by omega), if_neg (by omega),
      if_neg (by omega), if_pos (by omega), Nat.add_sub_cancel]

/-- The first byte of a character of four bytes. -/
theorem leadByte_four {x : Nat} (h : x < 5) :
    ∃ low high, leadByte (x + 0xf0) = some (x, 3, low, high) ∧
      ∀ y, y < 64 → (x = 0 → 0x10 ≤ y) → (x = 4 → y < 0x10) →
        low ≤ y + 0x80 ∧ y + 0x80 ≤ high := by
  obtain rfl | rfl | ⟨h0, h4⟩ : x = 0 ∨ x = 4 ∨ (x ≠ 0 ∧ x ≠ 4) := by omega
  · exact ⟨0x90, 0xbf, rfl, by omega⟩
  · exact ⟨0x80, 0x8f, rfl, by omega⟩
  · refine ⟨0x80, 0xbf, ?_, by omega⟩
    unfold leadByte
    rw [if_neg (by omega), if_neg (by omega), if_neg (by omega), if_neg (by omega),
      if_neg (by omega), if_neg (by omega), if_neg (by omega), if_pos (by omega),
      Nat.add_sub_cancel]

/-- An encoded character is read back. -/
theorem scanUtf8_utf8EncodeChar (c : Char) (rest : List UInt8) :
    ∃ b bytes, String.utf8EncodeChar c ++ rest = b :: bytes ∧
      scanUtf8 b bytes = (some c, rest) := by
  have hvalid : c.toNat.isValidChar := c.valid
  have hv : c.val.toNat = c.toNat := rfl
  have hsplit : c.toNat = c.toNat / 64 * 64 + c.toNat % 64 := by omega
  unfold Nat.isValidChar at hvalid
  unfold String.utf8EncodeChar
  simp only [hv]
  split_ifs with h7 h11 h16
  · have hlead : leadByte c.toNat = some (c.toNat, 0, 0x80, 0xbf) := by
      unfold leadByte
      rw [if_pos (by omega)]
    exact ⟨_, rest, rfl, scanUtf8_of_lead (by omega) hlead rfl⟩
  · have hlead : leadByte (c.toNat / 64 % 32 + 0xc0) =
        some (c.toNat / 64, 1, 0x80, 0xbf) := by
      unfold leadByte
      rw [if_neg (by omega), if_neg (by omega), if_pos (by omega)]
      simp
      omega
    refine ⟨_, _, rfl, scanUtf8_of_lead (by omega) hlead ?_⟩
    change scanTail 1 _ _ _ (_ :: rest) = _
    rw [scanTail_cons (by omega) (by omega)]
    simp only [scanTail, Prod.mk.injEq, Option.some.injEq, and_true]
    omega
  · obtain ⟨low, high, hlead, hrange⟩ := leadByte_three (x := c.toNat / 4096 % 0x10) (by omega)
    refine ⟨_, _, rfl, scanUtf8_of_lead (by omega) hlead ?_⟩
    change scanTail 2 _ _ _ (_ :: _ :: rest) = _
    rw [scanTail_cons (by omega) (hrange _ (by omega) (by omega) (by omega)),
      scanTail_cons (by omega) (by omega)]
    simp only [scanTail, Prod.mk.injEq, Option.some.injEq, and_true]
    omega
  · obtain ⟨low, high, hlead, hrange⟩ := leadByte_four (x := c.toNat / 262144 % 0x08) (by omega)
    refine ⟨_, _, rfl, scanUtf8_of_lead (by omega) hlead ?_⟩
    change scanTail 3 _ _ _ (_ :: _ :: _ :: rest) = _
    rw [scanTail_cons (by omega) (hrange _ (by omega) (by omega) (by omega)),
      scanTail_cons (by omega) (by omega), scanTail_cons (by omega) (by omega)]
    simp only [scanTail, Prod.mk.injEq, Option.some.injEq, and_true]
    omega

theorem decodeLoop_encode (replacement : Text) {fuel : Nat} {text : Text}
    (h : (encodeUtf8 text).length ≤ fuel) :
    decodeLoop replacement fuel (encodeUtf8 text) = text := by
  induction text generalizing fuel with
  | nil =>
      cases fuel <;> rfl
  | cons c text ih =>
      obtain ⟨b, bytes, hbytes, hscan⟩ := scanUtf8_utf8EncodeChar c (encodeUtf8 text)
      rw [encodeUtf8_cons, List.length_append, String.length_utf8EncodeChar] at h
      have hpos := c.utf8Size_pos
      rw [encodeUtf8_cons, hbytes]
      cases fuel with
      | zero => omega
      | succ fuel =>
          unfold decodeLoop
          rw [hscan]
          dsimp only
          rw [ih (by omega)]

/-- What was encoded is decoded again. -/
theorem decodeReplace_encode (text : Text) : decodeReplace (encodeUtf8 text) = text :=
  decodeLoop_encode _ le_rfl

end WheelForge.Python
