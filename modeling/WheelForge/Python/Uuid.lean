import Mathlib.Algebra.GroupWithZero.Nat
import WheelForge.Python.Text

/-!
# UUIDs and their texts

`str(UUID(text))`. The digits are read as `int(digits, 16)` reads them; what it makes of 32 characters
that are not all digits is a parameter. A text with groups of lower case digits is its own canonical
text (`canonicalUuid_dashed`), and every canonical text is one (`canonicalUuid_some`).
-/

set_option autoImplicit false

namespace WheelForge.Python

def lowerHex (c : Char) : Bool := ('0' ≤ c && c ≤ '9') || ('a' ≤ c && c ≤ 'f')

def isHex (c : Char) : Bool := lowerHex c || ('A' ≤ c && c ≤ 'F')

/-- `hex.replace("urn:", "").replace("uuid:", "").strip("\x7b\x7d").replace("-", "")` -/
def uuidDigits (text : Text) : Text :=
  let bare := replace "uuid:".toList [] (replace "urn:".toList [] text)
  let inner := (bare.dropWhile (· ∈ ['\x7b', '\x7d'])).rdropWhile (· ∈ ['\x7b', '\x7d'])
  inner.filter fun c => decide (c ≠ '-')

/-- `"%0*x" % (width, n)` for a number of at most `width` digits. -/
def paddedHex : Nat → Nat → Text
  | 0, _ => []
  | width + 1, n => paddedHex width (n / 16) ++ [(n % 16).digitChar]

/-- `"%s-%s-%s-%s-%s" % (hex[:8], hex[8:12], hex[12:16], hex[16:20], hex[20:])` -/
def dashed (digits : Text) : Text :=
  digits.take 8 ++ '-' :: ((digits.drop 8).take 4 ++ '-' :: ((digits.drop 12).take 4 ++
    '-' :: ((digits.drop 16).take 4 ++ '-' :: digits.drop 20)))

/-- `str(UUID(text))`; `none` is its `ValueError`. -/
def canonicalUuid (other : Text → Option (Fin (2 ^ 128))) (text : Text) : Option Text :=
  let digits := uuidDigits text
  if digits.length ≠ 32 then none
  else if digits.all isHex then some (dashed (digits.map Char.toLower))
  else (other digits).map fun n => dashed (paddedHex 32 n)

/-! ## Canonical texts -/

/-- 32 lower case digits. -/
structure UuidDigits (digits : Text) : Prop where
  length : digits.length = 32
  lower : ∀ c ∈ digits, lowerHex c = true

theorem mem_dashed {digits : Text} {c : Char} (h : c ∈ dashed digits) : c = '-' ∨ c ∈ digits := by
  unfold dashed at h
  simp only [List.mem_append, List.mem_cons] at h
  rcases h with h | rfl | h | rfl | h | rfl | h | rfl | h
  · exact .inr (List.mem_of_mem_take h)
  · exact .inl rfl
  · exact .inr (List.mem_of_mem_drop (List.mem_of_mem_take h))
  · exact .inl rfl
  · exact .inr (List.mem_of_mem_drop (List.mem_of_mem_take h))
  · exact .inl rfl
  · exact .inr (List.mem_of_mem_drop (List.mem_of_mem_take h))
  · exact .inl rfl
  · exact .inr (List.mem_of_mem_drop h)

/-- Nothing is replaced in a text without the first character of the needle. -/
theorem replace_of_not_mem {first : Char} {old new text : Text} (h : first ∉ text) :
    replace (first :: old) new text = text := by
  unfold replace
  induction text with
  | nil => rfl
  | cons c text ih =>
      have hprefix : ¬ (first :: old) <+: c :: text := by
        rw [List.cons_prefix_cons]
        rintro ⟨rfl, -⟩
        exact h List.mem_cons_self
      rw [replaceFrom, if_neg hprefix, ih fun hmem => h (List.mem_cons_of_mem _ hmem)]

/-- The five groups are the digits. -/
theorem take_drop_groups (digits : Text) :
    digits.take 8 ++ ((digits.drop 8).take 4 ++ ((digits.drop 12).take 4 ++
      ((digits.drop 16).take 4 ++ digits.drop 20))) = digits := by
  have hgroup : ∀ n, (digits.drop n).take 4 ++ digits.drop (n + 4) = digits.drop n := by
    intro n
    rw [← List.drop_drop]
    exact List.take_append_drop 4 _
  rw [hgroup 16, hgroup 12, hgroup 8]
  exact List.take_append_drop 8 digits

/-! ### Digits -/

theorem isHex_lt {c : Char} (h : isHex c = true) : c.toNat < 128 := by
  have hle : ∀ d : Char, c ≤ d → c.toNat ≤ d.toNat := fun d hd => UInt32.le_iff_toNat_le.1 hd
  simp only [isHex, lowerHex, Bool.or_eq_true, Bool.and_eq_true, decide_eq_true_eq] at h
  rcases h with (⟨-, h⟩ | ⟨-, h⟩) | ⟨-, h⟩
  · exact Nat.lt_of_le_of_lt (hle '9' h) (by decide)
  · exact Nat.lt_of_le_of_lt (hle 'f' h) (by decide)
  · exact Nat.lt_of_le_of_lt (hle 'F' h) (by decide)

theorem ascii_toLower : ∀ n < 128,
    (lowerHex (Char.ofNat n) = true → (Char.ofNat n).toLower = Char.ofNat n) ∧
      (isHex (Char.ofNat n) = true → lowerHex (Char.ofNat n).toLower = true) := by
  decide +kernel

theorem toLower_lowerHex {c : Char} (h : lowerHex c = true) : c.toLower = c := by
  have hhex : isHex c = true := by
    unfold isHex
    rw [h, Bool.true_or]
  have hc := (ascii_toLower c.toNat (isHex_lt hhex)).1
  rw [Char.ofNat_toNat] at hc
  exact hc h

theorem lowerHex_toLower {c : Char} (h : isHex c = true) : lowerHex c.toLower = true := by
  have hc := (ascii_toLower c.toNat (isHex_lt h)).2
  rw [Char.ofNat_toNat] at hc
  exact hc h

theorem paddedHex_digits (width n : Nat) : (paddedHex width n).length = width ∧
    ∀ c ∈ paddedHex width n, lowerHex c = true := by
  have hdigit : ∀ d < 16, lowerHex d.digitChar = true := by decide
  induction width generalizing n with
  | zero => simp [paddedHex]
  | succ width ih =>
      obtain ⟨hlength, hlower⟩ := ih (n / 16)
      unfold paddedHex
      refine ⟨by simp [hlength], ?_⟩
      intro c hc
      rcases List.mem_append.1 hc with hc | hc
      · exact hlower c hc
      · rw [List.mem_singleton.1 hc]
        exact hdigit _ (Nat.mod_lt n (by decide))

namespace UuidDigits

variable {digits : Text} (h : UuidDigits digits)

include h

theorem not_mem_dashed {c : Char} (hdash : c ≠ '-') (hhex : lowerHex c = false) :
    c ∉ dashed digits := by
  intro hmem
  rcases mem_dashed hmem with rfl | hmem
  · exact hdash rfl
  · rw [h.lower c hmem] at hhex
    exact Bool.noConfusion hhex

/-- The digits of a canonical text. -/
theorem uuidDigits_dashed : uuidDigits (dashed digits) = digits := by
  have hno : ∀ c ∈ dashed digits, decide (c ∈ ['\x7b', '\x7d']) = false := by
    intro c hc
    rw [decide_eq_false_iff_not]
    rintro hbrace
    rcases List.mem_pair.1 hbrace with rfl | rfl
    · exact h.not_mem_dashed (by decide) (by decide) hc
    · exact h.not_mem_dashed (by decide) (by decide) hc
  have hleft : (dashed digits).dropWhile (· ∈ ['\x7b', '\x7d']) = dashed digits := by
    rw [List.dropWhile_eq_self_iff]
    intro hne
    rw [hno _ (List.getElem_mem _)]
    exact Bool.false_ne_true
  have hright : (dashed digits).rdropWhile (· ∈ ['\x7b', '\x7d']) = dashed digits := by
    rw [List.rdropWhile_eq_self_iff]
    intro hne
    rw [hno _ (List.getLast_mem hne)]
    exact Bool.false_ne_true
  have hgroup : ∀ group : Text, (∀ c ∈ group, c ∈ digits) →
      group.filter (fun c => decide (c ≠ '-')) = group := by
    intro group hsub
    refine List.filter_eq_self.2 fun c hc => decide_eq_true ?_
    rintro rfl
    exact absurd (h.lower '-' (hsub '-' hc)) (by decide)
  unfold uuidDigits
  have hurn : 'u' ∉ dashed digits := h.not_mem_dashed (by decide) (by decide)
  have hfirst : replace "urn:".toList [] (dashed digits) = dashed digits := replace_of_not_mem hurn
  have hsecond : replace "uuid:".toList [] (dashed digits) = dashed digits :=
    replace_of_not_mem hurn
  simp only [hfirst, hsecond, hleft, hright]
  -- the filter takes the four hyphens out and leaves the groups as they are
  unfold dashed
  simp only [List.filter_append, List.filter_cons, ne_eq, not_true_eq_false, decide_false,
    Bool.false_eq_true, if_false]
  rw [hgroup _ fun c hc => List.mem_of_mem_take hc,
    hgroup _ fun c hc => List.mem_of_mem_drop (List.mem_of_mem_take hc),
    hgroup _ fun c hc => List.mem_of_mem_drop (List.mem_of_mem_take hc),
    hgroup _ fun c hc => List.mem_of_mem_drop (List.mem_of_mem_take hc),
    hgroup _ fun c hc => List.mem_of_mem_drop hc]
  exact take_drop_groups digits

/-- A canonical text is read as itself. -/
theorem canonicalUuid_dashed (other : Text → Option (Fin (2 ^ 128))) :
    canonicalUuid other (dashed digits) = some (dashed digits) := by
  have hhex : digits.all isHex = true := by
    rw [List.all_eq_true]
    intro c hc
    unfold isHex
    rw [h.lower c hc, Bool.true_or]
  have hlower : digits.map Char.toLower = digits :=
    (List.map_congr_left fun c hc => toLower_lowerHex (h.lower c hc)).trans (List.map_id digits)
  unfold canonicalUuid
  simp only [h.uuidDigits_dashed, h.length, hhex, hlower, ne_eq, not_true_eq_false, if_false,
    if_true]

end UuidDigits

/-- A canonical text has lower case digits. -/
theorem canonicalUuid_some {other : Text → Option (Fin (2 ^ 128))} {text canonical : Text}
    (h : canonicalUuid other text = some canonical) :
    ∃ digits, UuidDigits digits ∧ canonical = dashed digits := by
  unfold canonicalUuid at h
  dsimp only at h
  split at h
  · cases h
  · next hlength =>
      split at h
      · next hhex =>
          cases h
          refine ⟨(uuidDigits text).map Char.toLower, ⟨?_, ?_⟩, rfl⟩
          · rw [List.length_map]
            exact not_not.1 hlength
          · intro c hc
            obtain ⟨d, hd, rfl⟩ := List.mem_map.1 hc
            exact lowerHex_toLower (List.all_eq_true.1 hhex d hd)
      · obtain ⟨n, -, rfl⟩ := Option.map_eq_some_iff.1 h
        obtain ⟨hdigits, hlower⟩ := paddedHex_digits 32 n
        exact ⟨_, ⟨hdigits, hlower⟩, rfl⟩

end WheelForge.Python
