import Mathlib.Algebra.GroupWithZero.Nat
import Mathlib.Data.List.Chain
import WheelForge.Python.Exceptions
import WheelForge.Python.Json

/-!
# What `json.loads` returns and `json.dumps` writes

The strings of a value that was read hold no surrogate pairs and its integers have no more digits than
Python reads (`loads_sound`), so that they are read back when they are written again. A written text
is ASCII (`dumps_ascii`), and its size in bytes is its length.
-/

set_option autoImplicit false

namespace WheelForge.Python

/-! ## Strings and texts -/

/-- The character of a code point; a surrogate is none. -/
def CodePoint.toChar? (c : CodePoint) : Option Char :=
  if c.isHighSurrogate || c.isLowSurrogate then none else some (Char.ofNat c.val)

/-- A `str` without surrogates. -/
def Str.toText? (s : Str) : Option Text := s.mapM CodePoint.toChar?

theorem toChar?_ofChar (c : Char) : (CodePoint.ofChar c).toChar? = some c := by
  have hsurrogate : ((CodePoint.ofChar c).isHighSurrogate || (CodePoint.ofChar c).isLowSurrogate) =
      false := by
    have hvalid : c.toNat.isValidChar := c.valid
    unfold Nat.isValidChar at hvalid
    unfold CodePoint.isHighSurrogate CodePoint.isLowSurrogate
    show ((decide (0xd800 ≤ c.toNat) && decide (c.toNat ≤ 0xdbff)) ||
      (decide (0xdc00 ≤ c.toNat) && decide (c.toNat ≤ 0xdfff))) = false
    simp
    omega
  unfold CodePoint.toChar?
  rw [hsurrogate, if_neg Bool.false_ne_true]
  exact congrArg some (Char.ofNat_toNat c)

theorem toText?_ofText (text : Text) : (Str.ofText text).toText? = some text := by
  unfold Str.toText? Str.ofText
  induction text with
  | nil => rfl
  | cons c text ih => simp [toChar?_ofChar, ih]

/-- The characters of a text are no first halves of pairs. -/
theorem ofText_noPair (text : Text) : NoPair (Str.ofText text) := by
  apply noPair_of_forall
  intro c hc
  obtain ⟨d, -, rfl⟩ := List.mem_map.1 hc
  have hchar := toChar?_ofChar d
  unfold CodePoint.toChar? at hchar
  split at hchar
  · cases hchar
  · next hnot =>
      rw [Bool.or_eq_true, not_or, Bool.not_eq_true] at hnot
      exact hnot.1

/-! ## Values that were read -/

theorem join_not_low (high low : CodePoint) : (CodePoint.join high low).isLowSurrogate = false := by
  unfold CodePoint.isLowSurrogate CodePoint.join
  simp only [Bool.and_eq_false_iff, decide_eq_false_iff_not]
  omega

theorem join_not_high (high low : CodePoint) :
    (CodePoint.join high low).isHighSurrogate = false := by
  unfold CodePoint.isHighSurrogate CodePoint.join
  simp only [Bool.and_eq_false_iff, decide_eq_false_iff_not]
  omega

/-- The first code point after the reader has joined surrogates is the first unit or no low
surrogate. -/
theorem joinSurrogates_head (c : CodePoint) (rest : Str) :
    ∀ d ∈ (joinSurrogates (c :: rest)).head?, d = c ∨ d.isLowSurrogate = false := by
  intro d hd
  cases rest with
  | nil => exact .inl (Option.some.inj hd).symm
  | cons low rest =>
      rw [joinSurrogates] at hd
      split at hd
      · rw [← Option.some.inj hd]
        exact .inr (join_not_low c low)
      · exact .inl (Option.some.inj hd).symm

/-- The reader leaves no surrogate pair. -/
theorem joinSurrogates_noPair (units : Str) : NoPair (joinSurrogates units) := by
  -- the recursion steps over two units where it joins them
  fun_induction joinSurrogates units with
  | case1 high low rest hpair ih =>
      refine List.isChain_cons.2 ⟨?_, ih⟩
      rintro d - ⟨hhigh, -⟩
      rw [join_not_high] at hhigh
      exact Bool.false_ne_true hhigh
  | case2 high low rest hpair ih =>
      refine List.isChain_cons.2 ⟨?_, ih⟩
      rintro d hd ⟨hhigh, hlow⟩
      rcases joinSurrogates_head low rest d hd with rfl | hnot
      · exact hpair (by rw [hhigh, hlow]; rfl)
      · rw [hnot] at hlow
        exact Bool.false_ne_true hlow
  | case3 short hshort =>
      match short with
      | [] => exact List.isChain_nil
      | [c] => exact List.isChain_singleton c
      | high :: low :: rest => exact absurd rfl (hshort high low rest)

mutual

/-- A value whose strings hold no surrogate pairs and whose integers have no more digits than Python
reads. -/
def JsonValue.Sound : JsonValue → Prop
  | .null | .bool _ | .float _ => True
  | .int n => (Nat.toDigits 10 n.natAbs).length ≤ maxIntDigits
  | .string s => NoPair s
  | .array items => SoundItems items
  | .object members => SoundMembers members
termination_by structural value => value

def SoundItems : List JsonValue → Prop
  | [] => True
  | item :: items => item.Sound ∧ SoundItems items
termination_by structural items => items

def SoundMember : Str × JsonValue → Prop
  | (key, value) => NoPair key ∧ value.Sound
termination_by structural member => member

def SoundMembers : List (Str × JsonValue) → Prop
  | [] => True
  | member :: members => SoundMember member ∧ SoundMembers members
termination_by structural members => members

end

theorem scanString_noPair {text rest : Text} {s : Str} (h : scanString text = .ok (s, rest)) :
    NoPair s := by
  unfold scanString at h
  obtain ⟨⟨units, tail⟩, -, h⟩ := bind_ok.1 h
  cases h
  exact joinSurrogates_noPair units

/-- The decimal digits of a number that was read are no more than those that were read. -/
theorem toDigits_ofDigitChars_length (digits : Text) (hne : digits ≠ [])
    (hdigits : ∀ c ∈ digits, c.isDigit = true) :
    (Nat.toDigits 10 (Nat.ofDigitChars 10 digits 0)).length ≤ digits.length := by
  have hlt : Nat.ofDigitChars 10 digits 0 < 10 ^ digits.length := by
    induction digits using List.reverseRecOn with
    | nil => exact absurd rfl hne
    | append_singleton before c ih =>
        have hc := hdigits c (List.mem_append_right _ List.mem_cons_self)
        have hvalue : c.toNat - '0'.toNat < 10 := by
          have hrange : 48 ≤ c.toNat ∧ c.toNat ≤ 57 := by
            simpa [Char.isDigit, UInt32.le_iff_toNat_le] using hc
          have hzero : '0'.toNat = 48 := rfl
          omega
        have hbefore : Nat.ofDigitChars 10 before 0 < 10 ^ before.length := by
          by_cases hnil : before = []
          · rw [hnil]
            decide
          · exact ih hnil fun d hd => hdigits d (List.mem_append_left _ hd)
        rw [Nat.ofDigitChars_append, Nat.ofDigitChars_cons, Nat.ofDigitChars_nil,
          List.length_append, List.length_singleton, Nat.pow_succ]
        omega
  have hpos : 0 < digits.length := List.length_pos_of_ne_nil hne
  exact (Nat.length_toDigits_le_iff (by decide) hpos).2 hlt

theorem scanWhole_digits {text whole rest : Text} (h : scanWhole text = some (whole, rest)) :
    whole ≠ [] ∧ ∀ c ∈ whole, c.isDigit = true := by
  unfold scanWhole at h
  split at h
  · cases h
  · cases h
    exact ⟨List.cons_ne_nil _ _, List.forall_mem_singleton.2 rfl⟩
  · next c tail _ =>
      split at h
      · next hc =>
          have hspan := Option.some.inj h
          unfold spanDigits at hspan
          cases hspan
          constructor
          · simp [hc]
          · intro d hd
            exact List.mem_takeWhile_imp hd
      · cases h

theorem scanNumber_sound {text rest : Text} {value : JsonValue}
    (h : scanNumber text = .ok (value, rest)) : value.Sound := by
  unfold scanNumber at h
  dsimp only at h
  split at h
  · cases h
  · next whole tail hwhole =>
      obtain ⟨hne, hdigits⟩ := scanWhole_digits hwhole
      split at h
      · split at h
        · cases h
        · next hlimit =>
            cases h
            have hlength := toDigits_ofDigitChars_length whole hne hdigits
            show (Nat.toDigits 10 (Int.natAbs _)).length ≤ maxIntDigits
            have habs : Int.natAbs (if (if text.head? = some '-' then ['-'] else []) = [] then
                ((Nat.ofDigitChars 10 whole 0 : Nat) : Int)
                else -((Nat.ofDigitChars 10 whole 0 : Nat) : Int)) =
                Nat.ofDigitChars 10 whole 0 := by
              split <;> simp
            rw [habs]
            omega
      · cases h
        trivial

/-- What the productions read is sound. -/
theorem scan_sound (fuel : Nat) :
    (∀ text value rest, scanValue fuel text = .ok (value, rest) → value.Sound) ∧
    (∀ text items rest, scanItems fuel text = .ok (items, rest) → SoundItems items) ∧
    ∀ text members rest, scanMembers fuel text = .ok (members, rest) → SoundMembers members := by
  induction fuel with
  | zero =>
      refine ⟨?_, ?_, ?_⟩
      · intro text value rest h
        cases h
      · intro text items rest h
        cases h
      · intro text members rest h
        cases h
  | succ fuel ih =>
      obtain ⟨ihValue, ihItems, ihMembers⟩ := ih
      refine ⟨?_, ?_, ?_⟩
      · intro text value rest h
        unfold scanValue at h
        split at h
        · obtain ⟨⟨s, tail⟩, hs, h⟩ := bind_ok.1 h
          cases h
          exact scanString_noPair hs
        · split at h
          · cases h
            trivial
          · obtain ⟨⟨members, tail⟩, hmembers, h⟩ := bind_ok.1 h
            cases h
            exact ihMembers _ _ _ hmembers
        · split at h
          · cases h
            trivial
          · obtain ⟨⟨items, tail⟩, hitems, h⟩ := bind_ok.1 h
            cases h
            exact ihItems _ _ _ hitems
        -- the literals and the numbers
        all_goals first
          | exact scanNumber_sound h
          | (cases h; trivial)
      · intro text items rest h
        unfold scanItems at h
        obtain ⟨⟨item, tail⟩, hitem, h⟩ := bind_ok.1 h
        dsimp only at h
        split at h
        · cases h
          exact ⟨ihValue _ _ _ hitem, trivial⟩
        · obtain ⟨⟨more, tail⟩, hmore, h⟩ := bind_ok.1 h
          cases h
          exact ⟨ihValue _ _ _ hitem, ihItems _ _ _ hmore⟩
        · cases h
      · intro text members rest h
        unfold scanMembers at h
        split at h
        · obtain ⟨⟨key, tail⟩, hkey, h⟩ := bind_ok.1 h
          dsimp only at h
          split at h
          · obtain ⟨⟨value, tail⟩, hvalue, h⟩ := bind_ok.1 h
            dsimp only at h
            split at h
            · cases h
              exact ⟨⟨scanString_noPair hkey, ihValue _ _ _ hvalue⟩, trivial⟩
            · obtain ⟨⟨more, tail⟩, hmore, h⟩ := bind_ok.1 h
              cases h
              exact ⟨⟨scanString_noPair hkey, ihValue _ _ _ hvalue⟩, ihMembers _ _ _ hmore⟩
            · cases h
          · cases h
        · cases h

theorem loads_sound {text : Text} {value : JsonValue} (h : loads text = .ok value) :
    value.Sound := by
  unfold loads at h
  obtain ⟨⟨read, rest⟩, hread, h⟩ := bind_ok.1 h
  dsimp only at h
  split at h
  · cases h
    exact (scan_sound _).1 _ _ _ hread
  · cases h

theorem SoundMembers.of_mem {members : List (Str × JsonValue)} (h : SoundMembers members)
    {member : Str × JsonValue} (hmem : member ∈ members) : SoundMember member := by
  induction members with
  | nil => cases hmem
  | cons first members ih =>
      rcases List.mem_cons.1 hmem with rfl | hmem
      · exact h.1
      · exact ih h.2 hmem

/-- The fields of a sound value are sound. -/
theorem JsonValue.Sound.get? {value field : JsonValue} {key : Str} (h : value.Sound)
    (hfield : value.get? key = some field) : field.Sound := by
  cases value with
  | object members =>
      obtain ⟨member, hmember, rfl⟩ := Option.map_eq_some_iff.1 hfield
      have hmem := List.mem_reverse.1 (List.mem_of_find?_eq_some hmember)
      obtain ⟨name, value⟩ := member
      have hsound : SoundMember (name, value) := SoundMembers.of_mem h hmem
      exact hsound.2
  | _ => cases hfield

/-! ## Texts that were written -/

/-- The text has ASCII characters only. -/
def Ascii (text : Text) : Prop := ∀ c ∈ text, c.toNat < 0x80

theorem Ascii.append {a b : Text} (ha : Ascii a) (hb : Ascii b) : Ascii (a ++ b) := by
  intro c hc
  rcases List.mem_append.1 hc with hc | hc
  · exact ha c hc
  · exact hb c hc

theorem Ascii.cons {c : Char} {text : Text} (hc : c.toNat < 0x80) (h : Ascii text) :
    Ascii (c :: text) := by
  intro d hd
  rcases List.mem_cons.1 hd with rfl | hd
  · exact hc
  · exact h d hd

/-- `len(text.encode("utf-8"))`. -/
def utf8Size (text : Text) : Nat := (text.map Char.utf8Size).sum

theorem Ascii.utf8Size_eq {text : Text} (h : Ascii text) : utf8Size text = text.length := by
  induction text with
  | nil => rfl
  | cons c text ih =>
      have hc : c.utf8Size = 1 := Char.utf8Size_eq_one_iff.2 (by
        rw [UInt32.le_iff_toNat_le]
        exact Nat.le_of_lt_succ (h c List.mem_cons_self))
      have htext := ih fun d hd => h d (List.mem_cons_of_mem _ hd)
      unfold utf8Size at htext ⊢
      rw [List.map_cons, List.sum_cons, hc, htext, List.length_cons, Nat.add_comm]

theorem digitChar_ascii : ∀ d < 16, d.digitChar.toNat < 0x80 := by decide

theorem escapeUnit_ascii (c : CodePoint) : Ascii (escapeUnit c) := by
  unfold escapeUnit
  split
  · next letter hletter =>
      have hall : ∀ escape ∈ shortEscapes, escape.2.toNat < 0x80 := by decide
      obtain ⟨before, after, hsplit, -⟩ := List.lookup_eq_some_iff.1 hletter
      have hlt := hall (c, letter) (by simp [hsplit])
      exact Ascii.cons (by decide) (Ascii.cons hlt fun _ hd => nomatch hd)
  · split
    · next hrange =>
        refine Ascii.cons ?_ fun _ hd => nomatch hd
        have hvalid : c.val.isValidChar := .inl (by omega)
        rw [Char.ofNat, dif_pos hvalid]
        exact Nat.lt_of_le_of_lt hrange.2 (by decide)
    · have hdigit : ∀ n, (n % 16).digitChar.toNat < 0x80 :=
        fun n => digitChar_ascii _ (Nat.mod_lt n (by decide))
      unfold hexDigits
      exact Ascii.cons (by decide) (Ascii.cons (by decide) (Ascii.cons (hdigit _)
        (Ascii.cons (hdigit _) (Ascii.cons (hdigit _) (Ascii.cons (hdigit _)
          fun _ hd => nomatch hd)))))

theorem dumpsString_ascii (s : Str) : Ascii (dumpsString s) := by
  have hescape : Ascii (escapeString s) := by
    intro c hc
    obtain ⟨unit, -, hunit⟩ := List.mem_flatMap.1 hc
    exact escapeUnit_ascii unit c hunit
  exact Ascii.cons (by decide) (hescape.append (Ascii.cons (by decide) fun _ hd => nomatch hd))

theorem dumpsInt_ascii (n : Int) : Ascii (dumpsInt n) := by
  have hdigits : Ascii (Nat.toDigits 10 n.natAbs) := by
    intro c hc
    have hdigit : c.isDigit = true := isDigit_toDigits c hc
    have hrange : 48 ≤ c.toNat ∧ c.toNat ≤ 57 := by
      simpa [Char.isDigit, UInt32.le_iff_toNat_le] using hdigit
    omega
  unfold dumpsInt
  split
  · exact Ascii.cons (by decide) hdigits
  · exact hdigits

theorem separators_ascii (compact : Bool) :
    Ascii (itemSeparator compact) ∧ Ascii (keySeparator compact) := by
  cases compact <;> simp [Ascii, itemSeparator, keySeparator]

mutual

/-- A written text is ASCII. -/
theorem dumps_ascii (compact : Bool) : ∀ value : JsonValue, value.Plain →
    Ascii (dumps compact value)
  | .null, _ => by simp [dumps, Ascii]
  | .bool true, _ => by simp [dumps, Ascii]
  | .bool false, _ => by simp [dumps, Ascii]
  | .int n, _ => dumpsInt_ascii n
  | .float _, h => h.elim
  | .string s, _ => dumpsString_ascii s
  | .array [], _ => by simp [dumps, Ascii]
  | .array (item :: items), h => by
      rw [dumps]
      exact Ascii.cons (by decide)
        ((dumps_ascii compact item h.1).append (dumpsItems_ascii compact items h.2))
  | .object [], _ => by simp [dumps, Ascii]
  | .object (member :: members), h => by
      rw [dumps]
      exact Ascii.cons (by decide)
        ((dumpsMember_ascii compact member h.1).append (dumpsMembers_ascii compact members h.2))

theorem dumpsItems_ascii (compact : Bool) : ∀ items : List JsonValue, PlainItems items →
    Ascii (dumpsItems compact items)
  | [], _ => by simp [dumpsItems, Ascii]
  | item :: items, h => by
      rw [dumpsItems]
      exact (separators_ascii compact).1.append
        ((dumps_ascii compact item h.1).append (dumpsItems_ascii compact items h.2))

theorem dumpsMember_ascii (compact : Bool) : ∀ member : Str × JsonValue, PlainMember member →
    Ascii (dumpsMember compact member)
  | (key, value), h => by
      rw [dumpsMember]
      exact (dumpsString_ascii key).append
        ((separators_ascii compact).2.append (dumps_ascii compact value h.2))

theorem dumpsMembers_ascii (compact : Bool) : ∀ members : List (Str × JsonValue),
    PlainMembers members → Ascii (dumpsMembers compact members)
  | [], _ => by simp [dumpsMembers, Ascii]
  | member :: members, h => by
      rw [dumpsMembers]
      exact (separators_ascii compact).1.append
        ((dumpsMember_ascii compact member h.1).append (dumpsMembers_ascii compact members h.2))

end

end WheelForge.Python
