import Mathlib.Algebra.GroupWithZero.Nat
import WheelForge.Python.Text

/-!
# Times and their texts

`datetime.isoformat(timespec="microseconds")` and `datetime.fromisoformat`. The reader takes many
formats; the one that the writer uses is read here, and what the reader makes of any other text is a
parameter. A written time is read back (`fromisoformat_isoformat`).
-/

set_option autoImplicit false

namespace WheelForge.Python

/-! ## Times -/

def isLeapYear (year : Nat) : Bool := year % 4 = 0 && (year % 100 ≠ 0 || year % 400 = 0)

def daysInMonth (year month : Nat) : Nat :=
  if month = 2 then if isLeapYear year then 29 else 28
  else if month ∈ [4, 6, 9, 11] then 30
  else 31

/-- The range checks of `datetime`; the offset is in microseconds and shorter than a day. -/
structure ValidTime (year month day hour minute second microsecond : Nat) (offset : Option Int) :
    Prop where
  year_pos : 1 ≤ year
  year_le : year ≤ 9999
  month_pos : 1 ≤ month
  month_le : month ≤ 12
  day_pos : 1 ≤ day
  day_le : day ≤ daysInMonth year month
  hour_lt : hour < 24
  minute_lt : minute < 60
  second_lt : second < 60
  microsecond_lt : microsecond < 1000000
  offset_lt : ∀ o ∈ offset, o.natAbs < 86400000000

/-- A `datetime` with its `utcoffset()`; a naive one has none. -/
structure Datetime where
  year : Nat
  month : Nat
  day : Nat
  hour : Nat
  minute : Nat
  second : Nat
  microsecond : Nat
  offset : Option Int
  valid : ValidTime year month day hour minute second microsecond offset
deriving DecidableEq

instance (year month day hour minute second microsecond : Nat) (offset : Option Int) :
    Decidable (ValidTime year month day hour minute second microsecond offset) :=
  decidable_of_iff
    (1 ≤ year ∧ year ≤ 9999 ∧ 1 ≤ month ∧ month ≤ 12 ∧ 1 ≤ day ∧ day ≤ daysInMonth year month ∧
      hour < 24 ∧ minute < 60 ∧ second < 60 ∧ microsecond < 1000000 ∧
      ∀ o ∈ offset, o.natAbs < 86400000000)
    ⟨fun ⟨h₁, h₂, h₃, h₄, h₅, h₆, h₇, h₈, h₉, h₁₀, h₁₁⟩ =>
      ⟨h₁, h₂, h₃, h₄, h₅, h₆, h₇, h₈, h₉, h₁₀, h₁₁⟩,
     fun h => ⟨h.year_pos, h.year_le, h.month_pos, h.month_le, h.day_pos, h.day_le, h.hour_lt,
      h.minute_lt, h.second_lt, h.microsecond_lt, h.offset_lt⟩⟩

namespace Datetime

def isAware (t : Datetime) : Bool := t.offset.isSome

/-- `_ymd2ord`: the number of a day. -/
def ordinal (year month day : Nat) : Nat :=
  let before := year - 1
  before * 365 + before / 4 - before / 100 + before / 400 +
    ((List.range (month - 1)).map fun m => daysInMonth year (m + 1)).sum + day

/-- The microseconds up to the time, in its own offset. -/
def localInstant (t : Datetime) : Int :=
  (((ordinal t.year t.month t.day * 24 + t.hour) * 60 + t.minute) * 60 + t.second) * 1000000 +
    t.microsecond

/-- `first <= second`; `none` is the `TypeError` of a comparison of a naive with an aware time. -/
def le (first second : Datetime) : Option Bool :=
  match first.offset, second.offset with
  | none, none => some (decide (first.localInstant ≤ second.localInstant))
  | some o, some p => some (decide (first.localInstant - o ≤ second.localInstant - p))
  | _, _ => none

theorem le_isSome {first second : Datetime} (h : first.isAware = second.isAware) :
    (first.le second).isSome = true := by
  unfold isAware at h
  unfold le
  cases hf : first.offset <;> cases hs : second.offset <;> simp_all

end Datetime

/-! ## Writing -/

/-- `"%0*d" % (width, n)` for a number of at most `width` digits. -/
def padded : Nat → Nat → Text
  | 0, _ => []
  | width + 1, n => padded width (n / 10) ++ [(n % 10).digitChar]

/-- `_format_offset`. -/
def formatOffset : Option Int → Text
  | none => []
  | some o =>
      (if o < 0 then '-' else '+') :: (padded 2 (o.natAbs / 3600000000) ++
        ':' :: (padded 2 (o.natAbs / 60000000 % 60) ++
          if o.natAbs % 60000000 = 0 then []
          else ':' :: (padded 2 (o.natAbs / 1000000 % 60) ++
            if o.natAbs % 1000000 = 0 then [] else '.' :: padded 6 (o.natAbs % 1000000))))

/-- `t.isoformat(timespec="microseconds")`. -/
def isoformat (t : Datetime) : Text :=
  padded 4 t.year ++ '-' :: (padded 2 t.month ++ '-' :: (padded 2 t.day ++
    'T' :: (padded 2 t.hour ++ ':' :: (padded 2 t.minute ++ ':' :: (padded 2 t.second ++
      '.' :: (padded 6 t.microsecond ++ formatOffset t.offset))))))

/-! ## Reading -/

/-- A number of exactly `width` digits at the start of a text, and what follows it. -/
def readDigits (width : Nat) (text : Text) : Option (Nat × Text) :=
  if (text.take width).length = width ∧ (text.take width).all Char.isDigit = true then
    some (Nat.ofDigitChars 10 (text.take width) 0, text.drop width)
  else none

def expect (c : Char) : Text → Option Text
  | d :: rest => if c = d then some rest else none
  | [] => none

/-- `:SS` and `.ffffff` of an offset, in microseconds. -/
def readSeconds : Text → Option Nat
  | [] => some 0
  | text => do
      let rest ← expect ':' text
      let (second, rest) ← readDigits 2 rest
      if 60 ≤ second then none
      else
        match rest with
        | [] => return second * 1000000
        | rest => do
            let rest ← expect '.' rest
            let (microsecond, rest) ← readDigits 6 rest
            if rest = [] then return second * 1000000 + microsecond else none

/-- An offset as `formatOffset` writes it. -/
def readOffset : Text → Option (Option Int)
  | [] => some none
  | sign :: rest => do
      let (hour, rest) ← readDigits 2 rest
      let rest ← expect ':' rest
      let (minute, rest) ← readDigits 2 rest
      if 60 ≤ minute then none
      else
        let below ← readSeconds rest
        let size : Nat := (hour * 60 + minute) * 60000000 + below
        if sign = '+' then return some size
        else if sign = '-' then return some (-size)
        else none

/-- A text as `isoformat` writes it. -/
def readIsoformat (text : Text) : Option Datetime := do
  let (year, rest) ← readDigits 4 text
  let rest ← expect '-' rest
  let (month, rest) ← readDigits 2 rest
  let rest ← expect '-' rest
  let (day, rest) ← readDigits 2 rest
  let rest ← expect 'T' rest
  let (hour, rest) ← readDigits 2 rest
  let rest ← expect ':' rest
  let (minute, rest) ← readDigits 2 rest
  let rest ← expect ':' rest
  let (second, rest) ← readDigits 2 rest
  let rest ← expect '.' rest
  let (microsecond, rest) ← readDigits 6 rest
  let offset ← readOffset rest
  if h : ValidTime year month day hour minute second microsecond offset then
    return ⟨year, month, day, hour, minute, second, microsecond, offset, h⟩
  else none

/-- `datetime.fromisoformat(text)`; `other` is what it makes of the texts of any other format, and
`none` its `ValueError`. -/
def fromisoformat (other : Text → Option Datetime) (text : Text) : Option Datetime :=
  match readIsoformat text with
  | some t => some t
  | none => other text

/-! ## Reading back -/

@[simp] theorem padded_length (width n : Nat) : (padded width n).length = width := by
  induction width generalizing n with
  | zero => rfl
  | succ width ih => simp [padded, ih]

theorem padded_isDigit (width n : Nat) : ∀ c ∈ padded width n, c.isDigit = true := by
  induction width generalizing n with
  | zero => simp [padded]
  | succ width ih =>
      intro c hc
      rcases List.mem_append.1 hc with hc | hc
      · exact ih _ c hc
      · rw [List.mem_singleton.1 hc]
        rw [Nat.isDigit_digitChar]
        exact decide_eq_true (Nat.mod_lt n (by decide))

theorem ofDigitChars_padded {width n : Nat} (h : n < 10 ^ width) :
    Nat.ofDigitChars 10 (padded width n) 0 = n := by
  induction width generalizing n with
  | zero =>
      have hzero : n = 0 := by simpa using h
      rw [hzero]
      rfl
  | succ width ih =>
      have hdiv : n / 10 < 10 ^ width := by
        rw [Nat.pow_succ] at h
        omega
      rw [padded, Nat.ofDigitChars_append, ih hdiv,
        Nat.ofDigitChars_cons_digitChar_of_lt_ten (Nat.mod_lt n (by decide)), Nat.ofDigitChars_nil]
      exact Nat.div_add_mod n 10

@[simp] theorem readDigits_padded {width n : Nat} (h : n < 10 ^ width) (rest : Text) :
    readDigits width (padded width n ++ rest) = some (n, rest) := by
  have htake : (padded width n ++ rest).take width = padded width n :=
    List.take_left' (padded_length width n)
  have hdrop : (padded width n ++ rest).drop width = rest :=
    List.drop_left' (padded_length width n)
  unfold readDigits
  rw [htake, hdrop, if_pos ⟨padded_length width n, List.all_eq_true.2 (padded_isDigit width n)⟩,
    ofDigitChars_padded h]

@[simp] theorem expect_cons (c : Char) (rest : Text) : expect c (c :: rest) = some rest :=
  if_pos rfl

theorem readDigits_padded_nil {width n : Nat} (h : n < 10 ^ width) :
    readDigits width (padded width n) = some (n, []) := by
  have hread := readDigits_padded h []
  rwa [List.append_nil] at hread

/-- The seconds of an offset are read back from its size. -/
theorem readSeconds_format (size : Nat) :
    readSeconds (if size % 60000000 = 0 then []
      else ':' :: (padded 2 (size / 1000000 % 60) ++
        if size % 1000000 = 0 then [] else '.' :: padded 6 (size % 1000000))) =
      some (size % 60000000) := by
  have hsecond : size / 1000000 % 60 < 60 := Nat.mod_lt _ (by decide)
  by_cases hminute : size % 60000000 = 0
  · rw [if_pos hminute, hminute]
    rfl
  · rw [if_neg hminute]
    unfold readSeconds
    simp only [expect_cons, Option.bind_eq_bind, Option.bind_some,
      readDigits_padded (show size / 1000000 % 60 < 10 ^ 2 by omega),
      if_neg (Nat.not_le.2 hsecond)]
    by_cases hmicro : size % 1000000 = 0
    · simp only [if_pos hmicro, Option.pure_def]
      congr 1
      omega
    · simp only [if_neg hmicro, expect_cons, Option.bind_some,
        readDigits_padded_nil (show size % 1000000 < 10 ^ 6 by omega), if_true, Option.pure_def]
      congr 1
      omega

theorem readOffset_format {offset : Option Int} (h : ∀ o ∈ offset, o.natAbs < 86400000000) :
    readOffset (formatOffset offset) = some offset := by
  cases offset with
  | none => rfl
  | some o =>
      have hsize := h o rfl
      have hminute : o.natAbs / 60000000 % 60 < 60 := Nat.mod_lt _ (by decide)
      have htotal : (o.natAbs / 3600000000 * 60 + o.natAbs / 60000000 % 60) * 60000000 +
          o.natAbs % 60000000 = o.natAbs := by omega
      unfold formatOffset readOffset
      simp only [readDigits_padded (show o.natAbs / 3600000000 < 10 ^ 2 by omega),
        readDigits_padded (show o.natAbs / 60000000 % 60 < 10 ^ 2 by omega), expect_cons,
        Option.bind_eq_bind, Option.bind_some, if_neg (Nat.not_le.2 hminute), readSeconds_format,
        htotal, Option.pure_def]
      by_cases hneg : o < 0
      · rw [if_pos hneg, if_neg (by decide), if_pos rfl]
        congr 2
        omega
      · rw [if_neg hneg, if_pos rfl]
        congr 2
        omega

theorem readIsoformat_isoformat (t : Datetime) : readIsoformat (isoformat t) = some t := by
  obtain ⟨year, month, day, hour, minute, second, microsecond, offset, h⟩ := t
  have hday : day ≤ 31 := by
    have hle := h.day_le
    unfold daysInMonth at hle
    split at hle
    · split at hle <;> omega
    · split at hle <;> omega
  have hyear := h.year_le
  have hmonth := h.month_le
  have hhour := h.hour_lt
  have hminute := h.minute_lt
  have hsecond := h.second_lt
  have hmicrosecond := h.microsecond_lt
  unfold isoformat readIsoformat
  -- field by field: a number, and the separator after it
  rw [readDigits_padded (show year < 10 ^ 4 by omega), Option.bind_eq_bind, Option.bind_some]
  dsimp only
  rw [expect_cons, Option.bind_eq_bind, Option.bind_some,
    readDigits_padded (show month < 10 ^ 2 by omega), Option.bind_some]
  dsimp only
  rw [expect_cons, Option.bind_some, readDigits_padded (show day < 10 ^ 2 by omega),
    Option.bind_some]
  dsimp only
  rw [expect_cons, Option.bind_some, readDigits_padded (show hour < 10 ^ 2 by omega),
    Option.bind_some]
  dsimp only
  rw [expect_cons, Option.bind_some, readDigits_padded (show minute < 10 ^ 2 by omega),
    Option.bind_some]
  dsimp only
  rw [expect_cons, Option.bind_some, readDigits_padded (show second < 10 ^ 2 by omega),
    Option.bind_some]
  dsimp only
  rw [expect_cons, Option.bind_some, readDigits_padded (show microsecond < 10 ^ 6 by omega),
    Option.bind_some]
  dsimp only
  rw [readOffset_format h.offset_lt, Option.bind_eq_bind, Option.bind_some, dif_pos h,
    Option.pure_def]

/-- A written time is read back. -/
theorem fromisoformat_isoformat (other : Text → Option Datetime) (t : Datetime) :
    fromisoformat other (isoformat t) = some t := by
  unfold fromisoformat
  rw [readIsoformat_isoformat]

end WheelForge.Python
