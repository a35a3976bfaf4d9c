import Mathlib.Data.List.Basic
import WheelForge.Python.Text

/-!
# Python's `json`

`json.dumps(.., ensure_ascii=True)` and `json.loads` on texts. A string is a list of code points,
surrogates included; a text that is written is ASCII, so that its length is its size in bytes.
`loads_dumps` reads a value back from its text unless two of its code points are a surrogate pair.
Only `RecursionError` is left out: a value may be nested to any depth.
-/

set_option autoImplicit false

namespace WheelForge.Python

/-! ## Strings -/

/-- A character of a `str`. -/
abbrev CodePoint := Fin 0x110000

instance : LawfulBEq CodePoint := inferInstance

/-- A `str`. -/
abbrev Str := List CodePoint

namespace CodePoint

def ofChar (c : Char) : CodePoint := ⟨c.toNat, by
  have hvalid := c.valid
  unfold UInt32.isValidChar Nat.isValidChar at hvalid
  have heq : c.toNat = c.val.toNat := rfl
  omega⟩

def isHighSurrogate (c : CodePoint) : Bool := 0xd800 ≤ c.val && c.val ≤ 0xdbff

def isLowSurrogate (c : CodePoint) : Bool := 0xdc00 ≤ c.val && c.val ≤ 0xdfff

/-- A code point beyond the first plane is written as a surrogate pair. -/
def units (c : CodePoint) : Str :=
  if c.val < 0x10000 then [c]
  else
    [⟨0xd800 + (c.val - 0x10000) / 0x400, by omega⟩, ⟨0xdc00 + (c.val - 0x10000) % 0x400, by omega⟩]

/-- The code point of a surrogate pair. -/
def join (high low : CodePoint) : CodePoint :=
  ⟨0x10000 + (high.val - 0xd800) % 0x400 * 0x400 + (low.val - 0xdc00) % 0x400, by omega⟩

end CodePoint

/-- The code points of a text. -/
def Str.ofText (text : Text) : Str := text.map CodePoint.ofChar

/-- The code points of a string literal. -/
def Str.ofString (s : String) : Str := Str.ofText s.toList

/-- What the reader makes of adjacent surrogates. -/
def joinSurrogates : Str → Str
  | high :: low :: rest =>
      if high.isHighSurrogate && low.isLowSurrogate then
        CodePoint.join high low :: joinSurrogates rest
      else high :: joinSurrogates (low :: rest)
  | short => short

/-- No surrogate pair stands in the string. -/
def NoPair (s : Str) : Prop :=
  s.IsChain fun a b => ¬(a.isHighSurrogate = true ∧ b.isLowSurrogate = true)

theorem noPair_of_forall {s : Str} (h : ∀ c ∈ s, c.isHighSurrogate = false) : NoPair s := by
  have hpairwise : s.Pairwise fun a b =>
      ¬(a.isHighSurrogate = true ∧ b.isLowSurrogate = true) := by
    apply List.pairwise_of_forall_mem_list
    intro a ha b _ hpair
    rw [h a ha] at hpair
    exact Bool.false_ne_true hpair.1
  exact hpairwise.isChain

theorem joinSurrogates_units {s : Str} (h : NoPair s) :
    joinSurrogates (s.flatMap CodePoint.units) = s := by
  -- a code point is followed by no low surrogate that it could pair with
  have hcons : ∀ (c : CodePoint) (rest : Str), NoPair (c :: rest) →
      joinSurrogates (rest.flatMap CodePoint.units) = rest →
      joinSurrogates (c :: rest.flatMap CodePoint.units) = c :: rest := by
    intro c rest hpair hrest
    cases rest with
    | nil => rfl
    | cons d rest =>
        rw [List.flatMap_cons] at hrest ⊢
        by_cases hd : d.val < 0x10000
        · have hunits : d.units = [d] := if_pos hd
          rw [hunits, List.singleton_append] at hrest ⊢
          have hnot := (List.isChain_cons_cons.1 hpair).1
          rw [joinSurrogates, if_neg (by simpa using hnot), hrest]
        · have hunits : d.units = [⟨0xd800 + (d.val - 0x10000) / 0x400, by omega⟩,
              ⟨0xdc00 + (d.val - 0x10000) % 0x400, by omega⟩] := if_neg hd
          rw [hunits, List.cons_append] at hrest ⊢
          -- the first half of a pair is no low surrogate
          have hlow : CodePoint.isLowSurrogate ⟨0xd800 + (d.val - 0x10000) / 0x400, by omega⟩ =
              false := by
            unfold CodePoint.isLowSurrogate
            have hlt : ¬ 0xdc00 ≤ 0xd800 + (d.val - 0x10000) / 0x400 := by omega
            simp [hlt]
          rw [joinSurrogates, hlow, Bool.and_false, if_neg Bool.false_ne_true, hrest]
  induction s with
  | nil => rfl
  | cons c rest ih =>
      have hrest := ih (List.IsChain.of_cons h)
      rw [List.flatMap_cons]
      by_cases hc : c.val < 0x10000
      · have hunits : c.units = [c] := if_pos hc
        rw [hunits]
        exact hcons c rest h hrest
      · have hunits : c.units = [⟨0xd800 + (c.val - 0x10000) / 0x400, by omega⟩,
            ⟨0xdc00 + (c.val - 0x10000) % 0x400, by omega⟩] := if_neg hc
        have hjoin : CodePoint.join ⟨0xd800 + (c.val - 0x10000) / 0x400, by omega⟩
            ⟨0xdc00 + (c.val - 0x10000) % 0x400, by omega⟩ = c := by
          apply Fin.ext
          unfold CodePoint.join
          dsimp only
          omega
        rw [hunits, List.cons_append, List.singleton_append, joinSurrogates, if_pos, hrest, hjoin]
        simp only [CodePoint.isHighSurrogate, CodePoint.isLowSurrogate, Bool.and_eq_true,
          decide_eq_true_eq]
        omega

/-! ## Values -/

/-- What `json.loads` returns: a number with a fraction or an exponent, `NaN` or an infinity is a
float, known here by its literal. -/
inductive JsonValue where
  | null
  | bool (b : Bool)
  | int (n : Int)
  | float (literal : Text)
  | string (s : Str)
  | array (items : List JsonValue)
  | object (members : List (Str × JsonValue))

/-! ### Writing -/

/-- Four hexadecimal digits. -/
def hexDigits (n : Nat) : Text :=
  [(n / 4096 % 16).digitChar, (n / 256 % 16).digitChar, (n / 16 % 16).digitChar, (n % 16).digitChar]

/-- The short escapes, with the code points that they stand for. -/
def shortEscapes : List (CodePoint × Char) :=
  [(0x22, '"'), (0x5c, '\\'), (0x0a, 'n'), (0x0d, 'r'), (0x09, 't'), (0x0c, 'f'), (0x08, 'b')]

/-- How a code point of the first plane is written. -/
def escapeUnit (c : CodePoint) : Text :=
  match shortEscapes.lookup c with
  | some letter => ['\\', letter]
  | none =>
      if 0x20 ≤ c.val ∧ c.val ≤ 0x7e then [Char.ofNat c.val] else '\\' :: 'u' :: hexDigits c.val

/-- `json.dumps(s)` without the quotes. -/
def escapeString (s : Str) : Text := (s.flatMap CodePoint.units).flatMap escapeUnit

def dumpsString (s : Str) : Text := '"' :: (escapeString s ++ ['"'])

/-- `str(n)`. -/
def dumpsInt (n : Int) : Text :=
  if n < 0 then '-' :: Nat.toDigits 10 n.natAbs else Nat.toDigits 10 n.natAbs

/-- `separators`: `(",", ":")` or the default `(", ", ": ")`. -/
def itemSeparator (compact : Bool) : Text := if compact then [','] else [',', ' ']

def keySeparator (compact : Bool) : Text := if compact then [':'] else [':', ' ']

mutual

/-- `json.dumps(value, ensure_ascii=True)`. -/
def dumps (compact : Bool) : JsonValue → Text
  | .null => ['n', 'u', 'l', 'l']
  | .bool true => ['t', 'r', 'u', 'e']
  | .bool false => ['f', 'a', 'l', 's', 'e']
  | .int n => dumpsInt n
  | .float literal => literal
  | .string s => dumpsString s
  | .array [] => ['[', ']']
  | .array (item :: items) => '[' :: (dumps compact item ++ dumpsItems compact items)
  | .object [] => ['\x7b', '\x7d']
  | .object (member :: members) =>
      '\x7b' :: (dumpsMember compact member ++ dumpsMembers compact members)
termination_by structural value => value

/-- The further items of an array, with the bracket. -/
def dumpsItems (compact : Bool) : List JsonValue → Text
  | [] => [']']
  | item :: items => itemSeparator compact ++ (dumps compact item ++ dumpsItems compact items)
termination_by structural items => items

def dumpsMember (compact : Bool) : Str × JsonValue → Text
  | (key, value) => dumpsString key ++ (keySeparator compact ++ dumps compact value)
termination_by structural member => member

/-- The further members of an object, with the brace. -/
def dumpsMembers (compact : Bool) : List (Str × JsonValue) → Text
  | [] => ['\x7d']
  | member :: members =>
      itemSeparator compact ++ (dumpsMember compact member ++ dumpsMembers compact members)
termination_by structural members => members

end

/-! ### Reading -/

/-- What `json.loads` raises: `JSONDecodeError`, or the `ValueError` of an integer with more than
4300 digits. -/
inductive JsonError where
  | decode
  | digits
deriving DecidableEq, Repr

def hexValue (c : Char) : Option Nat :=
  if '0' ≤ c ∧ c ≤ '9' then some (c.toNat - '0'.toNat)
  else if 'a' ≤ c ∧ c ≤ 'f' then some (c.toNat - 'a'.toNat + 10)
  else if 'A' ≤ c ∧ c ≤ 'F' then some (c.toNat - 'A'.toNat + 10)
  else none

/-- The code point of four hexadecimal digits. -/
def hexUnit (a b c d : Char) : Option CodePoint := do
  let a ← hexValue a
  let b ← hexValue b
  let c ← hexValue c
  let d ← hexValue d
  return ⟨(((a % 16) * 16 + b % 16) * 16 + c % 16) * 16 + d % 16, by omega⟩

/-- The code point of a short escape. -/
def escapeValue (c : Char) : Option CodePoint :=
  if c = '"' then some 0x22
  else if c = '\\' then some 0x5c
  else if c = '/' then some 0x2f
  else if c = 'b' then some 0x08
  else if c = 'f' then some 0x0c
  else if c = 'n' then some 0x0a
  else if c = 'r' then some 0x0d
  else if c = 't' then some 0x09
  else none

/-- The string after its opening quote, as `py_scanstring` reads it, and what follows the closing
one; the surrogates are not yet joined. -/
def scanUnits : Text → Except JsonError (Str × Text)
  | [] => .error .decode
  | '"' :: rest => .ok ([], rest)
  | '\\' :: 'u' :: a :: b :: c :: d :: rest => do
      match hexUnit a b c d with
      | none => .error .decode
      | some unit =>
          let (units, rest) ← scanUnits rest
          return (unit :: units, rest)
  | '\\' :: c :: rest => do
      match escapeValue c with
      | none => .error .decode
      | some unit =>
          let (units, rest) ← scanUnits rest
          return (unit :: units, rest)
  | c :: rest => do
      if c.toNat < 0x20 then .error .decode
      else
        let (units, rest) ← scanUnits rest
        return (CodePoint.ofChar c :: units, rest)

def scanString (text : Text) : Except JsonError (Str × Text) := do
  let (units, rest) ← scanUnits text
  return (joinSurrogates units, rest)

def isBlank (c : Char) : Bool := c ∈ [' ', '\t', '\n', '\r']

def skipBlank (text : Text) : Text := text.dropWhile isBlank

/-- The digits at the start of a text. -/
def spanDigits (text : Text) : Text × Text :=
  (text.takeWhile Char.isDigit, text.dropWhile Char.isDigit)

/-- `(\.[0-9]+)?` -/
def scanFraction : Text → Text × Text
  | '.' :: rest =>
      match spanDigits rest with
      | ([], _) => ([], '.' :: rest)
      | (digits, rest) => ('.' :: digits, rest)
  | text => ([], text)

/-- `([eE][-+]?[0-9]+)?` -/
def scanExponent : Text → Text × Text
  | [] => ([], [])
  | e :: rest =>
      if e ≠ 'e' ∧ e ≠ 'E' then ([], e :: rest)
      else
        let sign := match rest with
          | c :: _ => if c = '-' ∨ c = '+' then [c] else []
          | [] => []
        match spanDigits (rest.drop sign.length) with
        | ([], _) => ([], e :: rest)
        | (digits, rest) => (e :: (sign ++ digits), rest)

/-- `0|[1-9][0-9]*` -/
def scanWhole : Text → Option (Text × Text)
  | [] => none
  | '0' :: rest => some (['0'], rest)
  | c :: rest => if c.isDigit then some (spanDigits (c :: rest)) else none

/-- `sys.get_int_max_str_digits()`. -/
def maxIntDigits : Nat := 4300

def scanNumber (text : Text) : Except JsonError (JsonValue × Text) :=
  let sign := if text.head? = some '-' then ['-'] else []
  match scanWhole (text.drop sign.length) with
  | none => .error .decode
  | some (whole, rest) =>
      let (fraction, rest) := scanFraction rest
      let (exponent, rest) := scanExponent rest
      if fraction ++ exponent = [] then
        if maxIntDigits < whole.length then .error .digits
        else
          let n : Int := Nat.ofDigitChars 10 whole 0
          .ok (.int (if sign = [] then n else -n), rest)
      else .ok (.float (sign ++ whole ++ fraction ++ exponent), rest)

mutual

/-- `scan_once`; the first argument bounds the values that are read. -/
def scanValue : Nat → Text → Except JsonError (JsonValue × Text)
  | 0, _ => .error .decode
  | fuel + 1, text =>
      match text with
      | '"' :: rest => do
          let (s, rest) ← scanString rest
          return (.string s, rest)
      | '\x7b' :: rest =>
          match skipBlank rest with
          | '\x7d' :: rest => .ok (.object [], rest)
          | rest => do
              let (members, rest) ← scanMembers fuel rest
              return (.object members, rest)
      | '[' :: rest =>
          match skipBlank rest with
          | ']' :: rest => .ok (.array [], rest)
          | rest => do
              let (items, rest) ← scanItems fuel rest
              return (.array items, rest)
      | 'n' :: 'u' :: 'l' :: 'l' :: rest => .ok (.null, rest)
      | 't' :: 'r' :: 'u' :: 'e' :: rest => .ok (.bool true, rest)
      | 'f' :: 'a' :: 'l' :: 's' :: 'e' :: rest => .ok (.bool false, rest)
      | 'N' :: 'a' :: 'N' :: rest => .ok (.float "NaN".toList, rest)
      | 'I' :: 'n' :: 'f' :: 'i' :: 'n' :: 'i' :: 't' :: 'y' :: rest =>
          .ok (.float "Infinity".toList, rest)
      | '-' :: 'I' :: 'n' :: 'f' :: 'i' :: 'n' :: 'i' :: 't' :: 'y' :: rest =>
          .ok (.float "-Infinity".toList, rest)
      | text => scanNumber text

/-- The items of an array up to its bracket. -/
def scanItems : Nat → Text → Except JsonError (List JsonValue × Text)
  | 0, _ => .error .decode
  | fuel + 1, text => do
      let (item, rest) ← scanValue fuel text
      match skipBlank rest with
      | ']' :: rest => return ([item], rest)
      | ',' :: rest =>
          let (items, rest) ← scanItems fuel (skipBlank rest)
          return (item :: items, rest)
      | _ => .error .decode

/-- The members of an object up to its brace. -/
def scanMembers : Nat → Text → Except JsonError (List (Str × JsonValue) × Text)
  | 0, _ => .error .decode
  | fuel + 1, text =>
      match text with
      | '"' :: rest => do
          let (key, rest) ← scanString rest
          match skipBlank rest with
          | ':' :: rest =>
              let (value, rest) ← scanValue fuel (skipBlank rest)
              match skipBlank rest with
              | '\x7d' :: rest => return ([(key, value)], rest)
              | ',' :: rest =>
                  let (members, rest) ← scanMembers fuel (skipBlank rest)
                  return ((key, value) :: members, rest)
              | _ => .error .decode
          | _ => .error .decode
      | _ => .error .decode

end

/-- `json.loads(text)`. Every value and every item of a value takes a character, so that twice the
length of the text bounds them. -/
def loads (text : Text) : Except JsonError JsonValue := do
  let (value, rest) ← scanValue (2 * text.length) (skipBlank text)
  if skipBlank rest = [] then return value else .error .decode

/-- `value.get(key)` of a dict; the last of several members has the key. -/
def JsonValue.get? : JsonValue → Str → Option JsonValue
  | .object members, key => (members.reverse.find? (·.1 = key)).map Prod.snd
  | _, _ => none

/-! ## Reading back -/

/-! ### Strings -/

theorem hexValue_digitChar : ∀ d < 16, hexValue d.digitChar = some d := by decide

theorem hexUnit_hexDigits {c : CodePoint} (h : c.val < 0x10000) :
    hexUnit (c.val / 4096 % 16).digitChar (c.val / 256 % 16).digitChar
      (c.val / 16 % 16).digitChar (c.val % 16).digitChar = some c := by
  unfold hexUnit
  rw [hexValue_digitChar _ (Nat.mod_lt _ (by omega)),
    hexValue_digitChar _ (Nat.mod_lt _ (by omega)),
    hexValue_digitChar _ (Nat.mod_lt _ (by omega)),
    hexValue_digitChar _ (Nat.mod_lt _ (by omega))]
  show some _ = some c
  congr 1
  apply Fin.ext
  dsimp only
  omega

theorem units_lt {c d : CodePoint} (h : d ∈ c.units) : d.val < 0x10000 := by
  unfold CodePoint.units at h
  split at h
  · next hc =>
      rw [List.mem_singleton.1 h]
      exact hc
  · rcases List.mem_pair.1 h with rfl | rfl
    · dsimp only
      omega
    · dsimp only
      omega

/-- The letter of a short escape is read as its code point. -/
theorem escapeValue_shortEscape {c : CodePoint} {letter : Char}
    (h : shortEscapes.lookup c = some letter) : letter ≠ 'u' ∧ escapeValue letter = some c := by
  have hall : ∀ escape ∈ shortEscapes, escape.2 ≠ 'u' ∧ escapeValue escape.2 = some escape.1 := by
    decide
  obtain ⟨before, after, hsplit, -⟩ := List.lookup_eq_some_iff.1 h
  exact hall (c, letter) (by simp [hsplit])

theorem scanUnits_escapeUnit {c : CodePoint} (hc : c.val < 0x10000) {rest tail : Text} {units : Str}
    (h : scanUnits rest = .ok (units, tail)) :
    scanUnits (escapeUnit c ++ rest) = .ok (c :: units, tail) := by
  unfold escapeUnit
  split
  · next letter hletter =>
      obtain ⟨hu, hvalue⟩ := escapeValue_shortEscape hletter
      show scanUnits ('\\' :: letter :: rest) = _
      rw [scanUnits]
      · rw [hvalue, h]
        rfl
      · rintro a b c d rest rfl
        exact absurd rfl hu
  · next hnone =>
      split
      · next hrange =>
          have hnat : (Char.ofNat c.val).toNat = c.val := by
            have hvalid : c.val.isValidChar := .inl (by omega)
            rw [Char.ofNat, dif_pos hvalid]
            rfl
          have hchar : CodePoint.ofChar (Char.ofNat c.val) = c := Fin.ext hnat
          have hne : ∀ d, shortEscapes.lookup (CodePoint.ofChar d) ≠ none →
              Char.ofNat c.val ≠ d := by
            rintro d hd rfl
            rw [hchar] at hd
            exact hd hnone
          show scanUnits (Char.ofNat c.val :: rest) = _
          rw [scanUnits, if_neg, h]
          · show Except.ok (CodePoint.ofChar (Char.ofNat c.val) :: units, tail) = _
            rw [hchar]
          · rw [hnat]
            omega
          · exact hne '"' (by decide)
          · intro _ _ _ _ _ heq
            exact absurd heq (hne '\\' (by decide))
          · intro _ _ heq
            exact absurd heq (hne '\\' (by decide))
      · show scanUnits ('\\' :: 'u' :: (c.val / 4096 % 16).digitChar ::
          (c.val / 256 % 16).digitChar :: (c.val / 16 % 16).digitChar ::
          (c.val % 16).digitChar :: rest) = _
        rw [scanUnits, hexUnit_hexDigits hc, h]
        rfl

theorem scanString_escapeString {s : Str} (h : NoPair s) (rest : Text) :
    scanString (escapeString s ++ '"' :: rest) = .ok (s, rest) := by
  have hunits : ∀ units : Str, (∀ c ∈ units, c.val < 0x10000) →
      scanUnits (units.flatMap escapeUnit ++ '"' :: rest) = .ok (units, rest) := by
    intro units hlt
    induction units with
    | nil => rfl
    | cons c units ih =>
        rw [List.flatMap_cons, List.append_assoc]
        exact scanUnits_escapeUnit (hlt c List.mem_cons_self)
          (ih fun d hd => hlt d (List.mem_cons_of_mem _ hd))
  unfold scanString escapeString
  rw [hunits]
  · show Except.ok (joinSurrogates (s.flatMap CodePoint.units), rest) = _
    rw [joinSurrogates_units h]
  · intro c hc
    obtain ⟨d, -, hd⟩ := List.mem_flatMap.1 hc
    exact units_lt hd

/-! ### Integers -/

/-- What may follow a value inside another one, or nothing. -/
def Delimited (rest : Text) : Prop := ∀ c ∈ rest.head?, c = ',' ∨ c = ']' ∨ c = '\x7d'

/-- The digits of a positive number do not begin with a zero. -/
theorem toDigits_head {n : Nat} (h : 0 < n) :
    ∃ c digits, Nat.toDigits 10 n = c :: digits ∧ c ≠ '0' := by
  induction n using Nat.strongRecOn with
  | ind n ih =>
      by_cases hlt : n < 10
      · have hdigit : ∀ d < 10, 0 < d → Nat.digitChar d ≠ '0' := by decide
        exact ⟨_, [], Nat.toDigits_of_lt_base hlt, hdigit n hlt h⟩
      · obtain ⟨c, digits, heq, hc⟩ := ih (n / 10) (by omega) (by omega)
        refine ⟨c, digits ++ [Nat.digitChar (n % 10)], ?_, hc⟩
        rw [Nat.toDigits_of_base_le (by omega) (by omega), heq]
        rfl

theorem isDigit_toDigits {n : Nat} : ∀ c ∈ Nat.toDigits 10 n, c.isDigit = true :=
  fun _ hc => Nat.isDigit_of_mem_toDigits (by omega) (by omega) hc

theorem Delimited.not_digit {rest : Text} (h : Delimited rest) :
    ∀ c ∈ rest.head?, c.isDigit = false := by
  intro c hc
  rcases h c hc with rfl | rfl | rfl <;> decide

theorem spanDigits_append {digits rest : Text} (hdigits : ∀ c ∈ digits, c.isDigit = true)
    (hrest : ∀ c ∈ rest.head?, c.isDigit = false) :
    spanDigits (digits ++ rest) = (digits, rest) := by
  unfold spanDigits
  rw [List.takeWhile_append_of_pos hdigits, List.dropWhile_append_of_pos hdigits]
  cases rest with
  | nil => simp
  | cons c rest => simp [hrest c rfl]

theorem scanWhole_toDigits {n : Nat} {rest : Text} (h : Delimited rest) :
    scanWhole (Nat.toDigits 10 n ++ rest) = some (Nat.toDigits 10 n, rest) := by
  rcases Nat.eq_zero_or_pos n with rfl | hpos
  · rfl
  · obtain ⟨c, digits, heq, hc⟩ := toDigits_head hpos
    have hdigits := isDigit_toDigits (n := n)
    rw [heq] at hdigits ⊢
    rw [List.cons_append, scanWhole, if_pos (hdigits c List.mem_cons_self), ← List.cons_append,
      spanDigits_append hdigits h.not_digit]
    exact hc

theorem scanFraction_delimited {rest : Text} (h : Delimited rest) :
    scanFraction rest = ([], rest) := by
  cases rest with
  | nil => rfl
  | cons c rest =>
      rcases h c rfl with rfl | rfl | rfl <;> rfl

theorem scanExponent_delimited {rest : Text} (h : Delimited rest) :
    scanExponent rest = ([], rest) := by
  cases rest with
  | nil => rfl
  | cons c rest =>
      rcases h c rfl with rfl | rfl | rfl <;> rfl

theorem scanNumber_dumpsInt {n : Int} {rest : Text} (h : Delimited rest)
    (hdigits : (Nat.toDigits 10 n.natAbs).length ≤ maxIntDigits) :
    scanNumber (dumpsInt n ++ rest) = .ok (.int n, rest) := by
  have hhead : ∃ c digits, Nat.toDigits 10 n.natAbs = c :: digits ∧ c ≠ '-' := by
    cases heq : Nat.toDigits 10 n.natAbs with
    | nil => exact absurd heq Nat.toDigits_ne_nil
    | cons c digits =>
        refine ⟨c, digits, rfl, ?_⟩
        rintro rfl
        have hc := isDigit_toDigits (n := n.natAbs) '-' (by simp [heq])
        revert hc
        decide
  obtain ⟨c, digits, heq, hc⟩ := hhead
  unfold scanNumber dumpsInt
  by_cases hneg : n < 0
  · rw [if_pos hneg]
    simp only [List.cons_append, List.head?_cons, if_true, List.length_singleton,
      List.drop_succ_cons, List.drop_zero, scanWhole_toDigits h, scanFraction_delimited h, scanExponent_delimited h,
      List.append_nil, Nat.ofDigitChars_ten_toDigits]
    rw [if_neg (by omega), if_neg (by simp)]
    congr 3
    omega
  · rw [if_neg hneg]
    have hsign : (Nat.toDigits 10 n.natAbs ++ rest).head? ≠ some '-' := by
      rw [heq]
      simpa using hc
    simp only [hsign, if_false, List.length_nil, List.drop_zero, scanWhole_toDigits h,
      scanFraction_delimited h, scanExponent_delimited h, List.append_nil, if_true,
      Nat.ofDigitChars_ten_toDigits]
    rw [if_neg (by omega)]
    congr 3
    omega

/-! ### Values -/

mutual

/-- A value that is read as it was written: its strings hold no surrogate pairs, its integers have
no more digits than Python reads, and it has no float. -/
def JsonValue.Plain : JsonValue → Prop
  | .null | .bool _ => True
  | .int n => (Nat.toDigits 10 n.natAbs).length ≤ maxIntDigits
  | .float _ => False
  | .string s => NoPair s
  | .array items => PlainItems items
  | .object members => PlainMembers members
termination_by structural value => value

def PlainItems : List JsonValue → Prop
  | [] => True
  | item :: items => item.Plain ∧ PlainItems items
termination_by structural items => items

def PlainMember : Str × JsonValue → Prop
  | (key, value) => NoPair key ∧ value.Plain
termination_by structural member => member

def PlainMembers : List (Str × JsonValue) → Prop
  | [] => True
  | member :: members => PlainMember member ∧ PlainMembers members
termination_by structural members => members

end

mutual

/-- The bound with which a value is read. -/
def JsonValue.fuel : JsonValue → Nat
  | .array items => 1 + fuelItems items
  | .object members => 1 + fuelMembers members
  | _ => 1
termination_by structural value => value

def fuelItems : List JsonValue → Nat
  | [] => 0
  | item :: items => 1 + item.fuel + fuelItems items
termination_by structural items => items

def fuelMember : Str × JsonValue → Nat
  | (_, value) => value.fuel
termination_by structural member => member

def fuelMembers : List (Str × JsonValue) → Nat
  | [] => 0
  | member :: members => 1 + fuelMember member + fuelMembers members
termination_by structural members => members

end

/-- The first character of a value. -/
def startsValue (c : Char) : Bool :=
  c ∈ ['"', '\x7b', '[', 'n', 't', 'f', '-'] || c.isDigit

theorem startsValue_spec {c : Char} (h : startsValue c = true) :
    isBlank c = false ∧ c ≠ ']' ∧ c ≠ '\x7d' := by
  have hdigit : ∀ d : Char, d.isDigit = false → c.isDigit = true → c ≠ d := by
    rintro d hd hc rfl
    rw [hd] at hc
    cases hc
  unfold startsValue at h
  rw [Bool.or_eq_true] at h
  rcases h with h | h
  · have hall : (['"', '\x7b', '[', 'n', 't', 'f', '-'].all fun d =>
        !isBlank d && d != ']' && d != '\x7d') = true := by decide +kernel
    have hc := List.all_eq_true.1 hall c (of_decide_eq_true h)
    simp at hc
    exact ⟨hc.1.1, hc.1.2, hc.2⟩
  · refine ⟨?_, hdigit _ rfl h, hdigit _ rfl h⟩
    unfold isBlank
    have hne := hdigit ' ' rfl h
    have hne' := hdigit '\t' rfl h
    have hne'' := hdigit '\n' rfl h
    have hne''' := hdigit '\r' rfl h
    simp [hne, hne', hne'', hne''']

theorem dumpsInt_starts (n : Int) : ∃ c rest, dumpsInt n = c :: rest ∧
    (c = '-' ∧ rest.head?.any Char.isDigit = true ∨ c.isDigit = true) := by
  unfold dumpsInt
  cases heq : Nat.toDigits 10 n.natAbs with
  | nil => exact absurd heq Nat.toDigits_ne_nil
  | cons d digits =>
      have hd : d.isDigit = true := isDigit_toDigits (n := n.natAbs) d (by simp [heq])
      split
      · exact ⟨'-', d :: digits, rfl, .inl ⟨rfl, hd⟩⟩
      · exact ⟨d, digits, rfl, .inr hd⟩

theorem dumps_starts (compact : Bool) {value : JsonValue} (h : value.Plain) :
    ∃ c rest, dumps compact value = c :: rest ∧ startsValue c = true := by
  cases value with
  | null => exact ⟨_, _, rfl, rfl⟩
  | bool b => cases b <;> exact ⟨_, _, rfl, rfl⟩
  | int n =>
      obtain ⟨c, rest, heq, hc⟩ := dumpsInt_starts n
      refine ⟨c, rest, heq, ?_⟩
      rcases hc with ⟨rfl, -⟩ | hc
      · rfl
      · simp [startsValue, hc]
  | float literal => exact h.elim
  | string s => exact ⟨_, _, rfl, rfl⟩
  | array items => cases items <;> exact ⟨_, _, rfl, rfl⟩
  | object members => cases members <;> exact ⟨_, _, rfl, rfl⟩

/-- Nothing is skipped before a value. -/
theorem skipBlank_dumps (compact : Bool) {value : JsonValue} (h : value.Plain) (rest : Text) :
    skipBlank (dumps compact value ++ rest) = dumps compact value ++ rest := by
  obtain ⟨c, tail, heq, hc⟩ := dumps_starts compact h
  rw [heq, List.cons_append]
  unfold skipBlank
  rw [List.dropWhile_cons_of_neg (by simp [(startsValue_spec hc).1])]

theorem scanValue_int {n : Int} {fuel : Nat} {rest : Text} (h : Delimited rest)
    (hdigits : (Nat.toDigits 10 n.natAbs).length ≤ maxIntDigits) :
    scanValue (fuel + 1) (dumpsInt n ++ rest) = .ok (.int n, rest) := by
  rw [← scanNumber_dumpsInt h hdigits]
  obtain ⟨c, tail, heq, hc⟩ := dumpsInt_starts n
  rw [heq, List.cons_append]
  have hne : ∀ d : Char, d.isDigit = false → d ≠ '-' → c ≠ d := by
    rintro d hd hminus rfl
    rcases hc with ⟨hc, -⟩ | hc
    · exact hminus hc
    · rw [hd] at hc
      cases hc
  rw [scanValue]
  case x_10 =>
    -- the minus of an infinity is followed by no digit
    intro more heq
    obtain ⟨rfl, htail⟩ := List.cons.inj heq
    rcases hc with ⟨-, hc⟩ | hc
    · cases tail with
      | nil => cases hc
      | cons d tail =>
          obtain ⟨rfl, -⟩ := List.cons.inj htail
          cases hc
    · cases hc
  all_goals
    intro more heq
    exact hne _ rfl (by decide) (List.cons.inj heq).1

theorem fuel_pos (value : JsonValue) : 0 < value.fuel := by
  cases value <;>
  · simp only [JsonValue.fuel]
    omega

/-- An array that does not begin with its bracket has items. -/
theorem scanValue_array {c : Char} (hblank : isBlank c = false) (hc : c ≠ ']') (fuel : Nat)
    (text : Text) :
    scanValue (fuel + 1) ('[' :: c :: text) = do
      let (items, rest) ← scanItems fuel (c :: text)
      return (.array items, rest) := by
  have hskip : skipBlank (c :: text) = c :: text := List.dropWhile_cons_of_neg (by simp [hblank])
  rw [scanValue, hskip]
  split
  · next heq => exact absurd (List.cons.inj heq).1 hc
  · rfl

/-- An object that does not begin with its brace has members. -/
theorem scanValue_object {c : Char} (hblank : isBlank c = false) (hc : c ≠ '\x7d') (fuel : Nat)
    (text : Text) :
    scanValue (fuel + 1) ('\x7b' :: c :: text) = do
      let (members, rest) ← scanMembers fuel (c :: text)
      return (.object members, rest) := by
  have hskip : skipBlank (c :: text) = c :: text := List.dropWhile_cons_of_neg (by simp [hblank])
  rw [scanValue, hskip]
  split
  · next heq => exact absurd (List.cons.inj heq).1 hc
  · rfl

theorem delimited_items (compact : Bool) (items : List JsonValue) (rest : Text) :
    Delimited (dumpsItems compact items ++ rest) := by
  intro c hc
  cases items with
  | nil =>
      cases hc
      exact .inr (.inl rfl)
  | cons item items =>
      cases compact <;>
      · cases hc
        exact .inl rfl

theorem delimited_members (compact : Bool) (members : List (Str × JsonValue)) (rest : Text) :
    Delimited (dumpsMembers compact members ++ rest) := by
  intro c hc
  cases members with
  | nil =>
      cases hc
      exact .inr (.inr rfl)
  | cons member members =>
      cases compact <;>
      · cases hc
        exact .inl rfl

theorem skipBlank_delimited {rest : Text} (h : Delimited rest) : skipBlank rest = rest := by
  cases rest with
  | nil => rfl
  | cons c rest =>
      rcases h c rfl with rfl | rfl | rfl <;> rfl

theorem skipBlank_member (compact : Bool) (member : Str × JsonValue) (rest : Text) :
    skipBlank (dumpsMember compact member ++ rest) = dumpsMember compact member ++ rest := by
  obtain ⟨key, value⟩ := member
  rfl

/-- A value, the items and the members that are read with a bound that covers them are those that
were written. -/
theorem scan_dumps (compact : Bool) (fuel : Nat) :
    (∀ value rest, value.Plain → Delimited rest → value.fuel ≤ fuel →
      scanValue fuel (dumps compact value ++ rest) = .ok (value, rest)) ∧
    (∀ item items rest, item.Plain → PlainItems items → fuelItems (item :: items) ≤ fuel →
      scanItems fuel (dumps compact item ++ (dumpsItems compact items ++ rest)) =
        .ok (item :: items, rest)) ∧
    ∀ member members rest, PlainMember member → PlainMembers members →
      fuelMembers (member :: members) ≤ fuel →
      scanMembers fuel (dumpsMember compact member ++ (dumpsMembers compact members ++ rest)) =
        .ok (member :: members, rest) := by
  induction fuel with
  | zero =>
      refine ⟨?_, ?_, ?_⟩
      · intro value rest _ _ hfuel
        have := fuel_pos value
        omega
      · intro item items rest _ _ hfuel
        simp only [fuelItems] at hfuel
        omega
      · intro member members rest _ _ hfuel
        simp only [fuelMembers] at hfuel
        omega
  | succ fuel ih =>
      obtain ⟨ihValue, ihItems, ihMembers⟩ := ih
      refine ⟨?_, ?_, ?_⟩
      · intro value rest hplain hrest hfuel
        cases value with
        | null => rfl
        | bool b => cases b <;> rfl
        | int n => exact scanValue_int hrest hplain
        | float literal => exact hplain.elim
        | string s =>
            show scanValue (fuel + 1) ('"' :: ((escapeString s ++ ['"']) ++ rest)) = _
            rw [scanValue, List.append_assoc]
            show (scanString (escapeString s ++ '"' :: rest) >>= _) = _
            rw [scanString_escapeString hplain]
            rfl
        | array items =>
            cases items with
            | nil => rfl
            | cons item items =>
                simp only [JsonValue.fuel] at hfuel
                obtain ⟨hitem, hitems⟩ := hplain
                have hread := ihItems item items rest hitem hitems (by omega)
                obtain ⟨c, tail, heq, hc⟩ := dumps_starts compact hitem
                obtain ⟨hblank, hbracket, -⟩ := startsValue_spec hc
                show scanValue (fuel + 1)
                  ('[' :: ((dumps compact item ++ dumpsItems compact items) ++ rest)) = _
                rw [List.append_assoc]
                rw [heq, List.cons_append] at hread ⊢
                rw [scanValue_array hblank hbracket, hread]
                rfl
        | object members =>
            cases members with
            | nil => rfl
            | cons member members =>
                simp only [JsonValue.fuel] at hfuel
                obtain ⟨hmember, hmembers⟩ := hplain
                have hread := ihMembers member members rest hmember hmembers (by omega)
                obtain ⟨key, value⟩ := member
                show scanValue (fuel + 1)
                  ('\x7b' :: ((dumpsMember compact (key, value) ++ dumpsMembers compact members) ++
                    rest)) = _
                rw [List.append_assoc]
                change scanMembers fuel ('"' :: _) = _ at hread
                change scanValue (fuel + 1) ('\x7b' :: '"' :: _) = _
                rw [scanValue_object (by decide) (by decide), hread]
                rfl
      · intro item items rest hitem hitems hfuel
        simp only [fuelItems] at hfuel
        have hvalue := ihValue item (dumpsItems compact items ++ rest) hitem
          (delimited_items compact items rest) (by omega)
        rw [scanItems, hvalue]
        show (match skipBlank (dumpsItems compact items ++ rest) with
          | ']' :: rest => _
          | ',' :: rest => _
          | _ => _) = _
        rw [skipBlank_delimited (delimited_items compact items rest)]
        cases items with
        | nil => rfl
        | cons next items =>
            simp only [fuelItems] at hfuel
            have hrest := ihItems next items rest hitems.1 hitems.2 (by
              simp only [fuelItems]
              omega)
            cases compact <;>
            · show (scanItems fuel (skipBlank ((dumps _ next ++ dumpsItems _ items) ++ rest)) >>=
                _) = _
              rw [List.append_assoc, skipBlank_dumps _ hitems.1, hrest]
              rfl
      · rintro ⟨key, value⟩ members rest ⟨hkey, hplain⟩ hmembers hfuel
        simp only [fuelMembers, fuelMember] at hfuel
        have hvalue := ihValue value (dumpsMembers compact members ++ rest) hplain
          (delimited_members compact members rest) (by omega)
        -- the text after the key
        have hmember : dumpsMember compact (key, value) ++ (dumpsMembers compact members ++ rest) =
            '"' :: (escapeString key ++ '"' :: (keySeparator compact ++
              (dumps compact value ++ (dumpsMembers compact members ++ rest)))) := by
          simp [dumpsMember, dumpsString]
        rw [hmember, scanMembers]
        show (scanString _ >>= _) = _
        rw [scanString_escapeString hkey]
        cases compact <;>
        · show (scanValue fuel (skipBlank (dumps _ value ++ (dumpsMembers _ members ++ rest))) >>=
            _) = _
          rw [skipBlank_dumps _ hplain, hvalue]
          show (match skipBlank (dumpsMembers _ members ++ rest) with
            | '\x7d' :: rest => _
            | ',' :: rest => _
            | _ => _) = _
          rw [skipBlank_delimited (delimited_members _ members rest)]
          cases members with
          | nil => rfl
          | cons next members =>
              have hrest := ihMembers next members rest hmembers.1 hmembers.2 (by
                simp only [fuelMembers] at hfuel ⊢
                omega)
              show (scanMembers fuel (skipBlank ((dumpsMember _ next ++ dumpsMembers _ members) ++
                rest)) >>= _) = _
              rw [List.append_assoc, skipBlank_member, hrest]
              rfl

mutual

/-- The text of a value is long enough for the bound with which it is read. -/
theorem fuel_le_dumps (compact : Bool) : ∀ value : JsonValue, value.Plain →
    value.fuel ≤ 2 * (dumps compact value).length
  | .null, _ => by simp [JsonValue.fuel, dumps]
  | .bool true, _ => by simp [JsonValue.fuel, dumps]
  | .bool false, _ => by simp [JsonValue.fuel, dumps]
  | .int n, _ => by
      obtain ⟨c, rest, heq, -⟩ := dumpsInt_starts n
      simp only [JsonValue.fuel, dumps, heq, List.length_cons]
      omega
  | .float _, h => h.elim
  | .string s, _ => by
      simp only [JsonValue.fuel, dumps, dumpsString, List.length_cons]
      omega
  | .array [], _ => by simp [JsonValue.fuel, fuelItems, dumps]
  | .array (item :: items), h => by
      have hitem := fuel_le_dumps compact item h.1
      have hitems := fuelItems_le_dumps compact items h.2
      simp only [JsonValue.fuel, fuelItems, dumps, List.length_cons, List.length_append]
      omega
  | .object [], _ => by simp [JsonValue.fuel, fuelMembers, dumps]
  | .object (member :: members), h => by
      have hmember := fuelMember_le_dumps compact member h.1
      have hmembers := fuelMembers_le_dumps compact members h.2
      simp only [JsonValue.fuel, fuelMembers, dumps, List.length_cons, List.length_append]
      omega

theorem fuelItems_le_dumps (compact : Bool) : ∀ items : List JsonValue, PlainItems items →
    fuelItems items ≤ 2 * (dumpsItems compact items).length
  | [], _ => by simp [fuelItems]
  | item :: items, h => by
      have hitem := fuel_le_dumps compact item h.1
      have hitems := fuelItems_le_dumps compact items h.2
      have hseparator : 0 < (itemSeparator compact).length := by cases compact <;> decide
      simp only [fuelItems, dumpsItems, List.length_append]
      omega

theorem fuelMember_le_dumps (compact : Bool) : ∀ member : Str × JsonValue, PlainMember member →
    fuelMember member ≤ 2 * (dumpsMember compact member).length
  | (key, value), h => by
      have hvalue := fuel_le_dumps compact value h.2
      simp only [fuelMember, dumpsMember, List.length_append]
      omega

theorem fuelMembers_le_dumps (compact : Bool) : ∀ members : List (Str × JsonValue),
    PlainMembers members → fuelMembers members ≤ 2 * (dumpsMembers compact members).length
  | [], _ => by simp [fuelMembers]
  | member :: members, h => by
      have hmember := fuelMember_le_dumps compact member h.1
      have hmembers := fuelMembers_le_dumps compact members h.2
      have hseparator : 0 < (itemSeparator compact).length := by cases compact <;> decide
      simp only [fuelMembers, dumpsMembers, List.length_append]
      omega

end

/-- A plain value is read back from its text. -/
theorem loads_dumps (compact : Bool) {value : JsonValue} (h : value.Plain) :
    loads (dumps compact value) = .ok value := by
  have hskip := skipBlank_dumps compact h []
  have hread := (scan_dumps compact (2 * (dumps compact value).length)).1 value [] h
    (fun _ hc => nomatch hc) (fuel_le_dumps compact value h)
  rw [List.append_nil] at hskip hread
  unfold loads
  rw [hskip, hread]
  rfl

end WheelForge.Python
