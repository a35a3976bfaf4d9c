import WheelForge.Contracts
import WheelForge.Python.Substitution
import WheelForge.Python.Text

/-!
# Sanitizing texts

`sanitize_text` and its four patterns, on the characters of a text. All patterns ignore case, and
none of them needs backtracking: a run of characters is followed by a character that does not belong
to it.
-/

set_option autoImplicit false

namespace WheelForge.Jobs

open WheelForge.Python

/-! ## Characters -/

/-- The lower case letter that matches the character when case is ignored; beyond ASCII, four
characters match a letter of a pattern. -/
def foldCase (c : Char) : Char :=
  if 'A' ≤ c ∧ c ≤ 'Z' then Char.ofNat (c.toNat + 32)
  else if c.toNat = 0x130 ∨ c.toNat = 0x131 then 'i'
  else if c.toNat = 0x17f then 's'
  else if c.toNat = 0x212a then 'k'
  else c

/-- `[a-z]`. -/
def isLetter (c : Char) : Bool := 'a' ≤ foldCase c && foldCase c ≤ 'z'

/-- `[a-z0-9+.-]`. -/
def schemeChar (c : Char) : Bool := isLetter c || c.isDigit || c ∈ ['+', '.', '-']

/-- `[^/\s?#@]`. -/
def userinfoChar (c : Char) : Bool := !(isSpace c || c ∈ ['/', '?', '#', '@'])

/-- `[^&#\s]`. -/
def queryChar (c : Char) : Bool := !(isSpace c || c ∈ ['&', '#'])

/-- `[^\s,;&]`. -/
def valueChar (c : Char) : Bool := !(isSpace c || c ∈ [',', ';', '&'])

/-- A letter, a digit or one of `._~+/` and `-`. -/
def tokenChar (c : Char) : Bool := isLetter c || c.isDigit || c ∈ ['.', '_', '~', '+', '/', '-']

/-- `\w`; `alnum` is `str.isalnum` beyond ASCII. -/
def isWord (alnum : Char → Bool) (c : Char) : Bool :=
  if c.toNat < 0x80 then c.isAlphanum || c = '_' else alnum c

/-- `\b`. -/
def wordBoundary (alnum : Char → Bool) (previous : Option Char) (text : Text) : Bool :=
  previous.any (isWord alnum) != text.head?.any (isWord alnum)

/-! ## Scanners -/

/-- A character of a class, one or more times. -/
def scanRun (p : Char → Bool) (text : Text) : Option (Text × Text) :=
  if text.takeWhile p = [] then none else some (text.takeWhile p, text.dropWhile p)

/-- A word in lower case, with case ignored. -/
def scanWord : Text → Text → Option (Text × Text)
  | [], text => some ([], text)
  | _ :: _, [] => none
  | letter :: word, c :: text =>
      if foldCase c = letter then (scanWord word text).map fun r => (c :: r.1, r.2) else none

/-- A character of a class. -/
def scanChar (p : Char → Bool) : Text → Option (Char × Text)
  | [] => none
  | c :: text => if p c then some (c, text) else none

/-- A text in quotes. -/
def scanQuoted (quote : Char) (text : Text) : Option (Text × Text) := do
  let (_, text) ← scanChar (· = quote) text
  let (_, rest) ← scanChar (· = quote) (text.dropWhile (· ≠ quote))
  some (quote :: text.takeWhile (· ≠ quote) ++ [quote], rest)

/-- `"[^"]*"|'[^']*'|[^\s,;&]+`. -/
def scanValue (text : Text) : Option (Text × Text) :=
  scanQuoted '"' text <|> scanQuoted '\'' text <|> scanRun valueChar text

theorem scanRun_eq_some {p : Char → Bool} {text run rest : Text}
    (h : scanRun p text = some (run, rest)) :
    text = run ++ rest ∧ run ≠ [] ∧ (∀ c ∈ run, p c = true) ∧ run = text.takeWhile p := by
  unfold scanRun at h
  split at h
  · cases h
  · next hne =>
      cases h
      exact ⟨List.takeWhile_append_dropWhile.symm, hne, fun c hc => List.mem_takeWhile_imp hc, rfl⟩

theorem scanWord_eq_some {word text key rest : Text} (h : scanWord word text = some (key, rest)) :
    text = key ++ rest ∧ key.map foldCase = word := by
  induction word generalizing text key with
  | nil =>
      cases h
      exact ⟨rfl, rfl⟩
  | cons letter word ih =>
      cases text with
      | nil => cases h
      | cons c text =>
          unfold scanWord at h
          split at h
          · next hc =>
              obtain ⟨⟨key', rest'⟩, hscan, hr⟩ := Option.map_eq_some_iff.1 h
              cases hr
              obtain ⟨htext, hkey⟩ := ih hscan
              rw [htext, List.map_cons, hkey, hc]
              exact ⟨rfl, rfl⟩
          · cases h

theorem scanChar_eq_some {p : Char → Bool} {text rest : Text} {c : Char}
    (h : scanChar p text = some (c, rest)) : text = c :: rest ∧ p c = true := by
  cases text with
  | nil => cases h
  | cons d text =>
      by_cases hp : p d = true
      · rw [scanChar, if_pos hp] at h
        cases h
        exact ⟨rfl, hp⟩
      · rw [scanChar, if_neg hp] at h
        cases h

theorem scanQuoted_eq_some {quote : Char} {text value rest : Text}
    (h : scanQuoted quote text = some (value, rest)) :
    text = value ++ rest ∧ ∃ more, value = quote :: more := by
  unfold scanQuoted at h
  simp only [Option.bind_eq_bind, Option.bind_eq_some_iff] at h
  obtain ⟨⟨c, inner⟩, hopen, ⟨d, outer⟩, hclose, hvalue⟩ := h
  cases hvalue
  obtain ⟨rfl, hc⟩ := scanChar_eq_some hopen
  obtain ⟨hinner, hd⟩ := scanChar_eq_some hclose
  have hc : c = quote := of_decide_eq_true hc
  have hd : d = quote := of_decide_eq_true hd
  subst hc hd
  refine ⟨?_, _, rfl⟩
  have hsplit : inner.takeWhile (fun x => decide (x ≠ d)) ++ d :: outer = inner := by
    rw [← hinner]
    exact List.takeWhile_append_dropWhile
  dsimp only
  rw [List.append_assoc, List.singleton_append, List.cons_append, hsplit]

/-! ## The patterns -/

def mask : Text := ['*', '*', '*']

/-- `(?i)\b([a-z][a-z0-9+.-]*://)[^/\s?#@]+@`. -/
def findUserinfo (alnum : Char → Bool) (previous : Option Char) (text : Text) :
    Option (Match Char) := do
  guard (wordBoundary alnum previous text)
  let (c, rest) ← scanChar isLetter text
  let scheme := c :: rest.takeWhile schemeChar
  let (colon, rest) ← scanChar (· = ':') (rest.dropWhile schemeChar)
  let (slash, rest) ← scanChar (· = '/') rest
  let (slash', rest) ← scanChar (· = '/') rest
  let (userinfo, rest) ← scanRun userinfoChar rest
  let (at', rest) ← scanChar (· = '@') rest
  some ⟨scheme ++ [colon, slash, slash'] ++ (userinfo ++ [at']),
    scheme ++ [colon, slash, slash'] ++ (mask ++ ['@']), rest⟩

/-- The words of `_QUERY_SECRET`. -/
def queryWords : List String :=
  ["password", "passwd", "pwd", "token", "access_token", "refresh_token", "api_key", "api-key",
    "apikey", "secret"]

/-- `(?i)([?&](?:password|..)=)[^&#\s]+`. -/
def findQuerySecret (text : Text) : Option (Match Char) := do
  let (c, rest) ← scanChar (fun c => c ∈ ['?', '&']) text
  queryWords.findSome? fun word => do
    let (key, rest) ← scanWord word.toList rest
    let (equals, rest) ← scanChar (· = '=') rest
    let (secret, rest) ← scanRun queryChar rest
    some ⟨c :: key ++ equals :: secret, c :: key ++ equals :: mask, rest⟩

/-- The words of `_KEY_VALUE_SECRET`. -/
def keyWords : List String :=
  ["password", "passwd", "pwd", "token", "access_token", "access-token", "accesstoken",
    "refresh_token", "refresh-token", "refreshtoken", "api_key", "api-key", "apikey", "secret"]

/-- `(?i)\b(password|..)\s*[:=]\s*(?:"[^"]*"|'[^']*'|[^\s,;&]+)`. -/
def findKeyValueSecret (alnum : Char → Bool) (previous : Option Char) (text : Text) :
    Option (Match Char) := do
  guard (wordBoundary alnum previous text)
  keyWords.findSome? fun word => do
    let (key, rest) ← scanWord word.toList text
    let gap := rest.takeWhile isSpace
    let (separator, rest) ← scanChar (fun c => c ∈ [':', '=']) (rest.dropWhile isSpace)
    let gap' := rest.takeWhile isSpace
    let (value, rest) ← scanValue (rest.dropWhile isSpace)
    some ⟨key ++ (gap ++ separator :: (gap' ++ value)), key ++ '=' :: mask, rest⟩

/-- `(?i)\b(Bearer)\s+`, a token and `=*`. -/
def findBearerSecret (alnum : Char → Bool) (previous : Option Char) (text : Text) :
    Option (Match Char) := do
  guard (wordBoundary alnum previous text)
  let (bearer, rest) ← scanWord "bearer".toList text
  let (gap, rest) ← scanRun isSpace rest
  let (token, rest) ← scanRun tokenChar rest
  some ⟨bearer ++ (gap ++ (token ++ rest.takeWhile (· = '='))), bearer ++ ' ' :: mask,
    rest.dropWhile (· = '=')⟩

/-- A match of `_URL_USERINFO`. -/
structure UserinfoMatch (text : Text) (m : Match Char) : Prop where
  parts : ∃ scheme userinfo, userinfo ≠ [] ∧ (∀ c ∈ userinfo, userinfoChar c = true) ∧
    m.matched = scheme ++ [':', '/', '/'] ++ (userinfo ++ ['@']) ∧
    m.replacement = scheme ++ [':', '/', '/'] ++ (mask ++ ['@'])
  splits : text = m.matched ++ m.rest

theorem findUserinfo_eq_some {alnum : Char → Bool} {previous : Option Char} {text : Text}
    {m : Match Char} (h : findUserinfo alnum previous text = some m) : UserinfoMatch text m := by
  unfold findUserinfo at h
  simp only [Option.bind_eq_bind, Option.bind_eq_some_iff] at h
  obtain ⟨-, -, ⟨c, rest⟩, hletter, ⟨colon, rest₁⟩, hcolon, ⟨slash, rest₂⟩, hslash,
    ⟨slash', rest₃⟩, hslash', ⟨userinfo, rest₄⟩, hrun, ⟨at', rest₅⟩, hat, hm⟩ := h
  cases hm
  obtain ⟨rfl, -⟩ := scanChar_eq_some hletter
  obtain ⟨hscheme, hc⟩ := scanChar_eq_some hcolon
  obtain ⟨hrest₁, hs⟩ := scanChar_eq_some hslash
  obtain ⟨hrest₂, hs'⟩ := scanChar_eq_some hslash'
  obtain ⟨hrest₃, hne, hall, -⟩ := scanRun_eq_some hrun
  obtain ⟨hrest₄, ha⟩ := scanChar_eq_some hat
  cases of_decide_eq_true hc
  cases of_decide_eq_true hs
  cases of_decide_eq_true hs'
  cases of_decide_eq_true ha
  dsimp only at *
  refine ⟨⟨_, userinfo, hne, hall, rfl, rfl⟩, ?_⟩
  have hsplit := List.takeWhile_append_dropWhile (p := schemeChar) (l := rest)
  rw [hscheme, hrest₁, hrest₂, hrest₃, hrest₄] at hsplit
  conv_lhs => rw [← hsplit]
  simp

/-- A word of the patterns, in any case. -/
def Keyword (key : Text) : Prop := ∃ word ∈ keyWords, key.map foldCase = word.toList

/-- A match of `_QUERY_SECRET`. -/
structure QuerySecretMatch (text : Text) (m : Match Char) : Prop where
  parts : ∃ c key secret, c ∈ ['?', '&'] ∧ Keyword key ∧ secret ≠ [] ∧
    m.matched = c :: key ++ '=' :: secret ∧ m.replacement = c :: key ++ '=' :: mask
  splits : text = m.matched ++ m.rest

theorem findQuerySecret_eq_some {text : Text} {m : Match Char}
    (h : findQuerySecret text = some m) : QuerySecretMatch text m := by
  unfold findQuerySecret at h
  simp only [Option.bind_eq_bind, Option.bind_eq_some_iff] at h
  obtain ⟨⟨c, rest⟩, hmark, h⟩ := h
  obtain ⟨word, hword, h⟩ := List.exists_of_findSome?_eq_some h
  simp only [Option.bind_eq_some_iff] at h
  obtain ⟨⟨key, rest₁⟩, hkey, ⟨equals, rest₂⟩, hequals, ⟨secret, rest₃⟩, hrun, hm⟩ := h
  cases hm
  obtain ⟨rfl, hc⟩ := scanChar_eq_some hmark
  obtain ⟨hrest, hfold⟩ := scanWord_eq_some hkey
  obtain ⟨hrest₁, he⟩ := scanChar_eq_some hequals
  obtain ⟨hrest₂, hne, -, -⟩ := scanRun_eq_some hrun
  cases of_decide_eq_true he
  have hwords : ∀ word ∈ queryWords, word ∈ keyWords := by decide
  dsimp only at *
  refine ⟨⟨c, key, secret, of_decide_eq_true hc, ⟨word, hwords word hword, hfold⟩, hne, rfl, rfl⟩,
    ?_⟩
  rw [hrest, hrest₁, hrest₂]
  simp

/-- A value that follows spaces is not shorter than a mask at its place. -/
theorem mask_prefix_value {text value rest : Text}
    (h : scanValue (text.dropWhile isSpace) = some (value, rest)) (hmask : mask <+: text) :
    mask <+: value := by
  obtain ⟨more, rfl⟩ := hmask
  have hnone : ∀ quote, quote ≠ '*' → scanQuoted quote (mask ++ more) = none := by
    intro quote hquote
    unfold scanQuoted
    simp [mask, scanChar, hquote.symm]
  have hspaces : (mask ++ more).dropWhile isSpace = mask ++ more := rfl
  have hvalue : scanValue (mask ++ more) = scanRun valueChar (mask ++ more) := by
    unfold scanValue
    rw [hnone '"' (by decide), hnone '\'' (by decide)]
    rfl
  rw [hspaces, hvalue] at h
  obtain ⟨-, -, -, hrun⟩ := scanRun_eq_some h
  exact ⟨more.takeWhile valueChar, hrun.symm⟩

theorem scanValue_eq_some {text value rest : Text} (h : scanValue text = some (value, rest)) :
    text = value ++ rest ∧ value ≠ [] := by
  unfold scanValue at h
  simp only [Option.orElse_eq_orElse, Option.orElse_eq_or, Option.or_eq_some_iff] at h
  obtain h | ⟨-, h | ⟨-, h⟩⟩ := h
  · obtain ⟨htext, more, rfl⟩ := scanQuoted_eq_some h
    exact ⟨htext, List.cons_ne_nil _ _⟩
  · obtain ⟨htext, more, rfl⟩ := scanQuoted_eq_some h
    exact ⟨htext, List.cons_ne_nil _ _⟩
  · obtain ⟨htext, hne, -, -⟩ := scanRun_eq_some h
    exact ⟨htext, hne⟩

/-- A match of `_KEY_VALUE_SECRET`. -/
structure KeyValueMatch (text : Text) (m : Match Char) : Prop where
  parts : ∃ key gap separator gap' value, Keyword key ∧ (∀ c ∈ gap, isSpace c = true) ∧
    separator ∈ [':', '='] ∧ value ≠ [] ∧
    (mask <+: gap' ++ (value ++ m.rest) → mask <+: value) ∧
    m.matched = key ++ (gap ++ separator :: (gap' ++ value)) ∧ m.replacement = key ++ '=' :: mask
  splits : text = m.matched ++ m.rest

theorem findKeyValueSecret_eq_some {alnum : Char → Bool} {previous : Option Char} {text : Text}
    {m : Match Char} (h : findKeyValueSecret alnum previous text = some m) :
    KeyValueMatch text m := by
  unfold findKeyValueSecret at h
  simp only [Option.bind_eq_bind, Option.bind_eq_some_iff] at h
  obtain ⟨-, -, h⟩ := h
  obtain ⟨word, hword, h⟩ := List.exists_of_findSome?_eq_some h
  simp only [Option.bind_eq_some_iff] at h
  obtain ⟨⟨key, rest⟩, hkey, ⟨separator, rest₁⟩, hseparator, ⟨value, rest₂⟩, hvalue, hm⟩ := h
  cases hm
  obtain ⟨htext, hfold⟩ := scanWord_eq_some hkey
  obtain ⟨hrest, hs⟩ := scanChar_eq_some hseparator
  obtain ⟨hrest₁, hne⟩ := scanValue_eq_some hvalue
  dsimp only at *
  have hgap := List.takeWhile_append_dropWhile (p := isSpace) (l := rest)
  have hgap' := List.takeWhile_append_dropWhile (p := isSpace) (l := rest₁)
  rw [hrest] at hgap
  rw [hrest₁] at hgap'
  refine ⟨⟨key, _, separator, _, value, ⟨word, hword, hfold⟩, ?_, of_decide_eq_true hs, hne, ?_,
    rfl, rfl⟩, ?_⟩
  · intro c hc
    exact List.mem_takeWhile_imp hc
  · intro hmask
    rw [hgap'] at hmask
    exact mask_prefix_value hvalue hmask
  · dsimp only
    rw [htext, List.append_assoc, List.append_assoc, List.cons_append, List.append_assoc, hgap',
      hgap]

/-- A match of `_BEARER_SECRET`. -/
structure BearerMatch (text : Text) (m : Match Char) : Prop where
  parts : ∃ bearer space secret, bearer.map foldCase = "bearer".toList ∧ isSpace space = true ∧
    secret ≠ [] ∧ m.matched = bearer ++ space :: secret ∧ m.replacement = bearer ++ ' ' :: mask
  splits : text = m.matched ++ m.rest

theorem findBearerSecret_eq_some {alnum : Char → Bool} {previous : Option Char} {text : Text}
    {m : Match Char} (h : findBearerSecret alnum previous text = some m) : BearerMatch text m := by
  unfold findBearerSecret at h
  simp only [Option.bind_eq_bind, Option.bind_eq_some_iff] at h
  obtain ⟨-, -, ⟨bearer, rest⟩, hbearer, ⟨gap, rest₁⟩, hgap, ⟨token, rest₂⟩, htoken, hm⟩ := h
  cases hm
  obtain ⟨htext, hfold⟩ := scanWord_eq_some hbearer
  obtain ⟨hrest, hne, hspace, -⟩ := scanRun_eq_some hgap
  obtain ⟨hrest₁, hne', -, -⟩ := scanRun_eq_some htoken
  dsimp only at *
  obtain ⟨space, spaces, rfl⟩ := List.exists_cons_of_ne_nil hne
  refine ⟨⟨bearer, space, spaces ++ (token ++ rest₂.takeWhile (· = '=')), hfold,
    hspace space List.mem_cons_self, by simp [hne'], rfl, rfl⟩, ?_⟩
  have hsplit := List.takeWhile_append_dropWhile (p := (· = '=')) (l := rest₂)
  dsimp only
  rw [htext, hrest, hrest₁]
  conv_lhs => rw [← hsplit]
  simp

/-- `_URL_USERINFO`, replaced with `\1***@`. -/
def urlUserinfo (alnum : Char → Bool) : Pattern Char where
  find := findUserinfo alnum
  splits h := (findUserinfo_eq_some h).splits
  nonempty h := by
    obtain ⟨scheme, userinfo, -, -, hmatched, -⟩ := (findUserinfo_eq_some h).parts
    simp [hmatched]

/-- `_QUERY_SECRET`, replaced with `\1***`. -/
def querySecret : Pattern Char where
  find _ text := findQuerySecret text
  splits h := (findQuerySecret_eq_some h).splits
  nonempty h := by
    obtain ⟨c, key, secret, -, -, -, hmatched, -⟩ := (findQuerySecret_eq_some h).parts
    simp [hmatched]

/-- `_KEY_VALUE_SECRET`, replaced with `\1=***`. -/
def keyValueSecret (alnum : Char → Bool) : Pattern Char where
  find := findKeyValueSecret alnum
  splits h := (findKeyValueSecret_eq_some h).splits
  nonempty h := by
    obtain ⟨key, gap, separator, gap', value, -, -, -, -, -, hmatched, -⟩ :=
      (findKeyValueSecret_eq_some h).parts
    simp [hmatched]

/-- `_BEARER_SECRET`, replaced with `\1 ***`. -/
def bearerSecret (alnum : Char → Bool) : Pattern Char where
  find := findBearerSecret alnum
  splits h := (findBearerSecret_eq_some h).splits
  nonempty h := by
    obtain ⟨bearer, space, secret, -, -, -, hmatched, -⟩ := (findBearerSecret_eq_some h).parts
    simp [hmatched]

/-- `value.replace("\x00", "?")`. -/
def replaceNul (text : Text) : Text := text.map fun c => if c = '\x00' then '?' else c

/-- What `sanitize_text` does before it cuts the text. -/
def redact (alnum : Char → Bool) (text : Text) : Text :=
  (bearerSecret alnum).sub ((keyValueSecret alnum).sub (querySecret.sub ((urlUserinfo alnum).sub
    (replaceNul text))))

/-- `sanitize_text`. -/
def sanitizeText (alnum : Char → Bool) (value : String) (limit : Nat) : String :=
  String.ofList ((redact alnum value.toList).take limit)

/-- A `dict` of the items; an item with a key that is there replaces its value. -/
def dictOf (items : List (String × Json)) : List (String × Json) :=
  items.foldl (fun dict item =>
    if item.1 ∈ dict.map Prod.fst then dict.map fun d => if d.1 = item.1 then item else d
    else dict ++ [item]) []

mutual

/-- `sanitize_structure`. -/
def sanitizeStructure (alnum : Char → Bool) (stringLimit : Nat) : Json → Json
  | .string s => .string (sanitizeText alnum s stringLimit)
  | .array items => .array (sanitizeItems alnum stringLimit items)
  | .object fields => .object (dictOf (sanitizeFields alnum stringLimit fields))
  | .null => .null
  | .bool b => .bool b
  | .number text => .number text

def sanitizeItems (alnum : Char → Bool) (stringLimit : Nat) : List Json → List Json
  | [] => []
  | item :: items =>
      sanitizeStructure alnum stringLimit item :: sanitizeItems alnum stringLimit items

def sanitizeFields (alnum : Char → Bool) (stringLimit : Nat) :
    List (String × Json) → List (String × Json)
  | [] => []
  | (key, item) :: fields =>
      (sanitizeText alnum key 200, sanitizeStructure alnum stringLimit item) ::
        sanitizeFields alnum stringLimit fields

end

/-! ## Texts that are not changed -/

/-- A character that no match needs: every match has a separator or a space. -/
def plainChar (c : Char) : Bool := !(isSpace c || c ∈ [':', '=', '\x00'])

/-- A character that a match needs. -/
def matchChar (c : Char) : Prop := c ∈ [':', '='] ∨ isSpace c = true

theorem not_matchChar_of_plain {c : Char} (h : plainChar c = true) : ¬matchChar c := by
  simp only [plainChar, List.mem_cons, List.not_mem_nil, or_false, Bool.not_eq_true',
    Bool.or_eq_false_iff, decide_eq_false_iff_not, not_or] at h
  rintro (hc | hc)
  · simp only [List.mem_cons, List.not_mem_nil, or_false] at hc
    rcases hc with rfl | rfl
    · exact h.2.1 rfl
    · exact h.2.2.1 rfl
  · rw [h.1] at hc
    cases hc

theorem redact_of_plain {alnum : Char → Bool} {text : Text} (h : text.all plainChar = true) :
    redact alnum text = text := by
  rw [List.all_eq_true] at h
  have hclear : ∀ c ∈ text, ¬matchChar c := fun c hc => not_matchChar_of_plain (h c hc)
  have hnul : replaceNul text = text := by
    unfold replaceNul
    conv_rhs => rw [← List.map_id text]
    refine List.map_congr_left fun c hc => ?_
    have hplain := h c hc
    rw [if_neg]
    · rfl
    · rintro rfl
      revert hplain
      decide
  have huserinfo : (urlUserinfo alnum).sub text = text := by
    refine (urlUserinfo alnum).sub_of_not_mem ?_ hclear
    intro previous t m hfind
    obtain ⟨scheme, userinfo, -, -, hmatched, -⟩ := (findUserinfo_eq_some hfind).parts
    exact ⟨':', by simp [hmatched], .inl (by decide)⟩
  have hquery : querySecret.sub text = text := by
    refine querySecret.sub_of_not_mem ?_ hclear
    intro previous t m hfind
    obtain ⟨c, key, secret, -, -, -, hmatched, -⟩ := (findQuerySecret_eq_some hfind).parts
    exact ⟨'=', by simp [hmatched], .inl (by decide)⟩
  have hkey : (keyValueSecret alnum).sub text = text := by
    refine (keyValueSecret alnum).sub_of_not_mem ?_ hclear
    intro previous t m hfind
    obtain ⟨key, gap, separator, gap', value, -, -, hseparator, -, -, hmatched, -⟩ :=
      (findKeyValueSecret_eq_some hfind).parts
    exact ⟨separator, by simp [hmatched], .inl hseparator⟩
  have hbearer : (bearerSecret alnum).sub text = text := by
    refine (bearerSecret alnum).sub_of_not_mem ?_ hclear
    intro previous t m hfind
    obtain ⟨bearer, space, secret, -, hspace, -, hmatched, -⟩ :=
      (findBearerSecret_eq_some hfind).parts
    exact ⟨space, by simp [hmatched], .inr hspace⟩
  rw [redact, hnul, huserinfo, hquery, hkey, hbearer]

/-- A short text without separators and spaces is not changed. -/
theorem sanitizeText_of_plain {alnum : Char → Bool} {value : String} {limit : Nat}
    (h : value.toList.all plainChar = true) (hlimit : value.length ≤ limit) :
    sanitizeText alnum value limit = value := by
  unfold sanitizeText
  rw [redact_of_plain h, List.take_of_length_le, String.ofList_toList]
  rwa [String.length_toList]

theorem dictOf_of_nodup {items : List (String × Json)} (h : (items.map Prod.fst).Nodup) :
    dictOf items = items := by
  have hfold : ∀ rest dict : List (String × Json), ((dict ++ rest).map Prod.fst).Nodup →
      rest.foldl (fun dict item =>
        if item.1 ∈ dict.map Prod.fst then dict.map fun d => if d.1 = item.1 then item else d
        else dict ++ [item]) dict = dict ++ rest := by
    intro rest
    induction rest with
    | nil =>
        intro dict _
        exact (List.append_nil dict).symm
    | cons item rest ih =>
        intro dict hnodup
        have hfresh : item.1 ∉ dict.map Prod.fst := by
          rw [List.map_append, List.nodup_append] at hnodup
          intro hmem
          exact hnodup.2.2 _ hmem _ (by simp) rfl
        rw [List.foldl_cons, if_neg hfresh, ih, List.append_assoc, List.singleton_append]
        rwa [List.append_assoc, List.singleton_append]
  exact hfold items [] h

theorem sanitizeItems_eq (alnum : Char → Bool) (stringLimit : Nat) (items : List Json) :
    sanitizeItems alnum stringLimit items = items.map (sanitizeStructure alnum stringLimit) := by
  induction items with
  | nil => rfl
  | cons item items ih =>
      rw [sanitizeItems, ih]
      rfl

/-- The keys of an object that sanitizing does not touch. -/
def PlainKeys (keys : List String) : Prop :=
  keys.Nodup ∧ ∀ key ∈ keys, key.toList.all plainChar = true ∧ key.length ≤ 200

instance (keys : List String) : Decidable (PlainKeys keys) :=
  inferInstanceAs (Decidable (_ ∧ _))

/-- An object keeps such keys, and its values are sanitized. -/
theorem sanitizeStructure_object {alnum : Char → Bool} {stringLimit : Nat}
    {fields : List (String × Json)} (h : PlainKeys (fields.map Prod.fst)) :
    sanitizeStructure alnum stringLimit (.object fields) =
      .object (fields.map fun f => (f.1, sanitizeStructure alnum stringLimit f.2)) := by
  obtain ⟨hnodup, hplain⟩ := h
  have hfields : sanitizeFields alnum stringLimit fields =
      fields.map fun f => (f.1, sanitizeStructure alnum stringLimit f.2) := by
    clear hnodup
    induction fields with
    | nil => rfl
    | cons field fields ih =>
        obtain ⟨⟨hchars, hlength⟩, hrest⟩ := List.forall_mem_cons.1 hplain
        rw [sanitizeFields, ih hrest, sanitizeText_of_plain hchars hlength]
        rfl
  rw [sanitizeStructure, hfields, dictOf_of_nodup]
  rw [List.map_map]
  exact hnodup

end WheelForge.Jobs
