import WheelForge.Python.Json
import WheelForge.Storage.ClearingRuns

/-!
# The progress state as JSON

`_write_workspace_progress` keeps the stack as a JSON text, and `_read_workspace_progress` checks
what it reads more closely than what was written was checked. A stack is read back exactly when it is at
most 256 deep and no name has a backslash or an escaped byte (`decodeProgress_iff`).
-/

set_option autoImplicit false

namespace WheelForge.Storage

open WheelForge.Python

/-! ## Strings -/

theorem escapedByte_lt (b : UInt8) : 0xdc00 + b.toNat < 0x110000 := by
  have := b.toNat_lt
  omega

/-- The code point of a character of a name; `surrogateescape` takes a low surrogate for a byte. -/
def NamePart.point : NamePart → CodePoint
  | .char c => CodePoint.ofChar c
  | .byte b => ⟨0xdc00 + b.toNat, escapedByte_lt b⟩

/-- The `str` of a name. -/
def nameStr (name : EntryName) : Str := name.map NamePart.point

/-- `len(s.encode("utf-8"))`; a surrogate makes `encode` raise. -/
def encodedSize : Str → Option Nat
  | [] => some 0
  | c :: rest =>
      if 0xd800 ≤ c.val ∧ c.val ≤ 0xdfff then none
      else
        let size := if c.val < 0x80 then 1 else if c.val < 0x800 then 2
          else if c.val < 0x10000 then 3 else 4
        (encodedSize rest).map (size + ·)

theorem char_no_surrogate (c : Char) : ¬ (0xd800 ≤ c.toNat ∧ c.toNat ≤ 0xdfff) := by
  have hvalid := c.valid
  unfold UInt32.isValidChar Nat.isValidChar at hvalid
  have heq : c.toNat = c.val.toNat := rfl
  omega

@[simp] theorem NamePart.point_inj {a b : NamePart} : a.point = b.point ↔ a = b := by
  constructor
  · intro h
    have hval : a.point.val = b.point.val := congrArg Fin.val h
    cases a with
    | char c =>
        cases b with
        | char d =>
            have heq : c.toNat = d.toNat := hval
            rw [Char.toNat_inj.1 heq]
        | byte b =>
            have heq : c.toNat = 0xdc00 + b.toNat := hval
            have := char_no_surrogate c
            have := b.toNat_lt
            omega
    | byte a =>
        cases b with
        | char d =>
            have heq : 0xdc00 + a.toNat = d.toNat := hval
            have := char_no_surrogate d
            have := a.toNat_lt
            omega
        | byte b =>
            have heq : 0xdc00 + a.toNat = 0xdc00 + b.toNat := hval
            rw [UInt8.toNat_inj.1 (Nat.add_left_cancel heq)]
  · rintro rfl
    rfl

theorem nameStr_inj {a b : EntryName} : nameStr a = nameStr b ↔ a = b :=
  (List.map_injective_iff.2 fun _ _ h => NamePart.point_inj.1 h).eq_iff

theorem mem_nameStr {c : Char} {name : EntryName} :
    CodePoint.ofChar c ∈ nameStr name ↔ NamePart.char c ∈ name := by
  constructor
  · intro h
    obtain ⟨part, hpart, heq⟩ := List.mem_map.1 h
    have hpoint : part.point = (NamePart.char c).point := heq
    rw [← NamePart.point_inj.1 hpoint]
    exact hpart
  · exact List.mem_map_of_mem

theorem utf8Size_eq (c : Char) :
    (if c.toNat < 0x80 then 1 else if c.toNat < 0x800 then 2
      else if c.toNat < 0x10000 then 3 else 4) = c.utf8Size := by
  have h₁ : c.val ≤ 0x7f ↔ c.toNat < 0x80 := UInt32.le_iff_toNat_le.trans Nat.lt_succ_iff.symm
  have h₂ : c.val ≤ 0x7ff ↔ c.toNat < 0x800 := UInt32.le_iff_toNat_le.trans Nat.lt_succ_iff.symm
  have h₃ : c.val ≤ 0xffff ↔ c.toNat < 0x10000 :=
    UInt32.le_iff_toNat_le.trans Nat.lt_succ_iff.symm
  show _ = if c.val ≤ 0x7f then 1 else if c.val ≤ 0x7ff then 2 else if c.val ≤ 0xffff then 3 else 4
  simp only [h₁, h₂, h₃]

theorem encodedSize_nameStr (name : EntryName) : encodedSize (nameStr name) = utf8Length name := by
  induction name with
  | nil => rfl
  | cons part rest ih =>
      rw [nameStr, List.map_cons, encodedSize]
      change (if _ then none else (encodedSize (nameStr rest)).map _) = _
      rw [ih]
      cases part with
      | char c =>
          show (if 0xd800 ≤ c.toNat ∧ c.toNat ≤ 0xdfff then none else _) = _
          rw [if_neg (char_no_surrogate c), utf8Length, ← utf8Size_eq]
          rfl
      | byte b =>
          have := b.toNat_lt
          rw [if_pos, utf8Length]
          show 0xd800 ≤ 0xdc00 + b.toNat ∧ 0xdc00 + b.toNat ≤ 0xdfff
          omega

/-- The escape of a byte is no first half of a pair. -/
theorem nameStr_noPair (name : EntryName) : NoPair (nameStr name) := by
  apply noPair_of_forall
  intro c hc
  obtain ⟨part, -, rfl⟩ := List.mem_map.1 hc
  unfold CodePoint.isHighSurrogate
  cases part with
  | char c =>
      have := char_no_surrogate c
      show (decide (0xd800 ≤ c.toNat) && decide (c.toNat ≤ 0xdbff)) = false
      simp
      omega
  | byte b =>
      show (decide (0xd800 ≤ 0xdc00 + b.toNat) && decide (0xdc00 + b.toNat ≤ 0xdbff)) = false
      simp
      omega

/-! ## The attribute -/

/-- What reading or writing the attribute raises: an error of the clearing, or a `ValueError`. -/
inductive ProgressError where
  | clear (e : ClearError)
  | value
deriving DecidableEq, Repr

/-- `_MAX_SWEEP_STATE_BYTES`. -/
def maxSweepStateBytes : Nat := 32768

/-- `{"version": 1, "stack": stack}` -/
def progressValue (stack : Stack) : JsonValue :=
  .object [(Str.ofString "version", .int 1),
    (Str.ofString "stack", .array (stack.map fun name => .string (nameStr name)))]

/-- The payload that `_write_workspace_progress` stores. -/
def encodeProgress (stack : Stack) : Except ProgressError Text :=
  let payload := dumps true (progressValue stack)
  if maxSweepStateBytes < payload.length then .error (.clear .stateTooLarge) else .ok payload

/-- The check of one part that is read. -/
def partAccepted (part : Str) : Except ProgressError Bool :=
  if part = [] ∨ part = Str.ofString "." ∨ part = Str.ofString ".." ∨
      CodePoint.ofChar '/' ∈ part ∨ CodePoint.ofChar '\\' ∈ part then .ok false
  else
    match encodedSize part with
    | some size => .ok (size ≤ 255)
    | none => .error (.clear .notEncodable)

/-- The parts of the stack, unless one of them is refused. -/
def acceptedParts : List JsonValue → Except ProgressError (Option (List Str))
  | [] => .ok (some [])
  | .string part :: rest => do
      if ← partAccepted part then
        match ← acceptedParts rest with
        | some parts => return some (part :: parts)
        | none => return none
      else return none
  | _ :: _ => .ok none

/-- `value.get("version") == 1`; which float literals are one is a parameter. -/
def isVersionOne (floatIsOne : Text → Bool) : Option JsonValue → Bool
  | some (.int n) => n = 1
  | some (.bool b) => b
  | some (.float literal) => floatIsOne literal
  | _ => false

/-- `_read_workspace_progress`. -/
def decodeProgress (floatIsOne : Text → Bool) :
    Option Text → Except ProgressError (List Str)
  | none => .ok []
  | some payload =>
      if maxSweepStateBytes < payload.length then .error .value
      else
        match loads payload with
        | .error .decode => .error (.clear .stateInvalid)
        | .error .digits => .error .value
        | .ok value =>
            match isVersionOne floatIsOne (value.get? (Str.ofString "version")),
              value.get? (Str.ofString "stack") with
            | true, some (.array parts) =>
                if 256 < parts.length then .error (.clear .stateInvalid)
                else do
                  match ← acceptedParts parts with
                  | some parts => return parts
                  | none => .error (.clear .stateInvalid)
            | _, _ => .error (.clear .stateInvalid)

/-! ## Reading what was written -/

theorem partAccepted_nameStr (name : EntryName) :
    partAccepted (nameStr name) = (partReadable name).mapError .clear := by
  have hempty : nameStr name = [] ↔ name = [] := List.map_eq_nil_iff
  have hdot : nameStr name = Str.ofString "." ↔ name = [.char '.'] :=
    (nameStr_inj : nameStr name = nameStr [.char '.'] ↔ _)
  have hdots : nameStr name = Str.ofString ".." ↔ name = [.char '.', .char '.'] :=
    (nameStr_inj : nameStr name = nameStr [.char '.', .char '.'] ↔ _)
  unfold partAccepted partReadable
  simp only [hempty, hdot, hdots, mem_nameStr, encodedSize_nameStr]
  split
  · rfl
  · cases utf8Length name <;> rfl

/-- The parts that were written are those that `allReadable` accepts. -/
theorem acceptedParts_map (stack : Stack) :
    acceptedParts (stack.map fun name => .string (nameStr name)) =
      match allReadable stack with
      | .ok true => .ok (some (stack.map nameStr))
      | .ok false => .ok none
      | .error e => .error (.clear e) := by
  induction stack with
  | nil => rfl
  | cons name rest ih =>
      rw [List.map_cons, acceptedParts, allReadable, partAccepted_nameStr]
      cases hname : partReadable name with
      | error e => rfl
      | ok accepted =>
          cases accepted with
          | false => rfl
          | true =>
              show (acceptedParts _ >>= _) = _
              rw [ih]
              cases hrest : allReadable rest with
              | error e => rfl
              | ok accepted => cases accepted <;> rfl

theorem progressValue_plain (stack : Stack) : (progressValue stack).Plain := by
  have hitems : PlainItems (stack.map fun name => .string (nameStr name)) := by
    induction stack with
    | nil => trivial
    | cons name rest ih => exact ⟨nameStr_noPair name, ih⟩
  have hkey : ∀ s : Str, s.all (fun c => !c.isHighSurrogate) = true → NoPair s := by
    intro s hs
    apply noPair_of_forall
    intro c hc
    simpa using List.all_eq_true.1 hs c hc
  have hversion : (Nat.toDigits 10 (1 : Int).natAbs).length ≤ maxIntDigits := by decide
  exact ⟨⟨hkey _ rfl, hversion⟩, ⟨hkey _ rfl, hitems⟩, trivial⟩

/-- A payload that was written is read as the check of its stack says. -/
theorem decodeProgress_payload (floatIsOne : Text → Bool) {stack : Stack} {payload : Text}
    (h : encodeProgress stack = .ok payload) :
    decodeProgress floatIsOne (some payload) =
      if 256 < stack.length then .error (.clear .stateInvalid)
      else
        match allReadable stack with
        | .ok true => .ok (stack.map nameStr)
        | .ok false => .error (.clear .stateInvalid)
        | .error e => .error (.clear e) := by
  unfold encodeProgress at h
  dsimp only at h
  split at h
  · cases h
  · next hsize =>
      cases h
      unfold decodeProgress
      dsimp only
      rw [if_neg hsize, loads_dumps true (progressValue_plain stack)]
      have hversion : (progressValue stack).get? (Str.ofString "version") = some (.int 1) := rfl
      have hstack : (progressValue stack).get? (Str.ofString "stack") =
          some (.array (stack.map fun name => .string (nameStr name))) := rfl
      dsimp only
      rw [hversion, hstack]
      simp only [isVersionOne, decide_true, List.length_map, acceptedParts_map]
      split
      · rfl
      · cases allReadable stack with
        | error e => rfl
        | ok accepted => cases accepted <;> rfl

/-! ## The length of the payload -/

theorem escapeUnit_length (c : CodePoint) :
    (escapeUnit c).length =
      if (shortEscapes.lookup c).isSome then 2
      else if 0x20 ≤ c.val ∧ c.val ≤ 0x7e then 1 else 6 := by
  unfold escapeUnit
  split
  · next hlookup => simp [hlookup]
  · next hlookup =>
      simp only [hlookup, Option.isSome_none, Bool.false_eq_true, if_false]
      split <;> rfl

theorem lookup_large {c : CodePoint} (h : 0x7e < c.val) : shortEscapes.lookup c = none := by
  have hall : ∀ escape ∈ shortEscapes, escape.1.val ≤ 0x7e := by decide
  cases hlookup : shortEscapes.lookup c with
  | none => rfl
  | some letter =>
      obtain ⟨before, after, hsplit, -⟩ := List.lookup_eq_some_iff.1 hlookup
      have := hall (c, letter) (by simp [hsplit])
      dsimp only at this
      omega

theorem escapeUnit_large {c : CodePoint} (h : 0x7e < c.val) : (escapeUnit c).length = 6 := by
  rw [escapeUnit_length, lookup_large h, if_neg (by simp), if_neg (by omega)]

theorem lookup_char (c : Char) : (shortEscapes.lookup (CodePoint.ofChar c)).isSome = true ↔
    c ∈ ['"', '\\', '\n', '\r', '\t', '\x08', '\x0c'] := by
  have hkeys : ∀ d : CodePoint, (shortEscapes.lookup d).isSome = true ↔
      d ∈ ['"', '\\', '\n', '\r', '\t', '\x08', '\x0c'].map CodePoint.ofChar := by
    intro d
    show _ ↔ d ∈ ([0x22, 0x5c, 0x0a, 0x0d, 0x09, 0x08, 0x0c] : Str)
    rw [List.lookup_isSome_iff]
    simp only [shortEscapes, List.mem_cons, exists_eq_or_imp, beq_iff_eq, List.not_mem_nil,
      or_false, exists_eq_left]
    tauto
  rw [hkeys, List.mem_map_of_injective]
  intro a b hab
  have hval : (CodePoint.ofChar a).val = (CodePoint.ofChar b).val := congrArg Fin.val hab
  exact Char.toNat_inj.1 hval

/-- The size that the clearing counts for a name is that of its JSON text. -/
theorem escapeString_length (name : EntryName) :
    (escapeString (nameStr name)).length = (name.map NamePart.jsonLength).sum := by
  have hpart : ∀ part : NamePart,
      (part.point.units.flatMap escapeUnit).length = part.jsonLength := by
    intro part
    unfold CodePoint.units
    cases part with
    | byte b =>
        have := b.toNat_lt
        have hval : (NamePart.byte b).point.val = 0xdc00 + b.toNat := rfl
        rw [if_pos (by omega), List.flatMap_singleton, escapeUnit_large (by omega)]
        rfl
    | char c =>
        have hval : (NamePart.char c).point.val = c.toNat := rfl
        have hle : ∀ d : Char, c ≤ d ↔ c.toNat ≤ d.toNat := fun d =>
          Char.le_def.trans UInt32.le_iff_toNat_le
        have hge : ∀ d : Char, d ≤ c ↔ d.toNat ≤ c.toNat := fun d =>
          Char.le_def.trans UInt32.le_iff_toNat_le
        unfold NamePart.jsonLength
        dsimp only
        by_cases hplane : c.toNat < 0x10000
        · have hprintable : ' ' ≤ c ∧ c ≤ '~' ↔ 0x20 ≤ c.toNat ∧ c.toNat ≤ 0x7e := by
            rw [hle, hge]
            rfl
          rw [if_pos (by omega), List.flatMap_singleton, escapeUnit_length]
          show (if (shortEscapes.lookup (CodePoint.ofChar c)).isSome = true then 2
            else if 0x20 ≤ c.toNat ∧ c.toNat ≤ 0x7e then 1 else 6) = _
          simp only [lookup_char, hprintable, hplane, if_true]
        · have hnone : ¬ c ≤ '~' := by
            rw [hle]
            show ¬ c.toNat ≤ 0x7e
            omega
          have hshort : c ∉ ['"', '\\', '\n', '\r', '\t', '\x08', '\x0c'] := by
            intro hmem
            have hall : (['"', '\\', '\n', '\r', '\t', '\x08', '\x0c'].all fun d =>
                decide (d ≤ '~')) = true := by decide +kernel
            exact hnone (of_decide_eq_true (List.all_eq_true.1 hall c hmem))
          have hlt := (CodePoint.ofChar c).isLt
          have hval' : (CodePoint.ofChar c).val = c.toNat := rfl
          rw [if_neg (by omega), if_neg hshort, if_neg (fun h => hnone h.2), if_neg hplane,
            List.flatMap_cons, List.flatMap_singleton, List.length_append, escapeUnit_large,
            escapeUnit_large]
          · dsimp only
            omega
          · dsimp only
            omega
  induction name with
  | nil => rfl
  | cons part rest ih =>
      unfold escapeString nameStr at ih ⊢
      rw [List.map_cons, List.flatMap_cons, List.flatMap_append, List.length_append, ih, hpart,
        List.map_cons, List.sum_cons]

/-- The length that the clearing counts is that of the payload. -/
theorem encodedLength_eq (stack : Stack) :
    encodedLength stack = (dumps true (progressValue stack)).length := by
  have hitems : ∀ rest : Stack,
      (dumpsItems true (rest.map fun name => .string (nameStr name))).length =
        (rest.map fun part => (part.map NamePart.jsonLength).sum + 2).sum + rest.length + 1 := by
    intro rest
    induction rest with
    | nil => rfl
    | cons name rest ih =>
        rw [List.map_cons, dumpsItems, List.length_append, List.length_append, ih, dumps]
        simp only [dumpsString, List.length_cons, List.length_append, escapeString_length,
          itemSeparator, if_true, List.map_cons, List.sum_cons, List.length_nil]
        omega
  unfold encodedLength progressValue
  cases stack with
  | nil => rfl
  | cons name rest =>
      have hrest := hitems rest
      simp only [dumps, dumpsMember, dumpsMembers, dumpsString, List.map_cons, List.sum_cons,
        List.length_cons, List.length_append, hrest, escapeString_length]
      have hversion : (escapeString (Str.ofString "version")).length = 7 := by decide
      have hstack : (escapeString (Str.ofString "stack")).length = 5 := by decide
      have hfixed : "\x7b\"version\":1,\"stack\":[]\x7d".length = 24 := by decide
      have hint : (dumpsInt 1).length = 1 := by decide
      rw [hversion, hstack, hfixed, hint]
      simp only [itemSeparator, keySeparator, if_true, List.length_singleton, List.length_nil]
      omega

/-! ## Names that are read back -/

/-- A name that a directory may have: one of at most 255 bytes, in which the escaped bytes are those
that no UTF-8 text begins with. -/
structure LegalName (name : EntryName) : Prop where
  nonempty : name ≠ []
  dot : name ≠ [.char '.']
  dots : name ≠ [.char '.', .char '.']
  slash : .char '/' ∉ name
  null : .char '\x00' ∉ name
  escaped : ∀ b, .byte b ∈ name → 128 ≤ b.toNat
  size : (name.map fun
    | .char c => c.utf8Size
    | .byte _ => 1).sum ≤ 255

theorem utf8Length_eq_some {name : EntryName} (h : ∀ b, .byte b ∉ name) :
    utf8Length name = some (name.map fun
      | .char c => c.utf8Size
      | .byte _ => 1).sum := by
  induction name with
  | nil => rfl
  | cons part rest ih =>
      cases part with
      | char c =>
          rw [utf8Length, ih fun b hb => h b (List.mem_cons_of_mem _ hb)]
          rfl
      | byte b => exact absurd List.mem_cons_self (h b)

theorem utf8Length_eq_none {name : EntryName} {b : UInt8} (h : .byte b ∈ name) :
    utf8Length name = none := by
  induction name with
  | nil => cases h
  | cons part rest ih =>
      cases part with
      | char c =>
          rw [utf8Length, ih (by simpa using h)]
          rfl
      | byte b => rfl

/-- Of the names that a directory may have, the reader accepts those without a backslash and without
an escaped byte. -/
theorem partReadable_iff {name : EntryName} (h : LegalName name) :
    partReadable name = .ok true ↔ .char '\\' ∉ name ∧ ∀ b, .byte b ∉ name := by
  unfold partReadable
  constructor
  · intro hread
    split at hread
    · cases hread
    · next hgood =>
        refine ⟨fun hmem => hgood (by simp [hmem]), ?_⟩
        intro b hb
        rw [utf8Length_eq_none hb] at hread
        cases hread
  · rintro ⟨hbackslash, hbytes⟩
    rw [if_neg (by simp [h.nonempty, h.dot, h.dots, h.slash, hbackslash]),
      utf8Length_eq_some hbytes]
    simpa using h.size

theorem allReadable_iff {stack : Stack} :
    allReadable stack = .ok true ↔ ∀ name ∈ stack, partReadable name = .ok true := by
  induction stack with
  | nil => simp [allReadable]
  | cons name rest ih =>
      rw [allReadable, List.forall_mem_cons, ← ih]
      cases hname : partReadable name with
      | error e => simp
      | ok accepted => cases accepted <;> simp

/-- A stack of names that directories may have, once it is written, is read back exactly when it is
at most 256 deep and no name has a backslash or an escaped byte. -/
theorem decodeProgress_iff (floatIsOne : Text → Bool) {stack : Stack} {payload : Text}
    (hlegal : ∀ name ∈ stack, LegalName name) (h : encodeProgress stack = .ok payload) :
    decodeProgress floatIsOne (some payload) = .ok (stack.map nameStr) ↔
      stack.length ≤ 256 ∧
        ∀ name ∈ stack, .char '\\' ∉ name ∧ ∀ b, .byte b ∉ name := by
  have hnames : (∀ name ∈ stack, .char '\\' ∉ name ∧ ∀ b, .byte b ∉ name) ↔
      allReadable stack = .ok true := by
    rw [allReadable_iff]
    exact forall₂_congr fun name hname => (partReadable_iff (hlegal name hname)).symm
  rw [decodeProgress_payload floatIsOne h, hnames]
  constructor
  · intro hread
    split at hread
    · cases hread
    · next hdepth =>
        refine ⟨Nat.not_lt.1 hdepth, ?_⟩
        split at hread
        · assumption
        · cases hread
        · cases hread
  · rintro ⟨hdepth, hall⟩
    rw [if_neg (Nat.not_lt.2 hdepth), hall]

/-- The clearing takes a stack for recordable if and only if it is written and read back. -/
theorem recordable_iff (floatIsOne : Text → Bool) {stack : Stack} :
    Recordable stack ↔ ∃ payload, encodeProgress stack = .ok payload ∧
      decodeProgress floatIsOne (some payload) = .ok (stack.map nameStr) := by
  unfold Recordable
  rw [encodedLength_eq]
  constructor
  · rintro ⟨hdepth, hall, hsize⟩
    have hwritten : encodeProgress stack = .ok (dumps true (progressValue stack)) :=
      if_neg (Nat.not_lt.2 hsize)
    refine ⟨_, hwritten, ?_⟩
    rw [decodeProgress_payload floatIsOne hwritten, if_neg (Nat.not_lt.2 hdepth), hall]
  · rintro ⟨payload, hwritten, hread⟩
    rw [decodeProgress_payload floatIsOne hwritten] at hread
    unfold encodeProgress at hwritten
    dsimp only at hwritten
    split at hwritten
    · cases hwritten
    · next hsize =>
        split at hread
        · cases hread
        · next hdepth =>
            refine ⟨Nat.not_lt.1 hdepth, ?_, Nat.not_lt.1 hsize⟩
            split at hread
            · assumption
            · cases hread
            · cases hread

/-! ### Two directories -/

def asciiName (s : String) : EntryName := s.toList.map .char

theorem asciiName_bytes (s : String) (b : UInt8) : .byte b ∉ asciiName s := by
  simp [asciiName]

theorem legal_asciiName {s : String} (hne : s.toList ≠ []) (hdot : s.toList ≠ ['.'])
    (hdots : s.toList ≠ ['.', '.']) (hslash : '/' ∉ s.toList) (hnull : '\x00' ∉ s.toList)
    (hsize : (s.toList.map Char.utf8Size).sum ≤ 255) : LegalName (asciiName s) where
  nonempty := by simpa [asciiName] using hne
  dot := by simpa [asciiName, List.map_eq_cons_iff] using hdot
  dots := by simpa [asciiName, List.map_eq_cons_iff] using hdots
  slash := by simpa [asciiName] using hslash
  null := by simpa [asciiName] using hnull
  escaped b hb := absurd hb (asciiName_bytes s b)
  size := by
    rw [asciiName, List.map_map]
    exact hsize

/-- The stack of `src/b`. -/
def sourceStack : Stack := [asciiName "src", asciiName "b"]

theorem sourceStack_read : ∃ payload, encodeProgress sourceStack = .ok payload ∧
    decodeProgress (fun _ => false) (some payload) = .ok (sourceStack.map nameStr) := by
  refine ⟨_, rfl, (decodeProgress_iff _ ?_ rfl).2 ⟨by decide, ?_⟩⟩
  · intro name hname
    rcases List.mem_pair.1 hname with rfl | rfl
    · exact legal_asciiName (by decide) (by decide) (by decide) (by decide) (by decide) (by decide)
    · exact legal_asciiName (by decide) (by decide) (by decide) (by decide) (by decide) (by decide)
  · intro name hname
    rcases List.mem_pair.1 hname with rfl | rfl
    · exact ⟨by decide, asciiName_bytes _⟩
    · exact ⟨by decide, asciiName_bytes _⟩

/-- A directory whose name is a backslash is written and then refused. -/
theorem backslash_unreadable : LegalName (asciiName "\\") ∧
    ∃ payload, encodeProgress [asciiName "\\"] = .ok payload ∧
      decodeProgress (fun _ => false) (some payload) = .error (.clear .stateInvalid) := by
  refine ⟨?_, _, rfl, ?_⟩
  · exact legal_asciiName (by decide) (by decide) (by decide) (by decide) (by decide) (by decide)
  · have hwritten : encodeProgress [asciiName "\\"] = .ok _ := rfl
    rw [decodeProgress_payload _ hwritten]
    rfl

end WheelForge.Storage
