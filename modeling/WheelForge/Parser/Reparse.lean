import WheelForge.Parser.Inertness

/-!
# Parsing the normalized text again

The pipeline stores the normalized text and parses it again. `ReadsBack` says what packaging reads
from a rendered item. The second parse then returns the same items exactly when the text fits the
byte limit and every item is `Stable` (`reparses_iff`): the checks of the first parse look at the
input, and the normalized text can be longer, repeat an extra, hold clauses that packaging takes to be
equal, end in another clause, or hold a marker value that reads differently once its escapes are gone.
-/

set_option autoImplicit false

namespace WheelForge.Parser

open WheelForge.Python
open WheelForge.Pep440

/-! ## The text as input -/

theorem toUTF8_bytes (s : String) :
    s.toUTF8.data.toList = s.toList.flatMap String.utf8EncodeChar := by
  have hencode : s.toList.utf8Encode = s.toByteArray := String.utf8Encode_toList
  show s.toByteArray.data.toList = _
  rw [← hencode]
  unfold List.utf8Encode
  simp

theorem utf8EncodeChar_ascii {c : Char} (h : c.toNat < 0x80) :
    String.utf8EncodeChar c = [c.toNat.toUInt8] := by
  unfold String.utf8EncodeChar
  rw [if_pos (show c.val.toNat ≤ 127 from Nat.le_of_lt_succ h)]
  rfl

/-- A text that begins in ASCII has no byte order mark. -/
theorem decode_toUTF8 (gbk : ByteArray → Option String) {s : String} {c : Char} {rest : Text}
    (hs : s.toList = c :: rest) (hc : c.toNat < 0x80) : decode gbk s.toUTF8 = some (s, "utf-8") := by
  have hmark : ¬s.toUTF8.data.toList.take 3 = [0xef, 0xbb, 0xbf] := by
    rw [toUTF8_bytes, hs, List.flatMap_cons, utf8EncodeChar_ascii hc, List.singleton_append]
    intro h
    rw [List.take_succ_cons] at h
    have hfirst : c.toNat.toUInt8 = 0xef := (List.cons.inj h).1
    have hvalue := congrArg UInt8.toNat hfirst
    rw [Nat.toUInt8_eq, UInt8.toNat_ofNat', Nat.mod_eq_of_lt (by omega)] at hvalue
    rw [hvalue] at hc
    exact absurd hc (by decide)
  unfold decode
  rw [if_neg hmark, fromUTF8_toUTF8]
  rfl

theorem joinLines_eq (lines : List Text) (hne : lines ≠ []) :
    joinLines lines = ['\n'].intercalate (lines ++ [[]]) := by
  unfold joinLines
  induction lines with
  | nil => exact absurd rfl hne
  | cons line rest ih =>
      cases rest with
      | nil => simp
      | cons next rest =>
          rw [List.cons_append, List.cons_append, List.intercalate_cons_cons,
            List.intercalate_cons_cons, List.append_assoc, ih (by simp)]
          rfl

/-- The logical lines of joined lines. -/
theorem logicalLines_joinLines {lines : List Text} (hne : lines ≠ [])
    (h : ∀ line ∈ lines, '\n' ∉ line) : logicalLines (joinLines lines) = lines := by
  have hsplit : (joinLines lines).splitOn '\n' = lines ++ [[]] := by
    rw [joinLines_eq lines hne, List.splitOn_intercalate]
    · intro line hline
      rcases List.mem_append.1 hline with hline | hline
      · exact h line hline
      · rw [List.mem_singleton.1 hline]
        exact List.not_mem_nil
    · simp
  have hlast : (joinLines lines).getLast? = some '\n' := by
    unfold joinLines
    rw [List.getLast?_append]
    rfl
  have hfull : joinLines lines ≠ [] := by
    intro hempty
    rw [hempty] at hlast
    cases hlast
  unfold logicalLines
  rw [if_neg hfull, if_pos hlast, hsplit, List.dropLast_concat]

/-! ## A rendered item as a line -/

/-- A marker without a line break. -/
def NoBreak (entry : Entry) : Prop :=
  ∀ m, entry.item.marker = some m → '\n' ∉ m.toList ∧ '\r' ∉ m.toList

/-- A marker without the characters that the line check refuses. -/
def Admissible (entry : Entry) : Prop :=
  ∀ m, entry.item.marker = some m →
    ∀ c ∈ m.toList, unsupportedLineSeparator c = false ∧ c ≠ '\x00'

section Lines

variable {pk : Packaging} {entry : Entry}

theorem not_separator_of_headChar {c : Char} (h : headChar c = true) :
    unsupportedLineSeparator c = false ∧ c ≠ '\x00' ∧ c ≠ '\n' ∧ c ≠ '\r' := by
  refine ⟨?_, ?_, ?_, ?_⟩
  · simp [headChar, versionChar, canonicalChar] at h
    simp [unsupportedLineSeparator]
    omega
  all_goals
    rintro rfl
    exact absurd h (by decide)

theorem formatItem_mem (h : EntryOk pk entry) {c : Char}
    (hc : c ∈ (formatItem entry.item).toList) :
    headChar c = true ∨ c = ';' ∨ c = ' ' ∨ ∃ m, entry.item.marker = some m ∧ c ∈ m.toList := by
  rw [formatItem_toList] at hc
  rcases List.mem_append.1 hc with hc | hc
  · exact .inl (itemHead_chars h c hc)
  · unfold itemTail at hc
    cases hm : entry.item.marker with
    | none =>
        rw [hm] at hc
        cases hc
    | some m =>
        rw [hm] at hc
        simp only [List.mem_cons] at hc
        rcases hc with hc | hc | hc
        · exact .inr (.inl hc)
        · exact .inr (.inr (.inl hc))
        · exact .inr (.inr (.inr ⟨m, rfl, hc⟩))

theorem marker_mem {m : String} (hm : entry.item.marker = some m) {c : Char} (hc : c ∈ m.toList) :
    c ∈ (formatItem entry.item).toList := by
  rw [formatItem_toList]
  unfold itemTail
  rw [hm]
  simp [hc]

theorem formatItem_noBreak (h : EntryOk pk entry) (hbreak : NoBreak entry) :
    '\n' ∉ (formatItem entry.item).toList ∧ '\r' ∉ (formatItem entry.item).toList := by
  constructor
  · intro hmem
    rcases formatItem_mem h hmem with hc | hc | hc | ⟨m, hm, hc⟩
    · exact absurd hc (by decide)
    · exact absurd hc (by decide)
    · exact absurd hc (by decide)
    · exact (hbreak m hm).1 hc
  · intro hmem
    rcases formatItem_mem h hmem with hc | hc | hc | ⟨m, hm, hc⟩
    · exact absurd hc (by decide)
    · exact absurd hc (by decide)
    · exact absurd hc (by decide)
    · exact (hbreak m hm).2 hc

/-- The characters of a rendered item are those that the line check accepts when those of its marker
are. -/
theorem admissible_iff (h : EntryOk pk entry) :
    Admissible entry ↔ ((formatItem entry.item).toList.any unsupportedLineSeparator = false ∧
      (formatItem entry.item).toList.any (· = '\x00') = false) := by
  rw [List.any_eq_false, List.any_eq_false]
  constructor
  · intro hadmissible
    have hall : ∀ c ∈ (formatItem entry.item).toList,
        unsupportedLineSeparator c = false ∧ c ≠ '\x00' := by
      intro c hc
      rcases formatItem_mem h hc with hc | rfl | rfl | ⟨m, hm, hc⟩
      · exact ⟨(not_separator_of_headChar hc).1, (not_separator_of_headChar hc).2.1⟩
      · decide
      · decide
      · exact hadmissible m hm c hc
    constructor
    · intro c hc
      rw [(hall c hc).1]
      exact Bool.false_ne_true
    · intro c hc
      simpa using (hall c hc).2
  · rintro ⟨hseparators, hnul⟩ m hm c hc
    have hmem := marker_mem hm hc
    exact ⟨by simpa using hseparators c hmem, by simpa using hnul c hmem⟩

/-- No comment for pip is no comment for the scanner of the parser. -/
theorem findUnquotedFrom_of_comment {text : Text} (hbreak : '\n' ∉ text) {start : Bool}
    {quote previous : Option Char} {escaped : Bool}
    (hstart : previous = some ' ' ∨ previous = some '\t' → start = true)
    (h : commentFrom start text = none) :
    findUnquotedFrom '#' true quote escaped previous text = none := by
  induction text generalizing start quote escaped previous with
  | nil => cases quote <;> rfl
  | cons c cs ih =>
      rw [List.mem_cons, not_or] at hbreak
      unfold commentFrom at h
      split at h
      · cases h
      · next hno =>
          have hrest : commentFrom (isSpace c) cs = none := Option.map_eq_none_iff.1 h
          have hspace : some c = some ' ' ∨ some c = some '\t' → isSpace c = true := by
            rintro (hc | hc) <;> cases hc <;> decide
          have hnext : ∀ quote' escaped',
              findUnquotedFrom '#' true quote' escaped' (some c) cs = none :=
            fun quote' escaped' => ih hbreak.2 hspace hrest
          cases quote with
          | some quote => simp [findUnquotedFrom, hnext]
          | none =>
              -- a `#` after white space would be a comment
              have hhash : ¬(c = '#' ∧ (previous = some ' ' ∨ previous = some '\t')) := by
                rintro ⟨rfl, hprevious⟩
                have hend : restOfLine cs = true := by
                  have hdrop : cs.dropWhile (· ≠ '\n') = [] := by
                    rw [List.dropWhile_eq_nil_iff]
                    intro d hd
                    exact decide_eq_true fun hdn => hbreak.2 (hdn ▸ hd)
                  unfold restOfLine
                  rw [hdrop]
                  rfl
                rw [hstart hprevious, hend] at hno
                exact hno (by decide)
              simp only [findUnquotedFrom, hnext, Option.map_none]
              split
              · rfl
              · split
                · next hmatch =>
                    exact absurd ⟨hmatch.1, by simpa using hmatch.2⟩ hhash
                · rfl

/-- The line check of a rendered item. -/
theorem requirementText_formatItem (h : EntryOk pk entry) (hbreak : NoBreak entry)
    (hcomment : pipFileComment (formatItem entry.item).toList = none) {lineNo : Nat}
    {found : Option Text} :
    requirementText (formatItem entry.item) lineNo = .ok found ↔
      found = some (formatItem entry.item).toList ∧ Admissible entry ∧
        endsLikeArchive (itemHead entry.item) = false := by
  obtain ⟨c, rest, hhead, hcanonical, -⟩ := formatItem_head h
  obtain ⟨d, hd, -, hback⟩ := formatItem_last h
  have hstrip := strip_of_trimmed (formatItem_trimmed h)
  have hempty : ¬((formatItem entry.item).toList = [] ∨
      (formatItem entry.item).toList.head? = some '#') := by
    rw [hhead]
    rintro (hnil | hhash)
    · cases hnil
    · obtain rfl : c = '#' := Option.some.inj hhash
      exact absurd hcanonical (by decide)
  have hwithout : withoutComment (formatItem entry.item).toList = (formatItem entry.item).toList := by
    unfold withoutComment findUnquoted
    rw [findUnquotedFrom_of_comment (formatItem_noBreak h hbreak).1 (by rintro (hp | hp) <;> cases hp)
      hcomment]
  have hcontinued : ¬(formatItem entry.item).toList.getLast? = some '\\' := by
    intro hlast
    exact hback (Option.some.inj (Eq.trans (Eq.symm hd) hlast))
  have hfull : ¬(formatItem entry.item).toList = [] := fun hnil => hempty (.inl hnil)
  rw [admissible_iff h]
  unfold requirementText
  dsimp only
  rw [hstrip, if_neg hempty, hwithout, decide_eq_false hcontinued, if_neg hfull,
    rejectUnsafeText_formatItem h]
  constructor
  · intro hread
    obtain ⟨u, hseparators, hread⟩ := bind_ok.1 hread
    obtain ⟨u, hnul, hread⟩ := bind_ok.1 hread
    obtain ⟨u, hlast, hread⟩ := bind_ok.1 hread
    obtain ⟨u, harchive, hread⟩ := bind_ok.1 hread
    cases hread
    exact ⟨rfl, ⟨rejectIf_ok.1 hseparators, rejectIf_ok.1 hnul⟩, rejectIf_ok.1 harchive⟩
  · rintro ⟨rfl, ⟨hseparators, hnul⟩, harchive⟩
    rw [hseparators, hnul, harchive]
    rfl

end Lines

/-! ## A rendered item read again -/

/-- The name and the extras of an item end like identifiers. -/
def Readable (item : RequirementItem) : Prop :=
  item.name.toList.getLast? ≠ some '-' ∧ ∀ e ∈ item.extras, e.toList.getLast? ≠ some '-'

/-- The marker that packaging reads from the rendered marker. -/
def MarkerReads (pk : Packaging) (item : RequirementItem) (marker : Option String) : Prop :=
  match item.marker with
  | none => marker = none
  | some m => ∃ m', pk.marker m = .ok m' ∧ marker = some m'

/-- The requirement that packaging reads from a rendered item. -/
structure ReadAs (pk : Packaging) (entry : Entry) (r : Requirement) : Prop where
  name : r.name = entry.item.name
  extras : r.extras.Perm entry.item.extras.dedup
  specifierSet : pk.specifierSet entry.item.specifier = some r.specifier
  clauses : ∀ s ∈ r.specifier, s ∈ entry.constraints.map Constraint.specifier
  marker : MarkerReads pk entry.item r.marker
  url : r.url = none

/-- What packaging does with a rendered item: canonical names are fixed, a name or extra that ends in
a hyphen is no identifier, and else name, extras, clauses and marker are read one by one. -/
structure ReadsBack (pk : Packaging) (entry : Entry) : Prop where
  canonicalName : pk.canonicalizeName entry.item.name = entry.item.name
  canonicalExtras : ∀ e ∈ entry.item.extras, pk.canonicalizeName e = e
  accepted : ∀ r, pk.requirement (formatItem entry.item) = .ok r →
    Readable entry.item ∧ ReadAs pk entry r
  complete : Readable entry.item → (∀ m, entry.item.marker = some m → ∃ m', pk.marker m = .ok m') →
    ∃ r, pk.requirement (formatItem entry.item) = .ok r

/-- An item that a second parse reads as itself. -/
structure Stable (pk : Packaging) (entry : Entry) : Prop where
  admissible : Admissible entry
  archive : endsLikeArchive (itemHead entry.item) = false
  readable : Readable entry.item
  extras : entry.item.extras.Nodup
  clauses : ∀ specifiers, pk.specifierSet entry.item.specifier = some specifiers →
    ∀ c ∈ entry.constraints, c.specifier ∈ specifiers
  marker : ∀ m, entry.item.marker = some m → pk.marker m = .ok m

/-- Two items that differ at most in where they stand in their file. -/
structure SameItem (a b : RequirementItem) : Prop where
  name : a.name = b.name
  extras : a.extras = b.extras
  specifier : a.specifier = b.specifier
  marker : a.marker = b.marker

theorem SameItem.format {a b : RequirementItem} (h : SameItem a b) : formatItem a = formatItem b := by
  unfold formatItem
  rw [h.name, h.extras, h.specifier, h.marker]

/-! ### Clauses and their text -/

/-- The text of a clause determines it. -/
theorem specifier_injective {pk : Packaging} {c d : Constraint} (hc : ConstraintOk pk c)
    (hd : ConstraintOk pk d) (h : c.specifier.str.toList = d.specifier.str.toList) : c = d := by
  have hspecifier : c.specifier = d.specifier := by
    obtain ⟨⟨cop, ctext⟩, cversion⟩ := c
    obtain ⟨⟨dop, dtext⟩, dversion⟩ := d
    have hcs := hc.supported
    have hds := hd.supported
    obtain ⟨a, b, hcop, -, hb⟩ := operator_chars hcs
    obtain ⟨a', b', hdop, -, hb'⟩ := operator_chars hds
    unfold Specifier.str at h
    rw [String.toList_append, String.toList_append, hcop, hdop] at h
    simp only [List.cons_append, List.nil_append, List.cons.injEq] at h
    obtain ⟨rfl, -, htext⟩ := h
    have hop : cop = dop := by
      dsimp only at hcs hds hcop hdop
      subst hb hb'
      rw [← hdop, String.toList_inj] at hcop
      revert hcop hcs hds
      cases cop <;> cases dop <;> decide
    rw [hop, String.toList_inj.1 htext]
  have hversion : c.version = d.version := by
    have hv := hc.version
    rw [hspecifier, hd.version] at hv
    exact (Option.some.inj hv).symm
  have hkey : c.sortKey = d.sortKey := by
    unfold Constraint.sortKey
    rw [hspecifier, hversion]
  exact Constraint.eq_of_le hc.read hd.read (le_of_eq hkey) (le_of_eq hkey.symm)

theorem specifier_noComma {pk : Packaging} {c : Constraint} (h : ConstraintOk pk c) :
    ',' ∉ c.specifier.str.toList := by
  obtain ⟨a, b, hop, ha, hb⟩ := operator_chars h.supported
  unfold Specifier.str
  rw [String.toList_append, hop]
  intro hmem
  simp only [List.cons_append, List.nil_append, List.mem_cons] at hmem
  rcases hmem with rfl | rfl | hmem
  · exact absurd ha (by decide)
  · exact absurd hb (by decide)
  · exact absurd (h.text.chars _ hmem) (by decide)

theorem specifier_nonempty {pk : Packaging} {c : Constraint} (h : ConstraintOk pk c) :
    c.specifier.str.toList ≠ [] := by
  obtain ⟨a, b, hop, -, -⟩ := operator_chars h.supported
  unfold Specifier.str
  rw [String.toList_append, hop]
  exact List.cons_ne_nil _ _

/-- Joined texts are separated again. -/
theorem intercalate_injective {as bs : List Text} (ha : ∀ x ∈ as, ',' ∉ x ∧ x ≠ [])
    (hb : ∀ x ∈ bs, ',' ∉ x ∧ x ≠ []) (h : [','].intercalate as = [','].intercalate bs) :
    as = bs := by
  have hempty : ∀ {xs : List Text}, (∀ x ∈ xs, ',' ∉ x ∧ x ≠ []) → [','].intercalate xs = [] →
      xs = [] := by
    intro xs hxs hnil
    cases xs with
    | nil => rfl
    | cons x rest =>
        exfalso
        cases hx : x with
        | nil => exact (hxs x (by simp)).2 hx
        | cons c cs =>
            have hmem : c ∈ [','].intercalate (x :: rest) :=
              mem_intercalate_of_mem (List.mem_cons_self) (by rw [hx]; simp)
            rw [hnil] at hmem
            cases hmem
  cases as with
  | nil => exact (hempty hb h.symm).symm
  | cons a as =>
      cases bs with
      | nil => exact hempty ha h
      | cons b bs =>
          rw [← List.splitOn_intercalate ',' (fun x hx => (ha x hx).1) (by simp), h,
            List.splitOn_intercalate ',' (fun x hx => (hb x hx).1) (by simp)]

/-- The text of the clauses determines them. -/
theorem formatSpecifiers_injective {pk : Packaging} {cs ds : List Constraint}
    (hcs : ∀ c ∈ cs, ConstraintOk pk c) (hds : ∀ d ∈ ds, ConstraintOk pk d)
    (h : formatSpecifiers cs = formatSpecifiers ds) : cs = ds := by
  have htext := congrArg String.toList h
  rw [formatSpecifiers_toList, formatSpecifiers_toList] at htext
  have hparts : ∀ {xs : List Constraint}, (∀ x ∈ xs, ConstraintOk pk x) →
      ∀ x ∈ xs.map (fun c => c.specifier.str.toList), ',' ∉ x ∧ x ≠ [] := by
    intro xs hxs x hx
    obtain ⟨c, hc, rfl⟩ := List.mem_map.1 hx
    exact ⟨specifier_noComma (hxs c hc), specifier_nonempty (hxs c hc)⟩
  have hmap := intercalate_injective (hparts hcs) (hparts hds) htext
  clear h htext hparts
  induction cs generalizing ds with
  | nil => exact (List.map_eq_nil_iff.1 hmap.symm).symm
  | cons c cs ih =>
      cases ds with
      | nil => cases hmap
      | cons d ds =>
          rw [List.map_cons, List.map_cons, List.cons.injEq] at hmap
          have hcd := specifier_injective (hcs c (by simp)) (hds d (by simp)) hmap.1
          have hrest := ih (fun x hx => hcs x (by simp [hx])) (fun x hx => hds x (by simp [hx])) hmap.2
          rw [hcd, hrest]

/-! ### One item -/

section Items

variable {pk : Packaging} {entry : Entry}

/-- The clauses that a second parse reads are the clauses of the item, or some of them. -/
theorem ReadAs.constraints (hentry : EntryOk pk entry) {r : Requirement} (h : ReadAs pk entry r)
    {lineNo : Nat} {originalText : String} {read : List Constraint}
    (hread : readConstraints pk lineNo originalText r.specifier = .ok read) :
    ∀ c ∈ read, c ∈ entry.constraints := by
  obtain ⟨hmap, hreads⟩ := readConstraints_ok.1 hread
  intro c hc
  have hspecifier : c.specifier ∈ r.specifier := by
    rw [← hmap]
    exact List.mem_map_of_mem hc
  obtain ⟨d, hd, hsame⟩ := List.mem_map.1 (h.clauses _ hspecifier)
  have hversion : c.version = d.version := by
    have hv := (hreads c hc).version
    rw [← hsame, (hentry.constraints d hd).version] at hv
    exact (Option.some.inj hv).symm
  have hcd : c = d := by
    cases c
    cases d
    simp_all
  rw [hcd]
  exact hd

/-- The constraints of some of the item's clauses are read. -/
theorem readConstraints_of_clauses (hentry : EntryOk pk entry) {specifiers : List Specifier}
    (h : ∀ s ∈ specifiers, s ∈ entry.constraints.map Constraint.specifier) (lineNo : Nat)
    (originalText : String) :
    ∃ read, readConstraints pk lineNo originalText specifiers = .ok read := by
  induction specifiers with
  | nil => exact ⟨[], rfl⟩
  | cons s rest ih =>
      obtain ⟨read, hread⟩ := ih fun x hx => h x (by simp [hx])
      obtain ⟨hmap, hreads⟩ := readConstraints_ok.1 hread
      obtain ⟨c, hc, rfl⟩ := List.mem_map.1 (h s (by simp))
      refine ⟨c :: read, readConstraints_ok.2 ⟨by rw [List.map_cons, hmap], ?_⟩⟩
      intro d hd
      rcases List.mem_cons.1 hd with rfl | hd
      · exact (hentry.constraints d hc).read
      · exact hreads d hd

theorem canonicalExtras_map (h : ReadsBack pk entry) {extras : List String}
    (hsub : ∀ e ∈ extras, e ∈ entry.item.extras) : extras.map pk.canonicalizeName = extras := by
  have hid : extras.map pk.canonicalizeName = extras.map id :=
    List.map_congr_left fun e he => h.canonicalExtras e (hsub e he)
  rw [hid, List.map_id]

/-- A stable item is read as itself. -/
theorem readLine_of_stable (hentry : LineOk pk entry) (hreads : ReadsBack pk entry)
    (hbreak : NoBreak entry)
    (hsafe : ∀ lineNo originalText,
      ensurePipFileSafe (formatItem entry.item).toList lineNo originalText = .ok ())
    (h : Stable pk entry) (lineNo : Nat) :
    ∃ again, readLine pk lineNo (formatItem entry.item) = .ok (some again) ∧
      SameItem entry.item again.item ∧ again.constraints = entry.constraints := by
  obtain ⟨r, hr⟩ := hreads.complete h.readable fun m hm => ⟨m, h.marker m hm⟩
  obtain ⟨-, hread⟩ := hreads.accepted r hr
  obtain ⟨read, hconstraints⟩ := readConstraints_of_clauses hentry.toEntryOk hread.clauses lineNo
    (formatItem entry.item)
  have hcomment := (ensurePipFileSafe_ok.1 (hsafe lineNo "")).1
  -- the clauses: none is dropped, so that the deduplicated ones are those of the item
  have hsame : deduplicateSpecifiers read = entry.constraints := by
    rw [← hentry.deduplicated]
    apply deduplicate_congr (readConstraints_ok.1 hconstraints).2
    intro c
    constructor
    · exact hread.constraints hentry.toEntryOk hconstraints c
    · intro hc
      have hspecifier := h.clauses r.specifier hread.specifierSet c hc
      rw [← (readConstraints_ok.1 hconstraints).1] at hspecifier
      obtain ⟨d, hd, hdc⟩ := List.mem_map.1 hspecifier
      have hd' := hread.constraints hentry.toEntryOk hconstraints d hd
      have hdc' : d = c := by
        apply specifier_injective (hentry.constraints d hd') (hentry.constraints c hc)
        rw [hdc]
      rw [← hdc']
      exact hd
  have hextras : sortNames (r.extras.map pk.canonicalizeName) = entry.item.extras := by
    rw [canonicalExtras_map hreads fun e he => List.mem_dedup.1 (hread.extras.mem_iff.1 he),
      sortNames_congr hread.extras, h.extras.dedup]
    exact sortNames_of_sorted hentry.sorted
  have hmarker : r.marker = entry.item.marker := by
    have hm := hread.marker
    unfold MarkerReads at hm
    cases hmarker : entry.item.marker with
    | none =>
        rw [hmarker] at hm
        exact hm
    | some m =>
        rw [hmarker] at hm
        obtain ⟨m', hm', hr'⟩ := hm
        rw [h.marker m hmarker] at hm'
        cases hm'
        exact hr'
  have hitem : SameItem entry.item
      (lineItem pk lineNo (formatItem entry.item) r entry.constraints) := by
    constructor
    · show entry.item.name = pk.canonicalizeName r.name
      rw [hread.name, hreads.canonicalName]
    · exact hextras.symm
    · exact hentry.specifier
    · exact hmarker.symm
  refine ⟨⟨lineItem pk lineNo (formatItem entry.item) r entry.constraints, entry.constraints⟩, ?_,
    hitem, rfl⟩
  apply readLine_some.2
  refine ⟨(formatItem entry.item).toList, r, ?_, ?_, rfl, ?_, hentry.consistent⟩
  · exact (requirementText_formatItem hentry.toEntryOk hbreak hcomment).2
      ⟨rfl, h.admissible, h.archive⟩
  · unfold parseLine
    rw [String.ofList_toList, hr]
    dsimp only
    apply bind_ok.2
    refine ⟨(), ?_, ?_⟩
    · rw [hread.url]
      rfl
    · apply bind_ok.2
      refine ⟨read, hconstraints, ?_⟩
      show Except.ok (r, deduplicateSpecifiers read) = _
      rw [hsame]
  · rw [← hitem.format]
    exact hsafe _ _

/-- An item that is read as itself is stable. -/
theorem stable_of_readLine (hentry : LineOk pk entry) (hgrammar : Grammar pk)
    (hreads : ReadsBack pk entry) (hbreak : NoBreak entry)
    (hcomment : pipFileComment (formatItem entry.item).toList = none) {lineNo : Nat} {again : Entry}
    (h : readLine pk lineNo (formatItem entry.item) = .ok (some again))
    (hsame : SameItem entry.item again.item) : Stable pk entry := by
  obtain ⟨text, r, hline⟩ := readLine_some.1 h
  obtain ⟨htext, hadmissible, harchive⟩ :=
    (requirementText_formatItem hentry.toEntryOk hbreak hcomment).1 hline.held
  obtain rfl := Option.some.inj htext
  obtain ⟨hr, -, read, hread, hdedup⟩ := parseLine_ok hline.grammar
  rw [String.ofList_toList] at hr
  obtain ⟨hreadable, has⟩ := hreads.accepted r hr
  have hagain := hline.ok hgrammar
  have hitem := hline.item
  constructor
  · exact hadmissible
  · exact harchive
  · exact hreadable
  · -- the set of the extras has as many elements as the list
    have hextras := hsame.extras
    rw [hitem] at hextras
    have hset : sortNames (r.extras.map pk.canonicalizeName) = entry.item.extras := hextras.symm
    rw [canonicalExtras_map hreads fun e he => List.mem_dedup.1 (has.extras.mem_iff.1 he)] at hset
    rw [← hset, (sortNames_perm _).nodup_iff, has.extras.nodup_iff]
    exact List.nodup_dedup _
  · intro specifiers hspecifiers c hc
    obtain rfl : r.specifier = specifiers :=
      Option.some.inj (has.specifierSet.symm.trans hspecifiers)
    have hspecifier := hsame.specifier
    rw [hentry.specifier, hagain.specifier] at hspecifier
    have hconstraints := formatSpecifiers_injective hentry.constraints hagain.constraints hspecifier
    rw [hconstraints, hdedup, mem_deduplicate] at hc
    rw [← (readConstraints_ok.1 hread).1]
    exact List.mem_map_of_mem hc
  · intro m hm
    have hmarker := hsame.marker
    rw [hitem, hm] at hmarker
    have hmarker : r.marker = some m := hmarker.symm
    have hreads' := has.marker
    unfold MarkerReads at hreads'
    rw [hm] at hreads'
    obtain ⟨m', hm', hr'⟩ := hreads'
    rw [hmarker] at hr'
    cases hr'
    exact hm'

end Items

/-! ### All items -/

section Files

variable {pk : Packaging} {gbk : ByteArray → Option String}

theorem SameItem.key {a b : Entry} (h : SameItem a.item b.item) : b.key = a.key := by
  unfold Entry.key
  rw [h.name, h.marker]

/-- Lines with new keys are appended one after another. -/
theorem readLines_of_stable {es : List Entry} (acc : List Entry) (hok : ∀ e ∈ es, LineOk pk e)
    (hreads : ∀ e ∈ es, ReadsBack pk e) (hbreak : ∀ e ∈ es, NoBreak e)
    (hsafe : ∀ e ∈ es, ∀ lineNo originalText,
      ensurePipFileSafe (formatItem e.item).toList lineNo originalText = .ok ())
    (hstable : ∀ e ∈ es, Stable pk e) (hnodup : (es.map Entry.key).Nodup)
    (hnew : ∀ e ∈ es, e.key ∉ acc.map Entry.key) (lineNo : Nat) :
    ∃ again, readLines pk lineNo (es.map fun e => formatItem e.item) acc = .ok (acc ++ again) ∧
      List.Forall₂ (fun e a => SameItem e.item a.item) es again := by
  induction es generalizing acc lineNo with
  | nil => exact ⟨[], by simp [readLines], .nil⟩
  | cons e rest ih =>
      obtain ⟨a, hline, hsame, -⟩ := readLine_of_stable (hok e (by simp)) (hreads e (by simp))
        (hbreak e (by simp)) (hsafe e (by simp)) (hstable e (by simp)) lineNo
      rw [List.map_cons, List.nodup_cons] at hnodup
      have hkey : a.key ∉ acc.map Entry.key := by
        rw [hsame.key]
        exact hnew e (by simp)
      have hadd : addEntry pk acc a = .ok (acc ++ [a]) := by
        unfold addEntry
        have hfind : acc.find? (·.key = a.key) = none := by
          rw [List.find?_eq_none]
          intro x hx
          rw [decide_eq_true_eq]
          intro hxa
          exact hkey (hxa ▸ List.mem_map_of_mem hx)
        rw [hfind]
      have hnew' : ∀ x ∈ rest, x.key ∉ (acc ++ [a]).map Entry.key := by
        intro x hx
        rw [List.map_append, List.mem_append, List.map_singleton, List.mem_singleton, hsame.key]
        rintro (hmem | heq)
        · exact hnew x (by simp [hx]) hmem
        · rw [← heq] at hnodup
          exact hnodup.1 (List.mem_map_of_mem hx)
      obtain ⟨again, hrest, hall⟩ := ih (acc ++ [a]) (fun x hx => hok x (by simp [hx]))
        (fun x hx => hreads x (by simp [hx])) (fun x hx => hbreak x (by simp [hx]))
        (fun x hx => hsafe x (by simp [hx])) (fun x hx => hstable x (by simp [hx])) hnodup.2 hnew'
        (lineNo + 1)
      refine ⟨a :: again, ?_, .cons hsame hall⟩
      unfold readLines
      apply bind_ok.2
      refine ⟨some a, hline, ?_⟩
      apply bind_ok.2
      refine ⟨acc ++ [a], hadd, ?_⟩
      rw [hrest, List.append_assoc]
      rfl

theorem addEntry_length {entries entries' : List Entry} {entry : Entry}
    (h : addEntry pk entries entry = .ok entries') :
    entries' = entries ++ [entry] ∨ entries'.length = entries.length := by
  unfold addEntry at h
  split at h
  · cases h
    exact .inl rfl
  · split at h
    · cases h
    · cases h
      exact .inr (List.length_map _)

/-- The loop adds at most one entry for each line, and where it adds one for every line none is
skipped or merged. -/
theorem readLines_full {texts : List String} {lineNo : Nat} {acc out : List Entry}
    (h : readLines pk lineNo texts acc = .ok out) :
    out.length ≤ acc.length + texts.length ∧
      (out.length = acc.length + texts.length → ∃ again, out = acc ++ again ∧
        List.Forall₂ (fun text a => ∃ n, readLine pk n text = .ok (some a)) texts again) := by
  induction texts generalizing lineNo acc with
  | nil =>
      cases h
      exact ⟨le_refl _, fun _ => ⟨[], by simp, .nil⟩⟩
  | cons text rest ih =>
      unfold readLines at h
      obtain ⟨found, hline, h⟩ := bind_ok.1 h
      rw [List.length_cons]
      cases found with
      | none =>
          obtain ⟨hle, -⟩ := ih h
          exact ⟨by omega, fun heq => absurd heq (by omega)⟩
      | some a =>
          obtain ⟨next, hadd, h⟩ := bind_ok.1 h
          obtain ⟨hle, hfull⟩ := ih h
          rcases addEntry_length hadd with hnext | hnext
          · have hlength : next.length = acc.length + 1 := by simp [hnext]
            refine ⟨by omega, ?_⟩
            intro heq
            obtain ⟨again, hout, hall⟩ := hfull (by omega)
            refine ⟨a :: again, ?_, .cons ⟨lineNo, hline⟩ hall⟩
            rw [hout, hnext, List.append_assoc]
            rfl
          · exact ⟨by omega, fun heq => absurd heq (by omega)⟩

/-- The lines of the normalized text. -/
theorem inputLines_normalizedText (gbk : ByteArray → Option String) {entries : List Entry}
    (hok : ∀ e ∈ entries, EntryOk pk e) (hbreak : ∀ e ∈ entries, NoBreak e)
    (hcount : entries.length ≤ maxLogicalLines) :
    inputLines gbk (normalizedText (entries.map Entry.item)).toUTF8 =
      if (normalizedText (entries.map Entry.item)).toUTF8.size > maxInputBytes then
        .error (.parse (.inputTooLarge (normalizedText (entries.map Entry.item)).toUTF8.size
          maxInputBytes))
      else .ok (if entries = [] then [""] else entries.map (fun e => formatItem e.item), "utf-8") := by
  have htext := normalizedText_toList (entries.map Entry.item)
  rw [List.map_map] at htext
  cases entries with
  | nil => rfl
  | cons e rest =>
      obtain ⟨c, tail, hhead, hcanonical, -⟩ := formatItem_head (hok e (by simp))
      have hstart : ∃ more, (normalizedText ((e :: rest).map Entry.item)).toList = c :: more := by
        rw [htext]
        unfold joinLines
        rw [List.map_cons]
        dsimp only [Function.comp_apply]
        rw [hhead]
        cases rest with
        | nil => exact ⟨_, by rw [List.map_nil, List.intercalate_singleton]; rfl⟩
        | cons f fs => exact ⟨_, by rw [List.map_cons, List.intercalate_cons_cons]; rfl⟩
      obtain ⟨more, hmore⟩ := hstart
      have hascii : c.toNat < 0x80 := by
        simp [canonicalChar] at hcanonical
        omega
      have hreturn : '\r' ∉ (normalizedText ((e :: rest).map Entry.item)).toList := by
        rw [htext]
        intro hmem
        rcases List.mem_append.1 hmem with hmem | hmem
        · rcases mem_intercalate hmem with hmem | ⟨line, hline, hmem⟩
          · exact absurd hmem (by decide)
          · obtain ⟨f, hf, rfl⟩ := List.mem_map.1 hline
            exact (formatItem_noBreak (hok f hf) (hbreak f hf)).2 hmem
        · exact absurd (List.mem_singleton.1 hmem) (by decide)
      have hlines : logicalLines (normalizedText ((e :: rest).map Entry.item)).toList =
          (e :: rest).map fun f => (formatItem f.item).toList := by
        rw [htext]
        apply logicalLines_joinLines
        · simp
        · intro line hline
          obtain ⟨f, hf, rfl⟩ := List.mem_map.1 hline
          exact (formatItem_noBreak (hok f hf) (hbreak f hf)).1
      unfold inputLines
      split
      · rfl
      · rw [decode_toUTF8 gbk hmore hascii]
        dsimp only
        rw [normalizeNewlines_of_notMem hreturn, hlines, List.map_map]
        have hmap : (e :: rest).map (String.ofList ∘ fun f => (formatItem f.item).toList) =
            (e :: rest).map fun f => formatItem f.item :=
          List.map_congr_left fun f _ => String.ofList_toList
        rw [hmap, List.length_map, if_neg (Nat.not_lt.2 hcount), if_neg (List.cons_ne_nil e rest)]

/-- The stored text parses to what was parsed. -/
def Reparses (pk : Packaging) (gbk : ByteArray → Option String) (p : ParsedRequirements) : Prop :=
  ∃ p', parseRequirements pk gbk p.normalizedText.toUTF8 = .ok p' ∧
    p'.normalizedText = p.normalizedText ∧ List.Forall₂ SameItem p.items p'.items

/-- A list of the items of one entry each. -/
theorem forall₂_items {es again : List Entry}
    (h : List.Forall₂ (fun e a => SameItem e.item a.item) es again) :
    List.Forall₂ SameItem (es.map Entry.item) (again.map Entry.item) := by
  rw [List.forall₂_map_left_iff, List.forall₂_map_right_iff]
  exact h

theorem normalizedText_congr {items items' : List RequirementItem}
    (h : List.Forall₂ SameItem items items') : normalizedText items' = normalizedText items := by
  have hformat : items'.map formatItem = items.map formatItem := by
    induction h with
    | nil => rfl
    | cons hsame _ ih => rw [List.map_cons, List.map_cons, ih, hsame.format]
  unfold normalizedText
  rw [hformat]

variable {raw : ByteArray} {p : ParsedRequirements} {texts : List String} {entries : List Entry}

theorem Parsed.count (hgrammar : Grammar pk) (h : Parsed pk gbk raw p texts entries) :
    entries.length ≤ maxLogicalLines := by
  have hlength := (h.merged hgrammar).length
  have hlines : (lineEntries pk 1 texts).length ≤ texts.length := lineEntries_length 1 texts
  have hmax : texts.length ≤ maxLogicalLines := by
    have hinput := h.input
    unfold inputLines at hinput
    split at hinput
    · cases hinput
    · split at hinput
      · cases hinput
      · dsimp only at hinput
        split at hinput
        · cases hinput
        · next hmax =>
            cases hinput
            exact Nat.not_lt.1 hmax
  omega

theorem Parsed.safeAnywhere (h : Parsed pk gbk raw p texts entries) {e : Entry} (he : e ∈ entries)
    (lineNo : Nat) (originalText : String) :
    ensurePipFileSafe (formatItem e.item).toList lineNo originalText = .ok () := by
  have hsafe := ensureItemsSafe_ok.1 h.safe e.item (by
    rw [h.items]
    exact List.mem_map_of_mem he)
  exact ensurePipFileSafe_ok.2 (ensurePipFileSafe_ok.1 hsafe)

/-- Stable items that fit the limit are parsed again as they are. -/
theorem reparses_of_stable (hgrammar : Grammar pk) (h : Parsed pk gbk raw p texts entries)
    (hreads : ∀ e ∈ entries, ReadsBack pk e) (hbreak : ∀ e ∈ entries, NoBreak e)
    (hsize : p.normalizedText.toUTF8.size ≤ maxInputBytes)
    (hstable : ∀ e ∈ entries, Stable pk e) : Reparses pk gbk p := by
  have hmerged := h.merged hgrammar
  have hinput := inputLines_normalizedText gbk (fun e he => (hmerged.ok e he).toEntryOk) hbreak
    (h.count hgrammar)
  rw [← h.items, ← h.text, if_neg (Nat.not_lt.2 hsize)] at hinput
  obtain ⟨again, hread, hall⟩ := readLines_of_stable [] hmerged.ok hreads hbreak
    (fun e he => h.safeAnywhere he) hstable hmerged.nodup (by simp) 1
  rw [List.nil_append] at hread
  have hsame := forall₂_items hall
  rw [← h.items] at hsame
  have hsafe : ensureItemsSafe (again.map Entry.item) = .ok () := by
    rw [ensureItemsSafe_ok]
    intro item hitem
    obtain ⟨a, ha, rfl⟩ := List.mem_map.1 hitem
    obtain ⟨i, hi, rfl⟩ := List.getElem_of_mem ha
    have hi' : i < entries.length := by
      rw [hall.length_eq]
      exact hi
    have hea : SameItem entries[i].item again[i].item := hall.get hi' hi
    rw [← hea.format]
    exact h.safeAnywhere (List.getElem_mem hi') _ _
  refine ⟨⟨normalizedText (again.map Entry.item), again.map Entry.item, "utf-8"⟩, ?_, ?_, hsame⟩
  · apply parseRequirements_ok.2
    cases hentries : entries with
    | nil =>
        -- the empty file is one empty line
        rw [hentries] at hall hinput
        cases hall
        exact ⟨[""], [], hinput, rfl, rfl, rfl, rfl⟩
    | cons e rest =>
        rw [hentries, if_neg (List.cons_ne_nil e rest)] at hinput
        rw [hentries] at hread
        exact ⟨_, again, hinput, hread, rfl, hsafe, rfl⟩
  · rw [h.text]
    exact normalizedText_congr hsame

/-- Items that are parsed again as they are fit the limit and are stable. -/
theorem stable_of_reparses (hgrammar : Grammar pk) (h : Parsed pk gbk raw p texts entries)
    (hreads : ∀ e ∈ entries, ReadsBack pk e) (hbreak : ∀ e ∈ entries, NoBreak e)
    (hre : Reparses pk gbk p) :
    p.normalizedText.toUTF8.size ≤ maxInputBytes ∧ ∀ e ∈ entries, Stable pk e := by
  have hmerged := h.merged hgrammar
  have hinput := inputLines_normalizedText gbk (fun e he => (hmerged.ok e he).toEntryOk) hbreak
    (h.count hgrammar)
  rw [← h.items, ← h.text] at hinput
  obtain ⟨p', hparse, -, hsame⟩ := hre
  obtain ⟨texts', entries', h'⟩ := parseRequirements_ok.1 hparse
  have htexts := h'.input
  rw [hinput] at htexts
  split at htexts
  · cases htexts
  · next hsize =>
      refine ⟨Nat.not_lt.1 hsize, ?_⟩
      intro e he
      have hne : entries ≠ [] := List.ne_nil_of_mem he
      rw [if_neg hne] at htexts
      obtain rfl : entries.map (fun e => formatItem e.item) = texts' :=
        congrArg Prod.fst (Except.ok.inj htexts)
      -- as many items as lines: no line was skipped or merged
      obtain ⟨-, hfull⟩ := readLines_full h'.loop
      have hcount : entries'.length = entries.length := by
        have hlength := hsame.length_eq
        rw [h.items, h'.items, List.length_map, List.length_map] at hlength
        exact hlength.symm
      obtain ⟨again, hout, hall⟩ := hfull (by rw [List.length_map]; simpa using hcount)
      rw [List.nil_append] at hout
      subst hout
      rw [List.forall₂_map_left_iff] at hall
      rw [h.items, h'.items, List.forall₂_map_left_iff, List.forall₂_map_right_iff] at hsame
      obtain ⟨i, hi, rfl⟩ := List.getElem_of_mem he
      obtain ⟨n, hline⟩ := hall.get hi (by omega)
      have hitem := hsame.get hi (by omega)
      have hsafe := h.safeAnywhere (List.getElem_mem hi) n ""
      exact stable_of_readLine (hmerged.ok _ (List.getElem_mem hi)) hgrammar
        (hreads _ (List.getElem_mem hi)) (hbreak _ (List.getElem_mem hi))
        (ensurePipFileSafe_ok.1 hsafe).1 hline hitem

/-- Where no marker holds a line break, the normalized text parses again to what was parsed exactly
when it fits the byte limit and every item is stable. -/
theorem reparses_iff (hgrammar : Grammar pk) (h : Parsed pk gbk raw p texts entries)
    (hreads : ∀ e ∈ entries, ReadsBack pk e) (hbreak : ∀ e ∈ entries, NoBreak e) :
    Reparses pk gbk p ↔
      p.normalizedText.toUTF8.size ≤ maxInputBytes ∧ ∀ e ∈ entries, Stable pk e := by
  constructor
  · exact stable_of_reparses hgrammar h hreads hbreak
  · rintro ⟨hsize, hstable⟩
    exact reparses_of_stable hgrammar h hreads hbreak hsize hstable

end Files

/-! ## Two spellings of one extra -/

def twiceText : String := "demo[a.b,a-b]"

def exactText : String := "demo[a-b]==1.0"

def exactVersion : Version := .ofMajor 1

/-- What packaging reads from the two texts and from what the parser renders for the first. -/
def extrasPackaging : Packaging where
  version text := if text = "1.0" then some exactVersion else none
  requirement text :=
    if text = twiceText then .ok ⟨"demo", ["a.b", "a-b"], [], none, none⟩
    else if text = "demo[a-b,a-b]" then .ok ⟨"demo", ["a-b"], [], none, none⟩
    else if text = exactText then .ok ⟨"demo", ["a-b"], [⟨.equal, "1.0"⟩], none, none⟩
    else .error .invalidRequirement
  marker _ := .error .invalidRequirement
  specifier text := if text = "==1.0" then some ⟨.equal, "1.0"⟩ else none
  specifierSet text :=
    if text = "" then some [] else if text = "==1.0" then some [⟨.equal, "1.0"⟩] else none
  contains specifier version := specifier = ⟨.equal, "1.0"⟩ && version.Same exactVersion
  canonicalizeName name := if name = "a.b" then "a-b" else name

theorem extrasPackaging_accepts {text : String} {r : Requirement}
    (h : extrasPackaging.requirement text = .ok r) :
    r.name = "demo" ∧ (∀ e ∈ r.extras, e = "a.b" ∨ e = "a-b") ∧
      (∀ s ∈ r.specifier, s.version = "1.0") ∧ r.marker = none := by
  unfold extrasPackaging at h
  dsimp only at h
  split at h
  · cases h
    exact ⟨rfl, by decide, by simp, rfl⟩
  · split at h
    · cases h
      exact ⟨rfl, by decide, by simp, rfl⟩
    · split at h
      · cases h
        exact ⟨rfl, by decide, by simp, rfl⟩
      · cases h

theorem extrasPackaging_grammar : Grammar extrasPackaging where
  name := by
    intro text r h
    rw [(extrasPackaging_accepts h).1]
    exact ⟨⟨'d', rfl, by decide, by decide⟩, forall_mem_of_all (by decide)⟩
  extra := by
    intro text r h e he
    rcases (extrasPackaging_accepts h).2.1 e he with rfl | rfl
    · exact ⟨⟨'a', rfl, by decide, by decide⟩, forall_mem_of_all (by decide)⟩
    · exact ⟨⟨'a', rfl, by decide, by decide⟩, forall_mem_of_all (by decide)⟩
  version := by
    intro text r h s hs _ _
    rw [(extrasPackaging_accepts h).2.2.1 s hs]
    exact ⟨by decide, forall_mem_of_all (by decide), by decide⟩
  marker := by
    intro text r m h hm
    rw [(extrasPackaging_accepts h).2.2.2] at hm
    cases hm

def exactEntry : Entry where
  item := ⟨1, "demo", ["a-b"], "==1.0", none, exactText⟩
  constraints := [⟨⟨.equal, "1.0"⟩, exactVersion⟩]

def exactParsed : ParsedRequirements where
  normalizedText := "demo[a-b]==1.0\n"
  items := [exactEntry.item]
  encoding := "utf-8"

theorem exactParsed_parsed : Parsed extrasPackaging (fun _ => none) exactText.toUTF8 exactParsed
    [exactText] [exactEntry] where
  input := by decide
  loop := by decide
  items := rfl
  safe := by decide
  text := by decide

/-- A requirement with one extra is parsed again as it is. -/
theorem exactParsed_reparses : Reparses extrasPackaging (fun _ => none) exactParsed := by
  apply (reparses_iff extrasPackaging_grammar exactParsed_parsed ?_ ?_).2
  · refine ⟨by decide +kernel, ?_⟩
    intro e he
    obtain rfl := List.mem_singleton.1 he
    constructor
    · intro m hm
      cases hm
    · decide
    · exact ⟨by decide, by decide⟩
    · decide
    · intro specifiers hspecifiers c hc
      obtain rfl : [⟨.equal, "1.0"⟩] = specifiers := Option.some.inj hspecifiers
      obtain rfl := List.mem_singleton.1 hc
      exact List.mem_singleton_self _
    · intro m hm
      cases hm
  · intro e he
    obtain rfl := List.mem_singleton.1 he
    have hline : extrasPackaging.requirement (formatItem exactEntry.item) =
        .ok ⟨"demo", ["a-b"], [⟨.equal, "1.0"⟩], none, none⟩ := by
      decide +kernel
    constructor
    · rfl
    · decide
    · intro r hr
      rw [hline] at hr
      cases hr
      exact ⟨⟨by decide, by decide⟩, rfl, by decide, rfl, by decide, rfl, rfl⟩
    · intro _ _
      exact ⟨_, hline⟩
  · intro e he m hm
    obtain rfl := List.mem_singleton.1 he
    cases hm

/-- What the parser makes of the two spellings. -/
def twiceParsed : ParsedRequirements where
  normalizedText := "demo[a-b,a-b]\n"
  items := [⟨1, "demo", ["a-b", "a-b"], "", none, twiceText⟩]
  encoding := "utf-8"

/-- The two spellings are accepted, and the normalized text parses to another item. -/
theorem twiceParsed_not_reparses :
    parseRequirements extrasPackaging (fun _ => none) twiceText.toUTF8 = .ok twiceParsed ∧
      ¬Reparses extrasPackaging (fun _ => none) twiceParsed := by
  refine ⟨by decide +kernel, ?_⟩
  rintro ⟨p', hparse, htext, -⟩
  have hagain : parseRequirements extrasPackaging (fun _ => none)
      twiceParsed.normalizedText.toUTF8 = .ok ⟨"demo[a-b]\n",
        [⟨1, "demo", ["a-b"], "", none, "demo[a-b,a-b]"⟩], "utf-8"⟩ := by
    decide +kernel
  rw [hagain] at hparse
  cases hparse
  exact absurd htext (by decide)

end WheelForge.Parser
