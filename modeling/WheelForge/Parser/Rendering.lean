import WheelForge.Parser.Requirements

/-!
# The shape of a rendered requirement

`Grammar` says which characters packaging lets through in names, extras and plain versions and how it
ends a marker. A rendered item then begins with a canonical name, and before its marker there is no
white space, no quote, no separator of a path or URL and no version control prefix, so that of all
checks on unsafe text only the one for package archives can still fail
(`rejectUnsafeText_formatItem`).
-/

set_option autoImplicit false

namespace WheelForge.Parser

open WheelForge.Python
open WheelForge.Pep440

/-! ## Characters -/

/-- A character of a canonical name. -/
def canonicalChar (c : Char) : Bool :=
  (0x61 ≤ c.toNat && c.toNat ≤ 0x7a) || (0x30 ≤ c.toNat && c.toNat ≤ 0x39) || c.toNat = 0x2d

/-- A character of a version; the last four are what `[a-z]` matches beyond ASCII when case is
ignored. -/
def versionChar (c : Char) : Bool :=
  canonicalChar c || (0x41 ≤ c.toNat && c.toNat ≤ 0x5a) ||
    c.toNat ∈ [0x2e, 0x2b, 0x21, 0x5f, 0x130, 0x131, 0x17f, 0x212a]

/-- A character of a rendered requirement before its marker. -/
def headChar (c : Char) : Bool :=
  versionChar c || c.toNat ∈ [0x5b, 0x5d, 0x2c, 0x3d, 0x7e, 0x3c, 0x3e]

/-- A canonical name. -/
structure Canonical (text : Text) : Prop where
  first : ∃ c ∈ text.head?, canonicalChar c = true ∧ c ≠ '-'
  chars : ∀ c ∈ text, canonicalChar c = true

/-- The spelling of a version. -/
structure VersionText (text : Text) : Prop where
  nonempty : text ≠ []
  chars : ∀ c ∈ text, versionChar c = true
  vcs : ∀ needle ∈ vcsPrefixes, ¬needle <:+: casefold text

/-- The end of a rendered marker: a variable, a quoted value or a group. -/
def MarkerEnd (text : Text) : Prop :=
  ∃ c ∈ text.getLast?, isSpace c = false ∧ c ≠ '\\'

/-- What the grammar of requirements says about the parts of an accepted requirement. An arbitrary
clause may hold other characters, and a wildcard ends in a star: the parser refuses both. -/
structure Grammar (pk : Packaging) : Prop where
  name : ∀ {text r}, pk.requirement text = .ok r → Canonical (pk.canonicalizeName r.name).toList
  extra : ∀ {text r}, pk.requirement text = .ok r →
    ∀ e ∈ r.extras, Canonical (pk.canonicalizeName e).toList
  version : ∀ {text r}, pk.requirement text = .ok r →
    ∀ s ∈ r.specifier, supported s.operator = true → '*' ∉ s.version.toList →
      VersionText s.version.toList
  marker : ∀ {text r m}, pk.requirement text = .ok r → r.marker = some m → MarkerEnd m.toList

theorem headChar_of_version {c : Char} (h : versionChar c = true) : headChar c = true := by
  simp [headChar, h]

theorem versionChar_of_canonical {c : Char} (h : canonicalChar c = true) : versionChar c = true := by
  simp [versionChar, h]

theorem headChar_of_canonical {c : Char} (h : canonicalChar c = true) : headChar c = true :=
  headChar_of_version (versionChar_of_canonical h)

theorem not_isSpace_of_headChar {c : Char} (h : headChar c = true) : isSpace c = false := by
  simp [headChar, versionChar, canonicalChar] at h
  simp [isSpace]
  omega

theorem not_boundary_of_headChar {c : Char} (h : headChar c = true) : isLineBoundary c = false := by
  simp [headChar, versionChar, canonicalChar] at h
  simp [isLineBoundary]
  omega

/-- A character that is no head character does not occur in a head. -/
theorem notMem_of_headChars {text : Text} (h : ∀ c ∈ text, headChar c = true) {d : Char}
    (hd : headChar d = false) : d ∉ text := by
  intro hmem
  rw [h d hmem] at hd
  cases hd

/-- Texts whose characters all pass a test. -/
theorem forall_mem_of_all {test : Char → Bool} {text : Text} (h : text.all test = true) :
    ∀ c ∈ text, test c = true :=
  List.all_eq_true.1 h

/-! ## Case folding -/

theorem casefold_append (a b : Text) : casefold (a ++ b) = casefold a ++ casefold b := by
  simp [casefold]

theorem casefold_cons (c : Char) (text : Text) :
    casefold (c :: text) = casefoldChar c ++ casefold text := by
  simp [casefold]

theorem toLower_toNat {c : Char} (h : 'A' ≤ c ∧ c ≤ 'Z') : c.toLower.toNat = c.toNat + 32 := by
  have hval : c.val ≥ 'A'.val ∧ c.val ≤ 'Z'.val := h
  have hle : c.toNat ≤ 90 := h.2
  unfold Char.toLower
  rw [dif_pos hval]
  show (c.val + ('a'.val - 'A'.val)).toNat = c.val.toNat + 32
  rw [UInt32.toNat_add]
  have hsub : ('a'.val - 'A'.val).toNat = 32 := by decide
  have hc : c.val.toNat ≤ 90 := hle
  omega

theorem foldTable_letters : ∀ entry ∈ foldTable, ∀ d ∈ entry.2, 0x61 ≤ d.toNat := by
  have hall : (foldTable.all fun entry => entry.2.all fun d => decide (0x61 ≤ d.toNat)) = true := by
    decide
  intro entry hentry d hd
  have hfolded := List.all_eq_true.1 hall entry hentry
  exact of_decide_eq_true (List.all_eq_true.1 hfolded d hd)

/-- Folding neither makes nor moves an ASCII character that is no letter. -/
theorem eq_of_mem_casefoldChar {c d : Char} (hd : d ∈ casefoldChar c) (hascii : d.toNat < 0x61) :
    c = d := by
  unfold casefoldChar at hd
  split at hd
  · next hupper =>
      have hlower := toLower_toNat hupper
      have hge : 65 ≤ c.toNat := hupper.1
      simp only [List.mem_singleton] at hd
      subst hd
      omega
  · split at hd
    · next entry folded hfind =>
        have hletter := foldTable_letters _ (List.mem_of_find?_eq_some hfind) d hd
        omega
    · exact (List.mem_singleton.1 hd).symm

theorem notMem_casefold {text : Text} {d : Char} (hascii : d.toNat < 0x61) (h : d ∉ text) :
    d ∉ casefold text := by
  intro hmem
  obtain ⟨c, hc, hd⟩ := List.mem_flatMap.1 hmem
  have hcd := eq_of_mem_casefoldChar hd hascii
  subst hcd
  exact h hc

/-! ## Rendered items -/

/-- A constraint that the parser accepts. -/
structure ConstraintOk (pk : Packaging) (c : Constraint) : Prop where
  supported : supported c.specifier.operator = true
  text : VersionText c.specifier.version.toList
  version : pk.version c.specifier.version = some c.version

/-- An entry whose item renders what was accepted. -/
structure EntryOk (pk : Packaging) (entry : Entry) : Prop where
  name : Canonical entry.item.name.toList
  extras : ∀ e ∈ entry.item.extras, Canonical e.toList
  constraints : ∀ c ∈ entry.constraints, ConstraintOk pk c
  specifier : entry.item.specifier = formatSpecifiers entry.constraints
  marker : ∀ m, entry.item.marker = some m → MarkerEnd m.toList

/-- The head of an item, before its marker. -/
def itemHead (item : RequirementItem) : Text :=
  (formatHead item.name item.extras item.specifier).toList

/-- The marker of an item as it is rendered. -/
def itemTail (item : RequirementItem) : Text :=
  match item.marker with
  | none => []
  | some marker => ';' :: ' ' :: marker.toList

theorem formatItem_toList (item : RequirementItem) :
    (formatItem item).toList = itemHead item ++ itemTail item := by
  unfold formatItem itemHead itemTail
  rw [String.toList_append]
  cases item.marker with
  | none => rfl
  | some marker =>
      rw [String.toList_append]
      rfl

/-- The two characters of a supported operator. -/
theorem operator_chars {operator : Operator} (h : supported operator = true) :
    ∃ c d : Char, operator.str.toList = [c, d] ∧ c ∈ ['=', '~', '>', '<'] ∧ d = '=' := by
  cases operator with
  | equal => exact ⟨'=', '=', by decide, by decide, rfl⟩
  | compatible => exact ⟨'~', '=', by decide, by decide, rfl⟩
  | greaterEqual => exact ⟨'>', '=', by decide, by decide, rfl⟩
  | lessEqual => exact ⟨'<', '=', by decide, by decide, rfl⟩
  | notEqual | greater | less | arbitrary => cases h

section Heads

variable {pk : Packaging} {entry : Entry}

theorem specifier_chars {c : Constraint} (h : ConstraintOk pk c) :
    ∀ d ∈ c.specifier.str.toList, headChar d = true := by
  intro d hd
  obtain ⟨a, b, hop, ha, hb⟩ := operator_chars h.supported
  unfold Specifier.str at hd
  rw [String.toList_append, hop] at hd
  simp only [List.cons_append, List.nil_append, List.mem_cons] at hd
  rcases hd with rfl | rfl | hd
  · simp only [List.mem_cons, List.not_mem_nil, or_false] at ha
    rcases ha with rfl | rfl | rfl | rfl <;> decide
  · subst hb
    decide
  · exact headChar_of_version (h.text.chars d hd)

theorem formatSpecifiers_toList (constraints : List Constraint) :
    (formatSpecifiers constraints).toList =
      [','].intercalate (constraints.map fun c => c.specifier.str.toList) := by
  unfold formatSpecifiers
  rw [String.toList_intercalate, List.map_map]
  rfl

theorem formatSpecifiers_chars {constraints : List Constraint}
    (h : ∀ c ∈ constraints, ConstraintOk pk c) :
    ∀ d ∈ (formatSpecifiers constraints).toList, headChar d = true := by
  intro d hd
  rw [formatSpecifiers_toList] at hd
  rcases mem_intercalate hd with rfl | ⟨part, hpart, hd⟩
  · decide
  · obtain ⟨c, hc, rfl⟩ := List.mem_map.1 hpart
    exact specifier_chars (h c hc) d hd

theorem formatExtras_chars {extras : List String} (h : ∀ e ∈ extras, Canonical e.toList) :
    ∀ d ∈ (",".intercalate extras).toList, headChar d = true := by
  intro d hd
  rw [String.toList_intercalate] at hd
  rcases mem_intercalate hd with rfl | ⟨part, hpart, hd⟩
  · decide
  · obtain ⟨e, he, rfl⟩ := List.mem_map.1 hpart
    exact headChar_of_canonical ((h e he).chars d hd)

/-- The head as characters. -/
theorem itemHead_eq (item : RequirementItem) :
    itemHead item = item.name.toList ++
      ((if item.extras = [] then []
        else '[' :: ((",".intercalate item.extras).toList ++ [']'])) ++
        item.specifier.toList) := by
  unfold itemHead formatHead
  rw [String.toList_append, String.toList_append, List.append_assoc]
  split
  · rfl
  · rw [String.toList_append, String.toList_append]
    rfl

/-- Before its marker a rendered item has head characters only. -/
theorem itemHead_chars (h : EntryOk pk entry) : ∀ d ∈ itemHead entry.item, headChar d = true := by
  intro d hd
  rw [itemHead_eq] at hd
  simp only [List.mem_append] at hd
  rcases hd with hd | hd | hd
  · exact headChar_of_canonical (h.name.chars d hd)
  · split at hd
    · cases hd
    · simp only [List.mem_cons, List.mem_append, List.not_mem_nil, or_false] at hd
      rcases hd with rfl | hd | rfl
      · decide
      · exact formatExtras_chars h.extras d hd
      · decide
  · rw [h.specifier] at hd
    exact formatSpecifiers_chars h.constraints d hd

/-- A rendered item begins with the first character of its name. -/
theorem itemHead_first (h : EntryOk pk entry) :
    ∃ c rest, itemHead entry.item = c :: rest ∧ canonicalChar c = true ∧ c ≠ '-' := by
  obtain ⟨c, hc, hcanonical, hne⟩ := h.name.first
  obtain ⟨rest, hrest⟩ := List.head?_eq_some_iff.1 hc
  rw [itemHead_eq, hrest]
  exact ⟨c, _, List.cons_append, hcanonical, hne⟩

end Heads

/-! ## No version control prefix -/

/-- A needle that does not occur in the folded text. -/
def Lacks (needle text : Text) : Prop := ¬needle <:+: casefold text

/-- A separator: it folds to itself and does not occur in the prefixes. -/
def Separates (c : Char) : Prop :=
  casefoldChar c = [c] ∧ ∀ needle ∈ vcsPrefixes, c ∉ needle

theorem separates_head : ∀ c ∈ ['[', ']', ',', '=', '~', '>', '<'], Separates c := by
  intro c hc
  have hmem : c = '[' ∨ c = ']' ∨ c = ',' ∨ c = '=' ∨ c = '~' ∨ c = '>' ∨ c = '<' := by
    simpa using hc
  unfold Separates
  rcases hmem with rfl | rfl | rfl | rfl | rfl | rfl | rfl <;> decide

section Vcs

variable {needle : Text}

theorem Lacks.append_cons (hneedle : needle ∈ vcsPrefixes) {a b : Text} {c : Char}
    (hc : Separates c) (ha : Lacks needle a) (hb : Lacks needle b) : Lacks needle (a ++ c :: b) := by
  intro h
  rw [casefold_append, casefold_cons, hc.1] at h
  rcases infix_append_cons (hc.2 needle hneedle) h with h | h
  · exact ha h
  · exact hb h

theorem Lacks.nil (hneedle : needle ∈ vcsPrefixes) : Lacks needle [] := by
  intro h
  have hempty : needle = [] := List.infix_nil.1 h
  subst hempty
  exact absurd hneedle (by decide)

theorem plus_mem : ∀ needle ∈ vcsPrefixes, '+' ∈ needle := by
  decide

/-- Without a `+` there is no version control prefix. -/
theorem Lacks.of_notMem (hneedle : needle ∈ vcsPrefixes) {text : Text} (h : '+' ∉ text) :
    Lacks needle text := by
  intro hwithin
  have hplus := hwithin.subset (plus_mem needle hneedle)
  exact notMem_casefold (by decide) h hplus

theorem Canonical.lacks (hneedle : needle ∈ vcsPrefixes) {text : Text} (h : Canonical text) :
    Lacks needle text := by
  apply Lacks.of_notMem hneedle
  intro hmem
  have hplus := h.chars _ hmem
  exact absurd hplus (by decide)

theorem Lacks.intercalate (hneedle : needle ∈ vcsPrefixes) {parts : List Text}
    (h : ∀ part ∈ parts, Lacks needle part) : Lacks needle ([','].intercalate parts) := by
  induction parts with
  | nil => exact Lacks.nil hneedle
  | cons part rest ih =>
      cases rest with
      | nil => simpa using h part (by simp)
      | cons next rest =>
          rw [List.intercalate_cons_cons, List.append_assoc, List.singleton_append]
          apply Lacks.append_cons hneedle (separates_head _ (by decide)) (h part (by simp))
          exact ih fun p hp => h p (by simp [hp])

/-- A rendered specifier is an operator character and a rest without a prefix. -/
theorem specifier_lacks {pk : Packaging} (hneedle : needle ∈ vcsPrefixes) {c : Constraint}
    (h : ConstraintOk pk c) :
    ∃ a rest, c.specifier.str.toList = a :: rest ∧ Separates a ∧ Lacks needle rest := by
  obtain ⟨a, b, hop, ha, hb⟩ := operator_chars h.supported
  refine ⟨a, b :: c.specifier.version.toList, ?_, ?_, ?_⟩
  · unfold Specifier.str
    rw [String.toList_append, hop]
    rfl
  · apply separates_head
    simp only [List.mem_cons] at ha ⊢
    tauto
  · have hb' : Separates b := by
      subst hb
      exact separates_head _ (by decide)
    have hlacks := Lacks.append_cons hneedle hb' (Lacks.nil hneedle) (h.text.vcs needle hneedle)
    simpa using hlacks

theorem formatSpecifiers_lacks {pk : Packaging} (hneedle : needle ∈ vcsPrefixes)
    {constraints : List Constraint} (h : ∀ c ∈ constraints, ConstraintOk pk c) :
    (formatSpecifiers constraints).toList = [] ∨
      ∃ a rest, (formatSpecifiers constraints).toList = a :: rest ∧ Separates a ∧
        Lacks needle rest := by
  rw [formatSpecifiers_toList]
  cases constraints with
  | nil => exact .inl rfl
  | cons c cs =>
      right
      obtain ⟨a, rest, hc, ha, hrest⟩ := specifier_lacks hneedle (h c (by simp))
      cases cs with
      | nil => exact ⟨a, rest, by simp [hc], ha, hrest⟩
      | cons d ds =>
          refine ⟨a, rest ++ ',' :: [','].intercalate
            ((d :: ds).map fun c => c.specifier.str.toList), ?_, ha, ?_⟩
          · rw [List.map_cons, List.map_cons, List.intercalate_cons_cons, hc]
            simp
          · apply Lacks.append_cons hneedle (separates_head _ (by decide)) hrest
            apply Lacks.intercalate hneedle
            intro part hpart
            obtain ⟨e, he, rfl⟩ := List.mem_map.1 hpart
            obtain ⟨a', rest', he', ha', hrest'⟩ := specifier_lacks hneedle (h e (by simp [he]))
            rw [he']
            exact Lacks.append_cons hneedle ha' (Lacks.nil hneedle) hrest'

/-- A rendered head holds no version control prefix. -/
theorem itemHead_lacks {pk : Packaging} {entry : Entry} (hneedle : needle ∈ vcsPrefixes)
    (h : EntryOk pk entry) : Lacks needle (itemHead entry.item) := by
  have hname := h.name.lacks hneedle
  -- the specifier after a text that holds no prefix
  have hspec : ∀ text, Lacks needle text →
      Lacks needle (text ++ entry.item.specifier.toList) := by
    intro text htext
    rw [h.specifier]
    rcases formatSpecifiers_lacks hneedle h.constraints with hnil | ⟨a, rest, hcons, ha, hrest⟩
    · rw [hnil, List.append_nil]
      exact htext
    · rw [hcons]
      exact Lacks.append_cons hneedle ha htext hrest
  rw [itemHead_eq, ← List.append_assoc]
  apply hspec
  split
  · rw [List.append_nil]
    exact hname
  · apply Lacks.append_cons hneedle (separates_head _ (by decide)) hname
    apply Lacks.append_cons hneedle (separates_head _ (by decide)) _ (Lacks.nil hneedle)
    rw [String.toList_intercalate]
    apply Lacks.intercalate hneedle
    intro part hpart
    obtain ⟨e, he, rfl⟩ := List.mem_map.1 hpart
    exact (h.extras e he).lacks hneedle

end Vcs

/-! ## The checks of a rendered item -/

/-- A text without quotes is scanned up to the target. -/
theorem findUnquotedFrom_at {target : Char} {text : Text}
    (h : ∀ c ∈ text, c ≠ '"' ∧ c ≠ '\'' ∧ c ≠ target) (htarget : target ≠ '"' ∧ target ≠ '\'')
    (previous : Option Char) (rest : Text) :
    findUnquotedFrom target false none false previous (text ++ target :: rest) =
      some text.length := by
  induction text generalizing previous with
  | nil => simp [findUnquotedFrom, htarget.1, htarget.2]
  | cons c cs ih =>
      obtain ⟨hdouble, hsingle, hne⟩ := h c (by simp)
      have hrest := ih (fun d hd => h d (by simp [hd])) (some c)
      simp [findUnquotedFrom, hdouble, hsingle, hne, hrest]

/-- A text without quotes and without the target holds none. -/
theorem findUnquotedFrom_none {target : Char} {whitespaceBefore : Bool} {text : Text}
    (h : ∀ c ∈ text, c ≠ '"' ∧ c ≠ '\'' ∧ c ≠ target) (previous : Option Char) :
    findUnquotedFrom target whitespaceBefore none false previous text = none := by
  induction text generalizing previous with
  | nil => rfl
  | cons c cs ih =>
      obtain ⟨hdouble, hsingle, hne⟩ := h c (by simp)
      have hrest := ih (fun d hd => h d (by simp [hd])) (some c)
      simp [findUnquotedFrom, hdouble, hsingle, hne, hrest]

/-- The head ends like a package archive. -/
def endsLikeArchive (head : Text) : Bool :=
  archiveSuffixes.any fun suffix => suffix <:+ casefold head

section Checks

variable {pk : Packaging} {entry : Entry}

theorem itemHead_notMem (h : EntryOk pk entry) {d : Char} (hd : headChar d = false) :
    d ∉ itemHead entry.item :=
  notMem_of_headChars (itemHead_chars h) hd

/-- The part before the marker is the head. -/
theorem requirementPart_formatItem (h : EntryOk pk entry) :
    requirementPart (formatItem entry.item).toList = itemHead entry.item := by
  have hchars : ∀ c ∈ itemHead entry.item, c ≠ '"' ∧ c ≠ '\'' ∧ c ≠ ';' := by
    intro c hc
    have hhead := itemHead_chars h c hc
    refine ⟨?_, ?_, ?_⟩ <;>
      · rintro rfl
        exact absurd hhead (by decide)
  have htrim : rstrip (itemHead entry.item) = itemHead entry.item := by
    apply rstrip_of_last
    intro c hc
    exact not_isSpace_of_headChar (itemHead_chars h c (List.mem_of_getLast? hc))
  unfold requirementPart findUnquoted
  rw [formatItem_toList]
  unfold itemTail
  cases entry.item.marker with
  | none =>
      dsimp only
      rw [List.append_nil, findUnquotedFrom_none hchars]
      exact htrim
  | some marker =>
      dsimp only
      rw [findUnquotedFrom_at hchars (by decide)]
      dsimp only
      rw [List.take_left]
      exact htrim

theorem pipArgument_itemHead (h : EntryOk pk entry) : pipArgument (itemHead entry.item) = false := by
  obtain ⟨c, rest, hhead, hcanonical, hne⟩ := itemHead_first h
  have hstart : argumentAt (itemHead entry.item) = false := by
    rw [hhead]
    unfold argumentAt
    split
    · next heq => exact absurd (List.cons.inj heq).1 hne
    · next heq => exact absurd (List.cons.inj heq).1 hne
    · rfl
  unfold pipArgument
  rw [hstart, Bool.false_or, List.any_eq_false]
  intro tail htail
  have hsub := (List.mem_tails _ _).1 htail
  cases tail with
  | nil => simp
  | cons d ds =>
      have hd : d ∈ itemHead entry.item := hsub.subset (by simp)
      have hspace : d ≠ ' ' := by
        rintro rfl
        exact itemHead_notMem h (by decide) hd
      have htab : d ≠ '\t' := by
        rintro rfl
        exact itemHead_notMem h (by decide) hd
      simp [hspace, htab]

theorem isReference_itemHead (h : EntryOk pk entry) : isReference (itemHead entry.item) = false := by
  have hat : '@' ∉ itemHead entry.item := itemHead_notMem h (by decide)
  have hcolon : ':' ∉ casefold (itemHead entry.item) :=
    notMem_casefold (by decide) (itemHead_notMem h (by decide))
  have hscheme : ¬"://".toList <:+: casefold (itemHead entry.item) := by
    intro hwithin
    exact hcolon (hwithin.subset (by decide))
  have hfile : ¬"file:".toList <+: casefold (itemHead entry.item) := by
    intro hstart
    exact hcolon (hstart.subset (by decide))
  unfold isReference
  rw [decide_eq_false hat, decide_eq_false hscheme, decide_eq_false hfile]
  rfl

theorem vcs_itemHead (h : EntryOk pk entry) :
    (vcsPrefixes.any fun vcs => vcs <:+: casefold (itemHead entry.item)) = false := by
  rw [List.any_eq_false]
  intro vcs hvcs
  rw [decide_eq_true_eq]
  exact itemHead_lacks hvcs h

theorem isLocalPath_itemHead (h : EntryOk pk entry) :
    isLocalPath (itemHead entry.item) = endsLikeArchive (itemHead entry.item) := by
  have hslash : '/' ∉ itemHead entry.item := itemHead_notMem h (by decide)
  have hback : '\\' ∉ itemHead entry.item := itemHead_notMem h (by decide)
  have hcolon : ':' ∉ itemHead entry.item := itemHead_notMem h (by decide)
  have hstart : (["/".toList, "./".toList, "../".toList, "~/".toList, "\\".toList].any
      fun p => p <+: itemHead entry.item) = false := by
    rw [List.any_eq_false]
    intro start hmem
    rw [decide_eq_true_eq]
    have hseparator : '/' ∈ start ∨ '\\' ∈ start := by
      revert start
      decide
    intro hstart
    rcases hseparator with hmem | hmem
    · exact hslash (hstart.subset hmem)
    · exact hback (hstart.subset hmem)
  have hdrive : windowsDrivePath (itemHead entry.item) = false := by
    unfold windowsDrivePath
    split
    · next heq =>
        rw [heq] at hcolon
        simp at hcolon
    · rfl
  unfold isLocalPath endsLikeArchive
  rw [hstart, hdrive, decide_eq_false hslash, decide_eq_false hback]
  rfl

/-- Of the checks on unsafe text only the one for archives can fail. -/
theorem rejectUnsafeText_formatItem (h : EntryOk pk entry) (lineNo : Nat) (originalText : String) :
    rejectUnsafeText (formatItem entry.item).toList lineNo originalText =
      rejectIf (endsLikeArchive (itemHead entry.item))
        "local paths and package archives are not supported" lineNo originalText := by
  unfold rejectUnsafeText
  rw [requirementPart_formatItem h]
  dsimp only
  rw [pipArgument_itemHead h, isReference_itemHead h, vcs_itemHead h, isLocalPath_itemHead h]
  rfl

end Checks

end WheelForge.Parser
