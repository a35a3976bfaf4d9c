import WheelForge.Parser.PipFile

/-!
# Normalized requirements under pip

A parsed file is inert when pip reads its normalized text as one requirement for each item and
nothing else. The checks of the parser look at spaces, `#`, `-` and `${NAME}`, but not at the line
boundaries that the escapes of a quoted marker value leave in the rendered marker. They look for some
of the archive suffixes of pip only, and before the clauses are put in order and not after.
`inert_iff` says that these are the only gaps.
-/

set_option autoImplicit false

namespace WheelForge.Parser

open WheelForge.Python
open WheelForge.Pep440

/-! ## Items that pass -/

theorem ensurePipFileSafe_ok {line : Text} {lineNo : Nat} {originalText : String} {u : Unit} :
    ensurePipFileSafe line lineNo originalText = .ok u ↔
      pipFileComment line = none ∧ (∀ token ∈ line.splitOn ' ', token.head? ≠ some '-') ∧
        environmentVariables line = [] := by
  unfold ensurePipFileSafe
  rw [bind_ok]
  constructor
  · rintro ⟨u, hcomment, h⟩
    obtain ⟨u, hoptions, h⟩ := bind_ok.1 h
    rw [rejectIf_ok] at hcomment hoptions h
    refine ⟨by simpa using hcomment, ?_, by simpa using h⟩
    intro token htoken
    have := List.any_eq_false.1 hoptions token htoken
    simpa using this
  · rintro ⟨hcomment, hoptions, henvironment⟩
    refine ⟨(), by rw [hcomment]; rfl, ?_⟩
    apply bind_ok.2
    refine ⟨(), ?_, ?_⟩
    · rw [rejectIf_ok, List.any_eq_false]
      intro token htoken
      simpa using hoptions token htoken
    · rw [henvironment]
      rfl

theorem ensureItemsSafe_ok {items : List RequirementItem} {u : Unit} :
    ensureItemsSafe items = .ok u ↔
      ∀ item ∈ items,
        ensurePipFileSafe (formatItem item).toList item.lineNo item.originalText = .ok () := by
  induction items with
  | nil => simp [ensureItemsSafe]
  | cons item rest ih =>
      unfold ensureItemsSafe
      rw [bind_ok, List.forall_mem_cons, ← ih]
      constructor
      · rintro ⟨v, hitem, hrest⟩
        exact ⟨hitem, hrest⟩
      · rintro ⟨hitem, hrest⟩
        exact ⟨(), hitem, hrest⟩

section Items

variable {pk : Packaging} {entry : Entry}

theorem formatItem_head (h : EntryOk pk entry) :
    ∃ c rest, (formatItem entry.item).toList = c :: rest ∧ canonicalChar c = true ∧ c ≠ '-' := by
  obtain ⟨c, rest, hhead, hcanonical, hne⟩ := itemHead_first h
  rw [formatItem_toList, hhead]
  exact ⟨c, _, List.cons_append, hcanonical, hne⟩

theorem formatItem_last (h : EntryOk pk entry) : MarkerEnd (formatItem entry.item).toList := by
  rw [formatItem_toList]
  unfold MarkerEnd itemTail
  cases hmarker : entry.item.marker with
  | none =>
      obtain ⟨c, rest, hhead, -, -⟩ := itemHead_first h
      have hne : itemHead entry.item ≠ [] := by simp [hhead]
      have hlast := List.getLast_mem hne
      dsimp only
      rw [List.append_nil]
      refine ⟨_, List.getLast_mem_getLast? hne, ?_, ?_⟩
      · exact not_isSpace_of_headChar (itemHead_chars h _ hlast)
      · intro heq
        rw [heq] at hlast
        exact itemHead_notMem h (by decide) hlast
  | some marker =>
      obtain ⟨c, hc, hend⟩ := h.marker marker hmarker
      refine ⟨c, ?_, hend⟩
      dsimp only
      have hlast : (itemHead entry.item ++ ';' :: ' ' :: marker.toList).getLast? = some c := by
        rw [show itemHead entry.item ++ ';' :: ' ' :: marker.toList =
          (itemHead entry.item ++ [';', ' ']) ++ marker.toList by simp]
        rw [List.getLast?_append, hc]
        rfl
      exact hlast

theorem formatItem_trimmed (h : EntryOk pk entry) : Trimmed (formatItem entry.item).toList := by
  obtain ⟨c, rest, hhead, hcanonical, -⟩ := formatItem_head h
  obtain ⟨d, hd, hspace, -⟩ := formatItem_last h
  constructor
  · intro e he
    rw [hhead] at he
    obtain rfl : c = e := Option.some.inj he
    exact not_isSpace_of_headChar (headChar_of_canonical hcanonical)
  · intro e he
    obtain rfl : d = e := Option.some.inj (Eq.trans (Eq.symm hd) he)
    exact hspace

theorem oneLine_formatItem (h : EntryOk pk entry) :
    OneLine (formatItem entry.item).toList ↔
      ∀ m, entry.item.marker = some m → OneLine m.toList := by
  rw [formatItem_toList]
  unfold itemTail
  constructor
  · intro hline m hm
    rw [hm] at hline
    exact fun c hc => hline c (by simp [hc])
  · intro hmarker
    apply OneLine.append
    · intro c hc
      exact not_boundary_of_headChar (itemHead_chars h c hc)
    · cases hm : entry.item.marker with
      | none => exact fun c hc => by cases hc
      | some m =>
          intro c hc
          rcases List.mem_cons.1 hc with rfl | hc
          · decide
          · rcases List.mem_cons.1 hc with rfl | hc
            · decide
            · exact hmarker m hm c hc

/-- An item that the parser found safe passes, when its marker is one line. -/
theorem passes_formatItem (h : EntryOk pk entry)
    (hsafe : ensurePipFileSafe (formatItem entry.item).toList entry.item.lineNo
      entry.item.originalText = .ok ())
    (hmarker : ∀ m, entry.item.marker = some m → OneLine m.toList) :
    Passes (formatItem entry.item).toList := by
  obtain ⟨hcomment, hoptions, henvironment⟩ := ensurePipFileSafe_ok.1 hsafe
  obtain ⟨c, rest, hhead, -, -⟩ := formatItem_head h
  obtain ⟨d, hd, -, hback⟩ := formatItem_last h
  constructor
  · rw [hhead]
    exact List.cons_ne_nil _ _
  · exact (oneLine_formatItem h).2 hmarker
  · exact formatItem_trimmed h
  · intro hlast
    exact hback (Option.some.inj (Eq.trans (Eq.symm hd) hlast))
  · exact hcomment
  · exact hoptions
  · exact henvironment

/-- The name and the extras of an item. -/
def itemName (item : RequirementItem) : Text :=
  item.name.toList ++
    (if item.extras = [] then [] else '[' :: ((",".intercalate item.extras).toList ++ [']']))

theorem itemHead_name (item : RequirementItem) :
    itemHead item = itemName item ++ item.specifier.toList := by
  rw [itemHead_eq, ← List.append_assoc]
  rfl

theorem dot_notMem_itemName (h : EntryOk pk entry) : '.' ∉ itemName entry.item := by
  intro hmem
  rcases List.mem_append.1 hmem with hmem | hmem
  · exact absurd (h.name.chars _ hmem) (by decide)
  · split at hmem
    · cases hmem
    · simp only [List.mem_cons, List.mem_append, List.not_mem_nil, or_false] at hmem
      rcases hmem with hmem | hmem | hmem
      · exact absurd hmem (by decide)
      · rw [String.toList_intercalate] at hmem
        rcases mem_intercalate hmem with hmem | ⟨part, hpart, hmem⟩
        · exact absurd hmem (by decide)
        · obtain ⟨e, he, rfl⟩ := List.mem_map.1 hpart
          exact absurd ((h.extras e he).chars _ hmem) (by decide)
      · exact absurd hmem (by decide)

/-- A specifier begins with an operator. -/
theorem specifier_head {c : Constraint} (cs : List Constraint) (h : ConstraintOk pk c) :
    ∃ a rest, a ∈ ['=', '~', '>', '<'] ∧ (formatSpecifiers (c :: cs)).toList = a :: rest := by
  obtain ⟨a, b, hop, ha, -⟩ := operator_chars h.supported
  rw [formatSpecifiers_toList, List.map_cons]
  unfold Specifier.str
  rw [String.toList_append, hop]
  cases cs with
  | nil => exact ⟨a, _, ha, by rw [List.map_nil, List.intercalate_singleton]; rfl⟩
  | cons d ds => exact ⟨a, _, ha, by rw [List.map_cons, List.intercalate_cons_cons]; rfl⟩

/-- No version ends in a bracket. -/
theorem specifier_last {constraints : List Constraint} (h : ∀ c ∈ constraints, ConstraintOk pk c) :
    (formatSpecifiers constraints).toList.getLast? ≠ some ']' := by
  intro hlast
  have hmem := List.mem_of_getLast? hlast
  rw [formatSpecifiers_toList] at hmem
  rcases mem_intercalate hmem with heq | ⟨part, hpart, hmem⟩
  · exact absurd heq (by decide)
  · obtain ⟨c, hc, rfl⟩ := List.mem_map.1 hpart
    have hc := h c hc
    obtain ⟨a, b, hop, ha, rfl⟩ := operator_chars hc.supported
    unfold Specifier.str at hmem
    rw [String.toList_append, hop] at hmem
    simp only [List.cons_append, List.nil_append, List.mem_cons] at hmem ha
    rcases hmem with rfl | heq | hmem
    · simp at ha
    · exact absurd heq (by decide)
    · exact absurd (hc.text.chars _ hmem) (by decide)

/-- pip takes a head for an archive when it takes its specifier for one. -/
theorem isArchiveFile_itemHead (h : EntryOk pk entry) :
    isArchiveFile (stripExtras (itemHead entry.item)) =
      isArchiveFile entry.item.specifier.toList := by
  rw [itemHead_name, h.specifier]
  have hname := dot_notMem_itemName h
  cases hconstraints : entry.constraints with
  | nil =>
      -- without clauses the head is a name with its extras, which holds no dot
      have hempty : (formatSpecifiers []).toList = [] := rfl
      rw [hempty, List.append_nil]
      have hstripped : '.' ∉ stripExtras (itemName entry.item) :=
        fun hmem => hname ((prefix_stripExtras _).subset hmem)
      rw [isArchiveFile_of_notMem hstripped]
      decide
  | cons c cs =>
      have hok := h.constraints
      rw [hconstraints] at hok
      obtain ⟨a, rest, ha, hrest⟩ := specifier_head cs (hok c (by simp))
      have hlast : (itemName entry.item ++ (formatSpecifiers (c :: cs)).toList).getLast? ≠
          some ']' := by
        rw [List.getLast?_append_of_ne_nil _ (by rw [hrest]; exact List.cons_ne_nil _ _)]
        exact specifier_last hok
      have hhead : (formatSpecifiers (c :: cs)).toList.head? ≠ some '.' := by
        rw [hrest]
        rintro ⟨⟩
        exact absurd ha (by decide)
      rw [stripExtras_of_last hlast]
      unfold isArchiveFile
      rw [archiveExtension_append hname hhead]

/-- The text of a rendered item before its marker is its head. -/
theorem requirementName_formatItem (h : EntryOk pk entry) :
    requirementName (formatItem entry.item).toList = itemHead entry.item := by
  have htrimmed : Trimmed (itemHead entry.item) := by
    constructor
    · intro c hc
      exact not_isSpace_of_headChar (itemHead_chars h c (List.mem_of_head? hc))
    · intro c hc
      exact not_isSpace_of_headChar (itemHead_chars h c (List.mem_of_getLast? hc))
  have htake : (itemHead entry.item ++ itemTail entry.item).takeWhile (· ≠ ';') =
      itemHead entry.item := by
    have hall : ∀ c ∈ itemHead entry.item, decide (c ≠ ';') = true := by
      intro c hc
      refine decide_eq_true ?_
      rintro rfl
      exact itemHead_notMem h (by decide) hc
    rw [List.takeWhile_append_of_pos hall]
    unfold itemTail
    cases entry.item.marker <;> simp
  unfold requirementName
  rw [formatItem_toList, htake]
  exact strip_of_trimmed htrimmed

/-- No scheme stands before the first colon of a rendered item: there is a semicolon, or no colon. -/
theorem isUrl_formatItem (h : EntryOk pk entry) : isUrl (formatItem entry.item).toList = false := by
  obtain ⟨c, rest, hhead, hcanonical, -⟩ := itemHead_first h
  have hstart : ¬c.toNat ≤ 0x20 := by
    simp [canonicalChar] at hcanonical
    omega
  have hdrop : ((itemHead entry.item ++ itemTail entry.item).dropWhile fun c => c.toNat ≤ 0x20) =
      itemHead entry.item ++ itemTail entry.item := by
    rw [hhead]
    simp [hstart]
  have hfilter : (itemHead entry.item).filter (fun c => c ∉ ['\t', '\r', '\n']) =
      itemHead entry.item := by
    rw [List.filter_eq_self]
    intro d hd
    refine decide_eq_true fun hmem => ?_
    simp only [List.mem_cons, List.not_mem_nil, or_false] at hmem
    rcases hmem with rfl | rfl | rfl <;> exact itemHead_notMem h (by decide) hd
  have hscheme : urlScheme (formatItem entry.item).toList = [] := by
    unfold urlScheme
    rw [formatItem_toList, hdrop, List.filter_append, hfilter]
    dsimp only
    rw [if_neg]
    rintro ⟨hcolon, -, -, hall⟩
    unfold itemTail at hcolon hall
    cases hmarker : entry.item.marker with
    | none =>
        rw [hmarker] at hcolon
        simp only [List.filter_nil, List.append_nil] at hcolon
        exact itemHead_notMem h (by decide) hcolon
    | some m =>
        rw [hmarker] at hall
        have hpass : ∀ d ∈ itemHead entry.item, decide (d ≠ ':') = true := by
          intro d hd
          refine decide_eq_true ?_
          rintro rfl
          exact itemHead_notMem h (by decide) hd
        rw [List.takeWhile_append_of_pos hpass] at hall
        have hsemicolon := List.all_eq_true.1 hall ';' (by simp)
        exact absurd hsemicolon (by decide)
  unfold isUrl
  rw [hscheme]
  decide

/-- Of what pip could take a rendered item for, only an archive is left. -/
theorem plainRequirement_formatItem (h : EntryOk pk entry) :
    PlainRequirement (formatItem entry.item).toList ↔
      isArchiveFile entry.item.specifier.toList = false := by
  have hname := requirementName_formatItem h
  obtain ⟨c, rest, hhead, hcanonical, -⟩ := itemHead_first h
  constructor
  · intro hplain
    have harchive := hplain.archive
    rwa [hname, isArchiveFile_itemHead h] at harchive
  · intro harchive
    constructor
    · exact isUrl_formatItem h
    · rw [hname]
      unfold looksLikePath
      rw [Bool.or_eq_false_iff]
      refine ⟨decide_eq_false (itemHead_notMem h (by decide)), decide_eq_false ?_⟩
      rw [hhead]
      rintro ⟨⟩
      exact absurd hcanonical (by decide)
    · rwa [hname, isArchiveFile_itemHead h]
    · rw [hname]
      exact itemHead_notMem h (by decide)

end Items

/-! ## Inert files -/

/-- pip reads exactly the normalized lines, one for each item, each without options, and takes none
of them for a URL, a path or an archive. -/
structure Inert (p : ParsedRequirements) : Prop where
  lines : ∀ getenv, (preprocess getenv p.normalizedText.toList).map breakArgsOptions =
    p.items.map fun item => ((formatItem item).toList, [])
  requirements : ∀ item ∈ p.items, PlainRequirement (formatItem item).toList

/-- No line of the input has a marker that is rendered with a line boundary, and the clauses of no
package and marker, taken together and in order, end in the extension of an archive of pip. -/
structure InertInput (pk : Packaging) (gbk : ByteArray → Option String) (raw : ByteArray) :
    Prop where
  markers : ∀ texts encoding, inputLines gbk raw = .ok (texts, encoding) →
    ∀ e ∈ lineEntries pk 1 texts, ∀ m, e.item.marker = some m → OneLine m.toList
  archives : ∀ texts encoding, inputLines gbk raw = .ok (texts, encoding) →
    ∀ e ∈ lineEntries pk 1 texts, isArchiveFile (formatSpecifiers
      (deduplicateSpecifiers (keyConstraints (lineEntries pk 1 texts) e.key))).toList = false

theorem normalizedText_toList (items : List RequirementItem) :
    (normalizedText items).toList = joinLines (items.map fun item => (formatItem item).toList) := by
  unfold normalizedText joinLines
  rw [String.toList_append, String.toList_intercalate, List.map_map]
  rfl

section Files

variable {pk : Packaging} {gbk : ByteArray → Option String} {raw : ByteArray}
  {p : ParsedRequirements} {texts : List String} {entries : List Entry}

/-- The lines and the entries have the same keys. -/
theorem Parsed.line_of_entry (hgrammar : Grammar pk) (h : Parsed pk gbk raw p texts entries)
    {e : Entry} (he : e ∈ entries) : ∃ line ∈ lineEntries pk 1 texts, line.key = e.key := by
  have hkey := ((h.merged hgrammar).keys e.key).1 (List.mem_map_of_mem he)
  exact List.mem_map.1 hkey

theorem Parsed.entry_of_line (hgrammar : Grammar pk) (h : Parsed pk gbk raw p texts entries)
    {line : Entry} (hline : line ∈ lineEntries pk 1 texts) : ∃ e ∈ entries, e.key = line.key := by
  have hkey := ((h.merged hgrammar).keys line.key).2 (List.mem_map_of_mem hline)
  exact List.mem_map.1 hkey

/-- How pip takes an entry, on the clauses of its lines. -/
theorem Parsed.plain_iff (hgrammar : Grammar pk) (h : Parsed pk gbk raw p texts entries) {e : Entry}
    (he : e ∈ entries) :
    PlainRequirement (formatItem e.item).toList ↔ isArchiveFile (formatSpecifiers
      (deduplicateSpecifiers (keyConstraints (lineEntries pk 1 texts) e.key))).toList = false := by
  have hmerged := h.merged hgrammar
  rw [plainRequirement_formatItem (hmerged.ok e he).toEntryOk, (hmerged.ok e he).specifier,
    hmerged.constraints e he]

/-- A parsed file is inert exactly when its input has neither a marker that is rendered with a line
boundary nor clauses that end in the extension of an archive. -/
theorem inert_iff (hgrammar : Grammar pk) (h : parseRequirements pk gbk raw = .ok p) :
    Inert p ↔ InertInput pk gbk raw := by
  obtain ⟨texts, entries, hparsed⟩ := parseRequirements_ok.1 h
  have hmerged := hparsed.merged hgrammar
  have hinput : ∀ {texts' encoding}, inputLines gbk raw = .ok (texts', encoding) →
      texts' = texts := by
    intro texts' encoding hinput
    rw [hparsed.input] at hinput
    cases hinput
    rfl
  constructor
  · intro hinert
    constructor
    · intro texts' encoding hlines line hline m hm
      obtain rfl := hinput hlines
      obtain ⟨e, he, hkey⟩ := hparsed.entry_of_line hgrammar hline
      have hmarker : e.item.marker = some m := (congrArg Prod.snd hkey).trans hm
      -- the rendered item is one of the lines that pip reads
      have hread : ((formatItem e.item).toList, []) ∈
          (preprocess (fun _ => none) p.normalizedText.toList).map breakArgsOptions := by
        rw [hinert.lines, hparsed.items, List.map_map]
        exact List.mem_map.2 ⟨e, he, rfl⟩
      obtain ⟨read, hread, hargs⟩ := List.mem_map.1 hread
      have hline : OneLine (formatItem e.item).toList := by
        have hfirst : (breakArgsOptions read).1 = (formatItem e.item).toList :=
          congrArg Prod.fst hargs
        rw [← hfirst]
        exact oneLine_args (oneLine_preprocess hread)
      exact (oneLine_formatItem (hmerged.ok e he).toEntryOk).1 hline m hmarker
    · intro texts' encoding hlines line hline
      obtain rfl := hinput hlines
      obtain ⟨e, he, hkey⟩ := hparsed.entry_of_line hgrammar hline
      have hitem : e.item ∈ p.items := by
        rw [hparsed.items]
        exact List.mem_map_of_mem he
      have hplain := (hparsed.plain_iff hgrammar he).1 (hinert.requirements e.item hitem)
      rwa [hkey] at hplain
  · intro hcondition
    have hsafe := ensureItemsSafe_ok.1 hparsed.safe
    have hpasses : ∀ e ∈ entries, Passes (formatItem e.item).toList := by
      intro e he
      apply passes_formatItem (hmerged.ok e he).toEntryOk
      · apply hsafe
        rw [hparsed.items]
        exact List.mem_map_of_mem he
      · intro m hm
        obtain ⟨line, hline, hkey⟩ := hparsed.line_of_entry hgrammar he
        exact hcondition.markers texts _ hparsed.input line hline m
          ((congrArg Prod.snd hkey).trans hm)
    constructor
    · intro getenv
      rw [hparsed.text, normalizedText_toList, preprocess_of_passes]
      · rw [List.map_map]
        apply List.map_congr_left
        intro item hitem
        rw [hparsed.items] at hitem
        obtain ⟨e, he, rfl⟩ := List.mem_map.1 hitem
        exact breakArgsOptions_of_passes (hpasses e he)
      · intro line hline
        rw [hparsed.items, List.map_map] at hline
        obtain ⟨e, he, rfl⟩ := List.mem_map.1 hline
        exact hpasses e he
    · intro item hitem
      rw [hparsed.items] at hitem
      obtain ⟨e, he, rfl⟩ := List.mem_map.1 hitem
      obtain ⟨line, hline, hkey⟩ := hparsed.line_of_entry hgrammar he
      rw [hparsed.plain_iff hgrammar he, ← hkey]
      exact hcondition.archives texts _ hparsed.input line hline

end Files

/-! ## A marker that ends a line -/

/-- A marker value with two escaped newlines. -/
def injectingText : String := "demo; os_name == '\\n--index-url=https://packages.example\\n'"

def plainText : String := "demo==1.0"

def plainVersion : Version := ⟨0, [1, 0], none, none, none, none, by decide⟩

/-- What packaging reads from the two texts. -/
def injectingPackaging : Packaging where
  version text := if text = "1.0" then some plainVersion else none
  requirement text :=
    if text = injectingText then
      .ok ⟨"demo", [], [], some "os_name == \"\n--index-url=https://packages.example\n\"", none⟩
    else if text = plainText then .ok ⟨"demo", [], [⟨.equal, "1.0"⟩], none, none⟩
    else .error .invalidRequirement
  marker _ := .error .invalidRequirement
  specifier text := if text = "==1.0" then some ⟨.equal, "1.0"⟩ else none
  specifierSet text := if text = "==1.0" then some [⟨.equal, "1.0"⟩] else none
  contains specifier version := specifier = ⟨.equal, "1.0"⟩ && version.Same plainVersion
  canonicalizeName name := name

theorem injectingPackaging_accepts {text : String} {r : Requirement}
    (h : injectingPackaging.requirement text = .ok r) :
    r.name = "demo" ∧ r.extras = [] ∧ (∀ s ∈ r.specifier, s.version = "1.0") ∧
      ∀ m, r.marker = some m → m = "os_name == \"\n--index-url=https://packages.example\n\"" := by
  unfold injectingPackaging at h
  dsimp only at h
  split at h
  · cases h
    exact ⟨rfl, rfl, by simp, by simp⟩
  · split at h
    · cases h
      exact ⟨rfl, rfl, by simp, by simp⟩
    · cases h

theorem injectingPackaging_grammar : Grammar injectingPackaging where
  name := by
    intro text r h
    rw [(injectingPackaging_accepts h).1]
    exact ⟨⟨'d', rfl, by decide, by decide⟩, forall_mem_of_all (by decide)⟩
  extra := by
    intro text r h e he
    rw [(injectingPackaging_accepts h).2.1] at he
    cases he
  version := by
    intro text r h s hs _ _
    rw [(injectingPackaging_accepts h).2.2.1 s hs]
    exact ⟨by decide, forall_mem_of_all (by decide), by decide⟩
  marker := by
    intro text r m h hm
    rw [(injectingPackaging_accepts h).2.2.2 m hm]
    exact ⟨'"', by decide, by decide, by decide⟩

/-- What the parser makes of the plain text. -/
def plainParsed : ParsedRequirements where
  normalizedText := "demo==1.0\n"
  items := [⟨1, "demo", [], "==1.0", none, "demo==1.0"⟩]
  encoding := "utf-8"

theorem plainParsed_eq :
    parseRequirements injectingPackaging (fun _ => none) plainText.toUTF8 = .ok plainParsed := by
  decide

/-- The plain text gives an inert file. -/
theorem plainParsed_inert : Inert plainParsed := by
  apply (inert_iff injectingPackaging_grammar plainParsed_eq).2
  have hlines : inputLines (fun _ => none) plainText.toUTF8 = .ok ([plainText], "utf-8") := by
    decide +kernel
  constructor
  · intro texts encoding hinput
    rw [hlines] at hinput
    cases hinput
    decide +kernel
  · intro texts encoding hinput
    rw [hlines] at hinput
    cases hinput
    decide +kernel

/-- What the parser makes of the injecting text. -/
def injectingParsed : ParsedRequirements where
  normalizedText := "demo; os_name == \"\n--index-url=https://packages.example\n\"\n"
  items := [⟨1, "demo", [], "", some "os_name == \"\n--index-url=https://packages.example\n\"",
    injectingText⟩]
  encoding := "utf-8"

/-- The injecting text is accepted, and pip reads an option from its normalized text. -/
theorem injectingParsed_not_inert :
    parseRequirements injectingPackaging (fun _ => none) injectingText.toUTF8 = .ok injectingParsed ∧
      ([], "--index-url=https://packages.example".toList) ∈
        (preprocess (fun _ => none) injectingParsed.normalizedText.toList).map breakArgsOptions ∧
      ¬Inert injectingParsed := by
  refine ⟨by decide +kernel, by decide +kernel, ?_⟩
  intro hinert
  have hlines := hinert.lines fun _ => none
  revert hlines
  decide +kernel

end WheelForge.Parser
