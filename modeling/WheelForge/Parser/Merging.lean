import WheelForge.Parser.Rendering
import WheelForge.Python.Exceptions

/-!
# Reading and merging the lines of a file

What the loop over the lines establishes. `LineOk` describes the entry of one line, and `Merged` says
of the entries after any number of lines which lines each of them stands for: one entry for each key,
with the deduplicated constraints of all lines of that key, which are consistent
(`readLines_merged`).
-/

set_option autoImplicit false

namespace WheelForge.Parser

open WheelForge.Python
open WheelForge.Pep440

/-! ## Outcomes -/

@[simp] theorem rejectIf_ok {condition : Bool} {message originalText : String} {lineNo : Nat}
    {u : Unit} : rejectIf condition message lineNo originalText = .ok u ↔ condition = false := by
  unfold rejectIf
  cases condition <;> simp

@[simp] theorem rejectIf_false {message originalText : String} {lineNo : Nat} :
    rejectIf false message lineNo originalText = .ok () := rfl

/-! ## Constraints -/

/-- A specifier that `_parse_line` reads. -/
structure ConstraintRead (pk : Packaging) (c : Constraint) : Prop where
  supported : supported c.specifier.operator = true
  star : '*' ∉ c.specifier.version.toList
  version : pk.version c.specifier.version = some c.version

theorem readConstraints_ok {pk : Packaging} {lineNo : Nat} {originalText : String}
    {specifiers : List Specifier} {constraints : List Constraint} :
    readConstraints pk lineNo originalText specifiers = .ok constraints ↔
      constraints.map Constraint.specifier = specifiers ∧
        ∀ c ∈ constraints, ConstraintRead pk c := by
  induction specifiers generalizing constraints with
  | nil =>
      constructor
      · intro h
        cases h
        exact ⟨rfl, fun c hc => by cases hc⟩
      · rintro ⟨h, -⟩
        rw [List.map_eq_nil_iff] at h
        rw [h]
        rfl
  | cons s rest ih =>
      unfold readConstraints
      rw [bind_ok]
      constructor
      · rintro ⟨u, hreject, h⟩
        rw [rejectIf_ok, Bool.or_eq_false_iff] at hreject
        cases hv : pk.version s.version with
        | none =>
            rw [hv] at h
            cases h
        | some v =>
            rw [hv] at h
            obtain ⟨cs, hcs, h⟩ := bind_ok.1 h
            cases h
            obtain ⟨hmap, hread⟩ := ih.1 hcs
            refine ⟨by rw [List.map_cons, hmap], ?_⟩
            intro c hc
            rcases List.mem_cons.1 hc with rfl | hc
            · exact ⟨by simpa using hreject.1, by simpa using hreject.2, hv⟩
            · exact hread c hc
      · rintro ⟨hmap, hread⟩
        cases constraints with
        | nil => cases hmap
        | cons c cs =>
            rw [List.map_cons, List.cons.injEq] at hmap
            obtain ⟨rfl, hmap⟩ := hmap
            have hc := hread c (by simp)
            refine ⟨(), ?_, ?_⟩
            · rw [rejectIf_ok, hc.supported, decide_eq_false hc.star]
              rfl
            · rw [hc.version]
              apply bind_ok.2
              exact ⟨cs, ih.2 ⟨hmap, fun d hd => hread d (by simp [hd])⟩, rfl⟩

@[simp] theorem mem_deduplicate {c : Constraint} {constraints : List Constraint} :
    c ∈ deduplicateSpecifiers constraints ↔ c ∈ constraints := by
  unfold deduplicateSpecifiers
  rw [(List.perm_insertionSort _ _).mem_iff, List.mem_dedup]

/-- The order of the constraints of one item. -/
def Constraint.Le (c d : Constraint) : Prop := c.sortKey ≤ d.sortKey

instance : DecidableRel Constraint.Le := fun c d => inferInstanceAs (Decidable (c.sortKey ≤ d.sortKey))

instance : Std.Total Constraint.Le := ⟨fun c d => le_total c.sortKey d.sortKey⟩

instance : IsTrans Constraint Constraint.Le := ⟨fun _ _ _ hab hbc => le_trans hab hbc⟩

theorem deduplicate_pairwise (constraints : List Constraint) :
    (deduplicateSpecifiers constraints).Pairwise Constraint.Le :=
  List.pairwise_insertionSort Constraint.Le constraints.dedup

theorem deduplicate_nodup (constraints : List Constraint) :
    (deduplicateSpecifiers constraints).Nodup := by
  unfold deduplicateSpecifiers
  exact (List.perm_insertionSort _ _).nodup_iff.2 (List.nodup_dedup _)

/-- Constraints with one key are one constraint. -/
theorem Constraint.eq_of_le {pk : Packaging} {c d : Constraint} (hc : ConstraintRead pk c)
    (hd : ConstraintRead pk d) (hcd : c.Le d) (hdc : d.Le c) : c = d := by
  have hkey : c.sortKey = d.sortKey := le_antisymm hcd hdc
  unfold Constraint.sortKey at hkey
  have hpair := Prod.mk.inj (toLex.injective hkey)
  have hrest := Prod.mk.inj (toLex.injective hpair.2)
  have hop : c.specifier.operator = d.specifier.operator := by
    have horder := hpair.1
    have hsc := hc.supported
    have hsd := hd.supported
    revert horder hsc hsd
    cases c.specifier.operator <;> cases d.specifier.operator <;> decide
  have hspec : c.specifier = d.specifier := by
    cases hcs : c.specifier
    cases hds : d.specifier
    simp_all
  have hversion : c.version = d.version := by
    have hcv := hc.version
    rw [hspec, hd.version] at hcv
    exact (Option.some.inj hcv).symm
  cases c
  cases d
  simp_all

/-- The deduplicated constraints depend on the set of the constraints only. -/
theorem deduplicate_congr {pk : Packaging} {a b : List Constraint}
    (ha : ∀ c ∈ a, ConstraintRead pk c) (h : ∀ c, c ∈ a ↔ c ∈ b) :
    deduplicateSpecifiers a = deduplicateSpecifiers b := by
  have hperm : (deduplicateSpecifiers a).Perm (deduplicateSpecifiers b) := by
    rw [List.perm_ext_iff_of_nodup (deduplicate_nodup a) (deduplicate_nodup b)]
    intro c
    rw [mem_deduplicate, mem_deduplicate, h]
  apply hperm.eq_of_pairwise _ (deduplicate_pairwise a) (deduplicate_pairwise b)
  intro c d hc hd hcd hdc
  have hca := ha c (mem_deduplicate.1 hc)
  have hda := ha d ((h d).2 (mem_deduplicate.1 hd))
  exact Constraint.eq_of_le hca hda hcd hdc

theorem deduplicate_idem {pk : Packaging} {constraints : List Constraint}
    (h : ∀ c ∈ constraints, ConstraintRead pk c) :
    deduplicateSpecifiers (deduplicateSpecifiers constraints) =
      deduplicateSpecifiers constraints :=
  deduplicate_congr (fun c hc => h c (mem_deduplicate.1 hc)) fun _ => mem_deduplicate

theorem ConstraintOk.read {pk : Packaging} {c : Constraint} (h : ConstraintOk pk c) :
    ConstraintRead pk c where
  supported := h.supported
  star := by
    intro hmem
    exact absurd (h.text.chars _ hmem) (by decide)
  version := h.version

/-! ## Names -/

theorem sortNames_perm (names : List String) : (sortNames names).Perm names :=
  List.perm_insertionSort _ _

@[simp] theorem mem_sortNames {name : String} {names : List String} :
    name ∈ sortNames names ↔ name ∈ names :=
  (sortNames_perm names).mem_iff

theorem sortNames_pairwise (names : List String) : (sortNames names).Pairwise (· ≤ ·) :=
  List.pairwise_insertionSort (· ≤ ·) names

/-- The sorted names depend on the names with their multiplicities only. -/
theorem sortNames_congr {a b : List String} (h : a.Perm b) : sortNames a = sortNames b := by
  have hperm : (sortNames a).Perm (sortNames b) :=
    (sortNames_perm a).trans (h.trans (sortNames_perm b).symm)
  apply hperm.eq_of_pairwise _ (sortNames_pairwise a) (sortNames_pairwise b)
  intro x y _ _ hxy hyx
  exact le_antisymm hxy hyx

theorem sortNames_of_sorted {names : List String} (h : names.Pairwise (· ≤ ·)) :
    sortNames names = names := by
  apply (sortNames_perm names).eq_of_pairwise _ (sortNames_pairwise names) h
  intro x y _ _ hxy hyx
  exact le_antisymm hxy hyx

/-! ## One line -/

/-- What `_parse_line` returns. -/
theorem parseLine_ok {pk : Packaging} {text : Text} {lineNo : Nat} {originalText : String}
    {parsed : Requirement} {constraints : List Constraint}
    (h : parseLine pk text lineNo originalText = .ok (parsed, constraints)) :
    pk.requirement (String.ofList text) = .ok parsed ∧ parsed.url = none ∧
      ∃ read, readConstraints pk lineNo originalText parsed.specifier = .ok read ∧
        constraints = deduplicateSpecifiers read := by
  unfold parseLine at h
  split at h
  · cases h
  · cases h
  · next requirement hrequirement =>
      obtain ⟨u, hurl, h⟩ := bind_ok.1 h
      obtain ⟨read, hread, h⟩ := bind_ok.1 h
      cases h
      rw [rejectIf_ok, Option.isSome_eq_false_iff] at hurl
      exact ⟨hrequirement, by simpa using hurl, read, hread, rfl⟩

/-- The item of a parsed line. -/
def lineItem (pk : Packaging) (lineNo : Nat) (originalText : String) (parsed : Requirement)
    (constraints : List Constraint) : RequirementItem where
  lineNo := lineNo
  name := pk.canonicalizeName parsed.name
  extras := sortNames (parsed.extras.map pk.canonicalizeName)
  specifier := formatSpecifiers constraints
  marker := parsed.marker
  originalText := originalText

/-- What a line with a requirement passes. -/
structure LineRead (pk : Packaging) (lineNo : Nat) (originalText : String) (text : Text)
    (parsed : Requirement) (entry : Entry) : Prop where
  held : requirementText originalText lineNo = .ok (some text)
  grammar : parseLine pk text lineNo originalText = .ok (parsed, entry.constraints)
  item : entry.item = lineItem pk lineNo originalText parsed entry.constraints
  safe : ensurePipFileSafe (formatItem entry.item).toList lineNo originalText = .ok ()
  consistent : constraintsConflict pk entry.constraints = false

theorem readLine_some {pk : Packaging} {lineNo : Nat} {originalText : String} {entry : Entry} :
    readLine pk lineNo originalText = .ok (some entry) ↔
      ∃ text parsed, LineRead pk lineNo originalText text parsed entry := by
  unfold readLine
  rw [bind_ok]
  constructor
  · rintro ⟨found, htext, h⟩
    cases found with
    | none => cases h
    | some text =>
        obtain ⟨⟨parsed, constraints⟩, hparsed, h⟩ := bind_ok.1 h
        obtain ⟨u, hsafe, h⟩ := bind_ok.1 h
        dsimp only at h
        split at h
        · cases h
        · next hconsistent =>
            cases h
            exact ⟨text, parsed, htext, hparsed, rfl, hsafe, by simpa using hconsistent⟩
  · rintro ⟨text, parsed, h⟩
    have hsafe := h.safe
    rw [h.item] at hsafe
    refine ⟨some text, h.held, ?_⟩
    apply bind_ok.2
    refine ⟨(parsed, entry.constraints), h.grammar, ?_⟩
    apply bind_ok.2
    refine ⟨(), hsafe, ?_⟩
    dsimp only
    rw [h.consistent]
    show Except.ok (some (Entry.mk (lineItem pk lineNo originalText parsed entry.constraints)
      entry.constraints)) = _
    rw [← h.item]

/-- The entry of a line. -/
structure LineOk (pk : Packaging) (entry : Entry) : Prop extends EntryOk pk entry where
  deduplicated : deduplicateSpecifiers entry.constraints = entry.constraints
  consistent : constraintsConflict pk entry.constraints = false
  sorted : entry.item.extras.Pairwise (· ≤ ·)

theorem LineRead.ok {pk : Packaging} (hgrammar : Grammar pk) {lineNo : Nat} {originalText : String}
    {text : Text} {parsed : Requirement} {entry : Entry}
    (h : LineRead pk lineNo originalText text parsed entry) : LineOk pk entry := by
  obtain ⟨hrequirement, -, read, hread, hconstraints⟩ := parseLine_ok h.grammar
  obtain ⟨hmap, hreads⟩ := readConstraints_ok.1 hread
  have hitem := h.item
  constructor
  · constructor
    · rw [hitem]
      exact hgrammar.name hrequirement
    · intro e he
      rw [hitem] at he
      obtain ⟨extra, hextra, rfl⟩ := List.mem_map.1 (mem_sortNames.1 he)
      exact hgrammar.extra hrequirement extra hextra
    · intro c hc
      rw [hconstraints, mem_deduplicate] at hc
      have hspecifier : c.specifier ∈ parsed.specifier := by
        rw [← hmap]
        exact List.mem_map_of_mem hc
      obtain ⟨hsupported, hstar, hversion⟩ := hreads c hc
      exact ⟨hsupported, hgrammar.version hrequirement _ hspecifier hsupported hstar, hversion⟩
    · rw [hitem]
      rfl
    · intro m hm
      rw [hitem] at hm
      exact hgrammar.marker hrequirement hm
  · rw [hconstraints]
    exact deduplicate_idem hreads
  · exact h.consistent
  · rw [hitem]
    exact sortNames_pairwise _

/-! ## All lines -/

/-- The entries of the single lines. -/
def lineEntries (pk : Packaging) : Nat → List String → List Entry
  | _, [] => []
  | lineNo, originalText :: rest =>
      match readLine pk lineNo originalText with
      | .ok (some entry) => entry :: lineEntries pk (lineNo + 1) rest
      | _ => lineEntries pk (lineNo + 1) rest

/-- The constraints of all lines of one key. -/
def keyConstraints (lines : List Entry) (key : String × Option String) : List Constraint :=
  (lines.filter (·.key = key)).flatMap Entry.constraints

/-- What the entries are after the given lines. -/
structure Merged (pk : Packaging) (lines entries : List Entry) : Prop where
  read : ∀ e ∈ lines, LineOk pk e
  ok : ∀ e ∈ entries, LineOk pk e
  nodup : (entries.map Entry.key).Nodup
  keys : ∀ key, key ∈ entries.map Entry.key ↔ key ∈ lines.map Entry.key
  constraints : ∀ e ∈ entries, e.constraints = deduplicateSpecifiers (keyConstraints lines e.key)
  length : entries.length ≤ lines.length

theorem keyConstraints_append (lines : List Entry) (entry : Entry) (key : String × Option String) :
    keyConstraints (lines ++ [entry]) key =
      keyConstraints lines key ++ (if entry.key = key then entry.constraints else []) := by
  unfold keyConstraints
  rw [List.filter_append, List.flatMap_append]
  congr 1
  split <;> simp_all

section Merging

variable {pk : Packaging} {lines entries entries' : List Entry} {entry : Entry}

theorem Merged.constraintRead (h : Merged pk lines entries) (key : String × Option String) :
    ∀ c ∈ keyConstraints lines key, ConstraintRead pk c := by
  intro c hc
  obtain ⟨e, he, hc⟩ := List.mem_flatMap.1 hc
  have hline := h.read e (List.mem_filter.1 he).1
  exact (hline.constraints c hc).read

theorem Merged.read_append (h : Merged pk lines entries) (hentry : LineOk pk entry) :
    ∀ e ∈ lines ++ [entry], LineOk pk e := by
  intro e he
  rcases List.mem_append.1 he with he | he
  · exact h.read e he
  · rw [List.mem_singleton.1 he]
    exact hentry

/-- A new key appends an entry. -/
theorem Merged.append (h : Merged pk lines entries) (hentry : LineOk pk entry)
    (hnew : entry.key ∉ entries.map Entry.key) :
    Merged pk (lines ++ [entry]) (entries ++ [entry]) where
  read := h.read_append hentry
  ok := by
    intro e he
    rcases List.mem_append.1 he with he | he
    · exact h.ok e he
    · rw [List.mem_singleton.1 he]
      exact hentry
  nodup := by
    rw [List.map_append, List.nodup_append]
    refine ⟨h.nodup, by simp, ?_⟩
    intro key hkey other hother heq
    rw [List.map_singleton, List.mem_singleton] at hother
    subst hother heq
    exact hnew hkey
  keys := by
    intro key
    rw [List.map_append, List.map_append, List.mem_append, List.mem_append, h.keys]
  constraints := by
    intro e he
    rw [keyConstraints_append]
    rcases List.mem_append.1 he with he | he
    · have hne : entry.key ≠ e.key := by
        intro heq
        rw [heq] at hnew
        exact hnew (List.mem_map_of_mem he)
      rw [if_neg hne, List.append_nil]
      exact h.constraints e he
    · rw [List.mem_singleton.1 he, if_pos rfl]
      -- no earlier line has the new key
      have hnone : keyConstraints lines entry.key = [] := by
        unfold keyConstraints
        rw [List.flatMap_eq_nil_iff]
        intro x hx
        obtain ⟨hx, hkey⟩ := List.mem_filter.1 hx
        rw [h.keys, ← of_decide_eq_true hkey] at hnew
        exact absurd (List.mem_map_of_mem hx) hnew
      rw [hnone, List.nil_append]
      exact hentry.deduplicated.symm
  length := by
    have := h.length
    simpa using this

theorem mergeInto_key (existing entry : Entry) : (mergeInto existing entry).key = existing.key :=
  rfl

/-- What merging makes of two entries of one key. -/
theorem mergeInto_ok {existing : Entry} (hexisting : LineOk pk existing) (hentry : LineOk pk entry)
    (hconsistent : constraintsConflict pk
      (deduplicateSpecifiers (existing.constraints ++ entry.constraints)) = false) :
    LineOk pk (mergeInto existing entry) := by
  have hconstraints : ∀ c ∈ existing.constraints ++ entry.constraints, ConstraintOk pk c := by
    intro c hc
    rcases List.mem_append.1 hc with hc | hc
    · exact hexisting.constraints c hc
    · exact hentry.constraints c hc
  constructor
  · constructor
    · exact hexisting.name
    · intro e he
      have he : e ∈ existing.item.extras ++ entry.item.extras :=
        List.mem_dedup.1 (mem_sortNames.1 he)
      rcases List.mem_append.1 he with he | he
      · exact hexisting.extras e he
      · exact hentry.extras e he
    · intro c hc
      exact hconstraints c (mem_deduplicate.1 hc)
    · rfl
    · exact hexisting.marker
  · exact deduplicate_idem fun c hc => (hconstraints c hc).read
  · exact hconsistent
  · exact sortNames_pairwise _

/-- A known key merges into its entry. -/
theorem Merged.merge (h : Merged pk lines entries) (hentry : LineOk pk entry) {existing : Entry}
    (hmem : existing ∈ entries) (hkey : existing.key = entry.key)
    (hconsistent : constraintsConflict pk
      (deduplicateSpecifiers (existing.constraints ++ entry.constraints)) = false) :
    Merged pk (lines ++ [entry])
      (entries.map fun e => if e.key = entry.key then mergeInto e entry else e) := by
  have hkeys : (entries.map fun e => if e.key = entry.key then mergeInto e entry else e).map
      Entry.key = entries.map Entry.key := by
    rw [List.map_map]
    apply List.map_congr_left
    intro e _
    show Entry.key (if e.key = entry.key then mergeInto e entry else e) = e.key
    split <;> rfl
  have hsole : ∀ e ∈ entries, e.key = entry.key → e = existing := by
    intro e he hek
    exact List.inj_on_of_nodup_map h.nodup he hmem (hek.trans hkey.symm)
  constructor
  · exact h.read_append hentry
  · intro e he
    obtain ⟨old, hold, rfl⟩ := List.mem_map.1 he
    split
    · next hek =>
        obtain rfl := hsole old hold hek
        exact mergeInto_ok (h.ok _ hold) hentry hconsistent
    · exact h.ok old hold
  · rw [hkeys]
    exact h.nodup
  · intro key
    rw [hkeys, h.keys, List.map_append, List.mem_append, List.map_singleton, List.mem_singleton]
    constructor
    · exact .inl
    · rintro (hk | rfl)
      · exact hk
      · rw [← h.keys, ← hkey]
        exact List.mem_map_of_mem hmem
  · intro e he
    obtain ⟨old, hold, rfl⟩ := List.mem_map.1 he
    rw [keyConstraints_append]
    split
    · next hek =>
        rw [mergeInto_key, if_pos hek.symm]
        show deduplicateSpecifiers (old.constraints ++ entry.constraints) = _
        rw [h.constraints old hold]
        have hall : ∀ c ∈ deduplicateSpecifiers (keyConstraints lines old.key) ++ entry.constraints,
            ConstraintRead pk c := by
          intro c hc
          rcases List.mem_append.1 hc with hc | hc
          · exact h.constraintRead _ c (mem_deduplicate.1 hc)
          · exact (hentry.constraints c hc).read
        apply deduplicate_congr hall
        intro c
        rw [List.mem_append, List.mem_append, mem_deduplicate]
    · next hek =>
        rw [if_neg fun heq => hek heq.symm, List.append_nil]
        exact h.constraints old hold
  · have := h.length
    rw [List.length_map, List.length_append]
    omega

/-- One round of the loop. -/
theorem Merged.addEntry (h : Merged pk lines entries) (hentry : LineOk pk entry)
    (hadd : addEntry pk entries entry = .ok entries') : Merged pk (lines ++ [entry]) entries' := by
  unfold Parser.addEntry at hadd
  split at hadd
  · next hfind =>
      cases hadd
      apply h.append hentry
      intro hkey
      obtain ⟨e, he, hek⟩ := List.mem_map.1 hkey
      have hnone := List.find?_eq_none.1 hfind e he
      exact hnone (decide_eq_true hek)
  · next existing hfind =>
      split at hadd
      · cases hadd
      · next hconsistent =>
          cases hadd
          have hkey := List.find?_some hfind
          exact h.merge hentry (List.mem_of_find?_eq_some hfind) (of_decide_eq_true hkey)
            (by simpa using hconsistent)

/-- The whole loop. -/
theorem readLines_merged (hgrammar : Grammar pk) {lineNo : Nat} {texts : List String}
    (h : Merged pk lines entries) (hread : readLines pk lineNo texts entries = .ok entries') :
    Merged pk (lines ++ lineEntries pk lineNo texts) entries' := by
  induction texts generalizing lineNo lines entries with
  | nil =>
      cases hread
      unfold lineEntries
      rw [List.append_nil]
      exact h
  | cons text rest ih =>
      unfold readLines at hread
      obtain ⟨found, hline, hread⟩ := bind_ok.1 hread
      unfold lineEntries
      rw [hline]
      cases found with
      | none => exact ih h hread
      | some entry =>
          obtain ⟨next, hadd, hread⟩ := bind_ok.1 hread
          obtain ⟨text', parsed, hentry⟩ := readLine_some.1 hline
          have hnext := h.addEntry (hentry.ok hgrammar) hadd
          have := ih hnext hread
          rw [List.append_assoc] at this
          exact this

theorem merged_nil : Merged pk [] [] where
  read := nofun
  ok := nofun
  nodup := List.nodup_nil
  keys := by simp
  constraints := nofun
  length := le_refl _

theorem lineEntries_length (lineNo : Nat) (texts : List String) :
    (lineEntries pk lineNo texts).length ≤ texts.length := by
  induction texts generalizing lineNo with
  | nil => exact le_refl _
  | cons text rest ih =>
      have hrest := ih (lineNo + 1)
      unfold lineEntries
      split
      · simpa using hrest
      · exact hrest.trans (by simp)

end Merging

/-! ## The parsed file -/

/-- What `parse_requirements` returns for an input. -/
structure Parsed (pk : Packaging) (gbk : ByteArray → Option String) (raw : ByteArray)
    (p : ParsedRequirements) (texts : List String) (entries : List Entry) : Prop where
  input : inputLines gbk raw = .ok (texts, p.encoding)
  loop : readLines pk 1 texts [] = .ok entries
  items : p.items = entries.map Entry.item
  safe : ensureItemsSafe p.items = .ok ()
  text : p.normalizedText = normalizedText p.items

theorem parseRequirements_ok {pk : Packaging} {gbk : ByteArray → Option String} {raw : ByteArray}
    {p : ParsedRequirements} :
    parseRequirements pk gbk raw = .ok p ↔ ∃ texts entries, Parsed pk gbk raw p texts entries := by
  unfold parseRequirements
  rw [bind_ok]
  constructor
  · rintro ⟨⟨texts, encoding⟩, htexts, h⟩
    obtain ⟨entries, hentries, h⟩ := bind_ok.1 h
    obtain ⟨u, hsafe, h⟩ := bind_ok.1 h
    cases h
    exact ⟨texts, entries, htexts, hentries, rfl, hsafe, rfl⟩
  · rintro ⟨texts, entries, h⟩
    refine ⟨(texts, p.encoding), h.input, ?_⟩
    apply bind_ok.2
    refine ⟨entries, h.loop, ?_⟩
    apply bind_ok.2
    refine ⟨(), ?_, ?_⟩
    · rw [← h.items]
      exact h.safe
    · rw [← h.items, ← h.text]
      rfl

theorem Parsed.merged {pk : Packaging} (hgrammar : Grammar pk) {gbk : ByteArray → Option String}
    {raw : ByteArray} {p : ParsedRequirements} {texts : List String} {entries : List Entry}
    (h : Parsed pk gbk raw p texts entries) : Merged pk (lineEntries pk 1 texts) entries := by
  have := readLines_merged hgrammar merged_nil h.loop
  simpa using this

end WheelForge.Parser
