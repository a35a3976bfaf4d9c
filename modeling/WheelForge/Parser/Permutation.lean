import WheelForge.Parser.Conflicts
import WheelForge.Parser.Inertness

/-!
# The order of the lines

The parser merges line by line. Lines that are acceptable on their own are acceptable together
exactly when the constraints of each key can be satisfied (`readLines_accepts_iff`), and the merged
extras and constraints of a key depend on the lines of that key only (`ExtrasMerged`, `Merged`). Both
are the same for the lines in another order (`parseRequirements_perm`).
-/

set_option autoImplicit false

namespace WheelForge.Parser

open WheelForge.Python
open WheelForge.Pep440

/-! ## Line numbers -/

section LineNumbers

variable {pk : Packaging} {lineNo other : Nat} {originalText : String}

theorem rejectIf_renumber {condition : Bool} {message : String} {u : Unit}
    (h : rejectIf condition message lineNo originalText = .ok u) :
    rejectIf condition message other originalText = .ok u :=
  rejectIf_ok.2 (rejectIf_ok.1 h)

theorem rejectUnsafeText_renumber {text : Text} {u : Unit}
    (h : rejectUnsafeText text lineNo originalText = .ok u) :
    rejectUnsafeText text other originalText = .ok u := by
  unfold rejectUnsafeText at h ⊢
  simp only [bind_ok, rejectIf_ok] at h ⊢
  exact h

theorem ensurePipFileSafe_renumber {line : Text} {u : Unit}
    (h : ensurePipFileSafe line lineNo originalText = .ok u) :
    ensurePipFileSafe line other originalText = .ok u :=
  ensurePipFileSafe_ok.2 (ensurePipFileSafe_ok.1 h)

/-- Whether a line holds a requirement does not depend on its number. -/
theorem requirementText_renumber {found : Option Text}
    (h : requirementText originalText lineNo = .ok found) :
    requirementText originalText other = .ok found := by
  unfold requirementText at h ⊢
  obtain ⟨u, hseparator, h⟩ := bind_ok.1 h
  obtain ⟨v, hnul, h⟩ := bind_ok.1 h
  refine bind_ok.2 ⟨u, rejectIf_renumber hseparator, bind_ok.2 ⟨v, rejectIf_renumber hnul, ?_⟩⟩
  dsimp only at h ⊢
  split at h
  · next hblank =>
      rw [if_pos hblank]
      exact h
  · next hblank =>
      rw [if_neg hblank]
      obtain ⟨w, hcontinued, h⟩ := bind_ok.1 h
      refine bind_ok.2 ⟨w, rejectIf_renumber hcontinued, ?_⟩
      split at h
      · next hempty =>
          rw [if_pos hempty]
          exact h
      · next hempty =>
          rw [if_neg hempty]
          obtain ⟨x, hunsafe, h⟩ := bind_ok.1 h
          exact bind_ok.2 ⟨x, rejectUnsafeText_renumber hunsafe, h⟩

theorem readConstraints_renumber {specifiers : List Specifier} {constraints : List Constraint}
    (h : readConstraints pk lineNo originalText specifiers = .ok constraints) :
    readConstraints pk other originalText specifiers = .ok constraints :=
  readConstraints_ok.2 (readConstraints_ok.1 h)

theorem parseLine_renumber {text : Text} {parsed : Requirement} {constraints : List Constraint}
    (h : parseLine pk text lineNo originalText = .ok (parsed, constraints)) :
    parseLine pk text other originalText = .ok (parsed, constraints) := by
  obtain ⟨hrequirement, hurl, read, hread, rfl⟩ := parseLine_ok h
  unfold parseLine
  rw [hrequirement]
  dsimp only
  refine bind_ok.2 ⟨(), ?_, bind_ok.2 ⟨read, readConstraints_renumber hread, rfl⟩⟩
  rw [rejectIf_ok, hurl]
  rfl

/-- The entry of a line with another number. -/
def Entry.renumber (entry : Entry) (lineNo : Nat) : Entry :=
  { entry with item := { entry.item with lineNo := lineNo } }

theorem LineRead.renumber {text : Text} {parsed : Requirement} {entry : Entry}
    (h : LineRead pk lineNo originalText text parsed entry) (other : Nat) :
    LineRead pk other originalText text parsed (entry.renumber other) where
  held := requirementText_renumber h.held
  grammar := parseLine_renumber h.grammar
  item := by
    show { entry.item with lineNo := other } = _
    rw [h.item]
    rfl
  safe := ensurePipFileSafe_renumber h.safe
  consistent := h.consistent

theorem readLine_none :
    readLine pk lineNo originalText = .ok none ↔ requirementText originalText lineNo = .ok none := by
  constructor
  · intro h
    unfold readLine at h
    obtain ⟨found, htext, h⟩ := bind_ok.1 h
    cases found with
    | none => exact htext
    | some text =>
        obtain ⟨parsed, -, h⟩ := bind_ok.1 h
        obtain ⟨u, -, h⟩ := bind_ok.1 h
        dsimp only at h
        split at h
        · cases h
        · cases h
  · intro h
    unfold readLine
    exact bind_ok.2 ⟨none, h, rfl⟩

/-- A line is read as the same entry under every number. -/
theorem readLine_renumber {found : Option Entry} (other : Nat)
    (h : readLine pk lineNo originalText = .ok found) :
    readLine pk other originalText = .ok (found.map (·.renumber other)) := by
  cases found with
  | none => exact readLine_none.2 (requirementText_renumber (readLine_none.1 h))
  | some entry =>
      obtain ⟨text, parsed, hread⟩ := readLine_some.1 h
      exact readLine_some.2 ⟨text, parsed, hread.renumber other⟩

end LineNumbers

/-! ## Contents -/

/-- What of a line is merged. -/
structure Content where
  key : String × Option String
  extras : List String
  constraints : List Constraint

def Entry.content (entry : Entry) : Content := ⟨entry.key, entry.item.extras, entry.constraints⟩

/-- The loop accepts the line. -/
def LineAccepted (pk : Packaging) (text : String) : Prop := ∃ found, readLine pk 1 text = .ok found

/-- The content of an accepted line. -/
def lineContent (pk : Packaging) (text : String) : Option Content :=
  match readLine pk 1 text with
  | .ok found => found.map Entry.content
  | .error _ => none

section Contents

variable {pk : Packaging} {texts : List String}

theorem lineContent_of_readLine {lineNo : Nat} {text : String} {found : Option Entry}
    (h : readLine pk lineNo text = .ok found) : lineContent pk text = found.map Entry.content := by
  unfold lineContent
  rw [readLine_renumber 1 h]
  cases found <;> rfl

theorem LineAccepted.readLine {text : String} (h : LineAccepted pk text) (lineNo : Nat) :
    ∃ found, readLine pk lineNo text = .ok found := by
  obtain ⟨found, hread⟩ := h
  exact ⟨_, readLine_renumber lineNo hread⟩

/-- The contents of the entries are those of the lines. -/
theorem lineEntries_content (h : ∀ text ∈ texts, LineAccepted pk text) (lineNo : Nat) :
    (lineEntries pk lineNo texts).map Entry.content = texts.filterMap (lineContent pk) := by
  induction texts generalizing lineNo with
  | nil => rfl
  | cons text rest ih =>
      obtain ⟨found, hread⟩ := (h text (by simp)).readLine lineNo
      have hrest := ih (fun t ht => h t (by simp [ht])) (lineNo + 1)
      have hcontent := lineContent_of_readLine hread
      unfold lineEntries
      rw [hread, List.filterMap_cons, hcontent]
      cases found with
      | none => exact hrest
      | some entry => simp [hrest]

/-- The contents of the lines of one key. -/
def keyContents (lines : List Entry) (key : String × Option String) : List Content :=
  (lines.map Entry.content).filter (·.key = key)

theorem keyContents_append (lines : List Entry) (entry : Entry) (key : String × Option String) :
    keyContents (lines ++ [entry]) key =
      keyContents lines key ++ if entry.key = key then [entry.content] else [] := by
  unfold keyContents
  rw [List.map_append, List.filter_append]
  congr 1
  by_cases hkey : entry.key = key <;> simp [Entry.content, hkey]

theorem keyConstraints_eq (lines : List Entry) (key : String × Option String) :
    keyConstraints lines key = (keyContents lines key).flatMap Content.constraints := by
  unfold keyConstraints keyContents
  rw [List.filter_map, List.flatMap_map]
  rfl

theorem keyConstraints_mono (lines others : List Entry) (key : String × Option String) :
    keyConstraints lines key ⊆ keyConstraints (lines ++ others) key := by
  unfold keyConstraints
  rw [List.filter_append, List.flatMap_append]
  exact List.subset_append_left _ _

theorem keyContents_eq_nil {lines : List Entry} {key : String × Option String} :
    keyContents lines key = [] ↔ key ∉ lines.map Entry.key := by
  unfold keyContents
  rw [List.filter_eq_nil_iff]
  simp only [List.mem_map, forall_exists_index, and_imp, forall_apply_eq_imp_iff₂,
    decide_eq_true_eq, not_exists, not_and]
  rfl

end Contents

/-! ## Merged extras -/

/-- The extras of a key: those of its line, or the deduplicated extras of its lines. -/
def mergedExtras : List (List String) → List String
  | [extras] => extras
  | all => sortNames all.flatten.dedup

theorem mergedExtras_perm {all others : List (List String)} (h : all.Perm others) :
    mergedExtras all = mergedExtras others := by
  have hlong : ∀ l : List (List String), (∀ x, l ≠ [x]) →
      mergedExtras l = sortNames l.flatten.dedup := by
    intro l hl
    unfold mergedExtras
    split
    · next extras => exact absurd rfl (hl extras)
    · rfl
  by_cases hsingle : ∃ x, all = [x]
  · obtain ⟨x, rfl⟩ := hsingle
    rw [List.singleton_perm.1 h]
  · have hall : ∀ x, all ≠ [x] := fun x hx => hsingle ⟨x, hx⟩
    have hothers : ∀ x, others ≠ [x] := by
      rintro x rfl
      exact hall x (List.perm_singleton.1 h)
    rw [hlong all hall, hlong others hothers]
    exact sortNames_congr h.flatten.dedup

/-- Merging one more line of a key. -/
theorem mergedExtras_append {all : List (List String)} (h : all ≠ []) (extras : List String) :
    mergedExtras (all ++ [extras]) = sortNames (mergedExtras all ++ extras).dedup := by
  cases all with
  | nil => exact absurd rfl h
  | cons x rest =>
      cases rest with
      | nil => simp [mergedExtras]
      | cons y rest =>
          show sortNames ((x :: y :: rest) ++ [extras]).flatten.dedup =
            sortNames (sortNames (x :: y :: rest).flatten.dedup ++ extras).dedup
          apply sortNames_congr
          -- both hold the same names, each once
          rw [List.perm_ext_iff_of_nodup (List.nodup_dedup _) (List.nodup_dedup _)]
          intro name
          simp only [List.mem_dedup, List.flatten_append, List.mem_append, mem_sortNames,
            List.flatten_singleton]

/-- The extras of the entries after the given lines. -/
def ExtrasMerged (lines entries : List Entry) : Prop :=
  ∀ e ∈ entries, e.item.extras = mergedExtras ((keyContents lines e.key).map Content.extras)

section Merging

variable {pk : Packaging} {lines entries entries' : List Entry} {entry : Entry}

theorem ExtrasMerged.addEntry (h : ExtrasMerged lines entries) (hmerged : Merged pk lines entries)
    (hadd : addEntry pk entries entry = .ok entries') :
    ExtrasMerged (lines ++ [entry]) entries' := by
  unfold Parser.addEntry at hadd
  split at hadd
  · next hfind =>
      cases hadd
      have hnew : entry.key ∉ entries.map Entry.key := by
        intro hkey
        obtain ⟨e, he, hek⟩ := List.mem_map.1 hkey
        exact List.find?_eq_none.1 hfind e he (decide_eq_true hek)
      intro e he
      rw [keyContents_append]
      rcases List.mem_append.1 he with he | he
      · have hne : entry.key ≠ e.key := by
          intro heq
          rw [heq] at hnew
          exact hnew (List.mem_map_of_mem he)
        rw [if_neg hne, List.append_nil]
        exact h e he
      · obtain rfl := List.mem_singleton.1 he
        rw [hmerged.keys, ← keyContents_eq_nil] at hnew
        rw [hnew, if_pos rfl]
        rfl
  · next existing hfind =>
      split at hadd
      · cases hadd
      · cases hadd
        intro e he
        obtain ⟨old, hold, rfl⟩ := List.mem_map.1 he
        rw [keyContents_append]
        split
        · next hkey =>
            rw [mergeInto_key, if_pos hkey.symm, List.map_append, List.map_singleton]
            have hne : (keyContents lines old.key).map Content.extras ≠ [] := by
              rw [Ne, List.map_eq_nil_iff, keyContents_eq_nil, not_not, ← hmerged.keys]
              exact List.mem_map_of_mem hold
            rw [mergedExtras_append hne, ← h old hold]
            rfl
        · next hkey =>
            rw [if_neg fun heq => hkey heq.symm, List.append_nil]
            exact h old hold

theorem readLines_extras (hgrammar : Grammar pk) {lineNo : Nat} {texts : List String}
    (hmerged : Merged pk lines entries) (h : ExtrasMerged lines entries)
    (hread : readLines pk lineNo texts entries = .ok entries') :
    ExtrasMerged (lines ++ lineEntries pk lineNo texts) entries' := by
  induction texts generalizing lineNo lines entries with
  | nil =>
      cases hread
      unfold lineEntries
      rw [List.append_nil]
      exact h
  | cons text rest ih =>
      unfold readLines at hread
      obtain ⟨found, hline, hread⟩ := bind_ok.1 hread
      unfold lineEntries
      rw [hline]
      cases found with
      | none => exact ih hmerged h hread
      | some entry =>
          obtain ⟨next, hadd, hread⟩ := bind_ok.1 hread
          obtain ⟨text', parsed, hentry⟩ := readLine_some.1 hline
          have := ih (hmerged.addEntry (hentry.ok hgrammar) hadd) (h.addEntry hmerged hadd) hread
          rw [List.append_assoc] at this
          exact this

/-! ## Acceptance -/

/-- The constraints of all lines are clauses of PEP 440, and the library decides them as PEP 440
does. -/
def LinesConform (pk : Packaging) (lines : List Entry) : Prop :=
  ∀ e ∈ lines, ∀ c ∈ e.constraints, Conforms pk c

theorem LinesConform.left {others : List Entry} (h : LinesConform pk (lines ++ others)) :
    LinesConform pk lines :=
  fun e he => h e (List.mem_append_left _ he)

/-- Whether the lines conform depends on their contents only. -/
theorem LinesConform.of_contents {others : List Entry} (h : LinesConform pk lines)
    (hcontents : (lines.map Entry.content).Perm (others.map Entry.content)) :
    LinesConform pk others := by
  intro e he c hc
  have hmem : e.content ∈ lines.map Entry.content :=
    hcontents.mem_iff.2 (List.mem_map_of_mem he)
  obtain ⟨line, hline, hsame⟩ := List.mem_map.1 hmem
  have hconstraints : line.constraints = e.constraints := congrArg Content.constraints hsame
  rw [← hconstraints] at hc
  exact h line hline c hc

theorem LinesConform.key (h : LinesConform pk lines) (key : String × Option String) :
    ∀ c ∈ keyConstraints lines key, Conforms pk c := by
  intro c hc
  obtain ⟨e, he, hc⟩ := List.mem_flatMap.1 hc
  exact h e (List.mem_filter.1 he).1 c hc

/-- The constraints of each key can be satisfied as long as the loop goes on. -/
theorem Merged.satisfiable (h : Merged pk lines entries) (hconform : LinesConform pk lines)
    (key : String × Option String) : Satisfiable pk (keyConstraints lines key) := by
  by_cases hkey : key ∈ entries.map Entry.key
  · obtain ⟨e, he, rfl⟩ := List.mem_map.1 hkey
    have hconsistent := (h.ok e he).consistent
    rw [h.constraints e he] at hconsistent
    have hconforms : ∀ c ∈ deduplicateSpecifiers (keyConstraints lines e.key), Conforms pk c :=
      fun c hc => hconform.key e.key c (mem_deduplicate.1 hc)
    have hsatisfiable : Satisfiable pk (deduplicateSpecifiers (keyConstraints lines e.key)) := by
      by_contra hnone
      rw [(conflict_iff hconforms).2 hnone] at hconsistent
      cases hconsistent
    exact hsatisfiable.mono fun c hc => mem_deduplicate.2 hc
  · rw [h.keys, ← keyContents_eq_nil] at hkey
    rw [keyConstraints_eq, hkey]
    exact ⟨Version.least, by simp⟩

/-- A line is merged as long as the constraints of its key can be satisfied. -/
theorem Merged.accepts (h : Merged pk lines entries) (hconform : LinesConform pk (lines ++ [entry]))
    (hsatisfiable : Satisfiable pk (keyConstraints (lines ++ [entry]) entry.key)) :
    ∃ entries', Parser.addEntry pk entries entry = .ok entries' := by
  unfold Parser.addEntry
  split
  · exact ⟨_, rfl⟩
  · next existing hfind =>
      have hfound := List.find?_some hfind
      have hkey : existing.key = entry.key := of_decide_eq_true hfound
      have hsubset : deduplicateSpecifiers (existing.constraints ++ entry.constraints) ⊆
          keyConstraints (lines ++ [entry]) entry.key := by
        intro c hc
        rw [keyConstraints_append, if_pos rfl]
        rw [mem_deduplicate, h.constraints existing (List.mem_of_find?_eq_some hfind), hkey] at hc
        simpa using hc
      have hconforms : ∀ c ∈ deduplicateSpecifiers (existing.constraints ++ entry.constraints),
          Conforms pk c := fun c hc => hconform.key entry.key c (hsubset hc)
      have hnone : ¬ constraintsConflict pk
          (deduplicateSpecifiers (existing.constraints ++ entry.constraints)) = true := by
        rw [conflict_iff hconforms, not_not]
        exact hsatisfiable.mono hsubset
      rw [if_neg hnone]
      exact ⟨_, rfl⟩

/-- Acceptable lines are acceptable together exactly when the constraints of each key can be
satisfied. -/
theorem readLines_accepts_iff (hgrammar : Grammar pk) {lineNo : Nat} {texts : List String}
    (haccepted : ∀ text ∈ texts, LineAccepted pk text) (hmerged : Merged pk lines entries)
    (hconform : LinesConform pk (lines ++ lineEntries pk lineNo texts)) :
    (∃ entries', readLines pk lineNo texts entries = .ok entries') ↔
      ∀ key, Satisfiable pk (keyConstraints (lines ++ lineEntries pk lineNo texts) key) := by
  induction texts generalizing lineNo lines entries with
  | nil =>
      unfold lineEntries
      rw [List.append_nil]
      exact ⟨fun _ => hmerged.satisfiable hconform.left, fun _ => ⟨entries, rfl⟩⟩
  | cons text rest ih =>
      obtain ⟨found, hline⟩ := (haccepted text (by simp)).readLine lineNo
      have hrest : ∀ t ∈ rest, LineAccepted pk t := fun t ht => haccepted t (by simp [ht])
      unfold lineEntries at hconform
      unfold readLines lineEntries
      rw [hline] at hconform ⊢
      cases found with
      | none => exact ih hrest hmerged hconform
      | some entry =>
          obtain ⟨text', parsed, hentry⟩ := readLine_some.1 hline
          have hok := hentry.ok hgrammar
          have hsplit : lines ++ entry :: lineEntries pk (lineNo + 1) rest =
              (lines ++ [entry]) ++ lineEntries pk (lineNo + 1) rest := by simp
          have hconform' : LinesConform pk
              ((lines ++ [entry]) ++ lineEntries pk (lineNo + 1) rest) := by
            rw [← hsplit]
            exact hconform
          show (∃ entries', (addEntry pk entries entry >>= readLines pk (lineNo + 1) rest) =
            .ok entries') ↔ ∀ key, Satisfiable pk
              (keyConstraints (lines ++ entry :: lineEntries pk (lineNo + 1) rest) key)
          rw [hsplit]
          constructor
          · rintro ⟨entries', h⟩
            obtain ⟨next, hadd, h⟩ := bind_ok.1 h
            exact (ih hrest (hmerged.addEntry hok hadd) hconform').1 ⟨entries', h⟩
          · intro hall
            have hkey : Satisfiable pk (keyConstraints (lines ++ [entry]) entry.key) := by
              have hmono := keyConstraints_mono (lines ++ [entry])
                (lineEntries pk (lineNo + 1) rest) entry.key
              exact (hall entry.key).mono hmono
            obtain ⟨next, hadd⟩ := hmerged.accepts hconform'.left hkey
            obtain ⟨entries', h⟩ := (ih hrest (hmerged.addEntry hok hadd) hconform').2 hall
            exact ⟨entries', bind_ok.2 ⟨next, hadd, h⟩⟩

/-! ## Two orders -/

/-- Two items with the same rendering. -/
structure SameRequirement (i j : RequirementItem) : Prop where
  name : i.name = j.name
  marker : i.marker = j.marker
  extras : i.extras = j.extras
  specifier : i.specifier = j.specifier

theorem SameRequirement.formatItem {i j : RequirementItem} (h : SameRequirement i j) :
    formatItem i = formatItem j := by
  unfold Parser.formatItem
  rw [h.name, h.marker, h.extras, h.specifier]

/-- The entries that lines in two orders leave. -/
theorem sameRequirement_of_perm {lines' : List Entry}
    (hperm : (lines.map Entry.content).Perm (lines'.map Entry.content))
    (hmerged : Merged pk lines entries) (hextras : ExtrasMerged lines entries)
    (hmerged' : Merged pk lines' entries') (hextras' : ExtrasMerged lines' entries') :
    ∀ e ∈ entries, ∃ e' ∈ entries', SameRequirement e.item e'.item := by
  intro e he
  have hcontents : (keyContents lines e.key).Perm (keyContents lines' e.key) := hperm.filter _
  have hkey : e.key ∈ entries'.map Entry.key := by
    have hmem : e.key ∈ lines.map Entry.key := (hmerged.keys e.key).1 (List.mem_map_of_mem he)
    rw [hmerged'.keys]
    by_contra hnone
    rw [← keyContents_eq_nil] at hnone
    rw [hnone, List.perm_nil] at hcontents
    exact keyContents_eq_nil.1 hcontents hmem
  obtain ⟨e', he', hsame⟩ := List.mem_map.1 hkey
  refine ⟨e', he', congrArg Prod.fst hsame.symm, congrArg Prod.snd hsame.symm, ?_, ?_⟩
  · rw [hextras e he, hextras' e' he', hsame]
    exact mergedExtras_perm (hcontents.map _)
  · have hconstraints : e.constraints = e'.constraints := by
      rw [hmerged.constraints e he, hmerged'.constraints e' he', hsame]
      apply deduplicate_congr (hmerged.constraintRead e.key)
      intro c
      rw [keyConstraints_eq, keyConstraints_eq]
      exact (hcontents.flatMap_right _).mem_iff
    rw [(hmerged.ok e he).specifier, (hmerged'.ok e' he').specifier, hconstraints]

end Merging

/-! ## Files -/

/-- The logical lines of a file, whatever its size. -/
def FileLines (gbk : ByteArray → Option String) (raw : ByteArray) (texts : List String) : Prop :=
  ∃ text encoding, decode gbk raw = some (text, encoding) ∧
    (logicalLines (normalizeNewlines text.toList)).map String.ofList = texts

/-- The extras and the specifier that are merged under a key. -/
def mergedUnder (p : ParsedRequirements) (name : String) (marker : Option String) :
    Option (List String × String) :=
  (p.items.find? fun item => item.name = name ∧ item.marker = marker).map fun item =>
    (item.extras, item.specifier)

section Files

variable {pk : Packaging} {gbk : ByteArray → Option String} {raw raw' : ByteArray}
  {texts texts' : List String}

theorem inputLines_of_file (h : FileLines gbk raw texts) :
    (∃ encoding, inputLines gbk raw = .ok (texts, encoding)) ↔
      raw.size ≤ maxInputBytes ∧ texts.length ≤ maxLogicalLines := by
  obtain ⟨text, encoding, hdecode, rfl⟩ := h
  unfold inputLines
  rw [hdecode]
  by_cases hsize : raw.size > maxInputBytes
  · rw [if_pos hsize]
    constructor
    · rintro ⟨encoding', h⟩
      cases h
    · rintro ⟨hle, -⟩
      omega
  · rw [if_neg hsize]
    dsimp only
    split
    · next hlong =>
        constructor
        · rintro ⟨encoding', h⟩
          cases h
        · rintro ⟨-, hle⟩
          omega
    · next hshort => exact ⟨fun _ => ⟨not_lt.1 hsize, not_lt.1 hshort⟩, fun _ => ⟨encoding, rfl⟩⟩

theorem inputLines_lines (h : FileLines gbk raw texts) {found : List String} {encoding : String}
    (hinput : inputLines gbk raw = .ok (found, encoding)) : found = texts := by
  obtain ⟨text, encoding', hdecode, rfl⟩ := h
  unfold inputLines at hinput
  rw [hdecode] at hinput
  split at hinput
  · cases hinput
  · dsimp only at hinput
    split at hinput
    · cases hinput
    · cases hinput
      rfl

/-- A line that is accepted as a file of its own is accepted by the loop. -/
theorem lineAccepted_of_file {text : String} {p : ParsedRequirements}
    (h : FileLines gbk raw [text]) (hparse : parseRequirements pk gbk raw = .ok p) :
    LineAccepted pk text := by
  obtain ⟨found, entries, hparsed⟩ := parseRequirements_ok.1 hparse
  have hloop := hparsed.loop
  rw [inputLines_lines h hparsed.input] at hloop
  unfold readLines at hloop
  obtain ⟨line, hline, -⟩ := bind_ok.1 hloop
  exact ⟨line, hline⟩

/-- What a file of acceptable lines has to satisfy. -/
theorem parse_accepts_iff (hfile : FileLines gbk raw texts) :
    (∃ p, parseRequirements pk gbk raw = .ok p) ↔
      (raw.size ≤ maxInputBytes ∧ texts.length ≤ maxLogicalLines) ∧
        ∃ entries, readLines pk 1 texts [] = .ok entries ∧
          ensureItemsSafe (entries.map Entry.item) = .ok () := by
  constructor
  · rintro ⟨p, hparse⟩
    obtain ⟨found, entries, hparsed⟩ := parseRequirements_ok.1 hparse
    obtain rfl := inputLines_lines hfile hparsed.input
    refine ⟨(inputLines_of_file hfile).1 ⟨_, hparsed.input⟩, entries, hparsed.loop, ?_⟩
    rw [← hparsed.items]
    exact hparsed.safe
  · rintro ⟨hlimits, entries, hloop, hsafe⟩
    obtain ⟨encoding, hinput⟩ := (inputLines_of_file hfile).2 hlimits
    exact ⟨⟨normalizedText (entries.map Entry.item), entries.map Entry.item, encoding⟩,
      parseRequirements_ok.2 ⟨texts, entries, hinput, hloop, rfl, hsafe, rfl⟩⟩

theorem contents_perm (haccepted : ∀ text ∈ texts, LineAccepted pk text)
    (hperm : texts'.Perm texts) :
    ((lineEntries pk 1 texts).map Entry.content).Perm
      ((lineEntries pk 1 texts').map Entry.content) := by
  have haccepted' : ∀ text ∈ texts', LineAccepted pk text :=
    fun text htext => haccepted text (hperm.mem_iff.1 htext)
  rw [lineEntries_content haccepted, lineEntries_content haccepted']
  exact hperm.symm.filterMap _

/-- The loop over the lines in another order. -/
theorem readLines_perm (hgrammar : Grammar pk)
    (hconform : LinesConform pk (lineEntries pk 1 texts))
    (haccepted : ∀ text ∈ texts, LineAccepted pk text) (hperm : texts'.Perm texts)
    {entries : List Entry} (h : readLines pk 1 texts [] = .ok entries) :
    ∃ entries', readLines pk 1 texts' [] = .ok entries' ∧
      (∀ e ∈ entries, ∃ e' ∈ entries', SameRequirement e.item e'.item) ∧
      ∀ e' ∈ entries', ∃ e ∈ entries, SameRequirement e'.item e.item := by
  have hcontents := contents_perm haccepted hperm
  have hstart : ExtrasMerged [] [] := by simp [ExtrasMerged]
  have haccepted' : ∀ text ∈ texts', LineAccepted pk text :=
    fun text htext => haccepted text (hperm.mem_iff.1 htext)
  have hconform' := hconform.of_contents hcontents
  have hall := (readLines_accepts_iff hgrammar haccepted merged_nil hconform).1 ⟨entries, h⟩
  have hall' : ∀ key, Satisfiable pk (keyConstraints ([] ++ lineEntries pk 1 texts') key) := by
    intro key
    refine (hall key).mono fun c hc => ?_
    rw [List.nil_append, keyConstraints_eq] at hc ⊢
    exact ((hcontents.filter _).flatMap_right _).mem_iff.2 hc
  obtain ⟨entries', h'⟩ :=
    (readLines_accepts_iff hgrammar haccepted' merged_nil hconform').2 hall'
  have hmerged := readLines_merged hgrammar merged_nil h
  have hextras := readLines_extras hgrammar merged_nil hstart h
  have hmerged' := readLines_merged hgrammar merged_nil h'
  have hextras' := readLines_extras hgrammar merged_nil hstart h'
  rw [List.nil_append] at hmerged hextras hmerged' hextras'
  exact ⟨entries', h', sameRequirement_of_perm hcontents hmerged hextras hmerged' hextras',
    sameRequirement_of_perm hcontents.symm hmerged' hextras' hmerged hextras⟩

/-- The file is accepted in another order. -/
theorem parse_accepts_of_perm (hgrammar : Grammar pk)
    (hconform : LinesConform pk (lineEntries pk 1 texts)) (hfile : FileLines gbk raw texts) (hfile' : FileLines gbk raw' texts')
    (hsize : raw'.size = raw.size) (hperm : texts'.Perm texts)
    (haccepted : ∀ text ∈ texts, LineAccepted pk text)
    (h : ∃ p, parseRequirements pk gbk raw = .ok p) :
    ∃ p, parseRequirements pk gbk raw' = .ok p := by
  rw [parse_accepts_iff hfile] at h
  obtain ⟨⟨hbytes, hlines⟩, entries, hloop, hsafe⟩ := h
  obtain ⟨entries', hloop', -, hsame⟩ := readLines_perm hgrammar hconform haccepted hperm hloop
  rw [parse_accepts_iff hfile', hsize, hperm.length_eq]
  refine ⟨⟨hbytes, hlines⟩, entries', hloop', ?_⟩
  rw [ensureItemsSafe_ok] at hsafe ⊢
  intro item hitem
  obtain ⟨e', he', rfl⟩ := List.mem_map.1 hitem
  obtain ⟨e, he, hsameItem⟩ := hsame e' he'
  have hitemSafe := hsafe e.item (List.mem_map_of_mem he)
  rw [ensurePipFileSafe_ok] at hitemSafe ⊢
  rw [hsameItem.formatItem]
  exact hitemSafe

theorem find?_unique {entries : List Entry} (hnodup : (entries.map Entry.key).Nodup)
    {e : Entry} (he : e ∈ entries) :
    (entries.map Entry.item).find? (fun item => item.name = e.item.name ∧
      item.marker = e.item.marker) = some e.item := by
  cases hfind : (entries.map Entry.item).find? (fun item => item.name = e.item.name ∧
      item.marker = e.item.marker) with
  | none =>
      have hnone := List.find?_eq_none.1 hfind e.item (List.mem_map_of_mem he)
      simp at hnone
  | some item =>
      obtain ⟨e', he', rfl⟩ := List.mem_map.1 (List.mem_of_find?_eq_some hfind)
      have hfound := List.find?_some hfind
      have hkey : e'.key = e.key := by
        obtain ⟨hname, hmarker⟩ := of_decide_eq_true hfound
        exact Prod.ext hname hmarker
      rw [List.inj_on_of_nodup_map hnodup he' he hkey]

/-- What is merged under a key has an item with that key in every other order. -/
theorem mergedUnder_of_same {p p' : ParsedRequirements} {entries entries' : List Entry}
    (hitems : p.items = entries.map Entry.item) (hitems' : p'.items = entries'.map Entry.item)
    (hnodup' : (entries'.map Entry.key).Nodup)
    (hsame : ∀ e ∈ entries, ∃ e' ∈ entries', SameRequirement e.item e'.item)
    {name : String} {marker : Option String} {merged : List String × String}
    (h : mergedUnder p name marker = some merged) : mergedUnder p' name marker = some merged := by
  unfold mergedUnder at h ⊢
  obtain ⟨item, hfind, rfl⟩ := Option.map_eq_some_iff.1 h
  have hmem := List.mem_of_find?_eq_some hfind
  have hfound := List.find?_some hfind
  obtain ⟨rfl, rfl⟩ := of_decide_eq_true hfound
  rw [hitems] at hmem
  obtain ⟨e, he, rfl⟩ := List.mem_map.1 hmem
  obtain ⟨e', he', hitem⟩ := hsame e he
  rw [hitems', hitem.name, hitem.marker, find?_unique hnodup' he', Option.map_some, hitem.extras,
    hitem.specifier]

/-! ## Result -/

/-- Lines that are accepted one by one, with clauses that packaging decides as PEP 440 does: their
file is accepted exactly when the file of the same lines in another order is, and both results hold
the same extras and the same specifier under each name and marker. -/
theorem parseRequirements_perm (hgrammar : Grammar pk)
    (hconform : LinesConform pk (lineEntries pk 1 texts))
    (hfile : FileLines gbk raw texts) (hfile' : FileLines gbk raw' texts')
    (hsize : raw'.size = raw.size) (hperm : texts'.Perm texts)
    (hlines : ∀ text ∈ texts, ∃ file p, FileLines gbk file [text] ∧
      parseRequirements pk gbk file = .ok p) :
    ((∃ p, parseRequirements pk gbk raw = .ok p) ↔ ∃ p, parseRequirements pk gbk raw' = .ok p) ∧
      ∀ p p', parseRequirements pk gbk raw = .ok p → parseRequirements pk gbk raw' = .ok p' →
        ∀ name marker, mergedUnder p name marker = mergedUnder p' name marker := by
  have haccepted : ∀ text ∈ texts, LineAccepted pk text := by
    intro text htext
    obtain ⟨file, p, hsingle, hparse⟩ := hlines text htext
    exact lineAccepted_of_file hsingle hparse
  have haccepted' : ∀ text ∈ texts', LineAccepted pk text :=
    fun text htext => haccepted text (hperm.mem_iff.1 htext)
  refine ⟨⟨?_, ?_⟩, ?_⟩
  · exact parse_accepts_of_perm hgrammar hconform hfile hfile' hsize hperm haccepted
  · have hconform' := hconform.of_contents (contents_perm haccepted hperm)
    exact parse_accepts_of_perm hgrammar hconform' hfile' hfile hsize.symm hperm.symm haccepted'
  · intro p p' hparse hparse' name marker
    obtain ⟨found, entries, hparsed⟩ := parseRequirements_ok.1 hparse
    obtain ⟨found', entries', hparsed'⟩ := parseRequirements_ok.1 hparse'
    obtain rfl := inputLines_lines hfile hparsed.input
    obtain rfl := inputLines_lines hfile' hparsed'.input
    obtain ⟨again, hagain, hsame, hsame'⟩ :=
      readLines_perm hgrammar hconform haccepted hperm hparsed.loop
    obtain rfl : entries' = again := Except.ok.inj (hparsed'.loop.symm.trans hagain)
    have hnodup := (hparsed.merged hgrammar).nodup
    have hnodup' := (hparsed'.merged hgrammar).nodup
    apply Option.ext
    intro merged
    exact ⟨mergedUnder_of_same hparsed.items hparsed'.items hnodup' hsame,
      mergedUnder_of_same hparsed'.items hparsed.items hnodup hsame'⟩

end Files

/-! ### Two lines of one package -/

theorem clausePackaging_accepts {text : String} {r : Requirement}
    (h : clausePackaging.requirement text = .ok r) :
    r = ⟨"demo", [], [⟨.greaterEqual, "1.0"⟩], none, none⟩ ∨
      r = ⟨"demo", [], [⟨.lessEqual, "2.0"⟩], none, none⟩ := by
  unfold clausePackaging at h
  dsimp only at h
  split at h
  · cases h
    exact .inl rfl
  · split at h
    · cases h
      exact .inr rfl
    · cases h

theorem clausePackaging_grammar : Grammar clausePackaging where
  name := by
    intro text r h
    have hname : r.name = "demo" := by
      rcases clausePackaging_accepts h with rfl | rfl <;> rfl
    rw [hname]
    exact ⟨⟨'d', rfl, by decide, by decide⟩, forall_mem_of_all (by decide)⟩
  extra := by
    intro text r h e he
    rcases clausePackaging_accepts h with rfl | rfl <;> cases he
  version := by
    intro text r h s hs _ _
    rcases clausePackaging_accepts h with rfl | rfl <;> obtain rfl := List.mem_singleton.1 hs
    · exact ⟨by decide, forall_mem_of_all (by decide), by decide +kernel⟩
    · exact ⟨by decide, forall_mem_of_all (by decide), by decide +kernel⟩
  marker := by
    intro text r m h hm
    rcases clausePackaging_accepts h with rfl | rfl <;> cases hm

/-- The entries of the two lines. -/
def boundEntries : List Entry :=
  [⟨⟨1, "demo", [], ">=1.0", none, "demo>=1.0"⟩, [⟨⟨.greaterEqual, "1.0"⟩, .ofMajor 1⟩]⟩,
    ⟨⟨2, "demo", [], "<=2.0", none, "demo<=2.0"⟩, [⟨⟨.lessEqual, "2.0"⟩, .ofMajor 2⟩]⟩]

theorem boundEntries_conform : LinesConform clausePackaging boundEntries := by
  intro e he c hc
  rcases List.mem_cons.1 he with rfl | he
  · obtain rfl := List.mem_singleton.1 hc
    exact clausePackaging_conforms (b := .atLeast (.ofMajor 1)) rfl rfl rfl
  · obtain rfl := List.mem_singleton.1 he
    obtain rfl := List.mem_singleton.1 hc
    exact clausePackaging_conforms (b := .atMost (.ofMajor 2)) rfl rfl rfl

theorem boundEntries_eq :
    lineEntries clausePackaging 1 ["demo>=1.0", "demo<=2.0"] = boundEntries := by
  decide +kernel

/-- The two lines in both orders. -/
theorem demoBounds_perm :
    ((∃ p, parseRequirements clausePackaging (fun _ => none)
        "demo>=1.0\ndemo<=2.0\n".toUTF8 = .ok p) ↔
      ∃ p, parseRequirements clausePackaging (fun _ => none)
        "demo<=2.0\ndemo>=1.0\n".toUTF8 = .ok p) ∧
      ∀ p p', parseRequirements clausePackaging (fun _ => none)
          "demo>=1.0\ndemo<=2.0\n".toUTF8 = .ok p →
        parseRequirements clausePackaging (fun _ => none)
          "demo<=2.0\ndemo>=1.0\n".toUTF8 = .ok p' →
        ∀ name marker, mergedUnder p name marker = mergedUnder p' name marker := by
  refine @parseRequirements_perm clausePackaging (fun _ => none) _ _ ["demo>=1.0", "demo<=2.0"]
    ["demo<=2.0", "demo>=1.0"] clausePackaging_grammar (boundEntries_eq ▸ boundEntries_conform)
    ⟨"demo>=1.0\ndemo<=2.0\n", "utf-8", by decide +kernel, by decide +kernel⟩
    ⟨"demo<=2.0\ndemo>=1.0\n", "utf-8", by decide +kernel, by decide +kernel⟩
    (by decide +kernel) (List.Perm.swap _ _ _) ?_
  intro text htext
  rcases List.mem_cons.1 htext with rfl | htext
  · exact ⟨"demo>=1.0\n".toUTF8, ⟨"demo>=1.0\n", [⟨1, "demo", [], ">=1.0", none, "demo>=1.0"⟩],
      "utf-8"⟩, ⟨"demo>=1.0\n", "utf-8", by decide +kernel, by decide +kernel⟩, by decide +kernel⟩
  · obtain rfl := List.mem_singleton.1 htext
    exact ⟨"demo<=2.0\n".toUTF8, ⟨"demo<=2.0\n", [⟨1, "demo", [], "<=2.0", none, "demo<=2.0"⟩],
      "utf-8"⟩, ⟨"demo<=2.0\n", "utf-8", by decide +kernel, by decide +kernel⟩, by decide +kernel⟩

end WheelForge.Parser
