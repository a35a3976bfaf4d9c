import WheelForge.Parser.Reparse

/-!
# Lines that render items

A line that renders an item is read as an entry of the same name. Its extras, its marker and its
clauses are those of the item exactly when the item lists no extra twice, its marker is read as
itself, and the set of its clauses drops none (`Kept`, `readLine_formatItem`). The item need not be
one that the parser made: its clauses may be in any order and may repeat.
-/

set_option autoImplicit false

namespace WheelForge.Parser

open WheelForge.Python
open WheelForge.Pep440

/-! ## Comments -/

/-- No comment begins in the head of an item. -/
theorem pipFileComment_append {head tail : Text} (hne : head ≠ [])
    (hhead : ∀ c ∈ head, headChar c = true) :
    pipFileComment (head ++ tail) = none ↔ commentFrom false tail = none := by
  have hstep : ∀ (start : Bool) (c : Char) (rest : Text), headChar c = true →
      (commentFrom start (c :: rest) = none ↔ commentFrom false rest = none) := by
    intro start c rest hc
    have hhash : c ≠ '#' := by
      rintro rfl
      exact absurd hc (by decide)
    simp [commentFrom, not_isSpace_of_headChar hc, hhash]
  unfold pipFileComment
  generalize true = start
  induction head generalizing start with
  | nil => exact absurd rfl hne
  | cons c head ih =>
      rw [List.cons_append, hstep start c _ (hhead c (by simp))]
      cases head with
      | nil => rfl
      | cons d head => exact ih (by simp) (fun x hx => hhead x (by simp [hx])) false

/-- Whether a rendered item holds a comment depends on its marker only. -/
theorem pipFileComment_congr {pk : Packaging} {entry other : Entry} (h : EntryOk pk entry)
    (hother : EntryOk pk other) (hmarker : other.item.marker = entry.item.marker) :
    pipFileComment (formatItem entry.item).toList = none ↔
      pipFileComment (formatItem other.item).toList = none := by
  have hnonempty : ∀ {e : Entry}, EntryOk pk e → itemHead e.item ≠ [] := by
    intro e he
    obtain ⟨c, rest, hhead, -, -⟩ := itemHead_first he
    rw [hhead]
    exact List.cons_ne_nil _ _
  have htail : itemTail other.item = itemTail entry.item := by
    unfold itemTail
    rw [hmarker]
  rw [formatItem_toList, formatItem_toList, pipFileComment_append (hnonempty h) (itemHead_chars h),
    pipFileComment_append (hnonempty hother) (itemHead_chars hother), htail]

/-! ## One line -/

/-- Nothing of an item is lost where its line is read: no extra is listed twice, the marker is read
as itself and the set of the clauses holds all of them. -/
structure Kept (pk : Packaging) (entry : Entry) : Prop where
  extras : entry.item.extras.Nodup
  marker : ∀ m, entry.item.marker = some m → pk.marker m = .ok m
  clauses : ∀ specifiers, pk.specifierSet entry.item.specifier = some specifiers →
    ∀ c ∈ entry.constraints, c.specifier ∈ specifiers

/-- The entry that is read agrees with the item. -/
structure Agrees (entry again : Entry) : Prop where
  extras : again.item.extras = entry.item.extras
  marker : again.item.marker = entry.item.marker
  constraints : again.constraints = deduplicateSpecifiers entry.constraints

section Line

variable {pk : Packaging} {entry again : Entry} {r : Requirement}

/-- The set of the extras has as many elements as the list. -/
theorem extras_read_iff (hreads : ReadsBack pk entry) (hread : ReadAs pk entry r)
    (hsorted : entry.item.extras.Pairwise (· ≤ ·)) :
    sortNames (r.extras.map pk.canonicalizeName) = entry.item.extras ↔
      entry.item.extras.Nodup := by
  rw [canonicalExtras_map hreads fun e he => List.mem_dedup.1 (hread.extras.mem_iff.1 he)]
  constructor
  · intro h
    rw [← h, (sortNames_perm _).nodup_iff, hread.extras.nodup_iff]
    exact List.nodup_dedup _
  · intro h
    rw [sortNames_congr hread.extras, h.dedup]
    exact sortNames_of_sorted hsorted

theorem marker_read_iff (hread : ReadAs pk entry r) :
    r.marker = entry.item.marker ↔ ∀ m, entry.item.marker = some m → pk.marker m = .ok m := by
  have hmarker := hread.marker
  unfold MarkerReads at hmarker
  cases hm : entry.item.marker with
  | none =>
      rw [hm] at hmarker
      exact ⟨by simp, fun _ => hmarker⟩
  | some m =>
      rw [hm] at hmarker
      obtain ⟨m', hm', hr⟩ := hmarker
      rw [hr, Option.some.injEq]
      constructor
      · rintro rfl x hx
        cases hx
        exact hm'
      · intro h
        have hsame := h m rfl
        rw [hm'] at hsame
        exact Except.ok.inj hsame

/-- The clauses that are read are those of the item when the set holds all of them. -/
theorem clauses_read_iff (hentry : EntryOk pk entry) (hread : ReadAs pk entry r) {lineNo : Nat}
    {originalText : String} {read : List Constraint}
    (hconstraints : readConstraints pk lineNo originalText r.specifier = .ok read) :
    deduplicateSpecifiers read = deduplicateSpecifiers entry.constraints ↔
      ∀ specifiers, pk.specifierSet entry.item.specifier = some specifiers →
        ∀ c ∈ entry.constraints, c.specifier ∈ specifiers := by
  obtain ⟨hmap, hreads⟩ := readConstraints_ok.1 hconstraints
  constructor
  · intro h specifiers hspecifiers c hc
    obtain rfl : r.specifier = specifiers :=
      Option.some.inj (hread.specifierSet.symm.trans hspecifiers)
    rw [← mem_deduplicate, ← h, mem_deduplicate] at hc
    rw [← hmap]
    exact List.mem_map_of_mem hc
  · intro h
    apply deduplicate_congr hreads
    intro c
    constructor
    · exact hread.constraints hentry hconstraints c
    · intro hc
      have hspecifier := h r.specifier hread.specifierSet c hc
      rw [← hmap] at hspecifier
      obtain ⟨d, hd, hdc⟩ := List.mem_map.1 hspecifier
      have hd' := hread.constraints hentry hconstraints d hd
      have hdc' : d = c := by
        apply specifier_injective (hentry.constraints d hd') (hentry.constraints c hc)
        rw [hdc]
      rw [← hdc']
      exact hd

/-- What a line that renders an item is read as. -/
theorem readLine_formatItem (hentry : EntryOk pk entry) (hreads : ReadsBack pk entry)
    (hbreak : NoBreak entry) (hsorted : entry.item.extras.Pairwise (· ≤ ·))
    (hcomment : pipFileComment (formatItem entry.item).toList = none) {lineNo : Nat}
    {found : Option Entry} (h : readLine pk lineNo (formatItem entry.item) = .ok found) :
    ∃ again, found = some again ∧ again.item.name = entry.item.name ∧
      (Agrees entry again ↔ Kept pk entry) := by
  cases found with
  | none =>
      exfalso
      unfold readLine at h
      obtain ⟨found, htext, h⟩ := bind_ok.1 h
      obtain ⟨rfl, -, -⟩ := (requirementText_formatItem hentry hbreak hcomment).1 htext
      obtain ⟨parsed, -, h⟩ := bind_ok.1 h
      obtain ⟨u, -, h⟩ := bind_ok.1 h
      dsimp only at h
      split at h <;> cases h
  | some again =>
      obtain ⟨text, r, hline⟩ := readLine_some.1 h
      obtain ⟨htext, -, -⟩ :=
        (requirementText_formatItem hentry hbreak hcomment).1 hline.held
      obtain rfl := Option.some.inj htext
      obtain ⟨hr, -, read, hread, hdedup⟩ := parseLine_ok hline.grammar
      rw [String.ofList_toList] at hr
      obtain ⟨-, has⟩ := hreads.accepted r hr
      have hextras := extras_read_iff hreads has hsorted
      have hmarker := marker_read_iff has
      have hclauses := clauses_read_iff hentry has hread
      refine ⟨again, rfl, ?_, ?_, ?_⟩
      · rw [hline.item]
        show pk.canonicalizeName r.name = _
        rw [has.name, hreads.canonicalName]
      · intro hagrees
        have hsameExtras := hagrees.extras
        have hsameMarker := hagrees.marker
        rw [hline.item] at hsameExtras hsameMarker
        exact ⟨hextras.1 hsameExtras, hmarker.1 hsameMarker,
          hclauses.1 (hdedup.symm.trans hagrees.constraints)⟩
      · intro hkept
        constructor
        · rw [hline.item]
          exact hextras.2 hkept.extras
        · rw [hline.item]
          exact hmarker.2 hkept.marker
        · rw [hdedup]
          exact hclauses.2 hkept.clauses

end Line

/-! ## All lines -/

section Lines

variable {pk : Packaging}

/-- Lines that are read as entries with new keys give these entries one after the other. -/
theorem readLines_new {texts : List String} {keys : List (String × Option String)} {lineNo : Nat}
    {acc out : List Entry} (h : readLines pk lineNo texts acc = .ok out)
    (hkeys : List.Forall₂ (fun text key => ∀ n found, readLine pk n text = .ok found →
      ∃ entry, found = some entry ∧ entry.key = key) texts keys)
    (hnodup : keys.Nodup) (hnew : ∀ key ∈ keys, key ∉ acc.map Entry.key) :
    ∃ again, out = acc ++ again ∧
      List.Forall₂ (fun text a => ∃ n, readLine pk n text = .ok (some a)) texts again := by
  induction hkeys generalizing lineNo acc with
  | nil =>
      cases h
      exact ⟨[], by simp, .nil⟩
  | @cons text key texts keys hkey _ ih =>
      unfold readLines at h
      obtain ⟨found, hline, h⟩ := bind_ok.1 h
      obtain ⟨entry, rfl, rfl⟩ := hkey lineNo found hline
      obtain ⟨next, hadd, h⟩ := bind_ok.1 h
      rw [List.nodup_cons] at hnodup
      have hnext : next = acc ++ [entry] := by
        have hfind : acc.find? (·.key = entry.key) = none := by
          rw [List.find?_eq_none]
          intro x hx
          rw [decide_eq_true_eq]
          intro hsame
          exact hnew entry.key (by simp) (hsame ▸ List.mem_map_of_mem hx)
        unfold addEntry at hadd
        rw [hfind] at hadd
        exact (Except.ok.inj hadd).symm
      subst hnext
      have hnew' : ∀ key ∈ keys, key ∉ (acc ++ [entry]).map Entry.key := by
        intro key hmem
        rw [List.map_append, List.mem_append, List.map_singleton, List.mem_singleton]
        rintro (hold | rfl)
        · exact hnew key (by simp [hmem]) hold
        · exact hnodup.1 hmem
      obtain ⟨again, hout, hall⟩ := ih h hnodup.2 hnew'
      refine ⟨entry :: again, ?_, .cons ⟨lineNo, hline⟩ hall⟩
      rw [hout, List.append_assoc]
      rfl

/-- A line that renders an item without a comment. -/
structure Renders (pk : Packaging) (entry : Entry) : Prop where
  ok : EntryOk pk entry
  reads : ReadsBack pk entry
  noBreak : NoBreak entry
  sorted : entry.item.extras.Pairwise (· ≤ ·)
  comment : pipFileComment (formatItem entry.item).toList = none

theorem Renders.readLine {entry : Entry} (h : Renders pk entry) {lineNo : Nat}
    {found : Option Entry} (hline : readLine pk lineNo (formatItem entry.item) = .ok found) :
    ∃ again, found = some again ∧ again.item.name = entry.item.name ∧
      (Agrees entry again ↔ Kept pk entry) :=
  readLine_formatItem h.ok h.reads h.noBreak h.sorted h.comment hline

/-- The entries of the lines that render items agree with them, one by one, exactly when nothing of
the items is lost. -/
theorem readLines_formatItems {es out : List Entry} {lineNo : Nat}
    (hes : ∀ e ∈ es, Renders pk e) (hnodup : (es.map Entry.key).Nodup)
    (h : readLines pk lineNo (es.map fun e => formatItem e.item) [] = .ok out) :
    List.Forall₂ (fun e a => a.item.name = e.item.name ∧ Agrees e a) es out ↔
      ∀ e ∈ es, Kept pk e := by
  constructor
  · intro hall e he
    obtain ⟨-, hfull⟩ := readLines_full h
    obtain ⟨again, hout, hread⟩ := hfull (by simp [hall.length_eq])
    rw [List.nil_append] at hout
    subst hout
    rw [List.forall₂_map_left_iff] at hread
    obtain ⟨i, hi, rfl⟩ := List.getElem_of_mem he
    have hlength := hall.length_eq
    obtain ⟨n, hline⟩ := hread.get hi (by omega)
    obtain ⟨a, ha, -, hiff⟩ := (hes _ (List.getElem_mem hi)).readLine hline
    have hagrees := (hall.get hi (by omega)).2
    obtain rfl := Option.some.inj ha
    exact hiff.1 hagrees
  · intro hkept
    have hkeys : List.Forall₂ (fun text key => ∀ n found, Parser.readLine pk n text = .ok found →
        ∃ entry, found = some entry ∧ entry.key = key)
        (es.map fun e => formatItem e.item) (es.map Entry.key) := by
      rw [List.forall₂_map_left_iff, List.forall₂_map_right_iff, List.forall₂_same]
      intro e he n found hline
      obtain ⟨a, rfl, hname, hiff⟩ := (hes e he).readLine hline
      refine ⟨a, rfl, ?_⟩
      unfold Entry.key
      rw [hname, (hiff.2 (hkept e he)).marker]
    obtain ⟨again, hout, hread⟩ := readLines_new h hkeys hnodup (by simp)
    rw [List.nil_append] at hout
    subst hout
    rw [List.forall₂_map_left_iff] at hread
    refine List.forall₂_iff_get.2 ⟨hread.length_eq, ?_⟩
    intro i hi hi'
    have he := List.get_mem es ⟨i, hi⟩
    obtain ⟨n, hline⟩ := hread.get hi hi'
    obtain ⟨a, ha, hname, hiff⟩ := (hes _ he).readLine hline
    rw [Option.some.inj ha]
    exact ⟨hname, hiff.2 (hkept _ he)⟩

end Lines

end WheelForge.Parser
