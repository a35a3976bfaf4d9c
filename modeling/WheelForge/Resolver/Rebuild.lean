import WheelForge.Parser.ItemsRead
import WheelForge.Resolver.Compatible

/-!
# Rebuilt requirements

`_rebuild_requirements` renders every item with its pin replaced and parses the text again. The
result keeps every item in its place, with the pins replaced and nothing else changed, exactly when
nothing of the items is lost as their lines are read (`rebuild_frame_iff`).
-/

set_option autoImplicit false

namespace WheelForge.Resolver

open WheelForge.Parser WheelForge.Python WheelForge.Pep440 WheelForge.Target

/-! ## Clauses as text -/

/-- The clauses of a specifier text. -/
def clausesOf (specifier : String) : List String :=
  (specifier.toList.splitOn ',').map String.ofList

/-- A clause that begins with `==`. -/
def isExactClause (clause : String) : Bool := ['=', '='] <+: clause.toList

/-- The specifier of an item whose pin is replaced: the new exact clause and the other clauses. -/
def pinnedSpecifier (version : Option Version) (specifier : String) : String :=
  match version with
  | none => specifier
  | some v =>
      ",".intercalate (("==" ++ v.str) :: (clausesOf specifier).filter fun clause =>
        !isExactClause clause)

section Clauses

variable {pk : Packaging} {constraints : List Constraint}

theorem clausesOf_format (hok : ∀ c ∈ constraints, ConstraintOk pk c) (hne : constraints ≠ []) :
    clausesOf (formatSpecifiers constraints) = constraints.map fun c => c.specifier.str := by
  have hcomma : ∀ x ∈ constraints.map (fun c => c.specifier.str.toList), ',' ∉ x := by
    intro x hx
    obtain ⟨c, hc, rfl⟩ := List.mem_map.1 hx
    exact specifier_noComma (hok c hc)
  unfold clausesOf
  rw [formatSpecifiers_toList, List.splitOn_intercalate ',' hcomma (by simpa using hne),
    List.map_map]
  exact List.map_congr_left fun c _ => String.ofList_toList

theorem isExactClause_iff {c : Constraint} (h : ConstraintOk pk c) :
    isExactClause c.specifier.str = true ↔ c.specifier.operator = .equal := by
  have hsupported := h.supported
  unfold isExactClause Specifier.str
  rw [decide_eq_true_eq, String.toList_append]
  revert hsupported
  cases c.specifier.operator <;> simp [supported, Operator.str]

end Clauses

/-! ## Rebuilt entries -/

/-- A constraint with its exact version replaced. -/
def replacePin (version : Version) (c : Constraint) : Constraint :=
  if c.specifier.operator = .equal then ⟨⟨.equal, version.str⟩, version⟩ else c

/-- The entry whose item the rebuilt line renders. -/
def rebuiltEntry (entry : Entry) : Option Version → Entry
  | none => entry
  | some version =>
      { item := { entry.item with
          specifier := formatSpecifiers (entry.constraints.map (replacePin version)) }
        constraints := entry.constraints.map (replacePin version) }

/-- A version that its text is read as. -/
structure ReadsAsItself (pk : Packaging) (version : Version) : Prop where
  text : VersionText version.str.toList
  version : pk.version version.str = some version

section Entries

variable {pk : Packaging} {entry : Entry} {version : Version}

@[simp] theorem rebuiltEntry_name (entry : Entry) (version : Option Version) :
    (rebuiltEntry entry version).item.name = entry.item.name := by
  cases version <;> rfl

@[simp] theorem rebuiltEntry_extras (entry : Entry) (version : Option Version) :
    (rebuiltEntry entry version).item.extras = entry.item.extras := by
  cases version <;> rfl

@[simp] theorem rebuiltEntry_marker (entry : Entry) (version : Option Version) :
    (rebuiltEntry entry version).item.marker = entry.item.marker := by
  cases version <;> rfl

@[simp] theorem rebuiltEntry_key (entry : Entry) (version : Option Version) :
    (rebuiltEntry entry version).key = entry.key := by
  cases version <;> rfl

theorem replacePin_ok (hversion : ReadsAsItself pk version) {c : Constraint}
    (h : ConstraintOk pk c) : ConstraintOk pk (replacePin version c) := by
  unfold replacePin
  split
  · exact ⟨rfl, hversion.text, hversion.version⟩
  · exact h

theorem rebuiltEntry_ok (h : EntryOk pk entry) {version : Option Version}
    (hversion : ∀ v, version = some v → ReadsAsItself pk v) :
    EntryOk pk (rebuiltEntry entry version) := by
  cases version with
  | none => exact h
  | some v =>
      constructor
      · exact h.name
      · exact h.extras
      · intro c hc
        obtain ⟨d, hd, rfl⟩ := List.mem_map.1 hc
        exact replacePin_ok (hversion v rfl) (h.constraints d hd)
      · rfl
      · exact h.marker

/-- Constraints in their order are left as they are. -/
theorem deduplicate_of_sorted {constraints : List Constraint} (hnodup : constraints.Nodup)
    (hsorted : constraints.Pairwise Constraint.Le) :
    deduplicateSpecifiers constraints = constraints := by
  unfold deduplicateSpecifiers
  rw [hnodup.dedup]
  exact hsorted.insertionSort_eq

/-- The constraints with the pin replaced, in order: the exact one comes first. -/
theorem deduplicate_replacePin (hline : LineOk pk entry) (hversion : ReadsAsItself pk version)
    (hexact : ∃ c ∈ entry.constraints, c.specifier.operator = .equal) :
    deduplicateSpecifiers (entry.constraints.map (replacePin version)) =
      ⟨⟨.equal, version.str⟩, version⟩ ::
        entry.constraints.filter fun c => c.specifier.operator ≠ .equal := by
  have hok : ∀ c ∈ entry.constraints.map (replacePin version), ConstraintRead pk c := by
    intro c hc
    obtain ⟨d, hd, rfl⟩ := List.mem_map.1 hc
    exact (replacePin_ok hversion (hline.constraints d hd)).read
  have hnodup : (entry.constraints.filter fun c => c.specifier.operator ≠ .equal).Nodup := by
    rw [← hline.deduplicated]
    exact (deduplicate_nodup _).filter _
  have hsorted : (entry.constraints.filter fun c =>
      c.specifier.operator ≠ .equal).Pairwise Constraint.Le := by
    rw [← hline.deduplicated]
    exact (deduplicate_pairwise _).filter _
  rw [deduplicate_congr hok (b := ⟨⟨.equal, version.str⟩, version⟩ ::
    entry.constraints.filter fun c => c.specifier.operator ≠ .equal) ?_]
  · apply deduplicate_of_sorted
    · rw [List.nodup_cons]
      exact ⟨by simp, hnodup⟩
    · rw [List.pairwise_cons]
      refine ⟨fun c hc => ?_, hsorted⟩
      have hop : c.specifier.operator ≠ .equal := by simpa using (List.mem_filter.1 hc).2
      have hpositive : 0 < operatorOrder c.specifier.operator := by
        revert hop
        cases c.specifier.operator <;> decide
      exact Prod.Lex.toLex_le_toLex.2 (.inl hpositive)
  · intro c
    rw [List.mem_map, List.mem_cons, List.mem_filter]
    constructor
    · rintro ⟨d, hd, rfl⟩
      unfold replacePin
      split
      · exact .inl rfl
      · next hop => exact .inr ⟨hd, by simpa using hop⟩
    · rintro (rfl | ⟨hc, hop⟩)
      · obtain ⟨d, hd, hop⟩ := hexact
        exact ⟨d, hd, by simp [replacePin, hop]⟩
      · exact ⟨c, hc, if_neg (by simpa using hop)⟩

/-- The text of the rebuilt clauses. -/
theorem pinnedSpecifier_eq (hline : LineOk pk entry) {version : Option Version}
    (hversion : ∀ v, version = some v → ReadsAsItself pk v ∧
      ∃ c ∈ entry.constraints, c.specifier.operator = .equal) :
    pinnedSpecifier version entry.item.specifier =
      formatSpecifiers (deduplicateSpecifiers (rebuiltEntry entry version).constraints) := by
  cases version with
  | none =>
      show entry.item.specifier = formatSpecifiers (deduplicateSpecifiers entry.constraints)
      rw [hline.deduplicated, hline.specifier]
  | some v =>
      obtain ⟨hreads, hexact⟩ := hversion v rfl
      obtain ⟨c, hc, -⟩ := id hexact
      simp only [pinnedSpecifier, rebuiltEntry]
      rw [deduplicate_replacePin hline hreads hexact, hline.specifier,
        clausesOf_format hline.constraints (List.ne_nil_of_mem hc), List.filter_map]
      unfold formatSpecifiers
      rw [List.map_cons]
      congr 3
      apply List.filter_congr
      intro d hd
      have hiff := isExactClause_iff (hline.constraints d hd)
      rw [Bool.eq_iff_iff]
      simp [← hiff]

end Entries

/-! ## Pins -/

section Pins

variable {pk : WheelPackaging}

/-- The pin of an item at an index. -/
def pinAt (pk : WheelPackaging) (item : RequirementItem) (index : Nat) : Option RelaxablePin :=
  match exactVersion pk item with
  | .ok (some version) => some ⟨index, item.name, version⟩
  | _ => none

/-- The pins are those of the items with one exact version, in their order. -/
theorem pinsFrom_ok {index : Nat} {items : List RequirementItem} {pins : List RelaxablePin}
    (h : pinsFrom pk index items = .ok pins) :
    pins = (items.zipIdx index).filterMap fun (item, i) => pinAt pk item i := by
  induction items generalizing index pins with
  | nil =>
      cases h
      rfl
  | cons item rest ih =>
      unfold pinsFrom at h
      obtain ⟨found, hexact, h⟩ := bind_ok.1 h
      rw [List.zipIdx_cons, List.filterMap_cons]
      dsimp only
      unfold pinAt
      rw [hexact]
      cases found with
      | none => exact ih h
      | some version =>
          obtain ⟨more, hmore, h⟩ := bind_ok.1 h
          cases h
          rw [ih hmore]
          rfl

theorem mem_pins {parsed : ParsedRequirements} {pins : List RelaxablePin} {pin : RelaxablePin}
    (h : relaxablePins pk parsed = .ok pins) (hpin : pin ∈ pins) :
    ∃ item, parsed.items[pin.itemIndex]? = some item ∧
      exactVersion pk item = .ok (some pin.original) ∧ pin.package = item.name := by
  rw [pinsFrom_ok h] at hpin
  obtain ⟨⟨item, i⟩, hmem, hat⟩ := List.mem_filterMap.1 hpin
  have hitem : parsed.items[i]? = some item := List.mem_zipIdx_iff_getElem?.1 hmem
  dsimp only at hat
  unfold pinAt at hat
  split at hat
  · next version hexact =>
      cases hat
      exact ⟨item, hitem, hexact, rfl⟩
  · cases hat

theorem pins_nodup {parsed : ParsedRequirements} {pins : List RelaxablePin}
    (h : relaxablePins pk parsed = .ok pins) : (pins.map RelaxablePin.itemIndex).Nodup := by
  rw [pinsFrom_ok h, List.map_filterMap]
  have hsub : ((parsed.items.zipIdx 0).filterMap fun x =>
      (match x with | (item, i) => pinAt pk item i).map RelaxablePin.itemIndex).Sublist
      ((parsed.items.zipIdx 0).map Prod.snd) := by
    generalize parsed.items.zipIdx 0 = indexed
    induction indexed with
    | nil => exact .slnil
    | cons x rest ih =>
        obtain ⟨item, i⟩ := x
        rw [List.filterMap_cons, List.map_cons]
        dsimp only
        unfold pinAt
        split
        · exact ih.cons _
        · next index hindex =>
            split at hindex
            · cases hindex
              exact ih.cons_cons _
            · cases hindex
  refine hsub.nodup ?_
  rw [List.zipIdx_map_snd]
  exact List.nodup_range' _

/-- The version that replaces the pin at an index. -/
def replacementAt (pins : List RelaxablePin) (versions : List Version) (index : Nat) :
    Option Version :=
  List.lookup index ((pins.map RelaxablePin.itemIndex).zip versions)

theorem replacementAt_mem {pins : List RelaxablePin} {versions : List Version} {index : Nat}
    {version : Version} (h : replacementAt pins versions index = some version) :
    (∃ pin ∈ pins, pin.itemIndex = index) ∧ version ∈ versions := by
  obtain ⟨before, after, hsplit, -⟩ := List.lookup_eq_some_iff.1 h
  have hmem : (index, version) ∈ (pins.map RelaxablePin.itemIndex).zip versions := by
    rw [hsplit]
    simp
  have hzip := List.of_mem_zip hmem
  obtain ⟨pin, hpin, hindex⟩ := List.mem_map.1 hzip.1
  exact ⟨⟨pin, hpin, hindex⟩, hzip.2⟩

/-- The pin and the version at one place of the two tuples. -/
theorem replacementAt_pin {pins : List RelaxablePin} {versions : List Version}
    (hnodup : (pins.map RelaxablePin.itemIndex).Nodup) {k : Nat} {pin : RelaxablePin}
    {version : Version} (hpin : pins[k]? = some pin) (hversion : versions[k]? = some version) :
    replacementAt pins versions pin.itemIndex = some version := by
  unfold replacementAt
  induction pins generalizing versions k with
  | nil => cases hpin
  | cons first pins ih =>
      cases versions with
      | nil => cases hversion
      | cons v versions =>
          rw [List.map_cons, List.nodup_cons] at hnodup
          rw [List.map_cons, List.zip_cons_cons, List.lookup_cons]
          cases k with
          | zero =>
              cases hpin
              cases hversion
              simp
          | succ k =>
              have hmem : pin.itemIndex ∈ pins.map RelaxablePin.itemIndex :=
                List.mem_map_of_mem (List.mem_of_getElem? hpin)
              have hne : (pin.itemIndex == first.itemIndex) = false := by
                rw [beq_eq_false_iff_ne]
                rintro heq
                rw [heq] at hmem
                exact hnodup.1 hmem
              rw [hne]
              exact ih hnodup.2 hpin hversion

theorem replacementAt_other {pins : List RelaxablePin} {versions : List Version} {index : Nat}
    (h : ∀ pin ∈ pins, pin.itemIndex ≠ index) : replacementAt pins versions index = none := by
  cases hat : replacementAt pins versions index with
  | none => rfl
  | some version =>
      obtain ⟨⟨pin, hpin, hindex⟩, -⟩ := replacementAt_mem hat
      exact absurd hindex (h pin hpin)

/-! ## Rebuilt lines -/

/-- What `Specifier` and `SpecifierSet` read from the clauses of an item. -/
structure ClausesRead (pk : Packaging) (entry : Entry) : Prop where
  specifier : ∀ c ∈ entry.constraints, pk.specifier c.specifier.str = some c.specifier
  specifierSet : ∀ specifiers, pk.specifierSet entry.item.specifier = some specifiers →
    ∀ s ∈ specifiers, s ∈ entry.constraints.map Constraint.specifier

/-- An item with an exact version has an exact clause. -/
theorem exact_of_exactVersion {entry : Entry} (h : ClausesRead pk.toPackaging entry)
    {version : Version} (hexact : exactVersion pk entry.item = .ok (some version)) :
    ∃ c ∈ entry.constraints, c.specifier.operator = .equal := by
  unfold exactVersion at hexact
  obtain ⟨exact, hspecifiers, hexact⟩ := bind_ok.1 hexact
  unfold exactSpecifiers at hspecifiers
  split at hspecifiers
  · cases hspecifiers
  · next specifiers hset =>
      cases hspecifiers
      split at hexact
      · next s hsole =>
          have hs : s ∈ specifiers.filter (·.operator = .equal) := by
            rw [hsole]
            exact List.mem_singleton_self s
          obtain ⟨hmem, hop⟩ := List.mem_filter.1 hs
          obtain ⟨c, hc, rfl⟩ := List.mem_map.1 (h.specifierSet specifiers hset s hmem)
          exact ⟨c, hc, of_decide_eq_true hop⟩
      · cases hexact

theorem rebuildComponents_map {constraints : List Constraint} {version : Version}
    (h : ∀ c ∈ constraints, pk.specifier c.specifier.str = some c.specifier) :
    rebuildComponents pk version (constraints.map fun c => c.specifier.str) =
      .ok (constraints.map fun c => (replacePin version c).specifier.str) := by
  induction constraints with
  | nil => rfl
  | cons c rest ih =>
      rw [List.map_cons, List.map_cons]
      unfold rebuildComponents
      rw [h c (by simp)]
      dsimp only
      rw [ih fun d hd => h d (by simp [hd])]
      unfold replacePin
      split <;> rfl

/-- The line of an item with its pin replaced renders the rebuilt entry. -/
theorem rebuildLine_ok {entry : Entry} {version : Version} {line : String}
    (hok : EntryOk pk.toPackaging entry) (hread : ClausesRead pk.toPackaging entry)
    (hexact : ∃ c ∈ entry.constraints, c.specifier.operator = .equal)
    (h : rebuildLine pk entry.item version = .ok line) :
    line = formatItem (rebuiltEntry entry (some version)).item := by
  obtain ⟨c, hc, -⟩ := hexact
  have hclauses := clausesOf_format hok.constraints (List.ne_nil_of_mem hc)
  unfold rebuildLine at h
  rw [hok.specifier, show ((formatSpecifiers entry.constraints).toList.splitOn ',').map
    String.ofList = clausesOf (formatSpecifiers entry.constraints) from rfl, hclauses,
    rebuildComponents_map hread.specifier] at h
  obtain ⟨components, hcomponents, h⟩ := bind_ok.1 h
  cases hcomponents
  dsimp only at h
  split at h
  · cases h
  · cases h
  · split at h
    · cases h
    · cases h
      simp only [rebuiltEntry, formatSpecifiers, List.map_map]
      rfl

/-- The entries whose items the rebuilt lines render. -/
def rebuiltFrom (replacement : Nat → Option Version) : Nat → List Entry → List Entry
  | _, [] => []
  | index, entry :: rest =>
      rebuiltEntry entry (replacement index) :: rebuiltFrom replacement (index + 1) rest

theorem rebuiltFrom_get? (replacement : Nat → Option Version) (index : Nat) (entries : List Entry)
    (i : Nat) :
    (rebuiltFrom replacement index entries)[i]? =
      entries[i]?.map fun e => rebuiltEntry e (replacement (index + i)) := by
  induction entries generalizing index i with
  | nil => rfl
  | cons e rest ih =>
      cases i with
      | zero => rfl
      | succ i =>
          rw [rebuiltFrom, List.getElem?_cons_succ, List.getElem?_cons_succ, ih]
          rw [show index + 1 + i = index + (i + 1) by omega]

theorem rebuiltFrom_keys (replacement : Nat → Option Version) (index : Nat)
    (entries : List Entry) :
    (rebuiltFrom replacement index entries).map Entry.key = entries.map Entry.key := by
  induction entries generalizing index with
  | nil => rfl
  | cons e rest ih => rw [rebuiltFrom, List.map_cons, List.map_cons, rebuiltEntry_key, ih]

theorem rebuildLines_ok {replacement : Nat → Option Version} {index : Nat} {entries : List Entry}
    {lines : List String} (hok : ∀ e ∈ entries, EntryOk pk.toPackaging e)
    (hread : ∀ e ∈ entries, ClausesRead pk.toPackaging e)
    (hexact : ∀ i e, entries[i]? = some e → (replacement (index + i)).isSome →
      ∃ c ∈ e.constraints, c.specifier.operator = .equal)
    (h : rebuildLines pk replacement index (entries.map Entry.item) = .ok lines) :
    lines = (rebuiltFrom replacement index entries).map fun e => formatItem e.item := by
  induction entries generalizing index lines with
  | nil =>
      cases h
      rfl
  | cons e rest ih =>
      have hrest : ∀ more, rebuildLines pk replacement (index + 1) (rest.map Entry.item) =
          .ok more →
          more = (rebuiltFrom replacement (index + 1) rest).map fun e => formatItem e.item := by
        intro more hmore
        apply ih (fun x hx => hok x (by simp [hx])) (fun x hx => hread x (by simp [hx])) _ hmore
        intro i x hx hsome
        refine hexact (i + 1) x (by simpa using hx) ?_
        rwa [show index + (i + 1) = index + 1 + i by omega]
      rw [List.map_cons] at h
      unfold rebuildLines at h
      rw [rebuiltFrom, List.map_cons]
      cases hversion : replacement index with
      | none =>
          rw [hversion] at h
          obtain ⟨line, hline, h⟩ := bind_ok.1 h
          obtain ⟨more, hmore, h⟩ := bind_ok.1 h
          cases hline
          cases h
          rw [← hrest more hmore]
          rfl
      | some version =>
          rw [hversion] at h
          obtain ⟨line, hline, h⟩ := bind_ok.1 h
          obtain ⟨more, hmore, h⟩ := bind_ok.1 h
          cases h
          have hsame := rebuildLine_ok (hok e (by simp)) (hread e (by simp))
            (hexact 0 e rfl (by simp [hversion])) hline
          rw [← hrest more hmore, hsame]

end Pins

/-! ## The frame -/

/-- An item of the result: that of the original, with its pin replaced if there is a version. -/
structure Rebuilt (item result : RequirementItem) (version : Option Version) : Prop where
  name : result.name = item.name
  extras : result.extras = item.extras
  marker : result.marker = item.marker
  specifier : result.specifier = pinnedSpecifier version item.specifier

/-- The items stand in their places, the pins are replaced and the other items are unchanged. -/
structure Frame (p p' : ParsedRequirements) (pins : List RelaxablePin) (versions : List Version) :
    Prop where
  length : p'.items.length = p.items.length
  pinned : ∀ (k : Nat) (pin : RelaxablePin) (version : Version) (item result : RequirementItem),
    pins[k]? = some pin → versions[k]? = some version → p.items[pin.itemIndex]? = some item →
      p'.items[pin.itemIndex]? = some result → Rebuilt item result (some version)
  others : ∀ (i : Nat) (item result : RequirementItem), (∀ pin ∈ pins, pin.itemIndex ≠ i) →
    p.items[i]? = some item → p'.items[i]? = some result → Rebuilt item result none

theorem frame_iff {p p' : ParsedRequirements} {pins : List RelaxablePin} {versions : List Version}
    (hnodup : (pins.map RelaxablePin.itemIndex).Nodup) (hlength : versions.length = pins.length) :
    Frame p p' pins versions ↔ p'.items.length = p.items.length ∧
      ∀ (i : Nat) (item result : RequirementItem), p.items[i]? = some item →
        p'.items[i]? = some result → Rebuilt item result (replacementAt pins versions i) := by
  constructor
  · intro h
    refine ⟨h.length, fun i item result hitem hresult => ?_⟩
    by_cases hpin : ∃ pin ∈ pins, pin.itemIndex = i
    · obtain ⟨pin, hmem, rfl⟩ := hpin
      obtain ⟨k, hk, rfl⟩ := List.getElem_of_mem hmem
      have hget := List.getElem?_eq_getElem hk
      have hversion := List.getElem?_eq_getElem (hlength ▸ hk : k < versions.length)
      rw [replacementAt_pin hnodup hget hversion]
      exact h.pinned k _ _ item result hget hversion hitem hresult
    · have hnone : ∀ pin ∈ pins, pin.itemIndex ≠ i := fun pin hmem heq => hpin ⟨pin, hmem, heq⟩
      rw [replacementAt_other hnone]
      exact h.others i item result hnone hitem hresult
  · rintro ⟨hitems, h⟩
    constructor
    · exact hitems
    · intro k pin version item result hpin hversion hitem hresult
      rw [← replacementAt_pin hnodup hpin hversion]
      exact h pin.itemIndex item result hitem hresult
    · intro i item result hnone hitem hresult
      rw [← replacementAt_other hnone]
      exact h i item result hitem hresult

/-- An entry that is read agrees with the rebuilt entry when its item is the rebuilt item. -/
theorem agrees_iff {pk : Packaging} {entry again : Entry} (hline : LineOk pk entry)
    (hagain : EntryOk pk again) {version : Option Version}
    (hversion : ∀ v, version = some v → ReadsAsItself pk v ∧
      ∃ c ∈ entry.constraints, c.specifier.operator = .equal) :
    (again.item.name = (rebuiltEntry entry version).item.name ∧
        Agrees (rebuiltEntry entry version) again) ↔ Rebuilt entry.item again.item version := by
  have hspecifier := pinnedSpecifier_eq hline hversion
  have hok := rebuiltEntry_ok hline.toEntryOk fun v hv => (hversion v hv).1
  constructor
  · rintro ⟨hname, hagrees⟩
    constructor
    · simpa using hname
    · simpa using hagrees.extras
    · simpa using hagrees.marker
    · rw [hspecifier, hagain.specifier, hagrees.constraints]
  · intro h
    refine ⟨by simpa using h.name, ?_, ?_, ?_⟩
    · simpa using h.extras
    · simpa using h.marker
    · apply formatSpecifiers_injective hagain.constraints
      · intro c hc
        exact hok.constraints c (mem_deduplicate.1 hc)
      · rw [← hagain.specifier, h.specifier, hspecifier]

section Result

variable {pk : WheelPackaging} {gbk : ByteArray → Option String} {raw : ByteArray}
  {p p' : ParsedRequirements} {texts : List String} {entries : List Entry}
  {pins : List RelaxablePin} {versions : List Version}

/-- What `_rebuild_requirements` is called with. -/
structure RebuildInput (pk : WheelPackaging) (p : ParsedRequirements) (entries : List Entry)
    (pins : List RelaxablePin) (versions : List Version) : Prop where
  relaxable : relaxablePins pk p = .ok pins
  normal : ∀ v ∈ versions, ReadsAsItself pk.toPackaging v
  clauses : ∀ e ∈ entries, ClausesRead pk.toPackaging e
  reads : ∀ e ∈ entries, ∀ version, (∀ v, version = some v → v ∈ versions) →
    ReadsBack pk.toPackaging (rebuiltEntry e version)

theorem RebuildInput.version (h : RebuildInput pk p entries pins versions)
    (hitems : p.items = entries.map Entry.item) {i : Nat} {e : Entry} (he : entries[i]? = some e)
    {v : Version} (hv : replacementAt pins versions i = some v) :
    ReadsAsItself pk.toPackaging v ∧ ∃ c ∈ e.constraints, c.specifier.operator = .equal := by
  obtain ⟨⟨pin, hpin, rfl⟩, hmem⟩ := replacementAt_mem hv
  obtain ⟨item, hitem, hexact, -⟩ := mem_pins h.relaxable hpin
  rw [hitems, List.getElem?_map, he] at hitem
  obtain rfl : e.item = item := Option.some.inj hitem
  exact ⟨h.normal v hmem, exact_of_exactVersion (h.clauses e (List.mem_of_getElem? he)) hexact⟩

theorem rebuild_length (h : rebuildRequirements pk gbk p pins versions = .ok p') :
    versions.length = pins.length := by
  unfold rebuildRequirements at h
  split at h
  · cases h
  · next hlength => exact not_not.1 hlength

/-- The entries that the rebuilt lines render. -/
def rebuiltEntries (pins : List RelaxablePin) (versions : List Version) (entries : List Entry) :
    List Entry :=
  rebuiltFrom (replacementAt pins versions) 0 entries

theorem mem_rebuiltEntries {x : Entry} (hx : x ∈ rebuiltEntries pins versions entries) :
    ∃ i e, entries[i]? = some e ∧ x = rebuiltEntry e (replacementAt pins versions i) := by
  obtain ⟨i, hi⟩ := List.getElem?_of_mem hx
  rw [rebuiltEntries, rebuiltFrom_get?, Nat.zero_add, Option.map_eq_some_iff] at hi
  obtain ⟨e, he, rfl⟩ := hi
  exact ⟨i, e, he, rfl⟩

/-- Each rebuilt line renders its entry. -/
theorem RebuildInput.renders (hgrammar : Grammar pk.toPackaging)
    (hparsed : Parsed pk.toPackaging gbk raw p texts entries)
    (h : RebuildInput pk p entries pins versions) (hbreak : ∀ e ∈ entries, NoBreak e) :
    ∀ x ∈ rebuiltEntries pins versions entries, Renders pk.toPackaging x := by
  intro x hx
  obtain ⟨i, e, he, rfl⟩ := mem_rebuiltEntries hx
  have hmem := List.mem_of_getElem? he
  have hline := (hparsed.merged hgrammar).ok e hmem
  have hok := rebuiltEntry_ok hline.toEntryOk fun v hv => (h.version hparsed.items he hv).1
  constructor
  · exact hok
  · exact h.reads e hmem _ fun v hv => (replacementAt_mem hv).2
  · intro m hm
    rw [rebuiltEntry_marker] at hm
    exact hbreak e hmem m hm
  · rw [rebuiltEntry_extras]
    exact hline.sorted
  · have hsafe := hparsed.safeAnywhere hmem 0 ""
    have hmarker := rebuiltEntry_marker e (replacementAt pins versions i)
    exact (pipFileComment_congr hline.toEntryOk hok hmarker).1 (ensurePipFileSafe_ok.1 hsafe).1

/-- What the rebuilt text is read as. -/
theorem RebuildInput.read (hgrammar : Grammar pk.toPackaging)
    (hparsed : Parsed pk.toPackaging gbk raw p texts entries)
    (h : RebuildInput pk p entries pins versions) (hbreak : ∀ e ∈ entries, NoBreak e)
    (hreturns : rebuildRequirements pk gbk p pins versions = .ok p') :
    ∃ out, p'.items = out.map Entry.item ∧ (∀ a ∈ out, EntryOk pk.toPackaging a) ∧
      readLines pk.toPackaging 1
        ((rebuiltEntries pins versions entries).map fun e => formatItem e.item) [] = .ok out := by
  have hmerged := hparsed.merged hgrammar
  have hlength := rebuild_length hreturns
  unfold rebuildRequirements at hreturns
  rw [if_neg (not_not.2 hlength)] at hreturns
  obtain ⟨lines, hlines, hreturns⟩ := bind_ok.1 hreturns
  rw [hparsed.items] at hlines
  have hlines := rebuildLines_ok (fun e he => (hmerged.ok e he).toEntryOk) h.clauses (by
    intro i e he hsome
    rw [Nat.zero_add] at hsome
    obtain ⟨v, hv⟩ := Option.isSome_iff_exists.1 hsome
    exact (h.version hparsed.items he hv).2) hlines
  have hrenders := h.renders hgrammar hparsed hbreak
  have hcount : (rebuiltEntries pins versions entries).length ≤ maxLogicalLines := by
    have hkeys := congrArg List.length (rebuiltFrom_keys (replacementAt pins versions) 0 entries)
    rw [List.length_map, List.length_map] at hkeys
    rw [rebuiltEntries, hkeys]
    exact hparsed.count hgrammar
  have htext : "\n".intercalate lines ++ "\n" =
      normalizedText ((rebuiltEntries pins versions entries).map Entry.item) := by
    rw [hlines]
    unfold normalizedText
    rw [List.map_map]
    rfl
  have hinput := inputLines_normalizedText gbk (fun x hx => (hrenders x hx).ok)
    (fun x hx => (hrenders x hx).noBreak) hcount
  rw [htext] at hreturns
  split at hreturns
  · next parsed hparse =>
      cases hreturns
      obtain ⟨found, out, hread⟩ := parseRequirements_ok.1 hparse
      have hfound := hread.input
      rw [hinput] at hfound
      refine ⟨out, hread.items, fun a ha => ((hread.merged hgrammar).ok a ha).toEntryOk, ?_⟩
      have hloop := hread.loop
      split at hfound
      · cases hfound
      · obtain rfl := congrArg Prod.fst (Except.ok.inj hfound)
        dsimp only at hloop
        split at hloop
        · next hempty =>
            -- the empty text is one empty line
            rw [hempty]
            exact hloop
        · exact hloop
  · cases hreturns

/-- Where no marker holds a line break, the result keeps every item in its place, with the pins
replaced and nothing else changed, exactly when nothing of a rebuilt item is lost: no extra is
listed twice, the marker is read as itself and the set of its clauses drops none. -/
theorem rebuild_frame_iff (hgrammar : Grammar pk.toPackaging)
    (hparsed : Parsed pk.toPackaging gbk raw p texts entries)
    (h : RebuildInput pk p entries pins versions) (hbreak : ∀ e ∈ entries, NoBreak e)
    (hreturns : rebuildRequirements pk gbk p pins versions = .ok p') :
    Frame p p' pins versions ↔
      ∀ i e, entries[i]? = some e →
        Kept pk.toPackaging (rebuiltEntry e (replacementAt pins versions i)) := by
  obtain ⟨out, hitems', hokOut, hread⟩ := h.read hgrammar hparsed hbreak hreturns
  have hmerged := hparsed.merged hgrammar
  have hnodup : ((rebuiltEntries pins versions entries).map Entry.key).Nodup := by
    rw [rebuiltEntries, rebuiltFrom_keys]
    exact hmerged.nodup
  have hall := readLines_formatItems (h.renders hgrammar hparsed hbreak) hnodup hread
  have hkept : (∀ x ∈ rebuiltEntries pins versions entries, Kept pk.toPackaging x) ↔
      ∀ i e, entries[i]? = some e →
        Kept pk.toPackaging (rebuiltEntry e (replacementAt pins versions i)) := by
    constructor
    · intro hkept i e he
      apply hkept
      apply List.mem_of_getElem? (i := i)
      rw [rebuiltEntries, rebuiltFrom_get?, he, Nat.zero_add]
      rfl
    · intro hkept x hx
      obtain ⟨i, e, he, rfl⟩ := mem_rebuiltEntries hx
      exact hkept i e he
  have hlength : (rebuiltEntries pins versions entries).length = entries.length := by
    have hkeys := congrArg List.length (rebuiltFrom_keys (replacementAt pins versions) 0 entries)
    rwa [List.length_map, List.length_map] at hkeys
  rw [← hkept, ← hall, frame_iff (pins_nodup h.relaxable) (rebuild_length hreturns), hparsed.items, hitems',
    List.length_map, List.length_map, List.forall₂_iff_get]
  -- one place: the entry that is read there and the rebuilt entry
  have hplace : ∀ (i : Nat) (hi : i < (rebuiltEntries pins versions entries).length)
      (hi' : i < out.length) (e : Entry), entries[i]? = some e →
      ((out.get ⟨i, hi'⟩).item.name =
          ((rebuiltEntries pins versions entries).get ⟨i, hi⟩).item.name ∧
        Agrees ((rebuiltEntries pins versions entries).get ⟨i, hi⟩) (out.get ⟨i, hi'⟩) ↔
      Rebuilt e.item (out.get ⟨i, hi'⟩).item (replacementAt pins versions i)) := by
    intro i hi hi' e he
    have hget : (rebuiltEntries pins versions entries).get ⟨i, hi⟩ =
        rebuiltEntry e (replacementAt pins versions i) := by
      have hsome := rebuiltFrom_get? (replacementAt pins versions) 0 entries i
      rw [he, Nat.zero_add] at hsome
      exact Option.some.inj ((List.getElem?_eq_getElem hi).symm.trans hsome)
    rw [hget]
    exact agrees_iff (hmerged.ok e (List.mem_of_getElem? he))
      (hokOut _ (List.get_mem out ⟨i, hi'⟩)) fun v hv => h.version hparsed.items he hv
  constructor
  · rintro ⟨hcount, hrebuilt⟩
    refine ⟨hlength.trans hcount.symm, fun i hi hi' => ?_⟩
    have he := List.getElem?_eq_getElem (hlength ▸ hi : i < entries.length)
    refine (hplace i hi hi' _ he).2 (hrebuilt i _ _ ?_ ?_)
    · rw [List.getElem?_map, he]
      rfl
    · rw [List.getElem?_map, List.getElem?_eq_getElem hi']
      rfl
  · rintro ⟨hcount, hagrees⟩
    refine ⟨hcount.symm.trans hlength, fun i item result hitem hresult => ?_⟩
    rw [List.getElem?_map, Option.map_eq_some_iff] at hitem hresult
    obtain ⟨e, he, rfl⟩ := hitem
    obtain ⟨a, ha, rfl⟩ := hresult
    obtain ⟨hi', rfl⟩ := List.getElem?_eq_some_iff.1 ha
    have hi : i < (rebuiltEntries pins versions entries).length := hcount ▸ hi'
    exact (hplace i hi hi' e he).1 (hagrees i hi hi')

end Result

/-! ### Two spellings of one extra -/

/-- `1.0` and `2.0`. -/
def pinVersion (major : Nat) : Version := .ofMajor major

/-- What packaging reads from the lines of `demo` with the versions `1.0` and `2.0`. -/
def pinPackaging : WheelPackaging where
  version text :=
    if text = "1.0" then some (pinVersion 1) else if text = "2.0" then some (pinVersion 2) else none
  requirement text :=
    if text = "demo[a-b]==1.0" then .ok ⟨"demo", ["a-b"], [⟨.equal, "1.0"⟩], none, none⟩
    else if text = "demo[a-b]==2.0" then .ok ⟨"demo", ["a-b"], [⟨.equal, "2.0"⟩], none, none⟩
    else if text = "demo[a.b,a-b]==1.0" then
      .ok ⟨"demo", ["a.b", "a-b"], [⟨.equal, "1.0"⟩], none, none⟩
    else if text = "demo[a-b,a-b]==2.0" then
      .ok ⟨"demo", ["a-b"], [⟨.equal, "2.0"⟩], none, none⟩
    else .error .invalidRequirement
  marker _ := .error .invalidRequirement
  specifier text :=
    if text = "==1.0" then some ⟨.equal, "1.0"⟩
    else if text = "==2.0" then some ⟨.equal, "2.0"⟩ else none
  specifierSet text :=
    if text = "==1.0" then some [⟨.equal, "1.0"⟩]
    else if text = "==2.0" then some [⟨.equal, "2.0"⟩] else none
  contains specifier version :=
    (specifier = ⟨.equal, "1.0"⟩ && version.Same (pinVersion 1)) ||
      (specifier = ⟨.equal, "2.0"⟩ && version.Same (pinVersion 2))
  canonicalizeName name := if name = "a.b" then "a-b" else name
  parseWheelFilename _ := none
  repr text := text

/-- The parsed line of `demo` with some extras. -/
def demoParsed (extras : List String) (specifier originalText : String) : ParsedRequirements :=
  let item : RequirementItem := ⟨1, "demo", extras, specifier, none, originalText⟩
  ⟨formatItem item ++ "\n", [item], "utf-8"⟩

def demoPin : RelaxablePin := ⟨0, "demo", pinVersion 1⟩

/-- The rebuilt line lists one of the two extras. -/
theorem twice_not_framed :
    ∃ p p', parseRequirements pinPackaging.toPackaging (fun _ => none)
        "demo[a.b,a-b]==1.0".toUTF8 = .ok p ∧
      relaxablePins pinPackaging p = .ok [demoPin] ∧
      rebuildRequirements pinPackaging (fun _ => none) p [demoPin] [pinVersion 2] = .ok p' ∧
      ¬ Frame p p' [demoPin] [pinVersion 2] := by
  refine ⟨demoParsed ["a-b", "a-b"] "==1.0" "demo[a.b,a-b]==1.0",
    demoParsed ["a-b"] "==2.0" "demo[a-b,a-b]==2.0", by decide +kernel, by decide +kernel,
    by decide +kernel, ?_⟩
  intro h
  have hextras := (h.pinned 0 demoPin (pinVersion 2) _ _ rfl rfl rfl rfl).extras
  cases hextras

/-! ### One extra -/

theorem pinPackaging_accepts {text : String} {r : Requirement}
    (h : pinPackaging.requirement text = .ok r) :
    r.name = "demo" ∧ (∀ e ∈ r.extras, e = "a.b" ∨ e = "a-b") ∧
      (∀ s ∈ r.specifier, s.version = "1.0" ∨ s.version = "2.0") ∧ r.marker = none := by
  unfold pinPackaging at h
  dsimp only at h
  split at h
  · cases h
    exact ⟨rfl, by decide, by simp, rfl⟩
  · split at h
    · cases h
      exact ⟨rfl, by decide, by simp, rfl⟩
    · split at h
      · cases h
        exact ⟨rfl, by decide, by simp, rfl⟩
      · split at h
        · cases h
          exact ⟨rfl, by decide, by simp, rfl⟩
        · cases h

theorem pinPackaging_grammar : Grammar pinPackaging.toPackaging where
  name := by
    intro text r h
    rw [(pinPackaging_accepts h).1]
    exact ⟨⟨'d', rfl, by decide, by decide⟩, forall_mem_of_all (by decide)⟩
  extra := by
    intro text r h e he
    rcases (pinPackaging_accepts h).2.1 e he with rfl | rfl
    · exact ⟨⟨'a', rfl, by decide, by decide⟩, forall_mem_of_all (by decide)⟩
    · exact ⟨⟨'a', rfl, by decide, by decide⟩, forall_mem_of_all (by decide)⟩
  version := by
    intro text r h s hs _ _
    rcases (pinPackaging_accepts h).2.2.1 s hs with hversion | hversion <;> rw [hversion]
    · exact ⟨by decide, forall_mem_of_all (by decide), by decide⟩
    · exact ⟨by decide, forall_mem_of_all (by decide), by decide⟩
  marker := by
    intro text r m h hm
    rw [(pinPackaging_accepts h).2.2.2] at hm
    cases hm

def demoEntry : Entry where
  item := ⟨1, "demo", ["a-b"], "==1.0", none, "demo[a-b]==1.0"⟩
  constraints := [⟨⟨.equal, "1.0"⟩, pinVersion 1⟩]

theorem demoEntry_parsed : Parsed pinPackaging.toPackaging (fun _ => none)
    "demo[a-b]==1.0".toUTF8 (demoParsed ["a-b"] "==1.0" "demo[a-b]==1.0") ["demo[a-b]==1.0"]
    [demoEntry] where
  input := by decide
  loop := by decide
  items := rfl
  safe := by decide
  text := by decide

/-- The line of `demo` with one of the versions is read back. -/
theorem demoEntry_readsBack {version : Option Version}
    (hversion : version = none ∨ version = some (pinVersion 2)) :
    ReadsBack pinPackaging.toPackaging (rebuiltEntry demoEntry version) := by
  rcases hversion with rfl | rfl
  · have hline : pinPackaging.requirement (formatItem (rebuiltEntry demoEntry none).item) =
        .ok ⟨"demo", ["a-b"], [⟨.equal, "1.0"⟩], none, none⟩ := by
      decide
    constructor
    · rfl
    · decide
    · intro r hr
      rw [hline] at hr
      cases hr
      exact ⟨⟨by decide, by decide⟩, rfl, by decide, rfl, by decide, rfl, rfl⟩
    · intro _ _
      exact ⟨_, hline⟩
  · have hline : pinPackaging.requirement
          (formatItem (rebuiltEntry demoEntry (some (pinVersion 2))).item) =
        .ok ⟨"demo", ["a-b"], [⟨.equal, "2.0"⟩], none, none⟩ := by
      decide
    constructor
    · rfl
    · decide
    · intro r hr
      rw [hline] at hr
      cases hr
      exact ⟨⟨by decide, by decide⟩, rfl, by decide, by decide, by decide, rfl,
        rfl⟩
    · intro _ _
      exact ⟨_, hline⟩

theorem demoEntry_input : RebuildInput pinPackaging (demoParsed ["a-b"] "==1.0" "demo[a-b]==1.0")
    [demoEntry] [demoPin] [pinVersion 2] where
  relaxable := by decide
  normal := by
    intro v hv
    obtain rfl := List.mem_singleton.1 hv
    have htext : (pinVersion 2).str = "2.0" := by decide
    constructor
    · rw [htext]
      exact ⟨by decide, forall_mem_of_all (by decide), by decide⟩
    · rw [htext]
      rfl
  clauses := by
    intro e he
    obtain rfl := List.mem_singleton.1 he
    constructor
    · intro c hc
      obtain rfl := List.mem_singleton.1 hc
      decide
    · intro specifiers hspecifiers s hs
      obtain rfl : [⟨.equal, "1.0"⟩] = specifiers := Option.some.inj hspecifiers
      exact hs
  reads := by
    intro e he version hversion
    obtain rfl := List.mem_singleton.1 he
    apply demoEntry_readsBack
    cases version with
    | none => exact .inl rfl
    | some v => exact .inr (congrArg some (List.mem_singleton.1 (hversion v rfl)))

/-- A requirement with one extra keeps it when its pin is replaced. -/
theorem demoEntry_framed : Frame (demoParsed ["a-b"] "==1.0" "demo[a-b]==1.0")
    (demoParsed ["a-b"] "==2.0" "demo[a-b]==2.0") [demoPin] [pinVersion 2] := by
  apply (rebuild_frame_iff pinPackaging_grammar demoEntry_parsed demoEntry_input ?_ ?_).2
  · intro i e he
    cases i with
    | succ i => cases he
    | zero =>
        cases he
        constructor
        · decide
        · intro m hm
          cases hm
        · intro specifiers hspecifiers c hc
          have hset : pinPackaging.specifierSet (rebuiltEntry demoEntry
              (replacementAt [demoPin] [pinVersion 2] 0)).item.specifier =
              some [⟨.equal, "2.0"⟩] := by
            decide +kernel
          obtain rfl := Option.some.inj (hset.symm.trans hspecifiers)
          obtain rfl := List.mem_singleton.1 hc
          decide +kernel
  · intro e he m hm
    obtain rfl := List.mem_singleton.1 he
    cases hm
  · decide +kernel

end WheelForge.Resolver
