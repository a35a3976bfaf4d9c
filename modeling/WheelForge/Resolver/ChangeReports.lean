import WheelForge.Pep440.Bounds
import WheelForge.Resolver.Rebuild
import WheelForge.Resolver.SearchRules

/-!
# Reported changes

`_version_changes` compares the pin of an item with the version that the strict result has of its
package, whatever made the strict resolver take that version. The reported changes are those of the
winning combination when the result has no other version of the package of an inactive item, and no
local label lifts an active package above its pin (`changes_faithful`).
-/

set_option autoImplicit false

namespace WheelForge.Resolver

open WheelForge.Parser WheelForge.Pep440 WheelForge.Python WheelForge.Target

variable {σ : Type}

/-! ## Changes -/

/-- The version of a package in a strict result: that of the last package of the name. -/
def resolvedVersion (strict : ResolutionResult) (name : String) : Option Version :=
  (strict.packages.reverse.find? (·.name = name)).map ResolvedPackage.version

section Changes

variable {original resolved : Option Version}

theorem changeKind_upgrade_iff :
    (changeKind original resolved).1 = .upgrade ↔
      ∃ v w, original = some v ∧ resolved = some w ∧ v.key < w.key := by
  cases resolved with
  | none => simp [changeKind]
  | some w =>
      cases original with
      | none => simp [changeKind]
      | some v =>
          simp only [changeKind]
          split
          · next hlt => simpa using hlt
          · next hlt =>
              split
              · simpa using hlt
              · simpa using hlt

theorem changeKind_downgrade_iff :
    (changeKind original resolved).1 = .downgrade ↔
      ∃ v w, original = some v ∧ resolved = some w ∧ w.key < v.key := by
  cases resolved with
  | none => simp [changeKind]
  | some w =>
      cases original with
      | none => simp [changeKind]
      | some v =>
          simp only [changeKind]
          split
          · next hlt => simpa using hlt.le
          · split
            · next hgt => simpa using hgt
            · next hgt => simpa using hgt

end Changes

/-- The change at an index is that of the item there. -/
theorem versionChanges_get {pk : WheelPackaging} {parsed : ParsedRequirements}
    {strict : ResolutionResult} {source : PackageSource} {changes : List VersionChange}
    (h : versionChanges pk parsed strict source = .ok changes) {i : Nat} :
    (∀ change, changes[i]? = some change → ∃ item, parsed.items[i]? = some item) ∧
      ∀ item, parsed.items[i]? = some item → ∃ change original, changes[i]? = some change ∧
        exactVersion pk item = .ok original ∧
        change.kind = (changeKind original (resolvedVersion strict item.name)).1 := by
  have hall := mapM_ok h
  constructor
  · intro change hchange
    obtain ⟨hi, -⟩ := List.getElem?_eq_some_iff.1 hchange
    rw [← hall.length_eq] at hi
    exact ⟨_, List.getElem?_eq_getElem hi⟩
  · intro item hitem
    obtain ⟨hi, rfl⟩ := List.getElem?_eq_some_iff.1 hitem
    have hi' : i < changes.length := hall.length_eq ▸ hi
    have hchange := hall.get hi hi'
    obtain ⟨found, hexact, hchange⟩ := bind_ok.1 hchange
    refine ⟨changes[i], found, List.getElem?_eq_getElem hi', hexact, ?_⟩
    exact (congrArg VersionChange.kind (Except.ok.inj hchange)).symm

/-! ## The winning combination -/

/-- The last strict call, if it is the last event, is the one that the last attempt records. -/
def LastRecorded (resolver : CompatibleResolver σ) (original : ParsedRequirements)
    (pins : List RelaxablePin) (s : SearchState σ) : Prop :=
  ∀ call, s.events.getLast? = some (.strictCall call) →
    ∃ selected attempt, Asks resolver original pins call.parsed selected ∧
      s.attempts.getLast? = some attempt ∧ attempt.selections = selected

theorem selections_of_recordsOf {call : StrictCall} {selected : List CandidateSelection}
    {attempt : ResolutionAttempt} (h : attempt ∈ recordsOf call selected) :
    attempt.selections = selected := by
  unfold recordsOf at h
  split at h
  · rcases List.mem_pair.1 h with rfl | rfl <;> rfl
  · rcases List.mem_pair.1 h with rfl | rfl <;> rfl
  · cases h

/-- Every primitive step leaves the last call recorded, or makes another event the last. -/
theorem stable_lastRecorded (resolver : CompatibleResolver σ) (context : SearchContext)
    (pins : List RelaxablePin) :
    Stable resolver context pins (LastRecorded resolver context.parsed pins) fun _ => True where
  fault _ _ := trivial
  world _ _ h := h
  ask s w package source answer h := by
    intro call hlast
    rw [List.getLast?_concat] at hlast
    cases hlast
  truncate _ h := h
  mark _ _ h := h
  reject s rejection h := by
    intro call hlast
    rw [List.getLast?_concat] at hlast
    cases hlast
  observe s package source release h hroom := by
    intro call hlast
    rw [List.getLast?_concat] at hlast
    cases hlast
  visit s versions h hroom := by
    intro call hlast
    rw [List.getLast?_concat] at hlast
    cases hlast
  attempt s w call selected attempt h hlimit hasks hrecords := by
    intro other hlast
    rw [List.getLast?_concat] at hlast
    cases hlast
    exact ⟨selected, attempt, hasks, List.getLast?_concat, selections_of_recordsOf hrecords⟩
  raised _ _ _ _ _ _ _ _ := trivial

/-- The selections of the winning combination. -/
def winningCombination (result : ResolutionResult) : List CandidateSelection :=
  (result.attempts.getLast?.map ResolutionAttempt.selections).getD []

/-- A run that ends with a result: the last call asked the strict resolver for the versions of the
winning combination, and the changes compare the requirements with its answer. -/
structure Won (resolver : CompatibleResolver σ) (parsed : ParsedRequirements)
    (result : ResolutionResult) (s : SearchState σ) (pins : List RelaxablePin)
    (versions : List Version) (strict : ResolutionResult) : Prop where
  relaxable : relaxablePins resolver.pk parsed = .ok pins
  length : versions.length = pins.length
  combination : winningCombination result = selections pins versions
  call : ∃ asked source,
    s.events.getLast? = some (.strictCall ⟨asked, source, .resolved strict⟩) ∧
      (versions = pins.map RelaxablePin.original ∧ asked = parsed ∨
        rebuildRequirements resolver.pk resolver.gbk parsed pins versions = .ok asked)
  changes : ∃ source, versionChanges resolver.pk parsed strict source = .ok result.changes

/-- Every run that ends with a result has a winning combination. -/
theorem resolve_won {resolver : CompatibleResolver σ} {parsed : ParsedRequirements}
    {profile : TargetProfile} {sources : List PackageSource} {limits : ResolveLimits} {world : σ}
    {result : ResolutionResult}
    (h : (resolver.resolve parsed profile sources limits world).1 = .returned result) :
    ∃ pins versions strict, Won resolver parsed result
      (resolver.resolve parsed profile sources limits world).2 pins versions strict := by
  unfold CompatibleResolver.resolve at h ⊢
  split at h
  · cases h
  · next hsources =>
    rw [if_neg hsources]
    dsimp only at h ⊢
    cases hpins : relaxablePins resolver.pk parsed with
    | error fault =>
        rw [hpins] at h
        cases h
    | ok pins =>
        rw [hpins] at h
        dsimp only at h ⊢
        generalize hcontext : (⟨parsed, profile, sources, limits, (resolver.clock world).1⟩ :
          SearchContext) = context at h ⊢
        obtain rfl : context.parsed = parsed := by rw [← hcontext]
        have hstart : LastRecorded resolver context.parsed pins
            (CompatibleResolver.startState (resolver.clock world).2) := by
          intro call hlast
          cases hlast
        have hsearch := (stable_lastRecorded resolver context pins).ensures_search _ hstart
        cases hrun : resolver.search context pins
          (CompatibleResolver.startState (resolver.clock world).2) with
        | mk outcome s =>
        rw [hrun] at h hsearch
        cases outcome with
        | error stop =>
            cases stop with
            | stopped code =>
                dsimp only at h
                unfold CompatibleResolver.resolutionFailure at h
                split at h <;> cases h
            | escaped fault => cases h
        | ok returned =>
            cases h
            obtain ⟨hlastRecorded, strict, asked, source, changes, hlast, hchanges, rfl⟩ := hsearch
            obtain ⟨selected, attempt, ⟨versions, rfl, hasked⟩, hattempt, hselected⟩ :=
              hlastRecorded _ hlast
            refine ⟨pins, versions, strict, hpins, ?_, ?_, ⟨asked, source, hlast, hasked⟩,
              source, hchanges⟩
            · rcases hasked with ⟨rfl, -⟩ | hrebuilt
              · exact List.length_map _
              · exact rebuild_length hrebuilt
            · unfold winningCombination
              dsimp only
              rw [hattempt]
              exact hselected

/-! ## Faithful reports -/

/-- The pin of the item at an index was replaced in a combination by a version that stands in the
relation to the original one. -/
def PinMoved (pins : List RelaxablePin) (combination : List CandidateSelection) (i : Nat)
    (relation : Version → Version → Prop) : Prop :=
  ∃ (k : Nat) (pin : RelaxablePin) (selection : CandidateSelection), pins[k]? = some pin ∧
    pin.itemIndex = i ∧ combination[k]? = some selection ∧ relation pin.original selection.version

/-- An upgrade or a downgrade is reported only of an item whose pin the winning combination replaced
in that direction, and neither where the original requirements resolve. -/
structure Faithful (pins : List RelaxablePin) (result : ResolutionResult) : Prop where
  upgrade : ∀ i change, result.changes[i]? = some change → change.kind = .upgrade →
    PinMoved pins (winningCombination result) i fun original tried => original.key < tried.key
  downgrade : ∀ i change, result.changes[i]? = some change → change.kind = .downgrade →
    PinMoved pins (winningCombination result) i fun original tried => tried.key < original.key
  retained : winningCombination result = selections pins (pins.map RelaxablePin.original) →
    ∀ change ∈ result.changes, change.kind = .unchanged ∨ change.kind = .unresolved

/-- A pin with its item, the version tried for it and the version that the strict result has of its
package. -/
structure PinOutcome (parsed : ParsedRequirements) (pins : List RelaxablePin)
    (versions : List Version) (strict : ResolutionResult) (pin : RelaxablePin)
    (item : RequirementItem) (tried resolved : Version) : Prop where
  place : ∃ k : Nat, pins[k]? = some pin ∧ versions[k]? = some tried
  item : parsed.items[pin.itemIndex]? = some item
  resolved : resolvedVersion strict pin.package = some resolved

/-- The strict result meets the exact clause of every active pin, with the version tried for it. -/
def MeetsActive (active : RequirementItem → Prop) (parsed : ParsedRequirements)
    (pins : List RelaxablePin) (versions : List Version) (strict : ResolutionResult) : Prop :=
  ∀ pin item tried resolved, PinOutcome parsed pins versions strict pin item tried resolved →
    active item → (Bound.exactly tried).Admits resolved

/-- What the strict result has of the packages of the pinned requirements: of an inactive one no other
version than the pinned one, and of an active one no version that a local label lifts above the
pin. -/
structure OwnVersions (pk : WheelPackaging) (active : RequirementItem → Prop)
    (parsed : ParsedRequirements) (strict : ResolutionResult) : Prop where
  inactive : ∀ item ∈ parsed.items, ¬ active item → ∀ original resolved,
    exactVersion pk item = .ok (some original) →
      resolvedVersion strict item.name = some resolved → resolved.Same original
  label : ∀ item ∈ parsed.items, active item → ∀ original resolved,
    exactVersion pk item = .ok (some original) →
      resolvedVersion strict item.name = some resolved → resolved.localLabel ≠ none →
        resolved.publicPart.key ≤ original.key → resolved.key ≤ original.key

/-! ### Pin by pin -/

section Pins

variable {resolver : CompatibleResolver σ} {parsed : ParsedRequirements}
  {result strict : ResolutionResult} {s : SearchState σ} {pins : List RelaxablePin}
  {versions : List Version}

/-- An item with one exact version has a pin. -/
theorem exists_pin {pk : WheelPackaging} (h : relaxablePins pk parsed = .ok pins) {i : Nat}
    {item : RequirementItem} (hitem : parsed.items[i]? = some item) {v : Version}
    (hexact : exactVersion pk item = .ok (some v)) : (⟨i, item.name, v⟩ : RelaxablePin) ∈ pins := by
  rw [pinsFrom_ok h, List.mem_filterMap]
  refine ⟨(item, i), List.mem_zipIdx_iff_getElem?.2 hitem, ?_⟩
  dsimp only
  unfold pinAt
  rw [hexact]

theorem Won.get? (h : Won resolver parsed result s pins versions strict) {k : Nat}
    {selection : CandidateSelection} :
    (winningCombination result)[k]? = some selection ↔
      ∃ pin tried, pins[k]? = some pin ∧ versions[k]? = some tried ∧
        selection = ⟨pin.package, tried⟩ := by
  rw [h.combination]
  unfold selections
  rw [List.getElem?_zipWith]
  cases hpin : pins[k]? with
  | none => simp
  | some pin =>
      cases hversion : versions[k]? with
      | none => simp
      | some tried => simp [eq_comm]

/-- Two pins of one index are the same. -/
theorem pin_unique {pk : WheelPackaging} (h : relaxablePins pk parsed = .ok pins)
    {pin other : RelaxablePin} (hpin : pin ∈ pins) (hother : other ∈ pins)
    (hindex : pin.itemIndex = other.itemIndex) : pin = other :=
  List.inj_on_of_nodup_map (pins_nodup h) hpin hother hindex

/-- The tried version of a pin stands in a relation to the original one. -/
theorem Won.moved_iff (h : Won resolver parsed result s pins versions strict) {pin : RelaxablePin}
    {item : RequirementItem} {tried resolved : Version}
    (hpin : PinOutcome parsed pins versions strict pin item tried resolved)
    (relation : Version → Version → Prop) :
    PinMoved pins (winningCombination result) pin.itemIndex relation ↔
      relation pin.original tried := by
  obtain ⟨k, hk, hversion⟩ := hpin.place
  constructor
  · rintro ⟨j, other, selection, hj, hindex, hselection, hrelation⟩
    obtain rfl : other = pin :=
      pin_unique h.relaxable (List.mem_of_getElem? hj) (List.mem_of_getElem? hk) hindex
    obtain ⟨other', tried', hother', htried', rfl⟩ := h.get?.1 hselection
    -- the two places are one
    have hnodup : pins.Nodup := List.Nodup.of_map _ (pins_nodup h.relaxable)
    have hplace : j = k := by
      obtain ⟨hj', hget⟩ := List.getElem?_eq_some_iff.1 hj
      obtain ⟨hk', hget'⟩ := List.getElem?_eq_some_iff.1 hk
      exact (hnodup.getElem_inj_iff).1 (hget.trans hget'.symm)
    subst hplace
    cases htried'.symm.trans hversion
    exact hrelation
  · intro hrelation
    exact ⟨k, pin, ⟨pin.package, tried⟩, hk, rfl, h.get?.2 ⟨pin, tried, hk, hversion, rfl⟩,
      hrelation⟩

/-- A change that is reported as an upgrade or a downgrade is that of a pin. -/
theorem Won.exists_outcome (h : Won resolver parsed result s pins versions strict) {i : Nat}
    {change : VersionChange} (hchange : result.changes[i]? = some change)
    (hkind : change.kind = .upgrade ∨ change.kind = .downgrade) :
    ∃ pin item tried resolved,
      PinOutcome parsed pins versions strict pin item tried resolved ∧ pin.itemIndex = i := by
  obtain ⟨source, hchanges⟩ := h.changes
  obtain ⟨item, hitem⟩ := (versionChanges_get hchanges).1 change hchange
  obtain ⟨other, original, hother, hexact, hcompared⟩ :=
    (versionChanges_get hchanges).2 item hitem
  cases hother.symm.trans hchange
  -- both kinds compare an original version with a resolved one
  obtain ⟨v, w, rfl, hresolved⟩ : ∃ v w, original = some v ∧
      resolvedVersion strict item.name = some w := by
    rcases hkind with hkind | hkind
    · rw [hcompared, changeKind_upgrade_iff] at hkind
      obtain ⟨v, w, hv, hw, -⟩ := hkind
      exact ⟨v, w, hv, hw⟩
    · rw [hcompared, changeKind_downgrade_iff] at hkind
      obtain ⟨v, w, hv, hw, -⟩ := hkind
      exact ⟨v, w, hv, hw⟩
  obtain ⟨k, hk⟩ := List.mem_iff_getElem?.1 (exists_pin h.relaxable hitem hexact)
  obtain ⟨hlt, -⟩ := List.getElem?_eq_some_iff.1 hk
  rw [← h.length] at hlt
  exact ⟨⟨i, item.name, v⟩, item, versions[k], w,
    ⟨⟨k, hk, List.getElem?_eq_getElem hlt⟩, hitem, hresolved⟩, rfl⟩

/-- The change of a pin compares its original version with the resolved one. -/
theorem Won.exists_change (h : Won resolver parsed result s pins versions strict)
    {pin : RelaxablePin} {item : RequirementItem} {tried resolved : Version}
    (hpin : PinOutcome parsed pins versions strict pin item tried resolved) :
    ∃ change, result.changes[pin.itemIndex]? = some change ∧
      (change.kind = .upgrade ↔ pin.original.key < resolved.key) ∧
        (change.kind = .downgrade ↔ resolved.key < pin.original.key) := by
  obtain ⟨source, hchanges⟩ := h.changes
  obtain ⟨k, hk, -⟩ := hpin.place
  obtain ⟨found, hfound, hexact, hname⟩ := mem_pins h.relaxable (List.mem_of_getElem? hk)
  cases hfound.symm.trans hpin.item
  obtain ⟨change, original, hchange, horiginal, hkind⟩ :=
    (versionChanges_get hchanges).2 item hpin.item
  cases horiginal.symm.trans hexact
  rw [← hname, hpin.resolved] at hkind
  refine ⟨change, hchange, ?_, ?_⟩
  · rw [hkind, changeKind_upgrade_iff]
    simp
  · rw [hkind, changeKind_downgrade_iff]
    simp

/-- A combination of the original versions replaces no pin. -/
theorem moved_original {i : Nat} {relation : Version → Version → Prop}
    (h : PinMoved pins (selections pins (pins.map RelaxablePin.original)) i relation) :
    ∃ v, relation v v := by
  obtain ⟨k, pin, selection, hk, -, hselection, hrelation⟩ := h
  unfold selections at hselection
  rw [List.getElem?_zipWith, List.getElem?_map, hk] at hselection
  cases hselection
  exact ⟨_, hrelation⟩

/-- The reports are faithful if every resolved version lies on a side of the pin only when the
version tried does. -/
theorem Won.faithful_iff (h : Won resolver parsed result s pins versions strict) :
    Faithful pins result ↔ ∀ pin item tried resolved,
      PinOutcome parsed pins versions strict pin item tried resolved →
        (pin.original.key < resolved.key → pin.original.key < tried.key) ∧
          (resolved.key < pin.original.key → tried.key < pin.original.key) := by
  constructor
  · intro hfaithful pin item tried resolved hpin
    obtain ⟨change, hchange, hupgrade, hdowngrade⟩ := h.exists_change hpin
    constructor
    · intro hlt
      exact (h.moved_iff hpin _).1 (hfaithful.upgrade _ change hchange (hupgrade.2 hlt))
    · intro hlt
      exact (h.moved_iff hpin _).1 (hfaithful.downgrade _ change hchange (hdowngrade.2 hlt))
  · intro hsides
    have hmoved : ∀ i change, result.changes[i]? = some change →
        (change.kind = .upgrade → PinMoved pins (winningCombination result) i
          fun original tried => original.key < tried.key) ∧
        (change.kind = .downgrade → PinMoved pins (winningCombination result) i
          fun original tried => tried.key < original.key) := by
      intro i change hchange
      constructor
      · intro hkind
        obtain ⟨pin, item, tried, resolved, hpin, rfl⟩ := h.exists_outcome hchange (.inl hkind)
        obtain ⟨other, hother, hupgrade, -⟩ := h.exists_change hpin
        cases hother.symm.trans hchange
        exact (h.moved_iff hpin _).2 ((hsides _ _ _ _ hpin).1 (hupgrade.1 hkind))
      · intro hkind
        obtain ⟨pin, item, tried, resolved, hpin, rfl⟩ := h.exists_outcome hchange (.inr hkind)
        obtain ⟨other, hother, -, hdowngrade⟩ := h.exists_change hpin
        cases hother.symm.trans hchange
        exact (h.moved_iff hpin _).2 ((hsides _ _ _ _ hpin).2 (hdowngrade.1 hkind))
    refine ⟨fun i change hchange => (hmoved i change hchange).1,
      fun i change hchange => (hmoved i change hchange).2, ?_⟩
    intro horiginal change hmem
    obtain ⟨i, hchange⟩ := List.mem_iff_getElem?.1 hmem
    obtain ⟨hupgrade, hdowngrade⟩ := hmoved i change hchange
    rw [horiginal] at hupgrade hdowngrade
    cases hkind : change.kind with
    | upgrade =>
        obtain ⟨v, hlt⟩ := moved_original (hupgrade hkind)
        exact absurd hlt (lt_irrefl _)
    | downgrade =>
        obtain ⟨v, hlt⟩ := moved_original (hdowngrade hkind)
        exact absurd hlt (lt_irrefl _)
    | unchanged => exact .inl rfl
    | unresolved => exact .inr rfl

end Pins

/-! ### Where the reports are faithful -/

section Reports

variable {resolver : CompatibleResolver σ} {active : RequirementItem → Prop}
  {parsed : ParsedRequirements} {result strict : ResolutionResult} {s : SearchState σ}
  {pins : List RelaxablePin} {versions : List Version}

/-- The item of an outcome is pinned at the original version of its pin. -/
theorem Won.pinned (h : Won resolver parsed result s pins versions strict) {pin : RelaxablePin}
    {item : RequirementItem} {tried resolved : Version}
    (hpin : PinOutcome parsed pins versions strict pin item tried resolved) :
    item ∈ parsed.items ∧ exactVersion resolver.pk item = .ok (some pin.original) ∧
      resolvedVersion strict item.name = some resolved := by
  obtain ⟨k, hk, -⟩ := hpin.place
  obtain ⟨found, hfound, hexact, hname⟩ := mem_pins h.relaxable (List.mem_of_getElem? hk)
  cases hfound.symm.trans hpin.item
  exact ⟨List.mem_of_getElem? hpin.item, hexact, hname ▸ hpin.resolved⟩

/-- Whatever combination wins, a resolved version lies on a side of its pin only when the version
tried does. -/
theorem Won.faithful_of_own (h : Won resolver parsed result s pins versions strict)
    (hmeets : MeetsActive active parsed pins versions strict)
    (hown : OwnVersions resolver.pk active parsed strict) : Faithful pins result := by
  rw [h.faithful_iff]
  intro pin item tried resolved hpin
  obtain ⟨hmem, hexact, hresolved⟩ := h.pinned hpin
  by_cases hactive : active item
  · rcases Bound.same_or_label_of_exactly (hmeets _ _ _ _ hpin hactive) with
      hsame | ⟨hlabel, hpublic⟩
    · have hkey : resolved.key = tried.key := hsame
      rw [hkey]
      exact ⟨id, id⟩
    · -- the version tried is the resolved one without its label
      have hkey : resolved.publicPart.key = tried.key := hpublic
      constructor
      · intro hlt
        by_contra hnot
        rw [← hkey] at hnot
        have hle := hown.label item hmem hactive _ _ hexact hresolved hlabel (not_lt.1 hnot)
        exact absurd hlt (not_lt.2 hle)
      · intro hlt
        rw [← hkey]
        exact lt_of_le_of_lt resolved.publicPart_le hlt
  · have hkey : resolved.key = pin.original.key :=
      hown.inactive item hmem hactive _ _ hexact hresolved
    rw [hkey]
    exact ⟨fun hlt => absurd hlt (lt_irrefl _), fun hlt => absurd hlt (lt_irrefl _)⟩

/-- Where the original requirements win, every pinned item is compared with its own pin. -/
theorem Won.own_of_faithful (h : Won resolver parsed result s pins versions strict)
    (horiginal : versions = pins.map RelaxablePin.original) (hfaithful : Faithful pins result) :
    ∀ item ∈ parsed.items, ∀ original resolved, exactVersion resolver.pk item = .ok (some original) →
      resolvedVersion strict item.name = some resolved → resolved.Same original := by
  intro item hmem original resolved hexact hresolved
  obtain ⟨i, hitem⟩ := List.mem_iff_getElem?.1 hmem
  obtain ⟨k, hk⟩ := List.mem_iff_getElem?.1 (exists_pin h.relaxable hitem hexact)
  have htried : versions[k]? = some original := by
    rw [horiginal, List.getElem?_map, hk]
    rfl
  obtain ⟨hup, hdown⟩ := h.faithful_iff.1 hfaithful ⟨i, item.name, original⟩ item original resolved
    ⟨⟨k, hk, htried⟩, hitem, hresolved⟩
  apply le_antisymm
  · exact not_lt.1 fun hlt => absurd (hup hlt) (lt_irrefl _)
  · exact not_lt.1 fun hlt => absurd (hdown hlt) (lt_irrefl _)

/-- Every run that ends with a result has a winning combination, and where the strict result meets
the active requirements of that combination, the reported changes are faithful to it if the result
has the packages of the pinned requirements at their own versions only; where the original
requirements win, they are faithful only then. -/
theorem changes_faithful (resolver : CompatibleResolver σ) (active : RequirementItem → Prop)
    {parsed : ParsedRequirements} {profile : TargetProfile} {sources : List PackageSource}
    {limits : ResolveLimits} {world : σ} {result : ResolutionResult}
    (h : (resolver.resolve parsed profile sources limits world).1 = .returned result) :
    (∃ pins versions strict, Won resolver parsed result
      (resolver.resolve parsed profile sources limits world).2 pins versions strict) ∧
    ∀ pins versions strict, Won resolver parsed result
        (resolver.resolve parsed profile sources limits world).2 pins versions strict →
      MeetsActive active parsed pins versions strict →
        (OwnVersions resolver.pk active parsed strict → Faithful pins result) ∧
          (versions = pins.map RelaxablePin.original → Faithful pins result →
            OwnVersions resolver.pk active parsed strict) := by
  refine ⟨resolve_won h, ?_⟩
  intro pins versions strict hwon hmeets
  refine ⟨hwon.faithful_of_own hmeets, fun horiginal hfaithful => ?_⟩
  have hown := hwon.own_of_faithful horiginal hfaithful
  constructor
  · intro item hmem _ original resolved hexact hresolved
    exact hown item hmem original resolved hexact hresolved
  · intro item hmem _ original resolved hexact hresolved _ _
    exact (hown item hmem original resolved hexact hresolved).le

end Reports

/-! ### A marker twin -/

/-- What packaging reads from the two lines of `demo`, one for each Python. -/
def twinPackaging : WheelPackaging where
  version text :=
    if text = "1.0" then some (pinVersion 1) else if text = "2.0" then some (pinVersion 2) else none
  requirement text :=
    if text = "demo==1.0; python_version < \"3\"" then
      .ok ⟨"demo", [], [⟨.equal, "1.0"⟩], some "python_version < \"3\"", none⟩
    else if text = "demo==2.0; python_version >= \"3\"" then
      .ok ⟨"demo", [], [⟨.equal, "2.0"⟩], some "python_version >= \"3\"", none⟩
    else .error .invalidRequirement
  marker text := .ok text
  specifier text :=
    if text = "==1.0" then some ⟨.equal, "1.0"⟩
    else if text = "==2.0" then some ⟨.equal, "2.0"⟩ else none
  specifierSet text :=
    if text = "==1.0" then some [⟨.equal, "1.0"⟩]
    else if text = "==2.0" then some [⟨.equal, "2.0"⟩] else none
  contains specifier version :=
    (specifier = ⟨.equal, "1.0"⟩ && version.Same (pinVersion 1)) ||
      (specifier = ⟨.equal, "2.0"⟩ && version.Same (pinVersion 2))
  canonicalizeName name := name
  parseWheelFilename _ := none
  repr text := text

/-- A resolver whose strict resolver always answers one result. -/
def fixedResolver (strict : ResolutionResult) : CompatibleResolver Unit where
  pk := twinPackaging
  gbk _ := none
  clock _ := (0, ())
  candidates _ _ _ _ := (.raised "RuntimeError", ())
  strict _ _ _ _ := (.resolved strict, ())
  maxObservations := 1
  maxCombinations := 1
  observations_bounds := by decide
  combinations_bounds := by decide

/-- The strict result with `demo` at a version. -/
def demoResult (version : Version) : ResolutionResult :=
  ⟨"1", [⟨"demo", version, true, "", "", [], none, []⟩], [], [], [], none, 0, false⟩

def demoLimits : ResolveLimits where
  maxCandidatesPerRequirement := 1
  maxResolutionAttempts := 1
  timeout := 1
  candidates_bounds := by decide
  attempts_bounds := by decide
  timeout_bounds := by decide

/-- What Python 3 makes of the markers. -/
def activeOnThree (item : RequirementItem) : Prop := item.marker ≠ some "python_version < \"3\""

instance (item : RequirementItem) : Decidable (activeOnThree item) :=
  inferInstanceAs (Decidable (item.marker ≠ _))

def earlierItem : RequirementItem :=
  ⟨1, "demo", [], "==1.0", some "python_version < \"3\"", "demo==1.0; python_version < \"3\""⟩

def laterItem : RequirementItem :=
  ⟨2, "demo", [], "==2.0", some "python_version >= \"3\"", "demo==2.0; python_version >= \"3\""⟩

def parsedItems (items : List RequirementItem) : ParsedRequirements :=
  ⟨normalizedText items, items, "utf-8"⟩

/-- What a resolution with the items reports of them. -/
def fixedReport (items : List RequirementItem) : CompatibleResolver.Resolution × SearchState Unit :=
  (fixedResolver (demoResult (pinVersion 2))).resolve (parsedItems items) linuxTarget [.pypi]
    demoLimits ()

/-- The original requirements resolve, yet the line that Python 3 skips is reported as upgraded. -/
theorem twin_misreported :
    parseRequirements twinPackaging.toPackaging (fun _ => none)
        ("demo==1.0; python_version < \"3\"\n" ++
          "demo==2.0; python_version >= \"3\"\n").toUTF8 =
      .ok (parsedItems [earlierItem, laterItem]) ∧
    ∃ result, (fixedReport [earlierItem, laterItem]).1 = .returned result ∧
      Won (fixedResolver (demoResult (pinVersion 2))) (parsedItems [earlierItem, laterItem]) result
        (fixedReport [earlierItem, laterItem]).2
        [⟨0, "demo", pinVersion 1⟩, ⟨1, "demo", pinVersion 2⟩] [pinVersion 1, pinVersion 2]
        (demoResult (pinVersion 2)) ∧
      MeetsActive activeOnThree (parsedItems [earlierItem, laterItem])
        [⟨0, "demo", pinVersion 1⟩, ⟨1, "demo", pinVersion 2⟩] [pinVersion 1, pinVersion 2]
        (demoResult (pinVersion 2)) ∧
      ¬ Faithful [⟨0, "demo", pinVersion 1⟩, ⟨1, "demo", pinVersion 2⟩] result := by
  refine ⟨by decide +kernel, _, rfl, ?_, ?_, ?_⟩
  · constructor
    · decide +kernel
    · rfl
    · rfl
    · exact ⟨parsedItems [earlierItem, laterItem], .pypi, rfl, .inl ⟨rfl, rfl⟩⟩
    · exact ⟨.pypi, rfl⟩
  · rintro pin item tried resolved ⟨⟨k, hpin, htried⟩, hitem, hresolved⟩ hactive
    rcases k with _ | _ | k
    · cases hpin
      cases hitem
      exact absurd rfl hactive
    · cases hpin
      cases htried
      cases hresolved
      decide +kernel
    · cases hpin
  · intro h
    have hkinds := h.retained rfl
    have hupgrade := hkinds _ List.mem_cons_self
    revert hupgrade
    decide +kernel

theorem later_outcome {pin : RelaxablePin} {item : RequirementItem} {tried resolved : Version}
    (h : PinOutcome (parsedItems [laterItem]) [⟨0, "demo", pinVersion 2⟩] [pinVersion 2]
      (demoResult (pinVersion 2)) pin item tried resolved) :
    pin = ⟨0, "demo", pinVersion 2⟩ ∧ item = laterItem ∧ tried = pinVersion 2 ∧
      resolved = pinVersion 2 := by
  obtain ⟨⟨k, hpin, htried⟩, hitem, hresolved⟩ := h
  cases k with
  | zero =>
      cases hpin
      cases htried
      cases hitem
      cases hresolved
      exact ⟨rfl, rfl, rfl, rfl⟩
  | succ k => cases hpin

/-- The line that Python 3 uses, alone, is reported as it is. -/
theorem later_faithful : ∃ result, (fixedReport [laterItem]).1 = .returned result ∧
    Faithful [⟨0, "demo", pinVersion 2⟩] result := by
  refine ⟨_, rfl, ?_⟩
  have hreturned : (fixedReport [laterItem]).1 = .returned _ := rfl
  refine ((changes_faithful _ activeOnThree hreturned).2 [⟨0, "demo", pinVersion 2⟩]
    [pinVersion 2] (demoResult (pinVersion 2)) ?_ ?_).1 ?_
  · constructor
    · decide +kernel
    · rfl
    · rfl
    · exact ⟨parsedItems [laterItem], .pypi, rfl, .inl ⟨rfl, rfl⟩⟩
    · exact ⟨.pypi, rfl⟩
  · intro pin item tried resolved hpin hactive
    obtain ⟨rfl, rfl, rfl, rfl⟩ := later_outcome hpin
    decide +kernel
  · constructor
    · intro item hmem hinactive
      obtain rfl := List.mem_singleton.1 hmem
      exact absurd (by decide +kernel) hinactive
    · intro item hmem _ original resolved _ hresolved hlabel
      obtain rfl := List.mem_singleton.1 hmem
      obtain rfl : pinVersion 2 = resolved := Option.some.inj hresolved
      exact absurd rfl hlabel

end WheelForge.Resolver
