import WheelForge.Resolver.CandidateOrder
import WheelForge.Resolver.SearchRules

/-!
# What discovery finds

The candidates of a pin are merged over all sources, ordered and cut to a limit, but each of them
keeps the sources in which it is eligible. An option that supports a version at a source rests on a
release that is an item of the provider's answer for this source and that passed every check
(`Silent.discoverCandidates_justified`).

Discovery makes no strict call and marks no combination: it keeps every property that the changes
of `Silent` keep.
-/

set_option autoImplicit false

namespace WheelForge.Resolver

open WheelForge.Parser WheelForge.Target
open WheelForge.Pep440 (Specifier Version)

variable {σ α β : Type}

/-! ## Eligible releases -/

/-- What `_bounded_observations` checks of a release that becomes an observation. -/
def ObservationOf (pk : WheelPackaging) (source : PackageSource) (release : Release)
    (observation : Observation) : Prop :=
  observation.source = source ∧ release = .candidate observation.metadata ∧
    ∃ text, observation.metadata.version = .value text ∧
      pk.version text = some observation.version

/-- The provider was asked for a package at a source, and `next` yields what it answered. -/
def Asked (resolver : CompatibleResolver σ) (package : String) (source : PackageSource)
    (next : Nat → NextRelease) (events : List SearchEvent) : Prop :=
  ∃ bound world, (resolver.candidates package source bound world).1 = .iterator next ∧
    .candidatesCall package source (resolver.candidates package source bound world).1 ∈ events

/-- The release is an item of the provider's answer at the source. -/
def Listed (resolver : CompatibleResolver σ) (package : String) (source : PackageSource)
    (release : Release) (events : List SearchEvent) : Prop :=
  ∃ next index, Asked resolver package source next events ∧ next index = .item release

/-- The observation rests on a release that the provider listed at its source. -/
def Observed (resolver : CompatibleResolver σ) (package : String) (events : List SearchEvent)
    (observation : Observation) : Prop :=
  ∃ release, Listed resolver package observation.source release events ∧
    ObservationOf resolver.pk observation.source release observation

def AllObserved (resolver : CompatibleResolver σ) (package : String)
    (observations : List Observation) (events : List SearchEvent) : Prop :=
  ∀ observation ∈ observations, Observed resolver package events observation

/-- Requires-Python admits the target's full Python version. -/
def AdmitsTarget (pk : WheelPackaging) (profile : TargetProfile) (observation : Observation) :
    Prop :=
  observation.metadata.requiresPython = none ∨
    ∃ text specifiers target, observation.metadata.requiresPython = some (.value text) ∧
      text.length ≤ maxRequiresPythonChars ∧ pk.specifierSet text = some specifiers ∧
      pk.version profile.pythonFullVersion = some target ∧
      ∀ specifier ∈ specifiers, pk.contains specifier target = true

/-- A wheel of the package and version whose tags are compatible with the target. -/
def IsTargetWheel (pk : WheelPackaging) (package : String) (profile : TargetProfile)
    (observation : Observation) (filename : Field String) : Prop :=
  ∃ text wheelName wheelVersion tags, filename = .value text ∧
    pk.parseWheelFilename text = some (wheelName, wheelVersion, tags) ∧
    pk.canonicalizeName wheelName = package ∧ wheelVersion.Same observation.version ∧
    wheelIsCompatible pk text profile = true

def HasTargetWheel (pk : WheelPackaging) (package : String) (profile : TargetProfile)
    (observation : Observation) : Prop :=
  ∃ filenames, observation.metadata.wheelFilenames = .value filenames ∧
    filenames.length ≤ maxWheelsPerRelease ∧
    ∃ filename ∈ filenames, IsTargetWheel pk package profile observation filename

/-- The original version is yanked in the source of an observation. -/
def OriginalYanked (pin : RelaxablePin) (observations : List Observation)
    (source : PackageSource) : Prop :=
  ∃ other ∈ observations, other.source = source ∧ other.version.Same pin.original ∧
    other.metadata.yanked = .value true

/-- What an observation is checked for before its version becomes a candidate. -/
structure Passes (pk : WheelPackaging) (profile : TargetProfile) (pin : RelaxablePin)
    (observations : List Observation) (observation : Observation) : Prop where
  substitute : ¬ observation.version.Same pin.original
  stable : pin.original.isPrerelease = true ∨ observation.version.isPrerelease = false
  boundary : CompatibleResolver.withinBoundary pin.original observation.version = true
  yanked : observation.metadata.yanked = .value true →
    OriginalYanked pin observations observation.source
  python : AdmitsTarget pk profile observation
  wheel : HasTargetWheel pk pin.package profile observation

/-- The provider listed at the source a release of the version that passes the checks. -/
def Eligible (resolver : CompatibleResolver σ) (profile : TargetProfile) (pin : RelaxablePin)
    (events : List SearchEvent) (source : PackageSource) (version : Version) : Prop :=
  ∃ observations, AllObserved resolver pin.package observations events ∧
    ∃ observation ∈ observations, observation.source = source ∧
      observation.version.Same version ∧
      Passes resolver.pk profile pin observations observation

/-- The options rest on eligible releases, and none of them is the original version. -/
structure Justified (resolver : CompatibleResolver σ) (profile : TargetProfile)
    (pin : RelaxablePin) (events : List SearchEvent) (options : CandidateOptions) : Prop where
  supported : ∀ version source, options.supports version source = true →
    Eligible resolver profile pin events source version
  substitutes : ∀ version ∈ options.versions, ¬ version.Same pin.original

section Monotone

variable {resolver : CompatibleResolver σ} {profile : TargetProfile} {pin : RelaxablePin} {package : String}
  {observations : List Observation} {events : List SearchEvent} {event : SearchEvent}
  {source : PackageSource} {version : Version} {options : CandidateOptions}

theorem Asked.concat {next : Nat → NextRelease}
    (h : Asked resolver package source next events) :
    Asked resolver package source next (events ++ [event]) := by
  obtain ⟨bound, world, hanswer, hcall⟩ := h
  exact ⟨bound, world, hanswer, List.mem_append_left _ hcall⟩

theorem AllObserved.concat (h : AllObserved resolver package observations events) :
    AllObserved resolver package observations (events ++ [event]) := by
  intro observation hmem
  obtain ⟨release, ⟨next, index, hasked, hitem⟩, hof⟩ := h observation hmem
  exact ⟨release, ⟨next, index, hasked.concat, hitem⟩, hof⟩

theorem AllObserved.snoc {observation : Observation}
    (h : AllObserved resolver package observations events) (hnew : Observed resolver package events observation) :
    AllObserved resolver package (observations ++ [observation]) events := by
  intro other hmem
  rcases List.mem_append.1 hmem with hold | hlast
  · exact h other hold
  · obtain rfl := List.mem_singleton.1 hlast
    exact hnew

theorem Eligible.concat (h : Eligible resolver profile pin events source version) :
    Eligible resolver profile pin (events ++ [event]) source version := by
  obtain ⟨observations, hobserved, hpasses⟩ := h
  exact ⟨observations, hobserved.concat, hpasses⟩

theorem Justified.concat (h : Justified resolver profile pin events options) :
    Justified resolver profile pin (events ++ [event]) options :=
  ⟨fun version source hsupports => (h.supported version source hsupports).concat, h.substitutes⟩

theorem Eligible.congr {other : Version} (h : Eligible resolver profile pin events source version)
    (hsame : version.Same other) : Eligible resolver profile pin events source other := by
  obtain ⟨observations, hobserved, observation, hmem, hsource, hversion, hpasses⟩ := h
  exact ⟨observations, hobserved, observation, hmem, hsource, hversion.trans hsame, hpasses⟩

end Monotone

/-! ## Triples with a value -/

/-- From `P`, an early end is in `F`, and a value has `ψ` and leaves `P`. -/
def Tells (F P : SearchState σ → Prop) (m : Search σ α) (ψ : α → Prop) : Prop :=
  Ensures F F P m fun a s => P s ∧ ψ a

section Rules

variable {F P : SearchState σ → Prop} {m : Search σ α} {f : α → Search σ β} {ψ χ : α → Prop}
  {φ : β → Prop} {Q : β → SearchState σ → Prop}

theorem Tells.then (hm : Tells F P m ψ) (hf : ∀ a, ψ a → Ensures F F P (f a) Q) :
    Ensures F F P (m >>= f) Q :=
  Ensures.bind hm fun a s hs => hf a hs.2 s hs.1

theorem Tells.bind (hm : Tells F P m ψ) (hf : ∀ a, ψ a → Tells F P (f a) φ) :
    Tells F P (m >>= f) φ :=
  hm.then hf

theorem tells_pure {a : α} (h : ψ a) : Tells F P (pure a) ψ := ensures_pure fun _ hs => ⟨hs, h⟩

theorem Tells.mono (hm : Tells F P m ψ) (h : ∀ a, ψ a → χ a) : Tells F P m χ :=
  Ensures.weaken hm (fun _ hs => hs) fun a _ hs => ⟨hs.1, h a hs.2⟩

end Rules

/-- The properties that discovery keeps; `F` is what an early end leaves behind. -/
structure Silent (F P : SearchState σ → Prop) : Prop where
  final : ∀ s, P s → F s
  world : ∀ s w, P s → P { s with world := w }
  ask : ∀ s w package source answer, P s → P { s with
    world := w
    events := s.events ++ [.candidatesCall package source answer] }
  truncate : ∀ s, P s → P { s with truncated := true }
  reject : ∀ s rejection, P s → P { s with
    rejections := s.rejections.append rejection
    events := s.events ++ [.rejected rejection] }
  accept : ∀ s, P s → P { s with accepted := s.accepted + 1 }
  observe : ∀ s package source release, P s → P { s with
    events := s.events ++ [.releaseObserved package source release] }

namespace Silent

open CompatibleResolver

variable {resolver : CompatibleResolver σ} {context : SearchContext} {F P : SearchState σ → Prop}

/-- A property of the events that further events keep. -/
theorem and (h : Silent F P) {ψ : List SearchEvent → Prop}
    (hψ : ∀ events event, ψ events → ψ (events ++ [event])) :
    Silent F fun s => P s ∧ ψ s.events where
  final := fun s hs => h.final s hs.1
  world := fun s w hs => ⟨h.world s w hs.1, hs.2⟩
  ask := fun s w package source answer hs =>
    ⟨h.ask s w package source answer hs.1, hψ _ _ hs.2⟩
  truncate := fun s hs => ⟨h.truncate s hs.1, hs.2⟩
  reject := fun s rejection hs => ⟨h.reject s rejection hs.1, hψ _ _ hs.2⟩
  accept := fun s hs => ⟨h.accept s hs.1, hs.2⟩
  observe := fun s package source release hs =>
    ⟨h.observe s package source release hs.1, hψ _ _ hs.2⟩

/-- A property of the marks. -/
theorem andMarks (h : Silent F P) (ψ : List (List Version × PackageSource) → Prop) :
    Silent F fun s => P s ∧ ψ s.attempted where
  final := fun s hs => h.final s hs.1
  world := fun s w hs => ⟨h.world s w hs.1, hs.2⟩
  ask := fun s w package source answer hs => ⟨h.ask s w package source answer hs.1, hs.2⟩
  truncate := fun s hs => ⟨h.truncate s hs.1, hs.2⟩
  reject := fun s rejection hs => ⟨h.reject s rejection hs.1, hs.2⟩
  accept := fun s hs => ⟨h.accept s hs.1, hs.2⟩
  observe := fun s package source release hs => ⟨h.observe s package source release hs.1, hs.2⟩

variable (h : Silent F P)
include h

/-! ### Primitive steps -/

theorem keeps_failCheck (rejection : CandidateRejection) :
    Tells F P (failCheck rejection : Search σ Unit) fun _ => True :=
  fun s hs => ⟨h.reject s rejection hs, trivial⟩

/-- A rejection that ends a check. -/
theorem rejected {ψ : α → Prop} {a : α} (rejection : CandidateRejection) (ha : ψ a) :
    Tells F P (failCheck rejection >>= fun _ => (pure a : Search σ α)) ψ :=
  (h.keeps_failCheck rejection).bind fun _ _ => tells_pure ha

theorem keeps_setTruncated : Tells F P (setTruncated : Search σ Unit) fun _ => True :=
  fun s hs => ⟨h.truncate s hs, trivial⟩

omit h in
theorem keeps_remaining (resolver : CompatibleResolver σ) :
    Tells F P resolver.remaining fun _ => True :=
  fun _ hs => ⟨hs, trivial⟩

theorem keeps_checkDeadline :
    Tells F P (resolver.checkDeadline context) fun _ => True := by
  have hclock : Tells F P resolver.readClock fun _ => True :=
    fun s hs => ⟨h.world s _ hs, trivial⟩
  refine hclock.bind fun now _ => ?_
  split
  · exact ensures_stop h.final
  · exact tells_pure trivial

theorem keeps_guard : Tells F P (resolver.guard context) fun _ => True := by
  refine h.keeps_checkDeadline.bind fun _ _ => ?_
  refine Ensures.bind (Q := fun t s => P s) (fun _ hs => hs) fun t => ?_
  split
  · exact ensures_stop h.final
  · exact tells_pure trivial

theorem keeps_reserveObservation : Tells F P resolver.reserveObservation fun _ => True := by
  intro s hs
  by_cases hfull : resolver.maxObservations ≤ s.accepted
  · simp only [reserveObservation, hfull, if_true]
    exact ⟨h.truncate s hs, trivial⟩
  · simp only [reserveObservation, hfull, if_false]
    exact ⟨h.accept s hs, trivial⟩

theorem keeps_logRelease (package : String) (source : PackageSource) (release : Release) :
    Tells F P (log (.releaseObserved package source release)) fun _ => True :=
  fun s hs => ⟨h.observe s package source release hs, trivial⟩

theorem callCandidates_tells (package : String) (source : PackageSource) (bound : Nat) :
    Ensures F F P (resolver.callCandidates package source bound) fun answer s =>
      P s ∧ ∀ next, answer = .iterator next → Asked resolver package source next s.events := by
  intro s hs
  refine ⟨h.ask s _ package source _ hs, fun next hnext => ⟨bound, s.world, hnext, ?_⟩⟩
  exact List.mem_append_right _ (List.mem_singleton.2 rfl)

/-! ### Observations -/

theorem observe_tells (package : String) (source : PackageSource) (release : Release) :
    Tells F P (resolver.observe package source release) fun outcome =>
      ∀ observation, outcome = some observation →
        ObservationOf resolver.pk source release observation := by
  have hmalformed : ∀ version reason, Tells F P
      (malformed package version source reason >>= fun _ =>
        (pure none : Search σ (Option Observation))) fun outcome =>
      ∀ observation, outcome = some observation →
        ObservationOf resolver.pk source release observation :=
    fun version reason => h.rejected _ fun _ hnone => nomatch hnone
  rcases release with metadata | _
  · unfold CompatibleResolver.observe
    dsimp only
    split
    · exact hmalformed _ _
    · next text htext =>
        split
        · exact hmalformed _ _
        · split
          · exact hmalformed _ _
          · split
            · exact hmalformed _ _
            · split
              · exact hmalformed _ _
              · next version hversion =>
                  refine tells_pure ?_
                  rintro _ ⟨⟩
                  exact ⟨rfl, rfl, text, htext, hversion⟩
  · exact hmalformed _ _

theorem observeFrom_tells (package : String) (source : PackageSource)
    (next : Nat → NextRelease) (hasked : ∀ s, P s → Asked resolver package source next s.events)
    (left index : Nat) (observations : List Observation) :
    Ensures F F (fun s => P s ∧ AllObserved resolver package observations s.events)
      (resolver.observeFrom package source next left index observations) fun outcome s =>
        P s ∧ ∀ more, outcome = .ok more →
          AllObserved resolver package more s.events := by
  have hkept : ∀ observations, Silent F fun s =>
      P s ∧ AllObserved resolver package observations s.events :=
    fun observations => h.and (ψ := AllObserved resolver package observations)
      fun _ _ => AllObserved.concat
  have hend : ∀ observations, Ensures F F
      (fun s => P s ∧ AllObserved resolver package observations s.events)
      (pure (.ok observations) : Search σ (Except String (List Observation))) fun outcome s =>
        P s ∧ ∀ more, outcome = .ok more → AllObserved resolver package more s.events := by
    intro observations
    refine ensures_pure fun s hs => ⟨hs.1, ?_⟩
    rintro _ ⟨⟩
    exact hs.2
  have hraised : ∀ observations (typeName : String), Ensures F F
      (fun s => P s ∧ AllObserved resolver package observations s.events)
      (pure (.error typeName) : Search σ (Except String (List Observation))) fun outcome s =>
        P s ∧ ∀ more, outcome = .ok more → AllObserved resolver package more s.events :=
    fun observations typeName => ensures_pure fun s hs => ⟨hs.1, fun _ hok => nomatch hok⟩
  induction left generalizing index observations with
  | zero =>
      unfold CompatibleResolver.observeFrom
      split
      · exact hend _
      · exact hraised _ _
      · exact ((hkept observations).keeps_failCheck _).then fun _ _ => hend _
  | succ left ih =>
      unfold CompatibleResolver.observeFrom
      split
      · exact hend _
      · exact hraised _ _
      · next release hitem =>
          refine (hkept observations).keeps_reserveObservation.then fun reserved _ => ?_
          split
          · refine ((hkept observations).keeps_logRelease package source release).then fun _ _ => ?_
            refine ((hkept observations).observe_tells package source release).then ?_
            rintro (_ | observation) hobservation
            · exact ih _ _
            · refine (ih _ _).weaken (fun s hs => ⟨hs.1, ?_⟩) fun _ _ hs => hs
              -- the release is an item of the answer that is being read
              obtain ⟨rfl, hof⟩ := hobservation observation rfl
              exact hs.2.snoc ⟨release, ⟨next, index, hasked s hs.1, hitem⟩, rfl, hof⟩
          · exact hend _

theorem boundedObservations_tells (package : String) (source : PackageSource) :
    Ensures F F P (resolver.boundedObservations package source) fun outcome s =>
      P s ∧ ∀ more, outcome = .ok more → AllObserved resolver package more s.events := by
  have hnone : ∀ s : SearchState σ, AllObserved resolver package [] s.events :=
    fun _ _ hmem => absurd hmem List.not_mem_nil
  refine (keeps_remaining resolver).then fun bound _ => ?_
  refine Ensures.bind (h.callCandidates_tells package source bound) ?_
  rintro (typeName | _ | next)
  · exact ensures_pure fun s hs => ⟨hs.1, fun _ hok => nomatch hok⟩
  · refine Ensures.weaken ((h.keeps_failCheck _).then fun _ _ => ensures_pure fun s hs => ⟨hs, ?_⟩)
      (fun s hs => hs.1) fun _ _ hs => hs
    rintro _ ⟨⟩
    exact hnone s
  · have hkept := h.and (ψ := Asked resolver package source next) fun _ _ => Asked.concat
    exact (hkept.observeFrom_tells package source next (fun _ hs => hs.2) maxProviderReleases 0
      []).weaken (fun s hs => ⟨⟨hs.1, hs.2 next rfl⟩, hnone s⟩) fun _ _ hs => ⟨hs.1.1, hs.2⟩

/-! ### Eligibility -/

theorem pythonCompatible_tells (package : String) (observation : Observation) (version : String)
    (profile : TargetProfile) :
    Tells F P (resolver.pythonCompatible package observation version profile) fun compatible =>
      compatible = true → AdmitsTarget resolver.pk profile observation := by
  have hrefused : ∀ rejection, Tells F P
      (failCheck rejection >>= fun _ => (pure false : Search σ Bool))
      fun compatible => compatible = true → AdmitsTarget resolver.pk profile observation :=
    fun rejection => h.rejected _ fun hfalse => absurd hfalse Bool.false_ne_true
  unfold CompatibleResolver.pythonCompatible
  split
  · next hnone => exact tells_pure fun _ => .inl hnone
  · exact hrefused _
  · next text htext =>
      split
      · exact hrefused _
      · next hlength =>
          split
          · exact hrefused _
          · next specifiers hspecifiers =>
              split
              · exact ensures_ofExcept h.final fun _ hok => nomatch hok
              · next target htarget =>
                  split
                  · next hall =>
                      refine tells_pure fun _ => .inr ⟨text, specifiers, target, htext,
                        Nat.le_of_not_lt hlength, hspecifiers, htarget, ?_⟩
                      exact List.all_eq_true.1 hall
                  · exact hrefused _

theorem wheelsCompatible_tells (package : String) (observation : Observation) (version : String)
    (profile : TargetProfile) (filenames : List (Field String)) (compatible : Bool) :
    Tells F P (resolver.wheelsCompatible package observation version profile filenames compatible)
      fun found => found = true → compatible = true ∨ ∃ filename ∈ filenames,
        IsTargetWheel resolver.pk package profile observation filename := by
  induction filenames generalizing compatible with
  | nil => exact tells_pure fun hfound => .inl hfound
  | cons filename rest ih =>
      have hrest : ∀ flag, Tells F P
          (resolver.wheelsCompatible package observation version profile rest flag) fun found =>
          found = true → flag = true ∨ ∃ wheel ∈ filename :: rest,
            IsTargetWheel resolver.pk package profile observation wheel := by
        intro flag
        refine (ih flag).mono fun found hfound htrue => (hfound htrue).imp id ?_
        rintro ⟨wheel, hmem, hwheel⟩
        exact ⟨wheel, List.mem_cons_of_mem _ hmem, hwheel⟩
      have hskip : ∀ rejection, Tells F P (failCheck rejection >>= fun _ =>
          resolver.wheelsCompatible package observation version profile rest compatible)
          fun found => found = true → compatible = true ∨ ∃ wheel ∈ filename :: rest,
            IsTargetWheel resolver.pk package profile observation wheel :=
        fun rejection => (h.keeps_failCheck _).bind fun _ _ => hrest compatible
      unfold CompatibleResolver.wheelsCompatible
      split
      · exact hskip _
      · next text =>
          split
          · exact hskip _
          · split
            · exact hskip _
            · next wheelName wheelVersion tags hparse =>
                split
                · exact hskip _
                · next hmatches =>
                    refine (hrest _).mono fun found hfound htrue => ?_
                    rcases hfound htrue with hflag | hlater
                    · rcases Bool.or_eq_true_iff.1 hflag with hbefore | hhere
                      · exact .inl hbefore
                      · obtain ⟨hname, hversion⟩ := not_or.1 hmatches
                        exact .inr ⟨_, List.mem_cons_self, text, wheelName, wheelVersion, tags,
                          rfl, hparse, not_not.1 hname, not_not.1 hversion, hhere⟩
                    · exact .inr hlater

theorem hasTargetWheel_tells (package : String) (observation : Observation) (version : String)
    (profile : TargetProfile) :
    Tells F P (resolver.hasTargetWheel package observation version profile) fun found =>
      found = true → HasTargetWheel resolver.pk package profile observation := by
  have hrefused : ∀ rejection, Tells F P
      (failCheck rejection >>= fun _ => (pure false : Search σ Bool))
      fun found => found = true → HasTargetWheel resolver.pk package profile observation :=
    fun rejection => h.rejected _ fun hfalse => absurd hfalse Bool.false_ne_true
  unfold CompatibleResolver.hasTargetWheel
  split
  · exact hrefused _
  · next filenames hfilenames =>
      split
      · exact hrefused _
      · next hlength =>
          refine (h.wheelsCompatible_tells _ _ _ _ _ _).bind fun compatible hcompatible => ?_
          split
          · next htrue =>
              refine tells_pure fun _ => ⟨filenames, hfilenames, Nat.le_of_not_lt hlength, ?_⟩
              exact (hcompatible htrue).resolve_left Bool.false_ne_true
          · exact hrefused _

theorem eligible_tells (pin : RelaxablePin) (profile : TargetProfile)
    (observations : List Observation) (observation : Observation) :
    Tells F P (resolver.eligible pin profile observations observation) fun accepted =>
      accepted = true → Passes resolver.pk profile pin observations observation := by
  have hrefused : ∀ rejection, Tells F P
      (failCheck rejection >>= fun _ => (pure false : Search σ Bool))
      fun accepted => accepted = true →
        Passes resolver.pk profile pin observations observation :=
    fun rejection => h.rejected _ fun hfalse => absurd hfalse Bool.false_ne_true
  unfold CompatibleResolver.eligible
  dsimp only
  split
  · exact tells_pure fun hfalse => absurd hfalse Bool.false_ne_true
  · next hsubstitute =>
      split
      · exact hrefused _
      · next hstable =>
          split
          · exact hrefused _
          · next hboundary =>
              split
              · exact hrefused _
              · next hyanked =>
                  refine (h.pythonCompatible_tells _ _ _ _).bind fun compatible hpython => ?_
                  split
                  · next hcompatible =>
                      refine (h.hasTargetWheel_tells _ _ _ _).mono fun found hfound htrue => ?_
                      exact {
                        substitute := hsubstitute
                        stable := by simpa [or_iff_not_imp_left] using hstable
                        boundary := by simpa using hboundary
                        yanked := by simpa [OriginalYanked] using hyanked
                        python := hpython hcompatible
                        wheel := hfound htrue }
                  · exact tells_pure fun hfalse => absurd hfalse Bool.false_ne_true

end Silent

/-! ## Options -/

/-- The versions that are found, each with the sources in which it passes the checks. -/
def FoundOk (pk : WheelPackaging) (profile : TargetProfile) (pin : RelaxablePin)
    (observations : List Observation) (found : List (Version × List PackageSource)) : Prop :=
  ∀ entry ∈ found, ∀ source ∈ entry.2, ∃ observation ∈ observations,
    observation.source = source ∧ observation.version.Same entry.1 ∧
      Passes pk profile pin observations observation

section Options

open CompatibleResolver

variable {pk : WheelPackaging} {profile : TargetProfile} {pin : RelaxablePin}
  {observations : List Observation} {found : List (Version × List PackageSource)}
  {events : List SearchEvent} {source : PackageSource} {version : Version}

theorem FoundOk.addEligible {observation : Observation} (h : FoundOk pk profile pin observations found)
    (hmem : observation ∈ observations)
    (hpasses : Passes pk profile pin observations observation) :
    FoundOk pk profile pin observations
      (addEligible observation.version observation.source found) := by
  have hself : ∀ source, source = observation.source → ∃ other ∈ observations,
      other.source = source ∧ other.version.Same observation.version ∧
        Passes pk profile pin observations other := by
    rintro source rfl
    exact ⟨observation, hmem, rfl, Version.Same.refl _, hpasses⟩
  induction found with
  | nil =>
      intro entry hentry source hsource
      obtain rfl := List.mem_singleton.1 hentry
      exact hself source (List.mem_singleton.1 hsource)
  | cons first rest ih =>
      have hfirst := h first List.mem_cons_self
      have hrest : FoundOk pk profile pin observations rest :=
        fun entry hentry => h entry (List.mem_cons_of_mem _ hentry)
      unfold CompatibleResolver.addEligible
      split
      · next hsame =>
          intro entry hentry source hsource
          rcases List.mem_cons.1 hentry with rfl | hlater
          · -- the sources of the version, with the new one
            dsimp only at hsource
            split at hsource
            · exact hfirst source hsource
            · rcases List.mem_append.1 hsource with hold | hnew
              · exact hfirst source hold
              · obtain ⟨other, hother, hsource', hversion, hchecks⟩ :=
                  hself source (List.mem_singleton.1 hnew)
                exact ⟨other, hother, hsource', hversion.trans (Version.Same.symm hsame), hchecks⟩
          · exact hrest entry hlater source hsource
      · intro entry hentry source hsource
        rcases List.mem_cons.1 hentry with rfl | hlater
        · exact hfirst source hsource
        · exact ih hrest entry hlater source hsource

theorem mem_sourcesOf (h : source ∈ sourcesOf found version) :
    ∃ entry ∈ found, entry.1.Same version ∧ source ∈ entry.2 := by
  unfold sourcesOf at h
  split at h
  · next entry sources hfind =>
      exact ⟨_, List.mem_of_find?_eq_some hfind, by simpa using List.find?_some hfind, h⟩
  · cases h

/-- The accepted candidates, with the sources in which they are found. -/
theorem FoundOk.justified {resolver : CompatibleResolver σ} {limit : Nat}
    (h : FoundOk resolver.pk profile pin observations found)
    (hobserved : AllObserved resolver pin.package observations events) :
    Justified resolver profile pin events
      (let accepted := (orderedCandidates pin.original (found.map Prod.fst)).take limit
      ⟨accepted, accepted.map fun version => (version, sourcesOf found version)⟩) where
  supported := by
    intro version source hsupports
    simp only [CandidateOptions.supports, List.any_map, List.any_eq_true, Function.comp_apply,
      Bool.and_eq_true, decide_eq_true_eq] at hsupports
    obtain ⟨candidate, -, hsame, hsource⟩ := hsupports
    obtain ⟨entry, hentry, hversion, hin⟩ := mem_sourcesOf hsource
    obtain ⟨observation, hmem, hfrom, hequal, hpasses⟩ := h entry hentry source hin
    exact ⟨observations, hobserved, observation, hmem, hfrom,
      (hequal.trans hversion).trans hsame, hpasses⟩
  substitutes := by
    intro version hversion
    exact (mem_orderedCandidates.1 (List.mem_of_mem_take hversion)).2.1

end Options

namespace Silent

open CompatibleResolver

variable {resolver : CompatibleResolver σ} {context : SearchContext} {F P : SearchState σ → Prop}
  (h : Silent F P)
include h

theorem eligibleSources_tells (pin : RelaxablePin) (profile : TargetProfile)
    (observations rest : List Observation) (hrest : rest ⊆ observations)
    (found : List (Version × List PackageSource))
    (hfound : FoundOk resolver.pk profile pin observations found) :
    Tells F P (resolver.eligibleSources pin profile observations rest found)
      (FoundOk resolver.pk profile pin observations) := by
  induction rest generalizing found with
  | nil => exact tells_pure hfound
  | cons observation rest ih =>
      obtain ⟨hmem, hlater⟩ := List.cons_subset.1 hrest
      refine (h.eligible_tells pin profile observations observation).bind fun accepted hpasses => ?_
      split
      · next htrue => exact ih hlater _ (hfound.addEligible hmem (hpasses htrue))
      · exact ih hlater _ hfound

theorem keeps_rejectOmitted (pin : RelaxablePin) (found : List (Version × List PackageSource))
    (version : Version) (sources : List PackageSource) :
    Tells F P (rejectOmitted pin found version sources : Search σ Unit) fun _ => True := by
  induction sources with
  | nil => exact tells_pure trivial
  | cons source rest ih =>
      unfold rejectOmitted
      split
      · exact (h.keeps_failCheck _).bind fun _ _ => ih
      · exact ih

theorem keeps_rejectAllOmitted (pin : RelaxablePin)
    (found : List (Version × List PackageSource)) (sources : List PackageSource)
    (versions : List Version) :
    Tells F P (rejectAllOmitted pin found sources versions : Search σ Unit) fun _ => True := by
  induction versions with
  | nil => exact tells_pure trivial
  | cons version rest ih => exact (h.keeps_rejectOmitted _ _ _ _).bind fun _ _ => ih

theorem candidateOptions_justified (pin : RelaxablePin) (observations : List Observation) :
    Ensures F F (fun s => P s ∧ AllObserved resolver pin.package observations s.events)
      (resolver.candidateOptionsForObservations context pin observations) fun options s =>
        P s ∧ Justified resolver context.profile pin s.events options := by
  have hkept := h.and (ψ := AllObserved resolver pin.package observations)
    fun _ _ => AllObserved.concat
  refine (hkept.eligibleSources_tells pin context.profile observations observations
    (List.Subset.refl _) [] fun _ hmem => absurd hmem List.not_mem_nil).then
      fun found hfound => ?_
  refine (hkept.keeps_rejectAllOmitted _ _ _ _).then fun _ _ => ?_
  exact ensures_pure fun s hs => ⟨hs.1, hfound.justified hs.2⟩

/-- What follows once a source is asked. -/
theorem askSource_justified (pin : RelaxablePin) (source : PackageSource)
    {rest : List PackageSource}
    (ih : ∀ observations, Ensures F F
      (fun s => P s ∧ AllObserved resolver pin.package observations s.events)
      (resolver.discoverFrom context pin rest observations) fun outcome s =>
        P s ∧ Justified resolver context.profile pin s.events outcome.1)
    (observations : List Observation) :
    Ensures F F (fun s => P s ∧ AllObserved resolver pin.package observations s.events) (do
      let observations ← match ← resolver.boundedObservations pin.package source with
        | .ok more => pure (observations ++ more)
        | .error typeName => do
            malformed pin.package "" source ("candidate provider failed: " ++ typeName)
            pure observations
      let left ← resolver.remaining
      if left = 0 ∧ rest ≠ [] then do
        setTruncated
        let options ← resolver.candidateOptionsForObservations context pin observations
        return (options, true)
      else resolver.discoverFrom context pin rest observations) fun outcome s =>
        P s ∧ Justified resolver context.profile pin s.events outcome.1 := by
  have hkept : ∀ observations, Silent F fun s =>
      P s ∧ AllObserved resolver pin.package observations s.events :=
    fun observations => h.and (ψ := AllObserved resolver pin.package observations)
      fun _ _ => AllObserved.concat
  -- what follows once the source has answered
  have hrest : ∀ observations, Ensures F F
      (fun s => P s ∧ AllObserved resolver pin.package observations s.events)
      (do
        let left ← resolver.remaining
        if left = 0 ∧ rest ≠ [] then do
          setTruncated
          let options ← resolver.candidateOptionsForObservations context pin observations
          return (options, true)
        else resolver.discoverFrom context pin rest observations) fun outcome s =>
          P s ∧ Justified resolver context.profile pin s.events outcome.1 := by
    intro observations
    refine (keeps_remaining resolver).then fun left _ => ?_
    split
    · refine (hkept observations).keeps_setTruncated.then fun _ _ => ?_
      refine Ensures.bind (h.candidateOptions_justified pin observations) fun options => ?_
      exact ensures_pure fun _ hs => hs
    · exact ih observations
  apply Ensures.bind ((hkept observations).boundedObservations_tells pin.package source)
  rintro (typeName | more)
  · refine Ensures.weaken (((hkept observations).keeps_failCheck _).then fun _ _ =>
      hrest observations) (fun s hs => hs.1) fun _ _ hs => hs
  · refine (hrest (observations ++ more)).weaken (fun s hs => ⟨hs.1.1, ?_⟩) fun _ _ hs => hs
    intro observation hmem
    rcases List.mem_append.1 hmem with hold | hnew
    · exact hs.1.2 observation hold
    · exact hs.2 more rfl observation hnew

theorem discoverFrom_justified (pin : RelaxablePin) (sources : List PackageSource)
    (observations : List Observation) :
    Ensures F F (fun s => P s ∧ AllObserved resolver pin.package observations s.events)
      (resolver.discoverFrom context pin sources observations) fun outcome s =>
        P s ∧ Justified resolver context.profile pin s.events outcome.1 := by
  induction sources generalizing observations with
  | nil =>
      refine Ensures.bind (h.candidateOptions_justified pin observations) fun options => ?_
      refine Ensures.bind (Q := fun _ s => P s ∧
        Justified resolver context.profile pin s.events options) (fun _ hs => hs) fun t => ?_
      exact ensures_pure fun _ hs => hs
  | cons source rest ih =>
      have hkept := h.and (ψ := AllObserved resolver pin.package observations)
        fun _ _ => AllObserved.concat
      have hsource := h.askSource_justified pin source ih observations
      refine hkept.keeps_guard.then fun _ _ => ?_
      refine (keeps_remaining resolver).then fun left _ => ?_
      split
      · refine hkept.keeps_setTruncated.then fun _ _ => ?_
        exact ensures_stop_bind hkept.final
      · exact hsource

/-- The options that are discovered for a pin rest on releases that were observed. -/
theorem discoverCandidates_justified (pin : RelaxablePin) :
    Ensures F F P (resolver.discoverCandidates context pin) fun outcome s =>
      P s ∧ Justified resolver context.profile pin s.events outcome.1 :=
  (h.discoverFrom_justified pin context.sources []).weaken
    (fun _ hs => ⟨hs, fun _ hmem => absurd hmem List.not_mem_nil⟩) fun _ _ hs => hs

end Silent

end WheelForge.Resolver
