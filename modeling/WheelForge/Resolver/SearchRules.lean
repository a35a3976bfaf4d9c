import WheelForge.Resolver.Compatible

/-!
# Invariants of the search

A property of the search state that every primitive step keeps is kept by the whole search, however
the search ends (`Stable.ensures_search`). A fault may leave a weaker property behind: the strict call that
raised it has no attempt.
-/

set_option autoImplicit false

namespace WheelForge.Resolver

open WheelForge.Parser WheelForge.Target
open WheelForge.Pep440 (Version)

variable {σ α β : Type}

/-! ## Triples -/

/-- From `P`, a value ends in `Q`, a stop in `I` and a fault in `E`. -/
def Ensures (I E P : SearchState σ → Prop) (m : Search σ α) (Q : α → SearchState σ → Prop) :
    Prop :=
  ∀ s, P s →
    match m s with
    | (.ok a, t) => Q a t
    | (.error (.stopped _), t) => I t
    | (.error (.escaped _), t) => E t

/-- The property `I` is kept, up to faults. -/
def Keeps (I E : SearchState σ → Prop) (m : Search σ α) : Prop := Ensures I E I m fun _ => I

section Rules

variable {I E P : SearchState σ → Prop} {m : Search σ α} {f : α → Search σ β}
  {Q : α → SearchState σ → Prop} {R : β → SearchState σ → Prop}

theorem Ensures.bind (hm : Ensures I E P m Q) (hf : ∀ a, Ensures I E (Q a) (f a) R) :
    Ensures I E P (m >>= f) R := by
  intro s hs
  have hstep := hm s hs
  change (match Search.bind m f s with
    | (.ok a, t) => R a t
    | (.error (.stopped _), t) => I t
    | (.error (.escaped _), t) => E t)
  unfold Search.bind
  rcases hrun : m s with ⟨(code | fault) | a, t⟩
  · rw [hrun] at hstep
    exact hstep
  · rw [hrun] at hstep
    exact hstep
  · rw [hrun] at hstep
    exact hf a t hstep

theorem Ensures.weaken {P' : SearchState σ → Prop} {Q' : α → SearchState σ → Prop}
    (h : Ensures I E P m Q) (hP : ∀ s, P' s → P s) (hQ : ∀ a s, Q a s → Q' a s) :
    Ensures I E P' m Q' := by
  intro s hs
  have hstep := h s (hP s hs)
  rcases hrun : m s with ⟨(code | fault) | a, t⟩
  · rw [hrun] at hstep
    exact hstep
  · rw [hrun] at hstep
    exact hstep
  · rw [hrun] at hstep
    exact hQ a t hstep

theorem ensures_pure {a : α} (h : ∀ s, P s → Q a s) : Ensures I E P (pure a) Q := h

theorem ensures_stop {code : CompatibilityFailureCode} (h : ∀ s, P s → I s) :
    Ensures I E P (Search.stop code : Search σ α) Q := h

/-- Nothing follows a stop. -/
theorem ensures_stop_bind {code : CompatibilityFailureCode} (h : ∀ s, P s → I s) :
    Ensures I E P (Search.stop code >>= f) R :=
  Ensures.bind (Q := fun _ _ => False) (ensures_stop h) fun _ _ hs => hs.elim

theorem ensures_ofExcept {x : Except SearchFault α} (hE : ∀ s, P s → E s)
    (h : ∀ a, x = .ok a → ∀ s, P s → Q a s) : Ensures I E P (Search.ofExcept x) Q := by
  cases x with
  | ok a => exact h a rfl
  | error fault => exact hE

theorem keeps_pure (a : α) : Keeps I E (pure a : Search σ α) := fun _ hs => hs

theorem keeps_get : Keeps I E (Search.get : Search σ (SearchState σ)) := fun _ hs => hs

theorem keeps_stop (code : CompatibilityFailureCode) :
    Keeps I E (Search.stop code : Search σ α) := fun _ hs => hs

theorem Keeps.bind (hm : Keeps I E m) (hf : ∀ a, Keeps I E (f a)) : Keeps I E (m >>= f) :=
  Ensures.bind hm hf

theorem Keeps.map {g : α → β} (hm : Keeps I E m) : Keeps I E (g <$> m) :=
  hm.bind fun a => keeps_pure (g a)

theorem keeps_ofExcept {x : Except SearchFault α} (hIE : ∀ s, I s → E s) :
    Keeps I E (Search.ofExcept x) := ensures_ofExcept hIE fun _ _ _ hs => hs

theorem Keeps.ite {c : Prop} [Decidable c] {n : Search σ α} (hm : Keeps I E m)
    (hn : Keeps I E n) : Keeps I E (if c then m else n) := by
  split
  · exact hm
  · exact hn

theorem keeps_remaining (resolver : CompatibleResolver σ) : Keeps I E resolver.remaining :=
  keeps_get.bind fun _ => keeps_pure _

end Rules

/-! ## Primitive steps -/

/-- The requirements of an attempt, rebuilt for the version tuple that its selections name. -/
def Asks (resolver : CompatibleResolver σ) (original : ParsedRequirements)
    (pins : List RelaxablePin) (parsed : ParsedRequirements)
    (selected : List CandidateSelection) : Prop :=
  ∃ versions, selected = selections pins versions ∧
    (versions = pins.map RelaxablePin.original ∧ parsed = original ∨
      rebuildRequirements resolver.pk resolver.gbk original pins versions = .ok parsed)

/-- What `_attempt` may record of a call: its outcome, or that the deadline passed meanwhile. -/
def recordsOf (call : StrictCall) (selected : List CandidateSelection) : List ResolutionAttempt :=
  let timeout : ResolutionAttempt := ⟨selected, call.source, some .timeout,
    "strict invocation exceeded compatibility deadline"⟩
  match call.answer with
  | .resolved _ => [⟨selected, call.source, none, "strict graph resolved"⟩, timeout]
  | .refused typeName text =>
      [⟨selected, call.source, some .strictResolution,
        typeName ++ ": " ++ String.ofList (text.toList.take 1024)⟩, timeout]
  | .raised _ => []

/-- A result reports what the search has recorded, and the strict result of the last call. -/
def Reports (resolver : CompatibleResolver σ) (original : ParsedRequirements)
    (result : ResolutionResult) (s : SearchState σ) : Prop :=
  ∃ strict parsed source changes,
    s.events.getLast? = some (.strictCall ⟨parsed, source, .resolved strict⟩) ∧
      versionChanges resolver.pk original strict source = .ok changes ∧
      result = { strict with
        attempts := s.attempts
        rejections := s.rejections.kept
        changes := changes
        source := some source
        rejectionsOmitted := strict.rejectionsOmitted + s.rejections.omitted
        observationsTruncated := strict.observationsTruncated || s.truncated }

/-- `I` holds, and a result reports the state. -/
def Reporting (resolver : CompatibleResolver σ) (original : ParsedRequirements)
    (I : SearchState σ → Prop) (outcome : Option ResolutionResult) (s : SearchState σ) : Prop :=
  I s ∧ ∀ result, outcome = some result → Reports resolver original result s

/-- The properties that every primitive step keeps; a fault leaves `E` behind. -/
structure Stable (resolver : CompatibleResolver σ) (context : SearchContext)
    (pins : List RelaxablePin) (I E : SearchState σ → Prop) : Prop where
  fault : ∀ s, I s → E s
  world : ∀ s w, I s → I { s with world := w }
  ask : ∀ s w package source answer, I s → I { s with
    world := w
    events := s.events ++ [.candidatesCall package source answer] }
  truncate : ∀ s, I s → I { s with truncated := true }
  reject : ∀ s rejection, I s → I { s with
    rejections := s.rejections.append rejection
    events := s.events ++ [.rejected rejection] }
  observe : ∀ s package source release, I s → s.accepted < resolver.maxObservations → I { s with
    accepted := s.accepted + 1
    events := s.events ++ [.releaseObserved package source release] }
  visit : ∀ s versions, I s → s.visited < resolver.maxCombinations → I { s with
    visited := s.visited + 1
    events := s.events ++ [.tupleVisited versions] }
  mark : ∀ s key, I s → I { s with attempted := s.attempted ++ [key] }
  attempt : ∀ s w call selected attempt, I s →
    s.attempts.length < context.limits.maxResolutionAttempts →
    Asks resolver context.parsed pins call.parsed selected → attempt ∈ recordsOf call selected →
    I { s with
      world := w
      attempts := s.attempts ++ [attempt]
      events := s.events ++ [.strictCall call] }
  raised : ∀ s w call selected, I s →
    s.attempts.length < context.limits.maxResolutionAttempts →
    Asks resolver context.parsed pins call.parsed selected → recordsOf call selected = [] →
    E { s with world := w, events := s.events ++ [.strictCall call] }

namespace Stable

open CompatibleResolver

variable {resolver : CompatibleResolver σ} {context : SearchContext} {pins : List RelaxablePin}
  {I E : SearchState σ → Prop} (h : Stable resolver context pins I E)
include h

theorem readClock : Keeps I E resolver.readClock := fun s hs => h.world s _ hs

theorem checkDeadline : Keeps I E (resolver.checkDeadline context) := by
  apply h.readClock.bind
  intro now
  exact (keeps_stop _).ite (keeps_pure _)

/-- After the guard an attempt is left. -/
theorem guard : Ensures I E I (resolver.guard context) fun _ s =>
    I s ∧ s.attempts.length < context.limits.maxResolutionAttempts := by
  apply Ensures.bind h.checkDeadline
  intro _ s hs
  by_cases hlimit : context.limits.maxResolutionAttempts ≤ s.attempts.length
  · simp only [Bind.bind, Search.bind, Search.get, hlimit, if_true]
    exact hs
  · simp only [Bind.bind, Search.bind, Search.get, hlimit, if_false]
    exact ⟨hs, Nat.lt_of_not_le hlimit⟩

theorem keeps_guard : Keeps I E (resolver.guard context) :=
  h.guard.weaken (fun _ hs => hs) fun _ _ hs => hs.1

theorem keeps_failCheck (rejection : CandidateRejection) :
    Keeps I E (failCheck rejection : Search σ Unit) := fun s hs => h.reject s rejection hs

theorem keeps_malformed (package version : String) (source : PackageSource) (reason : String) :
    Keeps I E (malformed package version source reason : Search σ Unit) := h.keeps_failCheck _

theorem keeps_setTruncated : Keeps I E (setTruncated : Search σ Unit) :=
  fun s hs => h.truncate s hs

theorem keeps_callCandidates (package : String) (source : PackageSource) (bound : Nat) :
    Keeps I E (resolver.callCandidates package source bound) :=
  fun s hs => h.ask s _ package source _ hs

/-- A release is counted that is not looked at yet. -/
def Accepting (resolver : CompatibleResolver σ) (I : SearchState σ → Prop) (t : SearchState σ) :
    Prop :=
  ∃ s, I s ∧ s.accepted < resolver.maxObservations ∧ t = { s with accepted := s.accepted + 1 }

/-- A combination is counted that is not looked at yet. -/
def Visiting (resolver : CompatibleResolver σ) (I : SearchState σ → Prop) (t : SearchState σ) :
    Prop :=
  ∃ s, I s ∧ s.visited < resolver.maxCombinations ∧ t = { s with visited := s.visited + 1 }

theorem ensures_reserveObservation :
    Ensures I E I resolver.reserveObservation fun reserved t =>
      if reserved then Accepting resolver I t else I t := by
  intro s hs
  by_cases hfull : resolver.maxObservations ≤ s.accepted
  · simp only [reserveObservation, hfull, if_true]
    exact h.truncate s hs
  · simp only [reserveObservation, hfull, if_false]
    exact ⟨s, hs, Nat.lt_of_not_le hfull, rfl⟩

omit h in
theorem ensures_reserveCombination :
    Ensures I E I resolver.reserveCombination fun reserved t =>
      if reserved then Visiting resolver I t else I t := by
  intro s hs
  by_cases hfull : resolver.maxCombinations ≤ s.visited
  · simp only [reserveCombination, hfull, if_true]
    exact hs
  · simp only [reserveCombination, hfull, if_false]
    exact ⟨s, hs, Nat.lt_of_not_le hfull, rfl⟩

/-- The release that is counted is looked at. -/
theorem ensures_logRelease (package : String) (source : PackageSource) (release : Release) :
    Ensures I E (Accepting resolver I) (log (.releaseObserved package source release))
      fun _ => I := by
  rintro _ ⟨s, hs, hroom, rfl⟩
  exact h.observe s package source release hs hroom

/-- The combination that is counted is looked at. -/
theorem ensures_logTuple (versions : List Version) :
    Ensures I E (Visiting resolver I) (log (.tupleVisited versions)) fun _ => I := by
  rintro _ ⟨s, hs, hroom, rfl⟩
  exact h.visit s versions hs hroom

/-! ### Attempts -/

/-- A call was made of which nothing is recorded yet. -/
def Called (context : SearchContext) (I : SearchState σ → Prop) (call : StrictCall)
    (t : SearchState σ) : Prop :=
  ∃ s w, I s ∧ s.attempts.length < context.limits.maxResolutionAttempts ∧
    t = { s with world := w, events := s.events ++ [.strictCall call] }

omit h in
theorem ensures_callStrict (parsed : ParsedRequirements) (profile : TargetProfile)
    (source : PackageSource) :
    Ensures I E (fun s => I s ∧ s.attempts.length < context.limits.maxResolutionAttempts)
      (resolver.callStrict parsed profile source)
      fun answer => Called context I ⟨parsed, source, answer⟩ :=
  fun s hs => ⟨s, _, hs.1, hs.2, rfl⟩

theorem ensures_appendAttempt {call : StrictCall} {selected : List CandidateSelection}
    {attempt : ResolutionAttempt} (hasks : Asks resolver context.parsed pins call.parsed selected)
    (hrecords : attempt ∈ recordsOf call selected) :
    Ensures I E (Called context I call) (appendAttempt attempt) fun _ s =>
      I s ∧ s.events.getLast? = some (.strictCall call) := by
  rintro _ ⟨s, w, hs, hlimit, rfl⟩
  exact ⟨h.attempt s w call selected attempt hs hlimit hasks hrecords, List.getLast?_concat⟩

theorem ensures_recordTimeout {call : StrictCall} {selected : List CandidateSelection}
    (hasks : Asks resolver context.parsed pins call.parsed selected)
    (hrecords : (⟨selected, call.source, some .timeout,
      "strict invocation exceeded compatibility deadline"⟩ : ResolutionAttempt) ∈
        recordsOf call selected) :
    Ensures I E (Called context I call)
      (resolver.recordTimeoutAttemptIfExpired context selected call.source)
      fun _ => Called context I call := by
  have hclock : Ensures I E (Called context I call) resolver.readClock
      fun _ => Called context I call := by
    rintro _ ⟨s, w, hs, hlimit, rfl⟩
    exact ⟨s, _, hs, hlimit, rfl⟩
  apply hclock.bind
  intro now
  split
  · exact (h.ensures_appendAttempt hasks hrecords).bind fun _ => ensures_stop fun _ hs => hs.1
  · exact ensures_pure fun _ hs => hs

/-- A strict call under the attempt limit: the call and what is recorded of it are one step. -/
theorem ensures_attempt {parsed : ParsedRequirements} {selected : List CandidateSelection}
    (hasks : Asks resolver context.parsed pins parsed selected) (source : PackageSource) :
    Ensures I E (fun s => I s ∧ s.attempts.length < context.limits.maxResolutionAttempts)
      (resolver.attempt context parsed source selected) fun outcome s => I s ∧
        ∀ strict, outcome = some strict →
          s.events.getLast? = some (.strictCall ⟨parsed, source, .resolved strict⟩) := by
  apply (ensures_callStrict parsed context.profile source).bind
  rintro (result | ⟨typeName, text⟩ | typeName)
  · apply (h.ensures_recordTimeout hasks (List.mem_cons_of_mem _ List.mem_cons_self)).bind
    intro _
    apply (h.ensures_appendAttempt hasks List.mem_cons_self).bind
    rintro _ s ⟨hs, hlast⟩
    refine ⟨hs, ?_⟩
    rintro strict ⟨⟩
    exact hlast
  · apply (h.ensures_recordTimeout hasks (List.mem_cons_of_mem _ List.mem_cons_self)).bind
    intro _
    apply (h.ensures_appendAttempt hasks List.mem_cons_self).bind
    rintro _ s ⟨hs, -⟩
    exact ⟨hs, fun strict hstrict => nomatch hstrict⟩
  · rintro _ ⟨s, w, hs, hlimit, rfl⟩
    exact h.raised s w _ selected hs hlimit hasks rfl

theorem ensures_successfulResult (parsed original : ParsedRequirements)
    (strict : ResolutionResult) (source : PackageSource) :
    Ensures I E (fun s => I s ∧
        s.events.getLast? = some (.strictCall ⟨parsed, source, .resolved strict⟩))
      (resolver.successfulResult strict original source)
      fun result s => I s ∧ Reports resolver original result s := by
  rintro s ⟨hs, hlast⟩
  simp only [successfulResult, Bind.bind, Search.bind, Search.get]
  cases hchanges : versionChanges resolver.pk original strict source with
  | error fault => exact h.fault s hs
  | ok changes => exact ⟨hs, strict, parsed, source, changes, hlast, hchanges, rfl⟩

theorem ensures_attemptSources {parsed : ParsedRequirements}
    {selected : List CandidateSelection}
    (hasks : Asks resolver context.parsed pins parsed selected)
    {mark : PackageSource → Search σ Unit} (hmark : ∀ source, Keeps I E (mark source))
    (sources : List PackageSource) :
    Ensures I E I (resolver.attemptSources context parsed selected mark sources)
      (Reporting resolver context.parsed I) := by
  induction sources with
  | nil => exact ensures_pure fun s hs => ⟨hs, fun result hresult => nomatch hresult⟩
  | cons source rest ih =>
      apply Ensures.bind (hmark source)
      intro _
      apply h.guard.bind
      intro _
      apply (h.ensures_attempt hasks source).bind
      rintro (_ | strict)
      · exact ih.weaken (fun _ hs => hs.1) fun _ _ hs => hs
      · apply Ensures.bind
        · exact (h.ensures_successfulResult parsed context.parsed strict source).weaken
            (fun s hs => ⟨hs.1, hs.2 strict rfl⟩) fun _ _ hs => hs
        · intro result
          refine ensures_pure fun s hs => ⟨hs.1, ?_⟩
          rintro _ ⟨⟩
          exact hs.2

/-! ### Discovery -/

theorem keeps_observe (package : String) (source : PackageSource) (release : Release) :
    Keeps I E (resolver.observe package source release) := by
  have hmalformed : ∀ version reason,
      Keeps I E (malformed package version source reason >>= fun _ =>
        (pure none : Search σ (Option Observation))) :=
    fun version reason => (h.keeps_malformed package version source reason).bind fun _ =>
      keeps_pure _
  rcases release with metadata | _
  · unfold CompatibleResolver.observe
    dsimp only
    split
    · exact hmalformed _ _
    · apply (hmalformed _ _).ite
      apply (hmalformed _ _).ite
      apply (hmalformed _ _).ite
      split
      · exact hmalformed _ _
      · exact keeps_pure _
  · exact hmalformed _ _

theorem keeps_observeFrom (package : String) (source : PackageSource)
    (next : Nat → NextRelease) (left index : Nat) (observations : List Observation) :
    Keeps I E (resolver.observeFrom package source next left index observations) := by
  induction left generalizing index observations with
  | zero =>
      unfold observeFrom
      split
      · exact keeps_pure _
      · exact keeps_pure _
      · exact (h.keeps_malformed _ _ _ _).bind fun _ => keeps_pure _
  | succ left ih =>
      unfold observeFrom
      split
      · exact keeps_pure _
      · exact keeps_pure _
      · apply h.ensures_reserveObservation.bind
        intro reserved
        split
        · apply (h.ensures_logRelease _ _ _).bind
          intro _
          apply (h.keeps_observe _ _ _).bind
          rintro (_ | observation)
          · exact ih _ _
          · exact ih _ _
        · exact keeps_pure _

theorem keeps_boundedObservations (package : String) (source : PackageSource) :
    Keeps I E (resolver.boundedObservations package source) := by
  apply (keeps_remaining resolver).bind
  intro bound
  apply (h.keeps_callCandidates _ _ _).bind
  rintro (typeName | _ | next)
  · exact keeps_pure _
  · exact (h.keeps_malformed _ _ _ _).bind fun _ => keeps_pure _
  · exact h.keeps_observeFrom _ _ _ _ _ _

/-! ### Eligibility -/

theorem keeps_refused (package version : String) (source : PackageSource) (reason : String) :
    Keeps I E (malformed package version source reason >>= fun _ =>
      (pure false : Search σ Bool)) :=
  (h.keeps_malformed package version source reason).bind fun _ => keeps_pure _

theorem keeps_rejected (rejection : CandidateRejection) :
    Keeps I E (failCheck rejection >>= fun _ => (pure false : Search σ Bool)) :=
  (h.keeps_failCheck rejection).bind fun _ => keeps_pure _

theorem keeps_pythonCompatible (package : String) (observation : Observation) (version : String)
    (profile : TargetProfile) :
    Keeps I E (resolver.pythonCompatible package observation version profile) := by
  unfold pythonCompatible
  split
  · exact keeps_pure _
  · exact h.keeps_refused _ _ _ _
  · apply (h.keeps_refused _ _ _ _).ite
    split
    · exact h.keeps_refused _ _ _ _
    · split
      · exact keeps_ofExcept h.fault
      · exact (keeps_pure _).ite (h.keeps_rejected _)

theorem keeps_wheelsCompatible (package : String) (observation : Observation) (version : String)
    (profile : TargetProfile) (filenames : List (Field String)) (compatible : Bool) :
    Keeps I E (resolver.wheelsCompatible package observation version profile filenames
      compatible) := by
  induction filenames generalizing compatible with
  | nil => exact keeps_pure _
  | cons filename rest ih =>
      have hskip : ∀ reason, Keeps I E (malformed package version observation.source reason >>=
          fun _ => resolver.wheelsCompatible package observation version profile rest compatible) :=
        fun reason => (h.keeps_malformed _ _ _ _).bind fun _ => ih compatible
      unfold wheelsCompatible
      split
      · exact hskip _
      · apply (hskip _).ite
        split
        · exact hskip _
        · exact (hskip _).ite (ih _)

theorem keeps_hasTargetWheel (package : String) (observation : Observation) (version : String)
    (profile : TargetProfile) :
    Keeps I E (resolver.hasTargetWheel package observation version profile) := by
  unfold hasTargetWheel
  split
  · exact h.keeps_refused _ _ _ _
  · apply (h.keeps_refused _ _ _ _).ite
    apply (h.keeps_wheelsCompatible _ _ _ _ _ _).bind
    intro compatible
    exact (keeps_pure _).ite (h.keeps_rejected _)

theorem keeps_eligible (pin : RelaxablePin) (profile : TargetProfile)
    (observations : List Observation) (observation : Observation) :
    Keeps I E (resolver.eligible pin profile observations observation) := by
  unfold eligible
  apply (keeps_pure _).ite
  apply (h.keeps_rejected _).ite
  apply (h.keeps_rejected _).ite
  apply (h.keeps_rejected _).ite
  apply (h.keeps_pythonCompatible _ _ _ _).bind
  intro compatible
  exact (h.keeps_hasTargetWheel _ _ _ _).ite (keeps_pure _)

theorem keeps_eligibleSources (pin : RelaxablePin) (profile : TargetProfile)
    (observations rest : List Observation) (found : List (Version × List PackageSource)) :
    Keeps I E (resolver.eligibleSources pin profile observations rest found) := by
  induction rest generalizing found with
  | nil => exact keeps_pure _
  | cons observation rest ih =>
      apply (h.keeps_eligible _ _ _ _).bind
      intro accepted
      exact (ih _).ite (ih _)

theorem keeps_rejectOmitted (pin : RelaxablePin) (found : List (Version × List PackageSource))
    (version : Version) (sources : List PackageSource) :
    Keeps I E (rejectOmitted pin found version sources : Search σ Unit) := by
  induction sources with
  | nil => exact keeps_pure _
  | cons source rest ih =>
      unfold rejectOmitted
      split
      · exact (h.keeps_failCheck _).bind fun _ => ih
      · exact ih

theorem keeps_rejectAllOmitted (pin : RelaxablePin) (found : List (Version × List PackageSource))
    (sources : List PackageSource) (versions : List Version) :
    Keeps I E (rejectAllOmitted pin found sources versions : Search σ Unit) := by
  induction versions with
  | nil => exact keeps_pure _
  | cons version rest ih => exact (h.keeps_rejectOmitted _ _ _ _).bind fun _ => ih

theorem keeps_candidateOptions (pin : RelaxablePin) (observations : List Observation) :
    Keeps I E (resolver.candidateOptionsForObservations context pin observations) := by
  apply (h.keeps_eligibleSources _ _ _ _ _).bind
  intro found
  exact (h.keeps_rejectAllOmitted _ _ _ _).bind fun _ => keeps_pure _

/-- What follows once a source is asked. -/
theorem keeps_askSource (pin : RelaxablePin) (source : PackageSource) {rest : List PackageSource}
    (ih : ∀ observations, Keeps I E (resolver.discoverFrom context pin rest observations))
    (observations : List Observation) :
    Keeps I E (do
      let observations ← match ← resolver.boundedObservations pin.package source with
        | .ok more => pure (observations ++ more)
        | .error typeName => do
            malformed pin.package "" source ("candidate provider failed: " ++ typeName)
            pure observations
      let left ← resolver.remaining
      if left = 0 ∧ rest ≠ [] then do
        setTruncated
        let options ← resolver.candidateOptionsForObservations context pin observations
        return (options, true)
      else resolver.discoverFrom context pin rest observations) := by
  -- what follows once the source has answered
  have hrest : ∀ observations, Keeps I E (do
      let left ← resolver.remaining
      if left = 0 ∧ rest ≠ [] then do
        setTruncated
        let options ← resolver.candidateOptionsForObservations context pin observations
        return (options, true)
      else resolver.discoverFrom context pin rest observations) := by
    intro observations
    apply (keeps_remaining resolver).bind
    intro left
    apply Keeps.ite
    · apply h.keeps_setTruncated.bind
      intro _
      exact (h.keeps_candidateOptions _ _).bind fun _ => keeps_pure _
    · exact ih observations
  apply (h.keeps_boundedObservations _ _).bind
  rintro (typeName | more)
  · apply (h.keeps_malformed _ _ _ _).bind
    intro _
    exact hrest observations
  · exact hrest (observations ++ more)

theorem keeps_discoverFrom (pin : RelaxablePin) (sources : List PackageSource)
    (observations : List Observation) :
    Keeps I E (resolver.discoverFrom context pin sources observations) := by
  induction sources generalizing observations with
  | nil =>
      apply (h.keeps_candidateOptions _ _).bind
      intro options
      exact keeps_get.bind fun _ => keeps_pure _
  | cons source rest ih =>
      apply h.keeps_guard.bind
      intro _
      apply (keeps_remaining resolver).bind
      intro left
      have hsource := h.keeps_askSource pin source ih observations
      split
      · apply h.keeps_setTruncated.bind
        intro _
        exact (keeps_stop _).bind fun _ => hsource
      · exact hsource

/-! ### Frontiers -/

theorem keeps_viableSources (versions : List Version) (discovered : List CandidateOptions)
    (sources : List PackageSource) :
    Keeps I E (resolver.viableSources context pins versions discovered sources) := by
  induction sources with
  | nil => exact keeps_pure _
  | cons source rest ih =>
      apply h.keeps_guard.bind
      intro _
      apply (keeps_get.bind fun _ => keeps_pure _).bind
      intro skip
      exact ih.bind fun _ => keeps_pure _

theorem keeps_markAttempted (versions : List Version) (source : PackageSource) :
    Keeps I E (markAttempted versions source : Search σ Unit) := fun s hs => h.mark s _ hs

omit h in
theorem ensures_none : Ensures I E I (pure none : Search σ (Option ResolutionResult))
    (Reporting resolver context.parsed I) :=
  ensures_pure fun _ hs => ⟨hs, fun _ hresult => nomatch hresult⟩

omit h in
theorem ensures_some (result : ResolutionResult) :
    Ensures I E (Reporting resolver context.parsed I (some result)) (pure (some result))
      (Reporting resolver context.parsed I) :=
  ensures_pure fun _ hs => hs

/-- What follows once a combination of versions is looked at. -/
theorem ensures_askTuple (discovered : List CandidateOptions) (versions : List Version)
    {rest : List (List Version)}
    (ih : Ensures I E I (resolver.attemptTuples context pins discovered rest)
      (Reporting resolver context.parsed I)) :
    Ensures I E I (do
      let viable ← resolver.viableSources context pins versions discovered context.sources
      if viable = [] then resolver.attemptTuples context pins discovered rest
      else
        let candidateParsed ← Search.ofExcept
          (rebuildRequirements resolver.pk resolver.gbk context.parsed pins versions)
        match ← resolver.attemptSources context candidateParsed (selections pins versions)
            (markAttempted versions) viable with
        | some result => return some result
        | none => resolver.attemptTuples context pins discovered rest)
      (Reporting resolver context.parsed I) := by
  apply Ensures.bind (h.keeps_viableSources _ _ _)
  intro viable
  split
  · exact ih
  · apply Ensures.bind
    · exact ensures_ofExcept h.fault fun candidateParsed hrebuilt s hs =>
        And.intro hrebuilt hs
    · intro candidateParsed s hs
      have hasks : Asks resolver context.parsed pins candidateParsed
          (selections pins versions) := ⟨versions, rfl, Or.inr hs.1⟩
      refine Ensures.bind
        (h.ensures_attemptSources hasks (h.keeps_markAttempted versions) viable) ?_ s hs.2
      rintro (_ | result)
      · exact ih.weaken (fun _ hs => hs.1) fun _ _ hs => hs
      · exact ensures_some result

theorem ensures_attemptTuples (discovered : List CandidateOptions)
    (tuples : List (List Version)) :
    Ensures I E I (resolver.attemptTuples context pins discovered tuples)
      (Reporting resolver context.parsed I) := by
  induction tuples with
  | nil => exact ensures_none
  | cons versions rest ih =>
      have hviable := h.ensures_askTuple discovered versions ih
      unfold attemptTuples
      apply Ensures.bind h.keeps_guard
      intro _
      apply Ensures.bind ensures_reserveCombination
      rintro (_ | _)
      · exact ensures_stop_bind fun _ hs => hs
      · exact (h.ensures_logTuple versions).bind fun _ => hviable

/-! ### The search -/

theorem ensures_searchFrom (rest : List RelaxablePin) (index : Nat)
    (discovered : List CandidateOptions) :
    Ensures I E I (resolver.searchFrom context pins rest index discovered)
      (Reporting resolver context.parsed I) := by
  induction rest generalizing index discovered with
  | nil => exact ensures_none
  | cons pin rest ih =>
      unfold searchFrom
      apply Ensures.bind h.keeps_guard
      intro _
      apply Ensures.bind (h.keeps_discoverFrom _ _ _)
      rintro ⟨alternatives, incomplete⟩
      apply (h.ensures_attemptTuples _ _).bind
      rintro (_ | result)
      · refine Ensures.weaken ?_ (fun _ hs => hs.1) fun _ _ hs => hs
        apply Ensures.bind (keeps_remaining resolver)
        intro left
        split
        · apply Ensures.bind h.keeps_setTruncated
          intro _
          exact Ensures.bind (keeps_stop _) fun _ => ih _ _
        · exact ih _ _
      · exact ensures_some result

/-- A property that every primitive step keeps is kept by the search, and a result reports the
state in which the search ends. -/
theorem ensures_search :
    Ensures I E I (resolver.search context pins)
      fun result s => I s ∧ Reports resolver context.parsed result s := by
  have hasks : Asks resolver context.parsed pins context.parsed
      (selections pins (pins.map RelaxablePin.original)) := ⟨_, rfl, Or.inl ⟨rfl, rfl⟩⟩
  unfold search
  apply (h.ensures_attemptSources hasks (fun _ => keeps_pure ()) context.sources).bind
  rintro (_ | result)
  · refine Ensures.weaken ?_ (fun _ hs => hs.1) fun _ _ hs => hs
    apply (h.ensures_searchFrom _ _ _).bind
    rintro (_ | result)
    · refine Ensures.weaken ?_ (fun _ hs => hs.1) fun _ _ hs => hs
      exact Ensures.bind keeps_get fun _ => ensures_stop fun _ hs => hs
    · exact ensures_pure fun _ hs => ⟨hs.1, hs.2 result rfl⟩
  · exact ensures_pure fun _ hs => ⟨hs.1, hs.2 result rfl⟩

end Stable

end WheelForge.Resolver
