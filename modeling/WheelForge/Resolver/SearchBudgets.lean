import WheelForge.Resolver.SearchRules

/-!
# The budgets of the search

The attempts, the rejections and the budgets of the search against what the search did: the attempts
record the strict calls in order, and every counter counts and bounds its events. The events are
written where a release or a combination is looked at and where a check fails, not by the counters.
-/

set_option autoImplicit false

namespace WheelForge.Resolver

open WheelForge.Parser WheelForge.Target
open WheelForge.Pep440 (Version)

variable {σ : Type}

/-! ## What the search did -/

def strictCalls (events : List SearchEvent) : List StrictCall :=
  events.filterMap fun
    | .strictCall call => some call
    | _ => none

def tuplesVisited (events : List SearchEvent) : List (List Version) :=
  events.filterMap fun
    | .tupleVisited versions => some versions
    | _ => none

def releasesObserved (events : List SearchEvent) : List (String × PackageSource × Release) :=
  events.filterMap fun
    | .releaseObserved package source release => some (package, source, release)
    | _ => none

def rejectionsRaised (events : List SearchEvent) : List CandidateRejection :=
  events.filterMap fun
    | .rejected rejection => some rejection
    | _ => none

section Events

variable (events : List SearchEvent)

@[simp] theorem strictCalls_append (event : SearchEvent) :
    strictCalls (events ++ [event]) = strictCalls events ++ strictCalls [event] :=
  List.filterMap_append

@[simp] theorem tuplesVisited_append (event : SearchEvent) :
    tuplesVisited (events ++ [event]) = tuplesVisited events ++ tuplesVisited [event] :=
  List.filterMap_append

@[simp] theorem releasesObserved_append (event : SearchEvent) :
    releasesObserved (events ++ [event]) = releasesObserved events ++ releasesObserved [event] :=
  List.filterMap_append

@[simp] theorem rejectionsRaised_append (event : SearchEvent) :
    rejectionsRaised (events ++ [event]) = rejectionsRaised events ++ rejectionsRaised [event] :=
  List.filterMap_append

end Events

/-! ## The invariant -/

/-- The counters of releases, tuples and rejections. -/
structure Counted (resolver : CompatibleResolver σ) (s : SearchState σ) : Prop where
  observed : (releasesObserved s.events).length = s.accepted
  accepted_le : s.accepted ≤ resolver.maxObservations
  tuples : (tuplesVisited s.events).length = s.visited
  visited_le : s.visited ≤ resolver.maxCombinations
  kept_le : s.rejections.kept.length ≤ maxResolutionRejections
  balanced : s.rejections.kept.length + s.rejections.omitted = (rejectionsRaised s.events).length

/-- A call and the attempt that records it. -/
def Recorded (resolver : CompatibleResolver σ) (original : ParsedRequirements)
    (pins : List RelaxablePin) (call : StrictCall) (attempt : ResolutionAttempt) : Prop :=
  ∃ selected, Asks resolver original pins call.parsed selected ∧
    attempt ∈ recordsOf call selected

/-- The attempts record the calls one by one. -/
structure Balanced (resolver : CompatibleResolver σ) (context : SearchContext)
    (pins : List RelaxablePin) (s : SearchState σ) : Prop where
  counted : Counted resolver s
  recorded : List.Forall₂ (Recorded resolver context.parsed pins) (strictCalls s.events) s.attempts
  attempts_le : s.attempts.length ≤ context.limits.maxResolutionAttempts

/-- After a fault: the strict call that raised it, if one did, is not recorded. -/
def Faulted (resolver : CompatibleResolver σ) (context : SearchContext)
    (pins : List RelaxablePin) (s : SearchState σ) : Prop :=
  Balanced resolver context pins s ∨
    Counted resolver s ∧ s.attempts.length < context.limits.maxResolutionAttempts ∧
      ∃ calls call typeName, strictCalls s.events = calls ++ [call] ∧
        call.answer = .raised typeName ∧
        List.Forall₂ (Recorded resolver context.parsed pins) calls s.attempts

theorem BoundedRejections.append_spec (rejections : BoundedRejections)
    (rejection : CandidateRejection) (h : rejections.kept.length ≤ maxResolutionRejections) :
    (rejections.append rejection).kept.length ≤ maxResolutionRejections ∧
      (rejections.append rejection).kept.length + (rejections.append rejection).omitted
        = rejections.kept.length + rejections.omitted + 1 := by
  unfold BoundedRejections.append
  split
  · simp only [List.length_append, List.length_singleton]
    omega
  · exact ⟨h, rfl⟩

/-- The counters do not read the world, the attempts or the calls. -/
theorem Counted.congr {resolver : CompatibleResolver σ} {s t : SearchState σ}
    (h : Counted resolver s) (hobserved : releasesObserved t.events = releasesObserved s.events)
    (htuples : tuplesVisited t.events = tuplesVisited s.events)
    (hrejections : rejectionsRaised t.events = rejectionsRaised s.events)
    (haccepted : t.accepted = s.accepted) (hvisited : t.visited = s.visited)
    (hkept : t.rejections = s.rejections) : Counted resolver t := by
  obtain ⟨h₁, h₂, h₃, h₄, h₅, h₆⟩ := h
  constructor
  · rw [hobserved, haccepted]
    exact h₁
  · rw [haccepted]
    exact h₂
  · rw [htuples, hvisited]
    exact h₃
  · rw [hvisited]
    exact h₄
  · rw [hkept]
    exact h₅
  · rw [hkept, hrejections]
    exact h₆

/-- Every primitive step keeps the balance. -/
theorem stable_balanced (resolver : CompatibleResolver σ) (context : SearchContext)
    (pins : List RelaxablePin) :
    Stable resolver context pins (Balanced resolver context pins)
      (Faulted resolver context pins) where
  fault s h := Or.inl h
  world s w h := ⟨h.counted.congr rfl rfl rfl rfl rfl rfl, h.recorded, h.attempts_le⟩
  ask s w package source answer h := by
    refine ⟨h.counted.congr ?_ ?_ ?_ rfl rfl rfl, ?_, h.attempts_le⟩
    · simp [releasesObserved]
    · simp [tuplesVisited]
    · simp [rejectionsRaised]
    · simpa [strictCalls] using h.recorded
  truncate s h := ⟨h.counted.congr rfl rfl rfl rfl rfl rfl, h.recorded, h.attempts_le⟩
  mark s key h := ⟨h.counted.congr rfl rfl rfl rfl rfl rfl, h.recorded, h.attempts_le⟩
  reject s rejection h := by
    obtain ⟨hkept, hbalance⟩ := s.rejections.append_spec rejection h.counted.kept_le
    have hcounted := h.counted
    refine ⟨⟨?_, hcounted.accepted_le, ?_, hcounted.visited_le, hkept, ?_⟩, ?_, h.attempts_le⟩
    · simpa [releasesObserved] using hcounted.observed
    · simpa [tuplesVisited] using hcounted.tuples
    · rw [hbalance, hcounted.balanced]
      simp [rejectionsRaised]
    · simpa [strictCalls] using h.recorded
  observe s package source release h hroom := by
    have hcounted := h.counted
    refine ⟨⟨?_, hroom, ?_, hcounted.visited_le, hcounted.kept_le, ?_⟩, ?_, h.attempts_le⟩
    · simpa [releasesObserved] using hcounted.observed
    · simpa [tuplesVisited] using hcounted.tuples
    · simpa [rejectionsRaised] using hcounted.balanced
    · simpa [strictCalls] using h.recorded
  visit s versions h hroom := by
    have hcounted := h.counted
    refine ⟨⟨?_, hcounted.accepted_le, ?_, hroom, hcounted.kept_le, ?_⟩, ?_, h.attempts_le⟩
    · simpa [releasesObserved] using hcounted.observed
    · simpa [tuplesVisited] using hcounted.tuples
    · simpa [rejectionsRaised] using hcounted.balanced
    · simpa [strictCalls] using h.recorded
  attempt s w call selected attempt h hlimit hasks hrecords := by
    refine ⟨h.counted.congr ?_ ?_ ?_ rfl rfl rfl, ?_, ?_⟩
    · simp [releasesObserved]
    · simp [tuplesVisited]
    · simp [rejectionsRaised]
    · rw [strictCalls_append]
      exact List.rel_append h.recorded (.cons ⟨selected, hasks, hrecords⟩ .nil)
    · rw [List.length_append]
      exact hlimit
  raised s w call selected h hlimit hasks hnone := by
    refine Or.inr ⟨h.counted.congr ?_ ?_ ?_ rfl rfl rfl, hlimit, strictCalls s.events, call, ?_⟩
    · simp [releasesObserved]
    · simp [tuplesVisited]
    · simp [rejectionsRaised]
    · rcases hanswer : call.answer with result | ⟨typeName, text⟩ | typeName
      · simp [recordsOf, hanswer] at hnone
      · simp [recordsOf, hanswer] at hnone
      · exact ⟨typeName, strictCalls_append s.events _, rfl, h.recorded⟩

/-! ## `resolve` -/

/-- The budgets of a resolution, in terms of what the search did. -/
structure WithinBudgets (resolver : CompatibleResolver σ) (limits : ResolveLimits)
    (s : SearchState σ) : Prop where
  calls : (strictCalls s.events).length ≤ limits.maxResolutionAttempts
  tuples : (tuplesVisited s.events).length ≤ resolver.maxCombinations
  releases : (releasesObserved s.events).length ≤ resolver.maxObservations
  kept : s.rejections.kept.length ≤ maxResolutionRejections
  balanced : s.rejections.kept.length + s.rejections.omitted = (rejectionsRaised s.events).length

/-- The attempts record the calls one by one and in order. -/
def RecordsAll (resolver : CompatibleResolver σ) (parsed : ParsedRequirements)
    (calls : List StrictCall) (attempts : List ResolutionAttempt) : Prop :=
  ∃ pins, relaxablePins resolver.pk parsed = .ok pins ∧
    List.Forall₂ (Recorded resolver parsed pins) calls attempts

/-- What the end of a resolution reports of the search: the attempts are its strict calls, the
rejections are those kept, and the number omitted is that of the search; a result adds the number
that the strict result itself omitted. A fault leaves at most one call unrecorded, the one that
raised it. -/
def Accounts (resolver : CompatibleResolver σ) (parsed : ParsedRequirements)
    (s : SearchState σ) : CompatibleResolver.Resolution → Prop
  | .returned result =>
      RecordsAll resolver parsed (strictCalls s.events) result.attempts ∧
        result.rejections = s.rejections.kept ∧
        ∃ call strict, (strictCalls s.events).getLast? = some call ∧
          call.answer = .resolved strict ∧
          result.rejectionsOmitted = strict.rejectionsOmitted + s.rejections.omitted
  | .failed error =>
      RecordsAll resolver parsed (strictCalls s.events) error.attempts ∧
        error.rejections = s.rejections.kept ∧ error.rejectionsOmitted = s.rejections.omitted
  | .escaped _ =>
      strictCalls s.events = [] ∨
        ∃ calls unrecorded, strictCalls s.events = calls ++ unrecorded ∧
          unrecorded.length ≤ 1 ∧
          (∀ call ∈ unrecorded, ∃ typeName, call.answer = .raised typeName) ∧
          RecordsAll resolver parsed calls s.attempts

variable {resolver : CompatibleResolver σ} {context : SearchContext} {pins : List RelaxablePin}
  {s : SearchState σ}

theorem balanced_startState (world : σ) :
    Balanced resolver context pins (CompatibleResolver.startState world) :=
  ⟨⟨rfl, Nat.zero_le _, rfl, Nat.zero_le _, Nat.zero_le _, rfl⟩, .nil, Nat.zero_le _⟩

theorem Counted.within {limits : ResolveLimits} (h : Counted resolver s)
    (hcalls : (strictCalls s.events).length ≤ limits.maxResolutionAttempts) :
    WithinBudgets resolver limits s where
  calls := hcalls
  tuples := by
    rw [h.tuples]
    exact h.visited_le
  releases := by
    rw [h.observed]
    exact h.accepted_le
  kept := h.kept_le
  balanced := h.balanced

theorem Balanced.within (h : Balanced resolver context pins s) :
    WithinBudgets resolver context.limits s := by
  apply h.counted.within
  rw [h.recorded.length_eq]
  exact h.attempts_le

theorem Faulted.within (h : Faulted resolver context pins s) :
    WithinBudgets resolver context.limits s := by
  rcases h with h | ⟨hcounted, hlimit, calls, call, typeName, hcalls, -, hrecorded⟩
  · exact h.within
  · apply hcounted.within
    rw [hcalls, List.length_append, List.length_singleton, hrecorded.length_eq]
    exact hlimit

theorem Balanced.recordsAll (h : Balanced resolver context pins s)
    (hpins : relaxablePins resolver.pk context.parsed = .ok pins) :
    RecordsAll resolver context.parsed (strictCalls s.events) s.attempts :=
  ⟨pins, hpins, h.recorded⟩

theorem Faulted.accounts (h : Faulted resolver context pins s)
    (hpins : relaxablePins resolver.pk context.parsed = .ok pins) (fault : SearchFault) :
    Accounts resolver context.parsed s (.escaped fault) := by
  right
  rcases h with h | ⟨-, -, calls, call, typeName, hcalls, hraised, hrecorded⟩
  · refine ⟨strictCalls s.events, [], (List.append_nil _).symm, Nat.zero_le _, ?_, ?_⟩
    · exact fun call hcall => absurd hcall List.not_mem_nil
    · exact h.recordsAll hpins
  · refine ⟨calls, [call], hcalls, Nat.le_refl 1, ?_, pins, hpins, hrecorded⟩
    intro other hother
    rw [List.mem_singleton.1 hother]
    exact ⟨typeName, hraised⟩

/-- A result accounts for the state that it reports. -/
theorem Balanced.accounts_returned (h : Balanced resolver context pins s)
    (hpins : relaxablePins resolver.pk context.parsed = .ok pins) {result : ResolutionResult}
    (hreports : Reports resolver context.parsed result s) :
    Accounts resolver context.parsed s (.returned result) := by
  obtain ⟨strict, parsed, source, changes, hlast, -, rfl⟩ := hreports
  refine ⟨h.recordsAll hpins, rfl, ⟨parsed, source, .resolved strict⟩, strict, ?_, rfl, rfl⟩
  obtain ⟨before, hevents⟩ := List.getLast?_eq_some_iff.1 hlast
  rw [hevents, strictCalls_append]
  exact List.getLast?_concat

theorem Balanced.accounts_failed (h : Balanced resolver context pins s)
    (hpins : relaxablePins resolver.pk context.parsed = .ok pins)
    (code : CompatibilityFailureCode) :
    Accounts resolver context.parsed s (resolver.resolutionFailure context.parsed code s) := by
  unfold CompatibleResolver.resolutionFailure
  split
  · exact ⟨h.recordsAll hpins, rfl, rfl⟩
  · exact Faulted.accounts (Or.inl h) hpins _

/-- For every provider, strict resolver and clock, `resolve` ends within its budgets and accounts
for what the search did. -/
theorem resolve_within_budgets (resolver : CompatibleResolver σ) (parsed : ParsedRequirements)
    (profile : TargetProfile) (sources : List PackageSource) (limits : ResolveLimits)
    (world : σ) :
    WithinBudgets resolver limits (resolver.resolve parsed profile sources limits world).2 ∧
      Accounts resolver parsed (resolver.resolve parsed profile sources limits world).2
        (resolver.resolve parsed profile sources limits world).1 := by
  -- before the search nothing was called
  have hstart : ∀ world fault,
      WithinBudgets resolver limits (CompatibleResolver.startState world : SearchState σ) ∧
        Accounts resolver parsed (CompatibleResolver.startState world : SearchState σ)
          (.escaped fault) := by
    intro world fault
    have hbalanced : Balanced resolver ⟨parsed, profile, sources, limits, 0⟩ []
        (CompatibleResolver.startState world) := balanced_startState world
    exact ⟨hbalanced.within, Or.inl rfl⟩
  unfold CompatibleResolver.resolve
  split
  · exact hstart _ _
  · dsimp only
    generalize hcontext : (⟨parsed, profile, sources, limits, (resolver.clock world).1⟩ :
      SearchContext) = context
    obtain rfl : context.parsed = parsed := by rw [← hcontext]
    obtain rfl : context.limits = limits := by rw [← hcontext]
    split
    · exact hstart _ _
    · next pins hpins =>
      have hsearch := (stable_balanced resolver context pins).ensures_search _
        (balanced_startState (resolver.clock world).2)
      split
      · next result s hrun =>
        rw [hrun] at hsearch
        exact ⟨hsearch.1.within, hsearch.1.accounts_returned hpins hsearch.2⟩
      · next code s hrun =>
        rw [hrun] at hsearch
        exact ⟨hsearch.within, hsearch.accounts_failed hpins code⟩
      · next fault s hrun =>
        rw [hrun] at hsearch
        exact ⟨hsearch.within, hsearch.accounts hpins fault⟩

end WheelForge.Resolver
