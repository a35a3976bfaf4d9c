import WheelForge.Parser.Requirements
import WheelForge.Resolver.Candidates
import WheelForge.Target.Tags

/-!
# The compatible resolver

`CompatibleResolver` tries the requirements as they are at every source, then relaxes their exact
pins: it discovers candidates pin by pin and tries the new combinations at the sources that support
them. The provider, the strict resolver and the clock act on a world of their own.
-/

set_option autoImplicit false

namespace WheelForge.Resolver

open WheelForge.Parser WheelForge.Target
open WheelForge.Pep440 (Specifier Version)

/-! ## Outcomes -/

/-- What the strict resolver answers. -/
inductive StrictAnswer where
  | resolved (result : ResolutionResult)
  /-- A `ResolverError` with its type's name and its text. -/
  | refused (typeName text : String)
  /-- Any other exception. -/
  | raised (typeName : String)
deriving DecidableEq, Repr

/-- An exception that leaves `resolve` other than a `CompatibilityResolutionError`. -/
inductive SearchFault where
  | invalidSpecifier
  | invalidVersion
  | invalidSources
  /-- `ValueError("candidate requirement ...")` -/
  | notRebuilt
  /-- What `zip(pins, versions, strict=True)` raises. -/
  | unequalLengths
  /-- What `parse_requirements` raises on the rebuilt text. -/
  | parser (e : ParserException)
  | syntaxError
  | strict (typeName : String)
deriving DecidableEq, Repr

/-- How the search is left early: `_StopResolution` or a fault. -/
inductive Stop where
  | stopped (code : CompatibilityFailureCode)
  | escaped (fault : SearchFault)
deriving DecidableEq, Repr

structure CompatibilityResolutionError where
  code : CompatibilityFailureCode
  attempts : List ResolutionAttempt
  rejections : List CandidateRejection
  changes : List VersionChange
  rejectionsOmitted : Nat
  observationsTruncated : Bool
deriving DecidableEq, Repr

/-! ## State -/

def maxProviderReleases : Nat := 2000

def maxResolutionObservations : Nat := 2000

def maxResolutionRejections : Nat := 2000

def maxResolutionCombinations : Nat := 10000

def maxVersionChars : Nat := 512

def maxRequiresPythonChars : Nat := 1024

def maxWheelsPerRelease : Nat := 256

def maxWheelFilenameChars : Nat := 1024

structure RelaxablePin where
  itemIndex : Nat
  package : String
  original : Version
deriving DecidableEq, Repr

structure Observation where
  source : PackageSource
  metadata : CandidateMetadata
  version : Version
deriving DecidableEq, Repr

structure CandidateOptions where
  versions : List Version
  eligibleSources : List (Version × List PackageSource)
deriving DecidableEq, Repr

def CandidateOptions.supports (options : CandidateOptions) (version : Version)
    (source : PackageSource) : Bool :=
  options.eligibleSources.any fun (candidate, sources) =>
    decide (candidate.Same version) && decide (source ∈ sources)

/-- `_BoundedRejections`. -/
structure BoundedRejections where
  kept : List CandidateRejection
  omitted : Nat
deriving DecidableEq, Repr

def BoundedRejections.append (rejections : BoundedRejections) (item : CandidateRejection) :
    BoundedRejections :=
  if rejections.kept.length < maxResolutionRejections then
    { rejections with kept := rejections.kept ++ [item] }
  else { rejections with omitted := rejections.omitted + 1 }

/-- A call of the strict resolver with the answer it gets. -/
structure StrictCall where
  parsed : ParsedRequirements
  source : PackageSource
  answer : StrictAnswer
deriving DecidableEq, Repr

/-- What the search did, for the statements about it; each event is written where the thing is done,
and no function of the search reads them. -/
inductive SearchEvent where
  | strictCall (call : StrictCall)
  /-- The provider is asked for a package at a source, with what it answers. -/
  | candidatesCall (package : String) (source : PackageSource) (answer : Releases)
  | tupleVisited (versions : List Version)
  | releaseObserved (package : String) (source : PackageSource) (release : Release)
  | rejected (rejection : CandidateRejection)

structure SearchState (σ : Type) where
  world : σ
  attempts : List ResolutionAttempt
  rejections : BoundedRejections
  /-- `observation_budget.accepted` -/
  accepted : Nat
  /-- `observation_budget.truncated` -/
  truncated : Bool
  /-- `combination_budget.visited` -/
  visited : Nat
  attempted : List (List Version × PackageSource)
  /-- The events so far, in order; the code has no such field. -/
  events : List SearchEvent

/-- A part of the search: it changes the state and ends with a value or is left early. -/
def Search (σ α : Type) : Type := SearchState σ → Except Stop α × SearchState σ

namespace Search

variable {σ α β : Type}

def ret (a : α) : Search σ α := fun s => (.ok a, s)

def bind (m : Search σ α) (f : α → Search σ β) : Search σ β := fun s =>
  match m s with
  | (.ok a, t) => f a t
  | (.error e, t) => (.error e, t)

instance : Monad (Search σ) where
  pure := ret
  bind := bind

def get : Search σ (SearchState σ) := fun s => (.ok s, s)

def modify (f : SearchState σ → SearchState σ) : Search σ Unit := fun s => (.ok (), f s)

def stop (code : CompatibilityFailureCode) : Search σ α := fun s => (.error (.stopped code), s)

def ofExcept : Except SearchFault α → Search σ α
  | .ok a => ret a
  | .error fault => fun s => (.error (.escaped fault), s)

end Search

/-! ## Requirements -/

section Requirements

variable (pk : WheelPackaging)

/-- The `==` specifiers of `SpecifierSet(item.specifier)`. -/
def exactSpecifiers (item : RequirementItem) : Except SearchFault (List Specifier) :=
  match pk.specifierSet item.specifier with
  | none => .error .invalidSpecifier
  | some specifiers => .ok (specifiers.filter (·.operator = .equal))

/-- `_exact_version`. -/
def exactVersion (item : RequirementItem) : Except SearchFault (Option Version) := do
  match ← exactSpecifiers pk item with
  | [specifier] =>
      match pk.version specifier.version with
      | some version => return some version
      | none => .error .invalidVersion
  | _ => return none

/-- The loop of `_relaxable_pins`. -/
def pinsFrom : Nat → List RequirementItem → Except SearchFault (List RelaxablePin)
  | _, [] => return []
  | index, item :: rest => do
      match ← exactVersion pk item with
      | some version =>
          let pins ← pinsFrom (index + 1) rest
          return ⟨index, item.name, version⟩ :: pins
      | none => pinsFrom (index + 1) rest

/-- `_relaxable_pins`. -/
def relaxablePins (parsed : ParsedRequirements) : Except SearchFault (List RelaxablePin) :=
  pinsFrom pk 0 parsed.items

/-- `_selections`. -/
def selections (pins : List RelaxablePin) (versions : List Version) : List CandidateSelection :=
  List.zipWith (fun pin version => ⟨pin.package, version⟩) pins versions

/-- The loop over the components of a specifier. -/
def rebuildComponents (version : Version) : List String → Except SearchFault (List String)
  | [] => return []
  | component :: rest => do
      match pk.specifier component with
      | none => .error .invalidSpecifier
      | some specifier =>
          let components ← rebuildComponents version rest
          return (if specifier.operator = .equal then "==" ++ version.str else component) ::
            components

/-- The line of an item with its pin replaced. -/
def rebuildLine (item : RequirementItem) (version : Version) : Except SearchFault String := do
  let components ← rebuildComponents pk version
    ((item.specifier.toList.splitOn ',').map String.ofList)
  let line := formatItem { item with specifier := ",".intercalate components }
  match pk.requirement line with
  | .error .invalidRequirement => .error .notRebuilt
  | .error .syntaxError => .error .syntaxError
  | .ok rebuilt => if rebuilt.url.isSome then .error .notRebuilt else return line

/-- The loop of `_rebuild_requirements`. -/
def rebuildLines (replacement : Nat → Option Version) :
    Nat → List RequirementItem → Except SearchFault (List String)
  | _, [] => return []
  | index, item :: rest => do
      let line ← match replacement index with
        | none => pure (formatItem item)
        | some version => rebuildLine pk item version
      let lines ← rebuildLines replacement (index + 1) rest
      return line :: lines

/-- `_rebuild_requirements`. -/
def rebuildRequirements (gbk : ByteArray → Option String) (original : ParsedRequirements)
    (pins : List RelaxablePin) (versions : List Version) :
    Except SearchFault ParsedRequirements :=
  if versions.length ≠ pins.length then .error .unequalLengths
  else do
    let replacements := (pins.map RelaxablePin.itemIndex).zip versions
    let lines ← rebuildLines pk (fun index => List.lookup index replacements) 0 original.items
    match parseRequirements pk.toPackaging gbk ("\n".intercalate lines ++ "\n").toUTF8 with
    | .ok parsed => return parsed
    | .error e => .error (.parser e)

/-- The kind and the reason of a version change. -/
def changeKind (originalVersion resolvedVersion : Option Version) : VersionChangeKind × String :=
  match resolvedVersion, originalVersion with
  | none, _ => (.unresolved, "direct requirement is inactive or absent from the strict result")
  | some _, none => (.unchanged, "original non-exact constraint was preserved")
  | some resolved, some original =>
      if original.key < resolved.key then
        (.upgrade, "strict full-graph resolution selected a higher compatible version")
      else if resolved.key < original.key then
        (.downgrade, "strict full-graph resolution selected a lower compatible version")
      else (.unchanged, "strict full-graph resolution retained the original version")

/-- `_version_changes`. -/
def versionChanges (original : ParsedRequirements) (result : ResolutionResult)
    (source : PackageSource) : Except SearchFault (List VersionChange) :=
  original.items.mapM fun item => do
    let originalVersion ← exactVersion pk item
    -- a dict keeps the last package of a name
    let resolvedVersion :=
      (result.packages.reverse.find? (·.name = item.name)).map ResolvedPackage.version
    let (kind, reason) := changeKind originalVersion resolvedVersion
    return ⟨item.name, kind, item.specifier, originalVersion, resolvedVersion, reason, some source⟩

/-- The changes of `_resolution_failure`. -/
def unresolvedChanges (parsed : ParsedRequirements) : Except SearchFault (List VersionChange) :=
  parsed.items.mapM fun item => do
    let version ← exactVersion pk item
    return ⟨item.name, .unresolved, item.specifier, version, none,
      "no bounded strict full-graph attempt resolved this requirement", none⟩

end Requirements

/-! ## The resolver -/

structure CompatibleResolver (σ : Type) where
  pk : WheelPackaging
  gbk : ByteArray → Option String
  /-- The clock, in microseconds. -/
  clock : σ → Int × σ
  /-- `candidates_bounded(package, source, remaining)`; a provider with `candidates` only ignores
  the bound. -/
  candidates : String → PackageSource → Nat → σ → Releases × σ
  strict : ParsedRequirements → TargetProfile → PackageSource → σ → StrictAnswer × σ
  maxObservations : Nat
  maxCombinations : Nat
  observations_bounds : 1 ≤ maxObservations ∧ maxObservations ≤ maxResolutionObservations
  combinations_bounds : 1 ≤ maxCombinations ∧ maxCombinations ≤ maxResolutionCombinations

/-- The arguments of `resolve` that the search passes along. -/
structure SearchContext where
  parsed : ParsedRequirements
  profile : TargetProfile
  sources : List PackageSource
  limits : ResolveLimits
  started : Int

namespace CompatibleResolver

variable {σ : Type} (resolver : CompatibleResolver σ)

/-! ### Budgets -/

def readClock : Search σ Int := fun s =>
  (.ok (resolver.clock s.world).1, { s with world := (resolver.clock s.world).2 })

/-- `_check_deadline`. -/
def checkDeadline (context : SearchContext) : Search σ Unit := do
  let now ← resolver.readClock
  if context.limits.timeout ≤ now - context.started then .stop .timeout

/-- `_guard`. -/
def guard (context : SearchContext) : Search σ Unit := do
  resolver.checkDeadline context
  let s ← Search.get
  if context.limits.maxResolutionAttempts ≤ s.attempts.length then .stop .attemptLimit

/-- The event is written; the code has no such step. -/
def log (event : SearchEvent) : Search σ Unit :=
  .modify fun s => { s with events := s.events ++ [event] }

/-- `_reject`. -/
def reject (rejection : CandidateRejection) : Search σ Unit :=
  .modify fun s => { s with rejections := s.rejections.append rejection }

/-- A check fails and calls `_reject`. -/
def failCheck (rejection : CandidateRejection) : Search σ Unit := do
  log (.rejected rejection)
  reject rejection

def setTruncated : Search σ Unit := .modify fun s => { s with truncated := true }

/-- `observation_budget.remaining`. -/
def remaining : Search σ Nat := do
  let s ← Search.get
  return resolver.maxObservations - s.accepted

/-- `observation_budget.reserve()`. -/
def reserveObservation : Search σ Bool := fun s =>
  if resolver.maxObservations ≤ s.accepted then (.ok false, { s with truncated := true })
  else (.ok true, { s with accepted := s.accepted + 1 })

/-- `combination_budget.reserve()`. -/
def reserveCombination : Search σ Bool := fun s =>
  if resolver.maxCombinations ≤ s.visited then (.ok false, s)
  else (.ok true, { s with visited := s.visited + 1 })

/-! ### Strict attempts -/

def appendAttempt (attempt : ResolutionAttempt) : Search σ Unit :=
  .modify fun s => { s with attempts := s.attempts ++ [attempt] }

def callStrict (parsed : ParsedRequirements) (profile : TargetProfile) (source : PackageSource) :
    Search σ StrictAnswer := fun s =>
  let answer := resolver.strict parsed profile source s.world
  (.ok answer.1, { s with
    world := answer.2
    events := s.events ++ [.strictCall ⟨parsed, source, answer.1⟩] })

/-- `_record_timeout_attempt_if_expired`. -/
def recordTimeoutAttemptIfExpired (context : SearchContext)
    (selected : List CandidateSelection) (source : PackageSource) : Search σ Unit := do
  let now ← resolver.readClock
  if context.limits.timeout ≤ now - context.started then
    appendAttempt ⟨selected, source, some .timeout,
      "strict invocation exceeded compatibility deadline"⟩
    .stop .timeout

/-- `_attempt`. -/
def attempt (context : SearchContext) (parsed : ParsedRequirements) (source : PackageSource)
    (selected : List CandidateSelection) : Search σ (Option ResolutionResult) := do
  match ← resolver.callStrict parsed context.profile source with
  | .resolved result =>
      resolver.recordTimeoutAttemptIfExpired context selected source
      appendAttempt ⟨selected, source, none, "strict graph resolved"⟩
      return some result
  | .refused typeName text =>
      resolver.recordTimeoutAttemptIfExpired context selected source
      appendAttempt ⟨selected, source, some .strictResolution,
        typeName ++ ": " ++ String.ofList (text.toList.take 1024)⟩
      return none
  | .raised typeName => Search.ofExcept (.error (.strict typeName))

/-- `_successful_result`. -/
def successfulResult (result : ResolutionResult) (baseline : ParsedRequirements)
    (source : PackageSource) : Search σ ResolutionResult := do
  let s ← Search.get
  let changes ← Search.ofExcept (versionChanges resolver.pk baseline result source)
  return { result with
    attempts := s.attempts
    rejections := s.rejections.kept
    changes := changes
    source := some source
    rejectionsOmitted := result.rejectionsOmitted + s.rejections.omitted
    observationsTruncated := result.observationsTruncated || s.truncated }

/-- The sources in order, until one resolves. -/
def attemptSources (context : SearchContext) (parsed : ParsedRequirements)
    (selected : List CandidateSelection) (mark : PackageSource → Search σ Unit) :
    List PackageSource → Search σ (Option ResolutionResult)
  | [] => return none
  | source :: rest => do
      mark source
      resolver.guard context
      match ← resolver.attempt context parsed source selected with
      | some result => some <$> resolver.successfulResult result context.parsed source
      | none => attemptSources context parsed selected mark rest

/-! ### Discovery -/

/-- The rejection of a release as malformed. -/
def malformed (package version : String) (source : PackageSource) (reason : String) :
    Search σ Unit :=
  failCheck ⟨package, version, source, .malformedProviderData, reason⟩

/-- The checks of one release in `_bounded_observations`. -/
def observe (package : String) (source : PackageSource) :
    Release → Search σ (Option Observation)
  | .other => do
      malformed package "" source "candidate entry has an invalid type"
      return none
  | .candidate metadata =>
      match metadata.version with
      | .other => do
          malformed package "" source "candidate version must be a nonempty string"
          return none
      | .value text =>
          if text = "" then do
            malformed package "" source "candidate version must be a nonempty string"
            return none
          else if maxVersionChars < text.length then do
            malformed package (String.ofList (text.toList.take maxVersionChars)) source
              s!"candidate version exceeds limit {maxVersionChars}"
            return none
          else if metadata.yanked = .other then do
            malformed package text source "candidate yanked state must be boolean"
            return none
          else
            match resolver.pk.version text with
            | none => do
                malformed package text source "candidate version is malformed"
                return none
            | some version => return some ⟨source, metadata, version⟩

/-- The loop of `_bounded_observations` from an index, with the number of releases that the cap
leaves; `none` when the iterator raises, with the name of the exception. -/
def observeFrom (package : String) (source : PackageSource) (next : Nat → NextRelease) :
    Nat → Nat → List Observation → Search σ (Except String (List Observation))
  | left, index, observations =>
      match next index with
      | .finished => return .ok observations
      | .raised typeName => return .error typeName
      | .item release =>
          match left with
          | 0 => do
              malformed package "" source
                s!"candidate release count exceeds limit {maxProviderReleases}"
              return .ok observations
          | left + 1 => do
              if ← resolver.reserveObservation then
                log (.releaseObserved package source release)
                match ← resolver.observe package source release with
                | some observation =>
                    observeFrom package source next left (index + 1) (observations ++ [observation])
                | none => observeFrom package source next left (index + 1) observations
              else return .ok observations

/-- The provider's call. -/
def callCandidates (package : String) (source : PackageSource) (bound : Nat) :
    Search σ Releases := fun s =>
  let answer := resolver.candidates package source bound s.world
  (.ok answer.1, { s with
    world := answer.2
    events := s.events ++ [.candidatesCall package source answer.1] })

/-- `_bounded_observations` with the provider's call; an exception of either is its name. -/
def boundedObservations (package : String) (source : PackageSource) :
    Search σ (Except String (List Observation)) := do
  let bound ← resolver.remaining
  match ← resolver.callCandidates package source bound with
  | .raised typeName => return .error typeName
  | .notIterable => do
      malformed package "" source "candidate releases are not iterable"
      return .ok []
  | .iterator next => resolver.observeFrom package source next maxProviderReleases 0 []

/-! ### Eligibility -/

/-- `_python_compatible`. -/
def pythonCompatible (package : String) (observation : Observation) (version : String)
    (profile : TargetProfile) : Search σ Bool :=
  match observation.metadata.requiresPython with
  | none => return true
  | some .other => do
      malformed package version observation.source "Requires-Python is not a bounded string"
      return false
  | some (.value text) =>
      if maxRequiresPythonChars < text.length then do
        malformed package version observation.source "Requires-Python is not a bounded string"
        return false
      else
        match resolver.pk.specifierSet text with
        | none => do
            malformed package version observation.source "Requires-Python is malformed"
            return false
        | some specifiers =>
            match resolver.pk.version profile.pythonFullVersion with
            | none => Search.ofExcept (.error .invalidVersion)
            | some target =>
                if specifiers.all (resolver.pk.contains · target) then return true
                else do
                  failCheck ⟨package, version, observation.source, .requiresPython,
                    "Requires-Python " ++ resolver.pk.repr text ++ " excludes target " ++
                      profile.pythonFullVersion⟩
                  return false

/-- The loop of `_has_target_wheel`. -/
def wheelsCompatible (package : String) (observation : Observation) (version : String)
    (profile : TargetProfile) : List (Field String) → Bool → Search σ Bool
  | [], compatible => return compatible
  | filename :: rest, compatible =>
      match filename with
      | .other => do
          malformed package version observation.source
            "Wheel filename is not a bounded nonempty string"
          wheelsCompatible package observation version profile rest compatible
      | .value filename =>
          if filename = "" ∨ maxWheelFilenameChars < filename.length then do
            malformed package version observation.source
              "Wheel filename is not a bounded nonempty string"
            wheelsCompatible package observation version profile rest compatible
          else
            match resolver.pk.parseWheelFilename filename with
            | none => do
                malformed package version observation.source
                  ("Wheel filename is malformed: " ++ String.ofList (filename.toList.take 256))
                wheelsCompatible package observation version profile rest compatible
            | some (wheelName, wheelVersion, _) =>
                if resolver.pk.canonicalizeName wheelName ≠ package ∨
                    ¬ wheelVersion.Same observation.version then do
                  malformed package version observation.source
                    "Wheel filename does not match the candidate package and version"
                  wheelsCompatible package observation version profile rest compatible
                else
                  wheelsCompatible package observation version profile rest
                    (compatible || wheelIsCompatible resolver.pk filename profile)

/-- `_has_target_wheel`. -/
def hasTargetWheel (package : String) (observation : Observation) (version : String)
    (profile : TargetProfile) : Search σ Bool :=
  match observation.metadata.wheelFilenames with
  | .other => do
      malformed package version observation.source "Wheel filename collection is not a bounded tuple"
      return false
  | .value filenames =>
      if maxWheelsPerRelease < filenames.length then do
        malformed package version observation.source
          "Wheel filename collection is not a bounded tuple"
        return false
      else do
        if ← resolver.wheelsCompatible package observation version profile filenames false then
          return true
        else do
          failCheck ⟨package, version, observation.source, .noTargetWheel,
            "candidate has no syntactically valid Wheel for the target profile"⟩
          return false

/-- `eligible_sources.setdefault(version, set()).add(source)`. -/
def addEligible (version : Version) (source : PackageSource) :
    List (Version × List PackageSource) → List (Version × List PackageSource)
  | [] => [(version, [source])]
  | (candidate, sources) :: rest =>
      if candidate.Same version then
        (candidate, if source ∈ sources then sources else sources ++ [source]) :: rest
      else (candidate, sources) :: addEligible version source rest

/-- `_within_boundary` of this module. -/
def withinBoundary (original candidate : Version) : Bool :=
  let originalRelease := normalizedRelease original
  let candidateRelease := normalizedRelease candidate
  if originalRelease.1 = 0 then
    candidateRelease.1 = originalRelease.1 && candidateRelease.2.1 = originalRelease.2.1
  else candidateRelease.1 = originalRelease.1

/-- The checks of one observation in `_candidate_options_for_observations`. -/
def eligible (pin : RelaxablePin) (profile : TargetProfile) (observations : List Observation)
    (observation : Observation) : Search σ Bool := do
  let text := match observation.metadata.version with
    | .value text => text
    | .other => ""
  let originalIsYanked := observations.any fun other =>
    decide (other.source = observation.source) && decide (other.version.Same pin.original) &&
      decide (other.metadata.yanked = .value true)
  if observation.version.Same pin.original then return false
  else if !pin.original.isPrerelease && observation.version.isPrerelease then
    failCheck ⟨pin.package, text, observation.source, .prerelease,
      "prerelease is not permitted for a stable original pin"⟩
    return false
  else if !withinBoundary pin.original observation.version then
    failCheck ⟨pin.package, text, observation.source, .outsideCompatibilityBoundary,
      "candidate crosses the allowed compatibility boundary"⟩
    return false
  else if observation.metadata.yanked = .value true && !originalIsYanked then
    failCheck ⟨pin.package, text, observation.source, .yanked,
      "yanked candidate is not permitted for a non-yanked original pin"⟩
    return false
  else if ← resolver.pythonCompatible pin.package observation text profile then
    resolver.hasTargetWheel pin.package observation text profile
  else return false

/-- The loop over the observations. -/
def eligibleSources (pin : RelaxablePin) (profile : TargetProfile)
    (observations : List Observation) :
    List Observation → List (Version × List PackageSource) →
      Search σ (List (Version × List PackageSource))
  | [], found => return found
  | observation :: rest, found => do
      if ← resolver.eligible pin profile observations observation then
        eligibleSources pin profile observations rest
          (addEligible observation.version observation.source found)
      else eligibleSources pin profile observations rest found

/-- The sources in which a version is eligible. -/
def sourcesOf (found : List (Version × List PackageSource)) (version : Version) :
    List PackageSource :=
  match found.find? fun (candidate, _) => decide (candidate.Same version) with
  | some (_, sources) => sources
  | none => []

/-- The rejections of one version beyond the candidate limit. -/
def rejectOmitted (pin : RelaxablePin) (found : List (Version × List PackageSource))
    (version : Version) : List PackageSource → Search σ Unit
  | [] => return ()
  | source :: rest => do
      if source ∈ sourcesOf found version then
        failCheck ⟨pin.package, version.str, source, .candidateLimit,
          "candidate omitted by the per-requirement candidate limit"⟩
      rejectOmitted pin found version rest

/-- The loop over the versions beyond the candidate limit. -/
def rejectAllOmitted (pin : RelaxablePin) (found : List (Version × List PackageSource))
    (sources : List PackageSource) : List Version → Search σ Unit
  | [] => return ()
  | version :: rest => do
      rejectOmitted pin found version sources
      rejectAllOmitted pin found sources rest

/-- `_candidate_options_for_observations`. -/
def candidateOptionsForObservations (context : SearchContext) (pin : RelaxablePin)
    (observations : List Observation) : Search σ CandidateOptions := do
  let found ← resolver.eligibleSources pin context.profile observations observations []
  let ordered := orderedCandidates pin.original (found.map Prod.fst)
  let accepted := ordered.take context.limits.maxCandidatesPerRequirement
  rejectAllOmitted pin found context.sources
    (ordered.drop context.limits.maxCandidatesPerRequirement)
  return ⟨accepted, accepted.map fun version => (version, sourcesOf found version)⟩

/-- The loop over the sources in `_discover_candidates`, with the observations so far. -/
def discoverFrom (context : SearchContext) (pin : RelaxablePin) :
    List PackageSource → List Observation → Search σ (CandidateOptions × Bool)
  | [], observations => do
      let options ← resolver.candidateOptionsForObservations context pin observations
      let s ← Search.get
      return (options, s.truncated)
  | source :: rest, observations => do
      resolver.guard context
      if (← resolver.remaining) = 0 then
        setTruncated
        .stop .resourceLimit
      let observations ← match ← resolver.boundedObservations pin.package source with
        | .ok more => pure (observations ++ more)
        | .error typeName => do
            malformed pin.package "" source ("candidate provider failed: " ++ typeName)
            pure observations
      if (← resolver.remaining) = 0 ∧ rest ≠ [] then
        setTruncated
        let options ← resolver.candidateOptionsForObservations context pin observations
        return (options, true)
      else discoverFrom context pin rest observations

/-- `_discover_candidates`. -/
def discoverCandidates (context : SearchContext) (pin : RelaxablePin) :
    Search σ (CandidateOptions × Bool) :=
  resolver.discoverFrom context pin context.sources []

/-! ### Frontiers -/

/-- `itertools.product`. -/
def product : List (List Version) → List (List Version)
  | [] => [[]]
  | versions :: rest => versions.flatMap fun version => (product rest).map (version :: ·)

/-- The version tuples of a frontier: the discovered choices of the pins before it, a candidate of
its pin, the original versions of the pins after it. -/
def frontierTuples (pins : List RelaxablePin) (discovered : List CandidateOptions)
    (frontier : Nat) : List (List Version) :=
  let prefixOptions := List.zipWith
    (fun (pin : RelaxablePin) (options : CandidateOptions) => pin.original :: options.versions)
    (pins.take frontier) (discovered.take frontier)
  let current := (discovered[frontier]?.map CandidateOptions.versions).getD []
  let trailing := (pins.drop (frontier + 1)).map RelaxablePin.original
  (product prefixOptions).flatMap fun before =>
    current.map fun version => before ++ version :: trailing

/-- `_source_supports_substitutions`; pins without discovered options have none. -/
def supportsSubstitutions (source : PackageSource) :
    List RelaxablePin → List Version → List CandidateOptions → Bool
  | pin :: pins, version :: versions, options =>
      (decide (version.Same pin.original) ||
        (options.headD ⟨[], []⟩).supports version source) &&
        supportsSubstitutions source pins versions options.tail
  | _, _, _ => true

/-- Equality of version tuples. -/
def sameTuple (versions others : List Version) : Bool :=
  versions.map Version.key = others.map Version.key

/-- `(versions, source) in attempted`. -/
def wasAttempted (versions : List Version) (source : PackageSource) : Search σ Bool := do
  let s ← Search.get
  return s.attempted.any fun (others, other) => sameTuple versions others && decide (source = other)

def markAttempted (versions : List Version) (source : PackageSource) : Search σ Unit :=
  .modify fun s => { s with attempted := s.attempted ++ [(versions, source)] }

/-- The loop that collects the viable sources of a tuple. -/
def viableSources (context : SearchContext) (pins : List RelaxablePin) (versions : List Version)
    (discovered : List CandidateOptions) :
    List PackageSource → Search σ (List PackageSource)
  | [] => return []
  | source :: rest => do
      resolver.guard context
      let skip := (← wasAttempted versions source) ||
        !supportsSubstitutions source pins versions discovered
      let viable ← viableSources context pins versions discovered rest
      return if skip then viable else source :: viable

/-- The loop over the tuples of a frontier. -/
def attemptTuples (context : SearchContext) (pins : List RelaxablePin)
    (discovered : List CandidateOptions) :
    List (List Version) → Search σ (Option ResolutionResult)
  | [] => return none
  | versions :: rest => do
      resolver.guard context
      if !(← resolver.reserveCombination) then .stop .resourceLimit
      log (.tupleVisited versions)
      let viable ← resolver.viableSources context pins versions discovered context.sources
      if viable = [] then attemptTuples context pins discovered rest
      else
        let candidateParsed ← Search.ofExcept
          (rebuildRequirements resolver.pk resolver.gbk context.parsed pins versions)
        match ← resolver.attemptSources context candidateParsed (selections pins versions)
            (markAttempted versions) viable with
        | some result => return some result
        | none => attemptTuples context pins discovered rest

/-- `_attempt_candidate_frontier`. -/
def attemptCandidateFrontier (context : SearchContext) (pins : List RelaxablePin)
    (discovered : List CandidateOptions) (frontier : Nat) :
    Search σ (Option ResolutionResult) :=
  resolver.attemptTuples context pins discovered (frontierTuples pins discovered frontier)

/-! ### The search -/

/-- The loop over the pins, from an index on. -/
def searchFrom (context : SearchContext) (pins : List RelaxablePin) :
    List RelaxablePin → Nat → List CandidateOptions → Search σ (Option ResolutionResult)
  | [], _, _ => return none
  | pin :: rest, index, discovered => do
      resolver.guard context
      let (alternatives, discoveryIncomplete) ← resolver.discoverCandidates context pin
      let discovered := discovered ++ [alternatives]
      match ← resolver.attemptCandidateFrontier context pins discovered index with
      | some result => return some result
      | none =>
          if discoveryIncomplete ∨ ((← resolver.remaining) = 0 ∧ rest ≠ []) then
            setTruncated
            .stop .resourceLimit
          searchFrom context pins rest (index + 1) discovered

/-- The search of `resolve`, up to the failure that ends it without a result. -/
def search (context : SearchContext) (pins : List RelaxablePin) : Search σ ResolutionResult := do
  let original := selections pins (pins.map RelaxablePin.original)
  match ← resolver.attemptSources context context.parsed original (fun _ => pure ())
      context.sources with
  | some result => return result
  | none =>
      match ← resolver.searchFrom context pins pins 0 [] with
      | some result => return result
      | none => do
          let s ← Search.get
          .stop (if s.truncated then .resourceLimit else .exhausted)

/-- How `resolve` ends. -/
inductive Resolution where
  | returned (result : ResolutionResult)
  | failed (error : CompatibilityResolutionError)
  | escaped (fault : SearchFault)
deriving DecidableEq, Repr

/-- `_resolution_failure`. -/
def resolutionFailure (parsed : ParsedRequirements) (code : CompatibilityFailureCode)
    (s : SearchState σ) : Resolution :=
  match unresolvedChanges resolver.pk parsed with
  | .ok changes =>
      .failed ⟨code, s.attempts, s.rejections.kept, changes, s.rejections.omitted, s.truncated⟩
  | .error fault => .escaped fault

def startState (world : σ) : SearchState σ where
  world := world
  attempts := []
  rejections := ⟨[], 0⟩
  accepted := 0
  truncated := false
  visited := 0
  attempted := []
  events := []

/-- `resolve`, with the state in which it ends. -/
def resolve (parsed : ParsedRequirements) (profile : TargetProfile)
    (sources : List PackageSource) (limits : ResolveLimits) (world : σ) :
    Resolution × SearchState σ :=
  if sources = [] ∨ ¬ sources.Nodup then (.escaped .invalidSources, startState world)
  else
    let (started, world) := resolver.clock world
    let context : SearchContext := ⟨parsed, profile, sources, limits, started⟩
    match relaxablePins resolver.pk parsed with
    | .error fault => (.escaped fault, startState world)
    | .ok pins =>
        match resolver.search context pins (startState world) with
        | (.ok result, s) => (.returned result, s)
        | (.error (.stopped code), s) => (resolver.resolutionFailure parsed code s, s)
        | (.error (.escaped fault), s) => (.escaped fault, s)

end CompatibleResolver

end WheelForge.Resolver
