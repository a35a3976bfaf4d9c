import WheelForge.Pep440.Version

/-!
# Resolver data

The dataclasses that the resolver returns and the repository persists.
-/

set_option autoImplicit false

namespace WheelForge.Resolver

open WheelForge.Pep440 (Version)

inductive PackageSource where
  | tsinghua
  | aliyun
  | pypi
deriving DecidableEq, Repr

/-- `source.value`. -/
def PackageSource.value : PackageSource → String
  | .tsinghua => "TSINGHUA"
  | .aliyun => "ALIYUN"
  | .pypi => "PYPI"

inductive CandidateRejectionCode where
  | prerelease
  | yanked
  | requiresPython
  | noTargetWheel
  | outsideCompatibilityBoundary
  | malformedProviderData
  | candidateLimit
deriving DecidableEq, Repr

/-- `code.value`. -/
def CandidateRejectionCode.value : CandidateRejectionCode → String
  | .prerelease => "PRERELEASE"
  | .yanked => "YANKED"
  | .requiresPython => "REQUIRES_PYTHON"
  | .noTargetWheel => "NO_TARGET_WHEEL"
  | .outsideCompatibilityBoundary => "OUTSIDE_COMPATIBILITY_BOUNDARY"
  | .malformedProviderData => "MALFORMED_PROVIDER_DATA"
  | .candidateLimit => "CANDIDATE_LIMIT"

inductive CompatibilityFailureCode where
  | strictResolution
  | exhausted
  | attemptLimit
  | timeout
  | resourceLimit
deriving DecidableEq, Repr

/-- `failure.value`. -/
def CompatibilityFailureCode.value : CompatibilityFailureCode → String
  | .strictResolution => "STRICT_RESOLUTION"
  | .exhausted => "EXHAUSTED"
  | .attemptLimit => "ATTEMPT_LIMIT"
  | .timeout => "TIMEOUT"
  | .resourceLimit => "RESOURCE_LIMIT"

inductive VersionChangeKind where
  | upgrade
  | downgrade
  | unchanged
  | unresolved
deriving DecidableEq, Repr

/-- `kind.value`. -/
def VersionChangeKind.value : VersionChangeKind → String
  | .upgrade => "UPGRADE"
  | .downgrade => "DOWNGRADE"
  | .unchanged => "UNCHANGED"
  | .unresolved => "UNRESOLVED"

structure CandidateSelection where
  package : String
  version : Version
deriving DecidableEq, Repr

structure CandidateRejection where
  package : String
  version : String
  source : PackageSource
  code : CandidateRejectionCode
  reason : String
deriving DecidableEq, Repr

structure ResolutionAttempt where
  selections : List CandidateSelection
  source : PackageSource
  failure : Option CompatibilityFailureCode
  reason : String
deriving DecidableEq, Repr

structure VersionChange where
  package : String
  kind : VersionChangeKind
  originalConstraint : String
  originalVersion : Option Version
  resolvedVersion : Option Version
  reason : String
  source : Option PackageSource
deriving DecidableEq, Repr

structure ArchiveHash where
  algorithm : String
  value : String
deriving DecidableEq, Repr

structure ResolvedPackage where
  name : String
  version : Version
  requested : Bool
  artifactUrl : String
  wheelFilename : String
  requiresDist : List String
  requiresPython : Option String
  archiveHashes : List ArchiveHash
deriving DecidableEq, Repr

structure ResolutionResult where
  reportVersion : String
  packages : List ResolvedPackage
  attempts : List ResolutionAttempt
  rejections : List CandidateRejection
  changes : List VersionChange
  source : Option PackageSource
  rejectionsOmitted : Nat
  observationsTruncated : Bool
deriving DecidableEq, Repr

/-- `ResolveLimits`; the bounds are those `__post_init__` enforces. `timeout` is in
microseconds. -/
structure ResolveLimits where
  maxCandidatesPerRequirement : Nat
  maxResolutionAttempts : Nat
  timeout : Int
  candidates_bounds : 1 ≤ maxCandidatesPerRequirement ∧ maxCandidatesPerRequirement ≤ 20
  attempts_bounds : 1 ≤ maxResolutionAttempts ∧ maxResolutionAttempts ≤ 100
  timeout_bounds : 0 < timeout ∧ timeout ≤ 600000000

end WheelForge.Resolver
