import WheelForge.Build.Models
import WheelForge.Pep440.Order
import WheelForge.Target.Tags
import WheelForge.Python.Exceptions
import Mathlib.Data.List.Sort
import Mathlib.Data.String.Basic

/-!
# Validating a resolved set

`validateClosure` compares the resolved packages of a build with the wheels that were downloaded and
reports what is missing, left over or incompatible. The report is complete when it has no issue.
-/

set_option autoImplicit false

namespace WheelForge.Validation

open WheelForge.Build
open WheelForge.Pep440 (PackagingError Requirement Version)
open WheelForge.Python
open WheelForge.Resolver (ResolvedPackage ResolutionResult)
open WheelForge.Target (TargetProfile WheelPackaging wheelIsCompatible)

/-- What `validate_closure` raises. -/
inductive ClosureError where
  | valueError
  | keyError
  | syntaxError
deriving DecidableEq, Repr

/-- The values of the marker variables. -/
abbrev Environment := List (String × String)

/-- The library with the evaluation of markers. -/
structure MarkerPackaging extends WheelPackaging where
  /-- `Requirement(raw).marker.evaluate(environment)`; `none` is an error that
  `_validate_dependencies` catches. -/
  evaluateMarker : String → Environment → Option Bool

/-- `_MARKER_MATRIX`, for `os_name`, `platform_machine`, `platform_system` and `sys_platform`. -/
def markerMatrix : String → String → Option (String × String × String × String)
  | "LINUX", "X86_64" => some ("posix", "x86_64", "Linux", "linux")
  | "LINUX", "AARCH64" => some ("posix", "aarch64", "Linux", "linux")
  | "WINDOWS", "AMD64" => some ("nt", "AMD64", "Windows", "win32")
  | "WINDOWS", "ARM64" => some ("nt", "ARM64", "Windows", "win32")
  | _, _ => none

/-- `marker_environment`; `none` is a `KeyError`. -/
def markerEnvironment (profile : TargetProfile) : Option Environment :=
  (markerMatrix profile.os profile.architecture).map
    fun (osName, machine, system, platform) =>
      [("implementation_name", "cpython"), ("implementation_version", profile.pythonFullVersion),
        ("os_name", osName), ("platform_machine", machine),
        ("platform_python_implementation", "CPython"), ("platform_release", "0"),
        ("platform_system", system), ("platform_version", "0"),
        ("python_full_version", profile.pythonFullVersion),
        ("python_version", profile.pythonVersion), ("sys_platform", platform)]

variable (pk : MarkerPackaging) (profile : TargetProfile)

/-- `actual`, the canonical name and the version in a wheel's file name. -/
abbrev WheelIdentity := String × Version

/-- Equality of identities: versions are equal when their keys are. -/
def WheelIdentity.same (a b : WheelIdentity) : Bool := a.1 = b.1 && decide (a.2.Same b.2)

/-- `_observe_wheel`: the identity and the issues that are appended. -/
def observeWheel (observed : DownloadedWheel) : Option WheelIdentity × List ValidationIssue :=
  match pk.parseWheelFilename observed.filename with
  | none =>
      (none, [⟨.wheelFilenameInvalid, observed.package, "Wheel filename is invalid",
        some observed.filename⟩])
  | some (name, version, _) =>
      let actual : WheelIdentity := (pk.canonicalizeName name, version)
      let mismatch :=
        if WheelIdentity.same actual (observed.package, observed.version) then []
        else [⟨.wheelNameVersionMismatch, observed.package,
          "Wheel filename disagrees with downloaded observation", some observed.filename⟩]
      let platform :=
        if wheelIsCompatible pk.toWheelPackaging observed.filename profile then []
        else [⟨.wheelWrongPlatform, observed.package, "Wheel tags are incompatible with the target",
          some observed.filename⟩]
      (some actual, mismatch ++ platform)

/-- `observed_by_actual.setdefault(actual, []).append(observed)`. -/
def groupWheel (groups : List (WheelIdentity × List DownloadedWheel)) (actual : WheelIdentity)
    (observed : DownloadedWheel) : List (WheelIdentity × List DownloadedWheel) :=
  if groups.any fun group => WheelIdentity.same group.1 actual then
    groups.map fun group =>
      if WheelIdentity.same group.1 actual then (group.1, group.2 ++ [observed]) else group
  else groups ++ [(actual, [observed])]

/-- The loop over the wheels. -/
def observeWheels (observations : List DownloadedWheel) :
    List (WheelIdentity × List DownloadedWheel) × List ValidationIssue :=
  observations.foldl (fun (groups, issues) observed =>
    let (actual, found) := observeWheel pk profile observed
    (match actual with
      | some actual => groupWheel groups actual observed
      | none => groups,
      issues ++ found)) ([], [])

/-- `_validate_requires_python`. -/
def validateRequiresPython (package : ResolvedPackage) :
    Except ClosureError (List ValidationIssue) :=
  match package.requiresPython with
  | none => .ok []
  | some text =>
      match pk.specifierSet text with
      | none => .ok [⟨.requiresPythonInvalid, package.name, text, none⟩]
      | some specifiers => do
          -- an invalid version raises a `ValueError`
          let version ← orRaise (pk.version profile.pythonFullVersion) .valueError
          return if specifiers.all (pk.contains · version) then []
            else [⟨.requiresPythonUnsatisfied, package.name, text, none⟩]

/-- What the body of the loop in `_validate_dependencies` does with a requirement whose marker holds. -/
def validateDependency (package : ResolvedPackage) (expected : List ResolvedPackage)
    (requirement : Requirement) (raw : String) : List ValidationIssue :=
  let dependency := pk.canonicalizeName requirement.name
  -- a later entry of `expected` overrides an earlier one of the same name
  match expected.reverse.find? fun item => item.name = dependency with
  | none => [⟨.dependencyMissing, package.name, raw, none⟩]
  | some item =>
      if requirement.specifier.all (pk.contains · item.version) then []
      else [⟨.dependencyVersionMismatch, package.name, raw, none⟩]

/-- The body of the loop in `_validate_dependencies`. -/
def validateRequirement (package : ResolvedPackage) (expected : List ResolvedPackage)
    (environment : Environment) (raw : String) : Except ClosureError (List ValidationIssue) :=
  let invalid : ValidationIssue := ⟨.requiresDistInvalid, package.name, raw, none⟩
  match pk.requirement raw with
  | .error .syntaxError => .error .syntaxError
  | .error .invalidRequirement => .ok [invalid]
  | .ok requirement =>
      match requirement.marker with
      | none => .ok (validateDependency pk package expected requirement raw)
      | some _ =>
          match pk.evaluateMarker raw environment with
          | none => .ok [invalid]
          | some false => .ok []
          | some true => .ok (validateDependency pk package expected requirement raw)

/-- `_validate_dependencies`. -/
def validateDependencies (package : ResolvedPackage) (expected : List ResolvedPackage) :
    Except ClosureError (List ValidationIssue) := do
  let environment ← orRaise (markerEnvironment profile) .keyError
  let issues ← (package.requiresDist.insertionSort (· ≤ ·)).mapM
    (validateRequirement pk package expected (environment ++ [("extra", "")]))
  return issues.flatten

/-- The key by which issues are sorted. -/
def issueKey (issue : ValidationIssue) : String ×ₗ String ×ₗ String ×ₗ String :=
  toLex (issue.package, toLex (issue.code.value, toLex (issue.filename.getD "", issue.detail)))

/-- The report of a list of issues. -/
def reportOf (issues : List ValidationIssue) : StaticValidationReport :=
  ⟨issues, issues.isEmpty, rfl⟩

/-- The packages with the names that other packages have too. -/
def duplicateNames (packages : List ResolvedPackage) : List String :=
  ((packages.map fun item => pk.canonicalizeName item.name).dedup).filter fun name =>
    1 < (packages.filter fun item => pk.canonicalizeName item.name = name).length

/-- What the wheels of an expected package are reported for. -/
def matchingIssues (groups : List (WheelIdentity × List DownloadedWheel))
    (package : ResolvedPackage) : List ValidationIssue :=
  match groups.find? fun group => WheelIdentity.same group.1 (package.name, package.version) with
  | none => [⟨.wheelMissing, package.name, "no matching Wheel was downloaded", none⟩]
  | some (_, matching) =>
      if 1 < matching.length then
        [⟨.wheelDuplicate, package.name, "multiple matching Wheels were downloaded", none⟩]
      else []

/-- The wheels of a group that no expected package has. -/
def unexpectedIssues (expected : List ResolvedPackage)
    (group : WheelIdentity × List DownloadedWheel) : List ValidationIssue :=
  if expected.any fun item => WheelIdentity.same (item.name, item.version) group.1 then []
  else group.2.map fun observed =>
    ⟨.wheelUnexpected, observed.package, "Wheel is not in the resolved set",
      some observed.filename⟩

/-- The last loop of `validate_closure`. -/
def packageIssues (duplicates : List String) (expected : List ResolvedPackage)
    (package : ResolvedPackage) : Except ClosureError (List ValidationIssue) := do
  let python ← validateRequiresPython pk profile package
  if pk.canonicalizeName package.name ∈ duplicates then
    return python
  else
    let dependencies ← validateDependencies pk profile package expected
    return python ++ dependencies

/-- `validate_closure`. -/
def validateClosure (resolved : ResolutionResult) (wheels : List DownloadedWheel) :
    Except ClosureError StaticValidationReport := do
  let packages := resolved.packages.insertionSort fun a b =>
    toLex (a.name, a.version.key) ≤ toLex (b.name, b.version.key)
  let duplicates := duplicateNames pk packages
  let duplicated := (duplicates.insertionSort (· ≤ ·)).map fun name =>
    (⟨.resolutionDuplicatePackage, name, "resolved set contains multiple versions of one package",
      none⟩ : ValidationIssue)
  let expected := packages.filter fun item => pk.canonicalizeName item.name ∉ duplicates
  let (groups, observed) := observeWheels pk profile wheels
  let matched := expected.flatMap (matchingIssues groups)
  let unexpected := groups.flatMap (unexpectedIssues expected)
  let checked ← packages.mapM (packageIssues pk profile duplicates expected)
  let issues := duplicated ++ observed ++ matched ++ unexpected ++ checked.flatten
  return reportOf (issues.insertionSort fun a b => issueKey a ≤ issueKey b)

end WheelForge.Validation
