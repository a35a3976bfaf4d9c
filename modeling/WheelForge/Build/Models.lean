import WheelForge.Resolver.Models

/-!
# Build stage data

The values that the download and validation stages return and that the repository and the storage
persist.
-/

set_option autoImplicit false

namespace WheelForge.Build

open WheelForge.Pep440 (Version)
open WheelForge.Resolver (PackageSource)

/-- `DownloadedWheel`, without its workspace path; `tags` are the strings of its tag set. -/
structure DownloadedWheel where
  package : String
  version : Version
  filename : String
  source : PackageSource
  byteSize : Nat
  sha256 : String
  tags : List String

inductive ValidationIssueCode where
  | resolutionDuplicatePackage
  | wheelMissing
  | wheelDuplicate
  | wheelUnexpected
  | wheelNameVersionMismatch
  | wheelFilenameInvalid
  | wheelWrongPlatform
  | requiresPythonInvalid
  | requiresPythonUnsatisfied
  | requiresDistInvalid
  | dependencyMissing
  | dependencyVersionMismatch
deriving DecidableEq, Repr

/-- `code.value`. -/
def ValidationIssueCode.value : ValidationIssueCode → String
  | .resolutionDuplicatePackage => "RESOLUTION_DUPLICATE_PACKAGE"
  | .wheelMissing => "WHEEL_MISSING"
  | .wheelDuplicate => "WHEEL_DUPLICATE"
  | .wheelUnexpected => "WHEEL_UNEXPECTED"
  | .wheelNameVersionMismatch => "WHEEL_NAME_VERSION_MISMATCH"
  | .wheelFilenameInvalid => "WHEEL_FILENAME_INVALID"
  | .wheelWrongPlatform => "WHEEL_WRONG_PLATFORM"
  | .requiresPythonInvalid => "REQUIRES_PYTHON_INVALID"
  | .requiresPythonUnsatisfied => "REQUIRES_PYTHON_UNSATISFIED"
  | .requiresDistInvalid => "REQUIRES_DIST_INVALID"
  | .dependencyMissing => "DEPENDENCY_MISSING"
  | .dependencyVersionMismatch => "DEPENDENCY_VERSION_MISMATCH"

structure ValidationIssue where
  code : ValidationIssueCode
  package : String
  detail : String
  filename : Option String

/-- `StaticValidationReport`; `complete_iff` is the check of its `__post_init__`. -/
structure StaticValidationReport where
  issues : List ValidationIssue
  complete : Bool
  complete_iff : complete = issues.isEmpty

/-- `PublishedObject`: the key of a stored object and its observed size and digest. -/
structure PublishedObject where
  objectKey : String
  sizeBytes : Nat
  sha256 : String
deriving DecidableEq, Repr

end WheelForge.Build
