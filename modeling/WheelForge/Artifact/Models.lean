import WheelForge.Contracts
import WheelForge.Validation.Archive
import WheelForge.Validation.Closure

/-!
# Artifact data

What the artifact builder reads and returns: the context of a build, the manifest with its JSON text,
and the members of the ZIP file it writes. `zipfile` reads the members back that it wrote, so a ZIP
file is the list of its members.
-/

set_option autoImplicit false

namespace WheelForge.Artifact

open WheelForge.Build (StaticValidationReport ValidationIssue)
open WheelForge.Python (Text)
open WheelForge.Resolver (ResolutionResult VersionChange)
open WheelForge.Target (TargetProfile)
open WheelForge.Validation (ArchiveValidationReport Bytes ExpectedWheel Libraries MarkerPackaging
  WheelSnapshot)

/-- What `ArtifactBuilder.build` raises. -/
inductive BuildError where
  | artifactBuildError (message : String)
  | fileExistsError (message : String)
  /-- Another exception, by its type's name. -/
  | raised (exception : String)
deriving DecidableEq, Repr

/-- `report.snapshot`, with the name of its path. -/
structure ReportSnapshot extends WheelSnapshot where
  pathName : String

/-- `ValidatedWheel`; `snapshot` is the one of the report. -/
structure ValidatedWheel where
  download : ExpectedWheel
  report : ArchiveValidationReport
  snapshot : Option ReportSnapshot

structure ArtifactBuildContext where
  buildId : String
  originalRequirements : String
  resolution : ResolutionResult
  versionChanges : List VersionChange
  target : TargetProfile
  validation : StaticValidationReport
  wheels : List ValidatedWheel

/-- The member of a ZIP file: the fields of its `ZipInfo` that are checked, and its content. -/
structure ZipMember where
  filename : String
  dateTime : Nat × Nat × Nat × Nat × Nat × Nat
  createSystem : Nat
  compressType : Nat
  externalAttr : Nat
  content : Bytes
deriving DecidableEq

/-- The library functions that the builder calls. -/
structure BuilderLibraries extends Libraries, MarkerPackaging where
  /-- `testzip()`, the name of a corrupt member. -/
  testzip : List ZipMember → Option String
  /-- The SHA-256 of the file that `zipfile` wrote for the members. -/
  zipSha256 : List ZipMember → String

/-! ## The manifest -/

/-- An entry of `intendedPackages`. -/
structure IntendedPackage where
  name : String
  version : String
  sha256 : String
  packaged : Bool
deriving DecidableEq, Repr

/-- An entry of `packagedWheels`. -/
structure PackagedWheel where
  name : String
  version : String
  filename : String
  path : String
  size : Nat
  sha256 : String
deriving DecidableEq, Repr

/-- The manifest without its constant entries. -/
structure Manifest where
  buildId : String
  complete : Bool
  intendedPackages : List IntendedPackage
  packagedWheels : List PackagedWheel
  os : String
  architecture : String
  pythonVersion : String
  validationIssues : List ValidationIssue

/-- `BuiltArtifact`, with the members of the published file. -/
structure BuiltArtifact where
  name : String
  sha256 : String
  manifest : Manifest
  members : List ZipMember

/-- `STATIC_VALIDATION_MESSAGE`. -/
def staticValidationMessage : String :=
  "Static compatibility checks passed; target installation was not verified."

def IntendedPackage.toJson (package : IntendedPackage) : Json :=
  .object [("name", .string package.name), ("version", .string package.version),
    ("sha256", .string package.sha256), ("packaged", .bool package.packaged)]

def PackagedWheel.toJson (wheel : PackagedWheel) : Json :=
  .object [("name", .string wheel.name), ("version", .string wheel.version),
    ("filename", .string wheel.filename), ("path", .string wheel.path),
    ("size", .number (toString wheel.size)), ("sha256", .string wheel.sha256)]

/-- The entry of an issue. -/
def issueJson (issue : ValidationIssue) : Json :=
  .object [("code", .string issue.code.value), ("package", .string issue.package),
    ("detail", .string issue.detail),
    ("filename", match issue.filename with | none => .null | some filename => .string filename)]

def Manifest.toJson (manifest : Manifest) : Json :=
  .object [("buildId", .string manifest.buildId), ("complete", .bool manifest.complete),
    ("installVerified", .bool false),
    ("intendedPackages", .array (manifest.intendedPackages.map IntendedPackage.toJson)),
    ("packagedWheels", .array (manifest.packagedWheels.map PackagedWheel.toJson)),
    ("target", .object [("os", .string manifest.os), ("architecture", .string manifest.architecture),
      ("pythonVersion", .string manifest.pythonVersion)]),
    ("validationIssues", .array (manifest.validationIssues.map issueJson)),
    ("validationLevel", .string "STATIC"),
    ("validationMessage", .string staticValidationMessage)]

/-! ## JSON text -/

/-- The escape of a character in a JSON string with `ensure_ascii=False`. -/
def escapeChar (c : Char) : Text :=
  if c = '"' then ['\\', '"']
  else if c = '\\' then ['\\', '\\']
  else if c = '\n' then ['\\', 'n']
  else if c = '\r' then ['\\', 'r']
  else if c = '\t' then ['\\', 't']
  else if c.toNat = 8 then ['\\', 'b']
  else if c.toNat = 12 then ['\\', 'f']
  else if c.toNat < 32 then
    "\\u00".toList ++ [Nat.digitChar (c.toNat / 16), Nat.digitChar (c.toNat % 16)]
  else [c]

def quoted (text : String) : Text := '"' :: text.toList.flatMap escapeChar ++ ['"']

mutual

/-- `json.dumps(value, ensure_ascii=False, sort_keys=True, separators=(",", ":"))`. -/
def dumps : Json → Text
  | .null => "null".toList
  | .bool true => "true".toList
  | .bool false => "false".toList
  | .number text => text.toList
  | .string text => quoted text
  | .array items => '[' :: [','].intercalate (dumpsItems items) ++ [']']
  | .object fields =>
      let sorted := (dumpsFields fields).insertionSort fun a b => a.1 ≤ b.1
      Char.ofNat 123 :: [','].intercalate (sorted.map fun field => quoted field.1 ++ ':' :: field.2) ++
        [Char.ofNat 125]

def dumpsItems : List Json → List Text
  | [] => []
  | item :: items => dumps item :: dumpsItems items

/-- The values of an object as texts. -/
def dumpsFields : List (String × Json) → List (String × Text)
  | [] => []
  | (key, value) :: fields => (key, dumps value) :: dumpsFields fields

end

end WheelForge.Artifact
