import WheelForge.Artifact.TextEntries
import WheelForge.Storage.Files

/-!
# The artifact builder

`build` checks a context against its resolution, generates the text entries and the checksums, writes
them and the validated wheels to a staged ZIP file, verifies what the file holds and publishes it.
-/

set_option autoImplicit false

namespace WheelForge.Artifact

open WheelForge.Build (StaticValidationReport ValidationIssue)
open WheelForge.Python
open WheelForge.Pep440 (Version)
open WheelForge.Resolver (ArchiveHash ResolvedPackage VersionChange)
open WheelForge.Storage (uuidPattern)
open WheelForge.Validation (Bytes decodeUtf8 hexdigest sameTags validateClosure)

deriving instance DecidableEq for ValidationIssue

/-- `raise ArtifactBuildError(message)` under a condition. -/
abbrev rejectIf (condition : Prop) [Decidable condition] (message : String) :
    Except BuildError Unit :=
  raiseIf condition (.artifactBuildError message)

/-! ## Paths -/

/-- `_safe_zip_path`: the components that `PurePosixPath` keeps are those of the path itself. -/
def safeZipPath (path : String) : Bool :=
  let components := path.toList.splitOn '/'
  path ≠ "" && !path.toList.contains '\\' && path.toList.all (fun c => 32 ≤ c.toNat) &&
    components.all (fun part => part ≠ [] && part ≠ ['.'] && part ≠ ['.', '.']) &&
    !(components.headD []).contains ':'

/-- `_SHA256.fullmatch(value)`. -/
def isSha256 (value : String) : Bool :=
  value.length = 64 && value.toList.all fun c => ('0' ≤ c && c ≤ '9') || ('a' ≤ c && c ≤ 'f')

/-- `_SAFE_WHEEL.fullmatch(filename)`. -/
def isSafeWheel (filename : String) : Bool :=
  match filename.toList with
  | [] => false
  | first :: rest =>
      first.isAlphanum && ".whl".toList.isSuffixOf rest &&
        rest.all fun c => c.isAlphanum || c ∈ "_.+-".toList

/-- `f"packages/{filename}"`. -/
def packagePath (filename : String) : String := "packages/" ++ filename

variable (lib : BuilderLibraries)

/-! ## The context -/

/-- `_validate_pair`. -/
def validatePair (item : ValidatedWheel) : Except BuildError Unit := do
  let disagree := BuildError.artifactBuildError "download and archive validation report disagree"
  let snapshot ← orRaise item.snapshot
    (.artifactBuildError "validated Wheel snapshot is required")
  let (filenameName, filenameVersion, filenameTags) ←
    orRaise (lib.parseWheelFilename item.download.filename) disagree
  let package := lib.canonicalizeName item.download.package
  raiseIf (package ≠ lib.canonicalizeName item.report.name ∨
      lib.canonicalizeName filenameName ≠ package ∨
      ¬item.download.version.Same item.report.version ∨
      ¬filenameVersion.Same item.download.version ∨
      sameTags filenameTags item.download.tagSet = false ∨
      item.download.filename ≠ snapshot.pathName ∨
      item.download.byteSize ≠ snapshot.byteSize ∨
      item.download.sha256.toList ≠ snapshot.sha256 ∨
      sameTags item.download.tagSet item.report.tags = false ∨
      isSha256 item.download.sha256 = false ∨ isSafeWheel item.download.filename = false) disagree

/-- `resolved`, the packages by their canonical name. -/
def resolvedByName (packages : List ResolvedPackage) : List (String × ResolvedPackage) :=
  packages.map fun package => (lib.canonicalizeName package.name, package)

/-- The body of the loop over the wheels in `_validate_context`; the state is `packaged_names` and
`portable_paths`. -/
def validateWheel (resolved : List (String × ResolvedPackage)) (seen : List String × List Text)
    (item : ValidatedWheel) : Except BuildError (List String × List Text) := do
  validatePair lib item
  let name := lib.canonicalizeName item.download.package
  let inconsistent := BuildError.artifactBuildError
    "validated package identities are inconsistent"
  raiseIf (name ∈ seen.1) inconsistent
  let package ← orRaise (resolved.lookup name) inconsistent
  rejectIf (¬item.download.version.Same package.version)
    "closure validation package version mismatch"
  rejectIf (item.download.filename ≠ package.wheelFilename)
    "resolved Wheel filename does not match validation"
  let path := packagePath item.download.filename
  let key := lib.unicode.casefold path.toList
  rejectIf (key ∈ seen.2 ∨ safeZipPath path = false) "validated Wheel path is unsafe or duplicate"
  return (seen.1 ++ [name], seen.2 ++ [key])

/-- `validate_closure` with its `ValueError` turned into the builder's. -/
def recomputed (context : ArtifactBuildContext) : Except BuildError StaticValidationReport :=
  match validateClosure lib.toMarkerPackaging context.target context.resolution
      (context.wheels.map fun item => item.download.toDownloadedWheel) with
  | .ok report => .ok report
  | .error .valueError => .error (.artifactBuildError "closure validation inputs are invalid")
  | .error .keyError => .error (.raised "KeyError")
  | .error .syntaxError => .error (.raised "SyntaxError")

/-- Equality of versions that may be absent. -/
def sameVersion : Option Version → Option Version → Bool
  | none, none => true
  | some v, some w => decide (v.Same w)
  | _, _ => false

/-- Equality of version changes, in which versions compare by their keys. -/
def sameChange (a b : VersionChange) : Bool :=
  a.package = b.package && a.kind = b.kind && a.originalConstraint = b.originalConstraint &&
    sameVersion a.originalVersion b.originalVersion &&
    sameVersion a.resolvedVersion b.resolvedVersion && a.reason = b.reason && a.source = b.source

/-- `context.version_changes == context.resolution.changes`. -/
def sameChanges (changes others : List VersionChange) : Bool :=
  changes.length = others.length &&
    (changes.zip others).all fun pair => sameChange pair.1 pair.2

/-- `_validate_context`. -/
def validateContext (context : ArtifactBuildContext) : Except BuildError StaticValidationReport := do
  rejectIf (uuidPattern context.buildId.toList = false)
    "build identifier must be a canonical UUID"
  rejectIf (context.target.os ≠ "LINUX" ∧ context.target.os ≠ "WINDOWS")
    "artifact target OS is unsupported"
  rejectIf (sameChanges context.versionChanges context.resolution.changes = false)
    "version comparison does not match resolution changes"
  let resolved := resolvedByName lib context.resolution.packages
  rejectIf (¬(resolved.map Prod.fst).Nodup) "resolved package identities must be unique"
  let seen ← context.wheels.foldlM (validateWheel lib resolved) ([], [])
  rejectIf (context.validation.complete = true ∧
      ¬resolved.all (fun package => package.1 ∈ seen.1))
    "complete validation requires every resolved Wheel"
  let report ← recomputed lib context
  rejectIf (report.issues ≠ context.validation.issues ∨
      report.complete ≠ context.validation.complete)
    "closure validation report does not match recomputed result"
  return report

/-! ## Manifest -/

/-- `_packaged_by_name`. -/
def packagedByName (context : ArtifactBuildContext) : List (String × ValidatedWheel) :=
  context.wheels.map fun item => (lib.canonicalizeName item.download.package, item)

/-- `_resolver_sha256`. -/
def resolverSha256 (hashes : List ArchiveHash) : Except BuildError String :=
  let values := (hashes.filter fun item =>
    item.algorithm.toLower = "sha256" && isSha256 item.value.toLower).map fun item =>
      item.value.toLower
  match values.dedup with
  | [value] => .ok value
  | _ => .error (.artifactBuildError "missing package requires one unambiguous resolver SHA-256")

/-- `sorted(context.resolution.packages, key=lambda item: canonicalize_name(item.name))`. -/
def sortedPackages (context : ArtifactBuildContext) : List ResolvedPackage :=
  context.resolution.packages.insertionSort fun a b =>
    lib.canonicalizeName a.name ≤ lib.canonicalizeName b.name

/-- The body of the loop in `_intended_packages`. -/
def intendedPackage (packaged : List (String × ValidatedWheel)) (package : ResolvedPackage) :
    Except BuildError IntendedPackage :=
  let name := lib.canonicalizeName package.name
  match packaged.lookup name with
  | some wheel => .ok ⟨name, package.version.str, wheel.download.sha256, true⟩
  | none => do
      let digest ← resolverSha256 package.archiveHashes
      return ⟨name, package.version.str, digest, false⟩

/-- `_intended_packages`. -/
def intendedPackages (context : ArtifactBuildContext) (packaged : List (String × ValidatedWheel)) :
    Except BuildError (List IntendedPackage) :=
  (sortedPackages lib context).mapM (intendedPackage lib packaged)

/-- The entry of a wheel in `packagedWheels`. -/
def packagedWheel (entry : String × ValidatedWheel) : PackagedWheel where
  name := entry.1
  version := entry.2.download.version.str
  filename := entry.2.download.filename
  path := packagePath entry.2.download.filename
  size := entry.2.download.byteSize
  sha256 := entry.2.download.sha256

/-- The key by which the manifest sorts issues; an absent file name comes first. -/
def manifestIssueKey (issue : ValidationIssue) : String ×ₗ String ×ₗ String ×ₗ Nat ×ₗ String :=
  toLex (issue.code.value, toLex (issue.package, toLex (issue.detail,
    match issue.filename with
    | none => toLex (0, "")
    | some filename => toLex (1, filename))))

/-- `_manifest`. -/
def manifestOf (context : ArtifactBuildContext) (intended : List IntendedPackage)
    (packaged : List (String × ValidatedWheel)) (complete : Bool) : Manifest where
  buildId := context.buildId
  complete := complete
  intendedPackages := intended
  packagedWheels := (packaged.insertionSort fun a b => a.1 ≤ b.1).map packagedWheel
  os := context.target.os
  architecture := context.target.architecture
  pythonVersion := context.target.pythonVersion
  validationIssues := context.validation.issues.insertionSort fun a b =>
    manifestIssueKey a ≤ manifestIssueKey b

/-! ## The ZIP file -/

/-- Whether a member is a script. -/
def isScript (path : String) : Bool :=
  ".sh".toList.isSuffixOf path.toList || ".bat".toList.isSuffixOf path.toList

/-- The mode of a member. -/
def memberMode (path : String) : Nat := if isScript path then 0o100755 else 0o100644

/-- `_zip_info` with the content that is written under it; 8 is `ZIP_DEFLATED`. -/
def zipMember (path : String) (content : Bytes) : Except BuildError ZipMember := do
  rejectIf (safeZipPath path = false) "generated ZIP path is unsafe"
  return ⟨path, (1980, 1, 1, 0, 0, 0), 3, 8, memberMode path * 65536, content⟩

/-- The bytes of a wheel's snapshot. -/
def snapshotContent (item : ValidatedWheel) : Except BuildError Bytes := do
  let snapshot ← orRaise item.snapshot (.raised "AssertionError")
  match snapshot.toWheelSnapshot.opened lib.toLibraries with
  | .ok content => .ok content
  | .error _ => .error (.raised "UnsafeWheelArchive")

/-- The body of the loop in `_write_zip`; `path` is of an entry or of a package. -/
def writeMember (entries : List (String × Bytes)) (packages : List (String × ValidatedWheel))
    (path : String) : Except BuildError ZipMember :=
  match entries.lookup path with
  | some content => zipMember path content
  | none => do
      let item ← orRaise (packages.lookup path) (.raised "KeyError")
      let content ← snapshotContent lib item
      zipMember path content

/-- `sorted(set(names))`. -/
def sortedNames (names : List String) : List String := names.dedup.insertionSort (· ≤ ·)

/-- `_write_zip`. -/
def writeZip (entries : List (String × Bytes)) (packages : List (String × ValidatedWheel)) :
    Except BuildError (List ZipMember) :=
  (sortedNames (entries.map Prod.fst ++ packages.map Prod.fst)).mapM
    (writeMember lib entries packages)

/-- `sha256(content).hexdigest()`. -/
def sha256Hex (content : Bytes) : String := String.ofList (hexdigest (lib.sha256 content))

/-- The body of the loop in `_parse_checksums`. -/
def parseChecksum (result : List (String × String)) (line : Text) :
    Except BuildError (List (String × String)) := do
  let invalid := BuildError.artifactBuildError "staged ZIP checksum file is invalid"
  -- `line.partition("  ")`: a digest without blanks ends where the separator begins
  let digest := String.ofList (line.take 64)
  let path := String.ofList (line.drop 66)
  raiseIf ((line.drop 64).take 2 ≠ [' ', ' '] ∨ isSha256 digest = false ∨
    safeZipPath path = false ∨ path ∈ result.map Prod.fst) invalid
  return result ++ [(path, digest)]

/-- `_parse_checksums`. -/
def parseChecksums (content : Bytes) : Except BuildError (List (String × String)) := do
  let decoded ← orRaise (decodeUtf8 content)
    (.artifactBuildError "staged ZIP verification failed")
  (splitLines decoded).foldlM parseChecksum []

/-- `set(a) == set(b)`. -/
def sameSet {α : Type} [DecidableEq α] (a b : List α) : Bool :=
  a.all (· ∈ b) && b.all (· ∈ a)

/-- The check of one member's metadata. -/
def validMetadata (member : ZipMember) : Bool :=
  member.dateTime = (1980, 1, 1, 0, 0, 0) && member.createSystem = 3 && member.compressType = 8 &&
    member.externalAttr >>> 16 = memberMode member.filename

/-- The comparison of a member with its checksum. -/
def verifyMember (members : List ZipMember) (entry : String × String) : Except BuildError Unit := do
  let member ← orRaise (members.find? fun member => member.filename = entry.1)
    (.artifactBuildError "staged ZIP verification failed")
  rejectIf (sha256Hex lib member.content ≠ entry.2) "staged ZIP checksum verification failed"

/-- The name of the checksum file. -/
def checksumsName : String := "checksums.sha256"

/-- `_verify_zip`. -/
def verifyZip (members : List ZipMember) (expectedNames : List String)
    (expectedHashes : List (String × String)) : Except BuildError Unit := do
  let names := members.map ZipMember.filename
  rejectIf (¬names.Nodup ∨ sameSet names expectedNames = false)
    "staged ZIP member contract is invalid"
  rejectIf (names ≠ names.insertionSort (· ≤ ·) ∨ names.any fun name => !safeZipPath name)
    "staged ZIP paths are unsafe or unsorted"
  rejectIf (members.all validMetadata = false) "staged ZIP member metadata is invalid"
  let listing ← orRaise (members.find? fun member => member.filename = checksumsName)
    (.artifactBuildError "staged ZIP verification failed")
  let checksums ← parseChecksums listing.content
  rejectIf (sameSet (checksums.map Prod.fst)
      (expectedNames.filter fun name => name ≠ checksumsName) = false)
    "staged ZIP checksum coverage is incomplete"
  rejectIf (sameSet checksums expectedHashes = false)
    "staged ZIP does not contain expected content"
  forM checksums (verifyMember lib members)
  rejectIf ((lib.testzip members).isSome) "staged ZIP contains corrupt data"

/-! ## Building -/

/-- What the output directory and the publication backend answer; each of them may raise. The checks
of the staged file and of the directory are numbered in their order. -/
structure Publication where
  validateOutputDirectory : Except BuildError Unit
  hasArtifact : Bool
  openBackend : Except BuildError Unit
  createStage : Except BuildError Unit
  stageIdentity : Except BuildError Unit
  /-- Writing, flushing and syncing the staged file. -/
  flush : Except BuildError Unit
  requireStage : Nat → Except BuildError Unit
  requireOutput : Nat → Except BuildError Unit
  publish : Except BuildError Unit
  /-- Closing the descriptors and the backend. -/
  close : Except BuildError Unit
  cleanupSnapshots : Except BuildError Unit

variable (output : Publication)

/-- The line of a path in the checksum file. -/
def checksumLine (hash : String × String) : Text :=
  hash.2.toList ++ [' ', ' '] ++ hash.1.toList ++ ['\n']

/-- The text of the checksum file. -/
def checksumsText (hashes : List (String × String)) : Text :=
  (hashes.insertionSort fun a b => a.1 ≤ b.1).flatMap checksumLine

/-- The publication of `_build`, once the entries and the hashes are known. -/
def publishZip (entries : List (String × Bytes)) (packages : List (String × ValidatedWheel))
    (hashes : List (String × String)) : Except BuildError (List ZipMember) := do
  output.openBackend
  output.createStage
  output.stageIdentity
  let members ← writeZip lib entries packages
  output.flush
  output.requireStage 0
  verifyZip lib members (entries.map Prod.fst ++ packages.map Prod.fst) hashes
  output.requireStage 1
  output.requireOutput 0
  output.requireStage 2
  output.requireOutput 1
  output.publish
  output.close
  return members

/-- `_build`. -/
def buildArtifact (context : ArtifactBuildContext) : Except BuildError BuiltArtifact := do
  output.validateOutputDirectory
  let validation ← validateContext lib context
  let name := "wheelforge-" ++ context.buildId ++ ".zip"
  raiseIf (output.hasArtifact = true) (.fileExistsError ("artifact already exists: " ++ name))
  let packaged := packagedByName lib context
  let intended ← intendedPackages lib context packaged
  let complete := validation.complete && decide (packaged.length = intended.length)
  let manifest := manifestOf context intended packaged complete
  let entries ← textEntries lib context intended manifest complete
  let packageEntries := packaged.map fun entry =>
    (packagePath entry.2.download.filename, entry.2)
  let hashes := entries.map (fun entry => (entry.1, sha256Hex lib entry.2)) ++
    packageEntries.map fun entry => (entry.1, entry.2.download.sha256)
  let allEntries := entries ++ [(checksumsName, text (checksumsText hashes))]
  let members ← publishZip lib output allEntries packageEntries hashes
  return ⟨name, lib.zipSha256 members, manifest, members⟩

/-- `ArtifactBuilder.build`. -/
def build (context : ArtifactBuildContext) : Except BuildError BuiltArtifact := do
  let built ← buildArtifact lib output context
  output.cleanupSnapshots
  return built

end WheelForge.Artifact
