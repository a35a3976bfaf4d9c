import WheelForge.Build.Models
import WheelForge.Download.WorkDirectory
import WheelForge.Pep440.Order
import WheelForge.Python.Text
import WheelForge.Target.Tags

/-!
# Downloading wheels

`WheelDownloader._download_packages` on Linux, where a directory is used through its handle. Each
package is downloaded from the first source that succeeds into a directory of its own and copied into
the publication directory, which is renamed to the destination at the end.
-/

set_option autoImplicit false

namespace WheelForge.Download

open WheelForge.Build (DownloadedWheel)
open WheelForge.Interaction WheelForge.Interaction.Program
open WheelForge.Pep440 (Version)
open WheelForge.Python (pathName)
open WheelForge.Resolver (PackageSource ResolvedPackage)
open WheelForge.Target (TargetProfile WheelPackaging wheelIsCompatible Tag)

/-- `DownloadLimits`; the bounds are those `__post_init__` enforces. -/
structure DownloadLimits where
  maxPackages : Nat
  maxWheelBytes : Nat
  maxTotalBytes : Nat
  packages_bounds : 1 ≤ maxPackages ∧ maxPackages ≤ 500
  wheel_bounds : 1 ≤ maxWheelBytes ∧ maxWheelBytes ≤ 512 * 1024 * 1024
  total_bounds : 1 ≤ maxTotalBytes ∧ maxTotalBytes ≤ 2 * 1024 * 1024 * 1024

/-- The downloader with the functions that it calls. -/
structure WheelDownloader where
  limits : DownloadLimits
  workDirectory : String
  /-- `sys.executable` -/
  executable : String
  packaging : WheelPackaging
  /-- `canonicalize_name(name, validate=True)`; `none` is `InvalidName`. -/
  validateName : String → Option String
  /-- `hashlib.sha256(content).hexdigest()` -/
  sha256 : List UInt8 → String
  lower : String → String
  casefold : String → String
  /-- `str(tag)` -/
  tagText : Tag → String

/-- `SOURCE_ORDER`. -/
def sourceOrder : List PackageSource := [.tsinghua, .aliyun, .pypi]

/-- `source_url`. -/
def sourceUrl : PackageSource → String
  | .tsinghua => "https://pypi.tuna.tsinghua.edu.cn/simple"
  | .aliyun => "https://mirrors.aliyun.com/pypi/simple"
  | .pypi => "https://pypi.org/simple"

/-- `except OSError as error: raise DownloadValidationError(message) from error`. -/
def onOSError {α : Type} (p : DownloadProgram α) (message : String) : DownloadProgram α :=
  handle p fun error => if error.isOSError then .raise (.validation message) else .raise error

def raiseWhen (condition : Prop) [Decidable condition] (error : DownloadError) :
    DownloadProgram Unit :=
  if condition then .raise error else pure ()

/-! ## Bindings -/

/-- `_AttemptBinding` and `_DestinationBinding`: a name in the work directory, or the work directory
itself, with the identity it had. Its handle is open in the world as long as its `descriptor` is
set. -/
structure AttemptBinding where
  name : String
  identity : Nat
deriving DecidableEq, Repr

/-- `_DestinationBinding.revalidate`; `staging` is the identity of the work directory. -/
def revalidateStaging (staging : Nat) : DownloadProgram Unit := do
  let (status, _) ← onOSError (perform .stagingStatus) "destination identity changed"
  raiseWhen (status.kind ≠ .directory ∨ status.identity ≠ staging)
    (.validation "destination identity changed")
  if ← perform (.hasHandle none) then
    let handle ← onOSError (perform (.handleStatus none)) "destination handle is invalid"
    raiseWhen (handle.kind ≠ .directory ∨ handle.identity ≠ staging)
      (.validation "destination handle identity changed")

/-- `_AttemptBinding.revalidate`. -/
def AttemptBinding.revalidate (attempt : AttemptBinding) (staging : Nat) :
    DownloadProgram Unit := do
  revalidateStaging staging
  let status ← onOSError (perform (.status attempt.name)) "download attempt identity changed"
  raiseWhen (status.kind ≠ .directory ∨ status.identity ≠ attempt.identity)
    (.validation "download attempt identity changed")
  if ← perform (.hasHandle (some attempt.name)) then
    let handle ← onOSError (perform (.handleStatus (some attempt.name)))
      "download attempt handle is invalid"
    raiseWhen (handle.kind ≠ .directory ∨ handle.identity ≠ attempt.identity)
      (.validation "download attempt handle identity changed")

/-- `if descriptor is not None: os.close(descriptor)`. -/
def closeIfOpen (directory : Handle) : DownloadProgram Unit := do
  if ← perform (.hasHandle directory) then perform (.closeHandle directory)

/-- `_prepare_staging_root` with `_bind_directory`: the identity of the work directory. -/
def prepareStagingRoot : DownloadProgram Nat := do
  let (status, isPrivate) ← onOSError (perform .stagingStatus)
    "staging root could not be inspected"
  raiseWhen (status.kind ≠ .directory ∨ isPrivate = false)
    (.validation "staging root is not private and stable")
  let handle ← Program.handle (do perform .openStaging; perform (.handleStatus none))
    fun error => do
      if error.isOSError then
        closeIfOpen none
        .raise (.validation "staging root could not be bound safely")
      else .raise error
  if handle.kind ≠ .directory ∨ handle.identity ≠ status.identity then
    perform (.closeHandle none)
    .raise (.validation "staging root changed while being bound")
  else
    Program.handle (revalidateStaging status.identity) fun error => do
      perform (.closeHandle none)
      .raise error
    return status.identity

/-- The clean-up of `_create_attempt`. -/
def discardAttempt (name : String) : DownloadProgram Unit := do
  closeIfOpen (some name)
  match ← attempt (perform (.rmdir name)) with
  | .error failure => if failure.isOSError then pure () else .raise failure
  | .ok _ => pure ()

/-- The part of `_create_attempt` after `os.mkdir`. -/
def bindAttempt (name : String) : DownloadProgram AttemptBinding :=
  Program.handle (do
    let status ← perform (.status name)
    perform (.openDirectory name)
    let handle ← perform (.handleStatus (some name))
    raiseWhen (status.kind ≠ .directory ∨ status.identity ≠ handle.identity)
      (.validation "download attempt changed while being bound")
    return ⟨name, status.identity⟩) fun error => do
      discardAttempt name
      .raise error

/-- The loop of `_create_attempt`. -/
def createAttemptLoop (stem : String) : Nat → DownloadProgram AttemptBinding
  | 0 => .raise (.validation "download attempt name allocation was exhausted")
  | tries + 1 => do
      let token ← perform .tokenHex
      match ← attempt (perform (.mkdir (stem ++ token))) with
      | .error .fileExists => createAttemptLoop stem tries
      | .error error =>
          if error.isOSError then .raise (.validation "download attempt could not be created")
          else .raise error
      | .ok _ => bindAttempt (stem ++ token)

/-- `_create_attempt`. -/
def createAttempt (stem : String) : DownloadProgram AttemptBinding := createAttemptLoop stem 100

/-- `_remove_attempt`. The handle of the binding is closed already when a publication could not be
committed. -/
def removeAttempt (staging : Nat) (binding : AttemptBinding) : DownloadProgram Unit :=
  ensuring (do
    let root ← perform (.hasHandle none)
    let own ← perform (.hasHandle (some binding.name))
    if root && own then
      Program.handle (do
        let status ← perform (.status binding.name)
        if status.identity = binding.identity ∧ status.kind = .directory then
          perform (.clear binding.name)
          let status ← perform (.status binding.name)
          if status.identity = binding.identity then perform (.rmdir binding.name)) fun error =>
            if error.isOSError then pure () else .raise error
    else
      match ← attempt (binding.revalidate staging) with
      | .error (.validation _) => pure ()
      | .error error => .raise error
      | .ok _ => perform (.rmtree binding.name)) (perform (.closeHandle (some binding.name)))

/-! ## The transaction lock -/

/-- `_open_transaction_lock`. -/
def openTransactionLock (staging : Nat) : DownloadProgram Unit := do
  revalidateStaging staging
  let (status, isPrivate) ← onOSError (perform .openLock)
    "Worker transaction lock could not be opened"
  raiseWhen (status.kind ≠ .regular ∨ status.links ≠ 1 ∨ isPrivate = false)
    (.validation "Worker transaction lock is not private")

/-- `_WorkRootTransactionLock.acquire`. -/
def acquireLock (staging : Nat) : DownloadProgram Unit := do
  let acquired ← perform .acquireThread
  raiseWhen (acquired = false) (.validation "Worker work directory is busy")
  Program.handle (do
    openTransactionLock staging
    let locked ← perform .waitLock
    raiseWhen (locked = false) (.validation "Worker work directory is busy")) fun error => do
      perform .closeLock
      .raise error

/-! ## One package -/

/-- `_raise_if_cancelled`. -/
def raiseIfCancelled : DownloadProgram Unit := do
  let cancelled ← perform .cancel
  raiseWhen (cancelled = true) .cancelled

/-- `_safe_filename`. -/
def safeFilename (filename : String) : Bool :=
  filename ≠ "" && filename = pathName filename && filename ∉ [".", ".."] &&
    '\x00' ∉ filename.toList && '/' ∉ filename.toList && '\\' ∉ filename.toList

/-- `_ObservedWheel` without its path; `attempt` is the name of the directory it is in. -/
structure ObservedWheel where
  filename : String
  package : String
  version : Version
  tags : List String
  byteSize : Nat
  sha256 : String
  fileIdentity : Nat
  attempt : AttemptBinding

namespace WheelDownloader

variable (d : WheelDownloader)

/-- `_validate_package`; a `ResolvedPackage` always has a version. -/
def validatePackage (package : ResolvedPackage) : DownloadProgram Unit :=
  match d.validateName package.name with
  | none => .raise (.value "resolved package name is invalid")
  | some canonical =>
      raiseWhen (canonical ≠ package.name)
        (.value "resolved package name or version is invalid")

/-- `build_download_argv`. -/
def buildDownloadArgv (package : ResolvedPackage) (profile : TargetProfile)
    (source : PackageSource) (destination : AttemptBinding) : DownloadProgram (List String) := do
  d.validatePackage package
  raiseWhen (profile.pythonImplementation ≠ "CPYTHON")
    (.value "only CPython target profiles are supported")
  return [d.executable, "-m", "pip", "download", "--no-deps", "--only-binary=:all:", "--dest",
    d.workDirectory ++ "/" ++ destination.name, "--platform", profile.platformTag,
    "--python-version", profile.pythonVersion, "--implementation", "cp"] ++
    profile.abiTags.flatMap (fun abi => ["--abi", abi]) ++
    ["--index-url", sourceUrl source, package.name ++ "==" ++ package.version.str]

/-- `_hash_regular_file`: the loop reads the file as long as it is within the limit. -/
def hashRegularFile (binding : AttemptBinding) (filename : String) (expected : Status)
    (maximumBytes : Nat) : DownloadProgram (Nat × String) := do
  let actual ← onOSError (perform (.openEntry binding.name filename))
    "download output could not be opened safely"
  raiseWhen (actual.kind ≠ .regular ∨ actual.links ≠ 1 ∨ actual.identity ≠ expected.identity)
    (.validation "download output changed during inspection")
  let content ← onOSError (perform (.readEntry binding.name filename))
    "download output could not be read safely"
  raiseWhen (maximumBytes < content.length) (.validation "downloaded Wheel exceeds the byte limit")
  return (content.length, d.sha256 content)

/-- `_inspect_attempt_output`. -/
def inspectAttemptOutput (binding : AttemptBinding) (staging : Nat) (package : ResolvedPackage)
    (profile : TargetProfile) (maximumBytes : Nat) : DownloadProgram ObservedWheel := do
  binding.revalidate staging
  let names ← onOSError (perform (.listdir binding.name)) "download output could not be inspected"
  match names with
  | [filename] =>
      raiseWhen (safeFilename filename = false)
        (.validation "download output filename is unsafe")
      let status ← onOSError (perform (.entryStatus binding.name filename))
        "download output could not be inspected"
      raiseWhen (status.kind ≠ .regular ∨ status.links ≠ 1 ∨
          ¬['.', 'w', 'h', 'l'] <:+ (d.lower filename).toList)
        (.validation "download output must be one non-linked regular Wheel")
      match d.packaging.parseWheelFilename filename with
      | none => .raise (.validation "download output Wheel filename is invalid")
      | some (name, version, tags) =>
          raiseWhen (d.packaging.canonicalizeName name ≠ package.name ∨
              ¬version.Same package.version)
            (.validation "download output does not match the resolved package")
          raiseWhen (wheelIsCompatible d.packaging filename profile = false)
            (.validation "download output is incompatible with the target")
          let (size, digest) ← d.hashRegularFile binding filename status maximumBytes
          binding.revalidate staging
          let current ← perform (.entryStatus binding.name filename)
          raiseWhen (current.identity ≠ status.identity)
            (.validation "download output changed during inspection")
          return {
            filename, package := package.name, version := package.version
            tags := tags.map d.tagText, byteSize := size, sha256 := digest
            fileIdentity := status.identity, attempt := binding }
  | _ => .raise (.validation "successful source attempt must produce exactly one Wheel")

/-- `_reject_publication_collision`. -/
def rejectPublicationCollision (publication : AttemptBinding) (staging : Nat) (filename : String) :
    DownloadProgram Unit := do
  publication.revalidate staging
  let entries ← onOSError (perform (.listdir publication.name))
    "publication could not be inspected"
  let names := entries.filter fun name => ¬".download-".toList <+: name.toList
  raiseWhen (filename ∈ names ∨ d.casefold filename ∈ names.map d.casefold)
    (.validation "publication contains a colliding Wheel filename")

/-- `_copy_verified`. -/
def copyVerified (observed : ObservedWheel) (publication : AttemptBinding) :
    DownloadProgram Unit := do
  let source ← onOSError (perform (.openEntry observed.attempt.name observed.filename))
    "download output could not be published safely"
  raiseWhen (source.kind ≠ .regular ∨ source.links ≠ 1 ∨ source.identity ≠ observed.fileIdentity)
    (.validation "download output changed before publication")
  let content ← onOSError (perform (.readEntry observed.attempt.name observed.filename))
    "Wheel could not be published"
  onOSError (perform (.writeEntry publication.name observed.filename content))
    "Wheel could not be published"
  raiseWhen (content.length ≠ observed.byteSize ∨ d.sha256 content ≠ observed.sha256)
    (.validation "download output changed before publication")

/-- `_publish_wheel`. -/
def publishWheel (observed : ObservedWheel) (staging : Nat) (publication : AttemptBinding)
    (source : PackageSource) : DownloadProgram DownloadedWheel := do
  raiseIfCancelled
  observed.attempt.revalidate staging
  publication.revalidate staging
  d.rejectPublicationCollision publication staging observed.filename
  let created ← Program.handle (perform (.createEntry publication.name observed.filename))
    fun error =>
      if error = .fileExists then
        .raise (.validation "publication already contains this Wheel")
      else if error.isOSError then .raise (.validation "Wheel could not be published")
      else .raise error
  onOSError (do
    d.copyVerified observed publication
    publication.revalidate staging
    let published ← perform (.entryStatus publication.name observed.filename)
    raiseWhen (published.kind ≠ .regular ∨ published.identity ≠ created.identity)
      (.validation "published Wheel identity changed")) "Wheel could not be published"
  return {
    package := observed.package, version := observed.version, filename := observed.filename, source
    byteSize := observed.byteSize, sha256 := observed.sha256, tags := observed.tags }

/-- The `try` statement of `_download_one` without its `finally` block: the wheel, or what is
appended to `errors` before `continue`. -/
def tryAttempt (package : ResolvedPackage) (profile : TargetProfile) (staging : Nat)
    (publication : AttemptBinding) (remainingTotal : Nat) (source : PackageSource)
    (binding : AttemptBinding) : DownloadProgram (String ⊕ DownloadedWheel) := do
  binding.revalidate staging
  publication.revalidate staging
  let argv ← d.buildDownloadArgv package profile source binding
  match ← attempt (perform (.run argv binding.name)) with
  | .error (.process message) =>
      binding.revalidate staging
      publication.revalidate staging
      return .inl (source.value ++ ": " ++ message)
  | .error error => .raise error
  | .ok returnCode =>
      binding.revalidate staging
      publication.revalidate staging
      if returnCode ≠ 0 then
        return .inl (source.value ++ ": pip exited with " ++ toString returnCode)
      else
        raiseIfCancelled
        let observed ← d.inspectAttemptOutput binding staging package profile
          (min d.limits.maxWheelBytes remainingTotal)
        raiseIfCancelled
        binding.revalidate staging
        publication.revalidate staging
        return .inr (← d.publishWheel observed staging publication source)

/-- The loop of `_download_one` over the sources. -/
def downloadFrom (package : ResolvedPackage) (profile : TargetProfile) (staging : Nat)
    (publication : AttemptBinding) (remainingTotal : Nat) :
    List PackageSource → List String → DownloadProgram DownloadedWheel
  | [], errors =>
      .raise (.download ("could not download " ++ package.name ++ "==" ++ package.version.str ++
        " from configured sources: " ++
        String.ofList (("; ".intercalate errors).toList.take 4096)))
  | source :: sources, errors => do
      raiseIfCancelled
      revalidateStaging staging
      publication.revalidate staging
      let binding ← createAttempt ".download-"
      match ← ensuring
        (d.tryAttempt package profile staging publication remainingTotal source binding)
        (removeAttempt staging binding) with
      | .inl error =>
          downloadFrom package profile staging publication remainingTotal sources
            (errors ++ [error])
      | .inr wheel => return wheel

/-- `_download_one`. -/
def downloadOne (package : ResolvedPackage) (profile : TargetProfile) (staging : Nat)
    (publication : AttemptBinding) (remainingTotal : Nat) : DownloadProgram DownloadedWheel := do
  d.validatePackage package
  raiseWhen (remainingTotal = 0) (.validation "total downloaded Wheel byte limit exceeded")
  d.downloadFrom package profile staging publication remainingTotal sourceOrder []

end WheelDownloader

/-! ## The transaction -/

/-- The destination, as far as `_prepare_destination` looks at it. -/
structure Destination where
  hasNul : Bool
  isAbsolute : Bool
  /-- Its parent is the work directory. -/
  isChild : Bool
  name : String

/-- `_prepare_destination`. -/
def prepareDestination (destination : Destination) (staging : Nat) : DownloadProgram Unit := do
  raiseWhen (destination.hasNul = true) (.value "destination must be a trusted Path")
  raiseWhen (destination.isAbsolute = false)
    (.value "destination must be an absolute trusted Path")
  raiseWhen (destination.isChild = false)
    (.validation "destination must be a new direct child of the Worker work directory")
  revalidateStaging staging
  match ← attempt (perform (.status destination.name)) with
  | .error .fileNotFound => pure ()
  | .error error =>
      if error.isOSError then .raise (.validation "destination could not be inspected")
      else .raise error
  | .ok _ => .raise (.validation "destination must not already exist")

/-- `_atomic_rename_no_replace`. -/
def atomicRenameNoReplace (publication : AttemptBinding) (destination : Destination) :
    DownloadProgram Unit :=
  Program.handle (perform (.renameNoReplace publication.name destination.name)) fun error =>
    if error = .fileExists then .raise (.validation "destination appeared before commit")
    else if error.isOSError then
      .raise (.validation "publication transaction could not be committed atomically")
    else .raise error

/-- `_commit_publication`. -/
def commitPublication (staging : Nat) (publication : AttemptBinding) (destination : Destination) :
    DownloadProgram Unit := do
  revalidateStaging staging
  publication.revalidate staging
  match ← attempt (perform (.status destination.name)) with
  | .error .fileNotFound => pure ()
  | .error error =>
      if error.isOSError then
        .raise (.validation "destination could not be inspected before commit")
      else .raise error
  | .ok _ => .raise (.validation "destination appeared before commit")
  perform (.closeHandle (some publication.name))
  atomicRenameNoReplace publication destination

namespace WheelDownloader

variable (d : WheelDownloader)

/-- The body of the loop of `_download_packages` over the packages, with `total` and
`published`. -/
def downloadNext (profile : TargetProfile) (staging : Nat) (publication : AttemptBinding)
    (sofar : Nat × List DownloadedWheel) (package : ResolvedPackage) :
    DownloadProgram (Nat × List DownloadedWheel) := do
  raiseIfCancelled
  let acquired ← d.downloadOne package profile staging publication
    (d.limits.maxTotalBytes - sofar.1)
  return (sofar.1 + acquired.byteSize, sofar.2 ++ [acquired])

/-- The `try` statement of `_download_packages` from the loop on. The wheels of
`_committed_wheels` are the published ones: their paths are left out here. -/
def downloadInto (packages : List ResolvedPackage) (profile : TargetProfile) (staging : Nat)
    (publication : AttemptBinding) (destination : Destination) :
    DownloadProgram (List DownloadedWheel) := do
  let (_, published) ← loop (d.downloadNext profile staging publication) packages (0, [])
  raiseIfCancelled
  commitPublication staging publication destination
  return published

/-- The end of the `finally` block of `_download_packages`. -/
def closeTransaction : DownloadProgram Unit := do
  perform .closeLock
  perform (.closeHandle none)

/-- `_download_packages`. -/
def downloadPackages (packages : List ResolvedPackage) (profile : TargetProfile)
    (destination : Destination) : DownloadProgram (List DownloadedWheel) := do
  let staging ← prepareStagingRoot
  let publication ← attempt do
    acquireLock staging
    prepareDestination destination staging
    createAttempt ".publication-"
  match publication with
  | .error error =>
      -- there is no publication yet
      closeTransaction
      .raise error
  | .ok publication =>
      match ← attempt (d.downloadInto packages profile staging publication destination) with
      | .error error =>
          removeAttempt staging publication
          closeTransaction
          .raise error
      | .ok wheels =>
          -- committed
          perform (.closeHandle (some publication.name))
          closeTransaction
          return wheels

end WheelDownloader

end WheelForge.Download
