import WheelForge.Interaction.Program
import WheelForge.Worker.Errors
import WheelForge.Jobs.LeaseAnswers
import WheelForge.Target.Tags

/-!
# The calls of a worker

A worker program calls the repository, the storage, its workspace, the stages of a build and the
clocks.
-/

set_option autoImplicit false

namespace WheelForge.Worker

open WheelForge.Interaction
open WheelForge.Jobs
open WheelForge.Target (TargetProfile)
open WheelForge.Parser (ParsedRequirements)
open WheelForge.Resolver (ResolutionResult VersionChange)
open WheelForge.Build (DownloadedWheel StaticValidationReport PublishedObject)

abbrev Bytes := List UInt8

/-- `BuildResourceLimits`, the fields that the pipeline reads itself. -/
structure BuildResourceLimits where
  maxPackages : Nat
  maxWheelBytes : Nat
  maxTotalBytes : Nat
  taskTimeoutSeconds : Nat
  artifactRetentionDays : Nat

structure PackageFailure where
  package : String
  error : String

structure BuildDownload where
  wheels : List DownloadedWheel
  failures : List PackageFailure

/-- `BuildValidation`; a validated wheel is its downloaded wheel. -/
structure BuildValidation where
  wheels : List DownloadedWheel
  report : StaticValidationReport
  downloadFailures : List PackageFailure

/-- `BuiltArtifact`: its path in the workspace and its digest. -/
structure BuiltArtifact where
  path : String
  name : String
  sha256 : String

structure ArtifactBuildContext where
  buildId : Uuid
  originalRequirements : String
  resolution : ResolutionResult
  versionChanges : List VersionChange
  target : TargetProfile
  validation : StaticValidationReport
  wheels : List DownloadedWheel

/-- A call of the worker. -/
inductive WorkerOp where
  /-- `repository.claim_next`. -/
  | claimNext (workerId : String)
  /-- An operation of the repository that takes a lease. -/
  | operate (lease : JobLease) (op : LeaseOperation)
  /-- `repository.resource_limits`. -/
  | resourceLimits
  /-- `repository._clock`. -/
  | clock
  /-- `time.monotonic`, in microseconds. -/
  | monotonic
  /-- The UUIDs that the pipeline or one repository operation draws. -/
  | uuids
  /-- Leaving a `LeaseHeartbeat`: the failure of the heartbeat thread. -/
  | stopHeartbeat (lease : JobLease)
  /-- `storage.read_bytes`. -/
  | readBytes (objectKey : String)
  /-- `storage.publish_or_reuse_bytes`. -/
  | publishOrReuseBytes (objectKey : String) (content : Bytes) (ownerExecutionId : Uuid)
  /-- `storage.publish_descriptor` of an opened workspace file. -/
  | publishDescriptor (objectKey path : String) (ownerExecutionId : Uuid)
  /-- `storage.delete_if_owned`. -/
  | deleteIfOwned (objectKey sha256 : String)
  /-- `workspaces.allocate`. -/
  | allocate (executionId : Uuid)
  /-- `capability.mkdir`. -/
  | mkdir (name : String)
  /-- `capability.open_regular` and the size that `os.fstat` reports. -/
  | openRegular (path : String)
  /-- `owned_workspace.cleanup`. -/
  | cleanupWorkspace
  /-- `_close_validation_snapshots`. -/
  | closeSnapshots
  /-- `stages.resolve`. -/
  | resolve (parsed : ParsedRequirements) (target : TargetProfile)
  /-- `stages.download`. -/
  | download (resolution : ResolutionResult) (target : TargetProfile)
  /-- `stages.validate`. -/
  | validate (resolution : ResolutionResult) (wheels : List DownloadedWheel)
      (target : TargetProfile)
  /-- `stages.package`. -/
  | package (context : ArtifactBuildContext)

/-- What a call returns. -/
def WorkerOp.Answer : WorkerOp → Type
  | .claimNext _ => Option JobLease
  | .operate _ op => op.Answer
  | .resourceLimits => BuildResourceLimits
  | .clock => DateTime
  | .monotonic => Int
  | .uuids => Nat → Uuid
  | .stopHeartbeat _ => Option PyError
  | .readBytes _ => Bytes
  | .publishOrReuseBytes .. | .publishDescriptor .. => PublishedObject
  | .deleteIfOwned .. => Bool
  | .allocate _ | .mkdir _ | .cleanupWorkspace | .closeSnapshots => Unit
  | .openRegular _ => Nat
  | .resolve .. => ResolutionResult
  | .download .. => BuildDownload
  | .validate .. => BuildValidation
  | .package _ => BuiltArtifact

/-- A program of the worker. -/
abbrev WorkerProgram (α : Type) := Program WorkerOp WorkerOp.Answer PyError α

/-- One call of a worker program. -/
def request (o : WorkerOp) : WorkerProgram o.Answer := Program.op o

end WheelForge.Worker
