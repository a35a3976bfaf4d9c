import WheelForge.Api.BuildTaskService
import WheelForge.Java.Platform

/-!
# Downloads and retention of artifacts

The rows that `ArtifactService` and `ArtifactRetentionJob` read and write, when a download can be
prepared, and which rows `claimExpired` selects.
-/

set_option autoImplicit false

namespace WheelForge.Api

open WheelForge.Jobs
open WheelForge.Relational

/-- A row of `download_records`; the client's data are UTF-16 code units. -/
structure DownloadRecord where
  id : Uuid
  artifactId : Uuid
  userId : Uuid
  ipAddress : List Nat
  userAgent : Option (List Nat)
  completed : Bool
  downloadedAt : DateTime
deriving DecidableEq

instance : Keyed DownloadRecord Uuid := ⟨DownloadRecord.id⟩

@[simp] theorem key_downloadRecord (r : DownloadRecord) : Keyed.key r = r.id := rfl

structure DownloadTicket where
  recordId : Uuid
  objectKey : String
  filename : String
  sizeBytes : Nat
  sha256 : String

/-- `boundedNullable`. -/
def boundedNullable (value : Option String) (maximumLength : Nat) : Option (List Nat) :=
  value.map fun text => (Java.chars text).take maximumLength

/-- `bounded`. -/
def boundedText (value : Option String) (maximumLength : Nat) : List Nat :=
  (Java.chars (value.getD "")).take maximumLength

/-- `findByIdAndOwnerForUpdate`; `owners` gives the user of a task. -/
def findByIdAndOwner (artifacts : Table ArtifactRow) (owners : Uuid → Option Uuid)
    (id userId : Uuid) : Option ArtifactRow :=
  (artifacts.find? id).filter fun artifact => owners artifact.buildTaskId = some userId

/-- The check of `prepareDownload` under the lock of the row. -/
def isAvailable (artifact : ArtifactRow) (now : DateTime) : Bool :=
  now < artifact.expiresAt && artifact.cleanedAt.isNone

/-- The record that `prepareDownload` saves. -/
def downloadRecord (recordId : Uuid) (artifact : ArtifactRow) (userId : Uuid)
    (ipAddress userAgent : Option String) (now : DateTime) : DownloadRecord where
  id := recordId
  artifactId := artifact.id
  userId := userId
  ipAddress := boundedText ipAddress 45
  userAgent := boundedNullable userAgent 1000
  completed := false
  downloadedAt := now

def downloadTicket (record : DownloadRecord) (artifact : ArtifactRow) : DownloadTicket where
  recordId := record.id
  objectKey := artifact.objectKey
  filename := artifact.filename
  sizeBytes := artifact.sizeBytes
  sha256 := artifact.sha256

/-- `incrementDownloadCount`, and the version of the update. -/
def incrementDownloadCount (artifact : ArtifactRow) : ArtifactRow :=
  { artifact with
    downloadCount := artifact.downloadCount + 1
    versionNo := artifact.versionNo + 1 }

/-- `markCleaned`, and the version of the update. -/
def markCleaned (artifact : ArtifactRow) (now : DateTime) : ArtifactRow :=
  { artifact with
    cleanedAt := artifact.cleanedAt <|> some now
    versionNo := artifact.versionNo + 1 }

/-- The settings of `ArtifactRetentionJob`, as its constructor accepts them. -/
structure RetentionJob where
  batchSize : Nat
  schedulingEnabled : Bool
  activeDownloadLeaseSeconds : Nat
  batchSize_bounds : 1 ≤ batchSize ∧ batchSize ≤ 1000
  lease_bounds : 1 ≤ activeDownloadLeaseSeconds ∧ activeDownloadLeaseSeconds ≤ 3600

/-- `activeDownloadCutoff`. -/
def RetentionJob.cutoff (job : RetentionJob) (now : DateTime) : DateTime :=
  now - seconds job.activeDownloadLeaseSeconds

/-- The conditions of `claimExpired` on the row of an artifact. -/
def isExpired (artifact : ArtifactRow) (now : DateTime) : Bool :=
  artifact.expiresAt ≤ now && artifact.cleanedAt.isNone

/-- A record that the subquery of `claimExpired` selects. -/
def DownloadRecord.isActive (record : DownloadRecord) (artifactId : Uuid) (cutoff : DateTime) :
    Bool :=
  record.artifactId = artifactId && !record.completed && cutoff < record.downloadedAt

theorem DownloadRecord.isActive_eq_true {record : DownloadRecord} {artifactId : Uuid}
    {cutoff : DateTime} : record.isActive artifactId cutoff = true ↔
      record.artifactId = artifactId ∧ record.completed = false ∧ cutoff < record.downloadedAt := by
  simp [isActive, and_assoc]

theorem isAvailable_eq_true {artifact : ArtifactRow} {now : DateTime} :
    isAvailable artifact now = true ↔ now < artifact.expiresAt ∧ artifact.cleanedAt = none := by
  simp [isAvailable]

end WheelForge.Api
