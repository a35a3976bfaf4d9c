import WheelForge.Jobs.Schema

/-!
# The API's build task service

The writing requests of `BuildTaskService`, the upload of a requirements file, and the
`BuildJobService` they enqueue jobs with. A request is one transaction; `cancel` is split at the
points where other transactions can commit: the status read, the conditional update of the ready
job, whose row locks it keeps, and the locked read of the task with the commit.
-/

set_option autoImplicit false

namespace WheelForge.Api

open WheelForge.Relational
open WheelForge.Jobs

/-- `ApiException`; `illegalArgument` is Java's `IllegalArgumentException`, `integrity` a duplicate
key. -/
inductive ApiError where
  | notFound (message : String)
  | conflict (code message : String)
  | badRequest (code message : String)
  | illegalArgument (message : String)
  | integrity
deriving DecidableEq, Repr

/-! ## The build state machine -/

/-- `BuildStateMachine.isAllowed`. -/
def isAllowed : BuildStatus → BuildStatus → Bool
  | .created, .parsing | .created, .queued | .created, .cancelled | .created, .failed => true
  | .parsing, .queued | .parsing, .cancelled | .parsing, .failed => true
  | .queued, .resolving | .queued, .cancelled | .queued, .failed => true
  | .resolving, .downloading | .resolving, .cancelled | .resolving, .failed => true
  | .downloading, .validating | .downloading, .cancelled | .downloading, .failed => true
  | .validating, .packaging | .validating, .partialSuccess | .validating, .cancelled
  | .validating, .failed => true
  | .packaging, .success | .packaging, .partialSuccess | .packaging, .cancelled
  | .packaging, .failed => true
  | _, _ => false

/-- Terminal statuses have no outgoing transition. -/
theorem isAllowed_of_terminal {s t : BuildStatus} (h : s.isTerminal = true) :
    isAllowed s t = false := by
  cases s <;> first | (cases t <;> rfl) | cases h

/-- `BuildTaskEntity.transitionTo`. -/
def transitionTo (t : BuildTask) (next : BuildStatus) (now : DateTime) :
    Except ApiError BuildTask :=
  if isAllowed t.status next then
    .ok { t with status := next, finishedAt := if next.isTerminal then some now else t.finishedAt }
  else .error (.conflict "INVALID_BUILD_TRANSITION" "Build task transition is not allowed")

/-! ## Enqueueing -/

/-- The columns of `target_profiles` that a snapshot copies. -/
structure TargetProfile where
  id : Uuid
  code : String
  os : String
  architecture : String
  pythonImplementation : String
  pythonVersion : String
  pythonFullVersion : String
  platformTag : String
  abiTags : List String
  validationType : String
  validationPolicyVersion : String
  enabled : Bool
  versionNo : Nat

/-- `TargetSnapshot.from(profile, profile.getVersionNo())` as the JSON column value. -/
def TargetProfile.snapshot (p : TargetProfile) : Json :=
  .object
    [("profileId", .string p.id), ("profileCode", .string p.code), ("os", .string p.os),
      ("architecture", .string p.architecture),
      ("pythonImplementation", .string p.pythonImplementation),
      ("pythonVersion", .string p.pythonVersion),
      ("pythonFullVersion", .string p.pythonFullVersion),
      ("platformTag", .string p.platformTag), ("abiTags", .array (p.abiTags.map .string)),
      ("validationType", .string p.validationType),
      ("validationPolicyVersion", .string p.validationPolicyVersion),
      ("profileVersion", .number (toString p.versionNo))]

/-- `new JobPayload(...)` and its encoding; `none` is its `IllegalArgumentException`. -/
abbrev WireEncoder := JobType → Uuid → DateTime → Json → Option Json

/-- A new row of `build_jobs`, `new BuildJobEntity(...)`. -/
def newJob (id : Uuid) (jobType : JobType) (subjectId : Uuid) (payloadJson : Json)
    (now : DateTime) : BuildJob where
  id := id
  jobType := jobType
  payloadVersion := 1
  subjectId := subjectId
  payloadJson := payloadJson
  status := .ready
  priorityNo := 100
  availableAt := now
  attempts := 0
  maxAttempts := 3
  leaseOwner := none
  executionId := none
  leaseExpiresAt := none
  heartbeatAt := none
  lastError := none
  createdAt := now
  startedAt := none
  finishedAt := none
  versionNo := 0

/-- `BuildJobService.enqueue`. -/
def enqueue (encode : WireEncoder) (jobType : JobType) (subjectId : Uuid) (payload : Json)
    (jobId : Uuid) (now : DateTime) (db : Database) : Except ApiError Database :=
  match encode jobType subjectId now payload with
  | none => .error (.illegalArgument "Could not serialize strict job payload")
  | some wire =>
      match db.buildJobs.insert? (newJob jobId jobType subjectId wire now) with
      | none => .error .integrity
      | some jobs => .ok { db with buildJobs := jobs }

/-- `enqueueBuild`. -/
def enqueueBuild (encode : WireEncoder) (task : BuildTask) (normalizedObjectKey : String)
    (jobId : Uuid) (now : DateTime) (db : Database) : Except ApiError Database :=
  enqueue encode .build task.id
    (.object
      [("requirementFileId", .string task.requirementFileId),
        ("normalizedObjectKey", .string normalizedObjectKey),
        ("solveMode", .string task.solveMode), ("targetSnapshot", task.targetSnapshot)])
    jobId now db

/-- A new row of `build_tasks`, `new BuildTaskEntity(...)` with status `QUEUED`. -/
def newTask (id userId requirementFileId targetProfileId : Uuid) (sourceTaskId : Option Uuid)
    (solveMode : String) (snapshot : Json) (now : DateTime) : BuildTask where
  id := id
  userId := userId
  requirementFileId := requirementFileId
  targetProfileId := targetProfileId
  sourceTaskId := sourceTaskId
  executionId := none
  status := .queued
  progress := 0
  currentStage := none
  solveMode := solveMode
  targetSnapshot := snapshot
  cancelRequested := false
  failureCode := none
  failureMessage := none
  createdAt := now
  startedAt := none
  finishedAt := none
  deletedAt := none
  versionNo := 0

/-- `taskRepository.save(task)` followed by `enqueueBuild`. -/
def saveAndEnqueue (encode : WireEncoder) (task : BuildTask) (normalizedObjectKey : String)
    (jobId : Uuid) (now : DateTime) (db : Database) : Except ApiError Database :=
  match db.buildTasks.insert? task with
  | none => .error .integrity
  | some tasks =>
      enqueueBuild encode task normalizedObjectKey jobId now { db with buildTasks := tasks }

/-! ## Requests -/

/-- `parseSolveMode`. -/
def parseSolveMode : Option String → Except ApiError String
  | none => .ok "COMPATIBLE"
  | some value =>
      if value = "COMPATIBLE" then .ok value
      else .error (.badRequest "UNSUPPORTED_SOLVE_MODE" "Solve mode is unsupported")

/-- `ownedFile`. -/
def ownedFile (db : Database) (userId fileId : Uuid) : Except ApiError RequirementFile :=
  match db.file? fileId with
  | some file =>
      if file.userId = userId then .ok file
      else .error (.notFound "Requirement file was not found")
  | none => .error (.notFound "Requirement file was not found")

/-- `activeOwnedTask`, also the result of the locking query. -/
def activeOwnedTask (db : Database) (userId taskId : Uuid) : Except ApiError BuildTask :=
  match db.task? taskId with
  | some task =>
      if task.userId = userId ∧ task.deletedAt = none then .ok task
      else .error (.notFound "Build task was not found")
  | none => .error (.notFound "Build task was not found")

/-- `create`; `profile` is the row of the requested target profile. -/
def create (encode : WireEncoder) (userId fileId : Uuid) (profile : Option TargetProfile)
    (solveMode : Option String) (taskId jobId : Uuid) (now : DateTime) (db : Database) :
    Except ApiError Database :=
  match parseSolveMode solveMode, ownedFile db userId fileId with
  | .error e, _ => .error e
  | _, .error e => .error e
  | .ok mode, .ok file =>
      match file.parseStatus, file.normalizedObjectKey with
      | .parsed, some key =>
          match profile with
          | some p =>
              if p.enabled then
                saveAndEnqueue encode
                  (newTask taskId userId file.id p.id none mode p.snapshot now) key jobId now db
              else .error (.conflict "TARGET_PROFILE_UNAVAILABLE" "Target profile is unavailable")
          | none => .error (.conflict "TARGET_PROFILE_UNAVAILABLE" "Target profile is unavailable")
      | _, _ =>
          .error (.conflict "REQUIREMENT_FILE_NOT_PARSED" "Requirement file is not parsed")

/-- The source statuses that `retry` accepts. -/
def isRetryable (s : BuildStatus) : Bool :=
  s = .failed || s = .partialSuccess || s = .cancelled

/-- `retry`. -/
def retry (encode : WireEncoder) (userId sourceId taskId jobId : Uuid) (now : DateTime)
    (db : Database) : Except ApiError Database :=
  match activeOwnedTask db userId sourceId with
  | .error e => .error e
  | .ok source =>
      if isRetryable source.status then
        match ownedFile db userId source.requirementFileId with
        | .error e => .error e
        | .ok file =>
            match file.normalizedObjectKey with
            | none =>
                .error (.conflict "REQUIREMENT_FILE_NOT_PARSED" "Requirement file is not parsed")
            | some key =>
                saveAndEnqueue encode
                  (newTask taskId userId source.requirementFileId source.targetProfileId
                    (some source.id) source.solveMode source.targetSnapshot now) key jobId now db
      else .error (.conflict "BUILD_TASK_NOT_RETRYABLE" "Build task is not retryable")

/-- `softDelete`. -/
def softDelete (t : BuildTask) (now : DateTime) : BuildTask :=
  if t.deletedAt = none then { t with deletedAt := some now, versionNo := t.versionNo + 1 } else t

/-- `delete`. -/
def delete (userId taskId : Uuid) (now : DateTime) (db : Database) : Except ApiError Database :=
  match db.task? taskId with
  | some task =>
      if task.userId = userId then .ok (db.setTask (softDelete task now))
      else .error (.notFound "Build task was not found")
  | none => .error (.notFound "Build task was not found")

/-- The rows that `RequirementFileService.upload` writes once the original is stored. -/
def upload (encode : WireEncoder) (userId fileId jobId : Uuid) (originalName : String)
    (sizeBytes : Nat) (sha256 : String) (now : DateTime) (db : Database) :
    Except ApiError Database :=
  match db.requirementFiles.insert?
    { id := fileId
      userId := userId
      originalName := originalName
      detectedEncoding := none
      sizeBytes := sizeBytes
      sha256 := sha256
      originalObjectKey := "users/" ++ userId ++ "/requirements/" ++ fileId ++ "/original.txt"
      normalizedObjectKey :=
        some ("users/" ++ userId ++ "/requirements/" ++ fileId ++ "/normalized.txt")
      parseStatus := .pending
      parseError := none
      createdAt := now
      versionNo := 0 } with
  | none => .error .integrity
  | some files =>
      enqueue encode .requirementParse fileId
        (.object
          [("originalObjectKey",
              .string ("users/" ++ userId ++ "/requirements/" ++ fileId ++ "/original.txt")),
            ("normalizedObjectKey",
              .string ("users/" ++ userId ++ "/requirements/" ++ fileId ++ "/normalized.txt"))])
        jobId now { db with requirementFiles := files }

/-! ## Cancellation -/

/-- A `cancel` transaction in progress. `matched` holds the rows its update of the ready job
matched and keeps locked, once the update has run. -/
structure CancelTransaction where
  userId : Uuid
  taskId : Uuid
  now : DateTime
  initialStatus : BuildStatus
  matched : Option (List Uuid)
deriving DecidableEq

/-- The first statement of `cancel`: the status read. -/
def beginCancel (userId taskId : Uuid) (now : DateTime) (db : Database) :
    Except ApiError CancelTransaction :=
  match activeOwnedTask db userId taskId with
  | .ok task => .ok { userId, taskId, now, initialStatus := task.status, matched := none }
  | .error e => .error e

/-- The `WHERE` clause of `cancelReadyBuildJob`. -/
def isReadyBuildJob (subjectId : Uuid) (j : BuildJob) : Bool :=
  decide (j.subjectId = subjectId) && decide (j.jobType = .build) && decide (j.status = .ready)

/-- The rows the update of `cancel` matches; it runs only after a `QUEUED` status read. -/
def matchReadyJobs (c : CancelTransaction) (db : Database) : List Uuid :=
  if c.initialStatus = .queued then
    (db.buildJobs.rows.filter (isReadyBuildJob c.taskId)).map BuildJob.id
  else []

/-- The values `cancelReadyBuildJob` writes. -/
def cancelledByApi (now : DateTime) (j : BuildJob) : BuildJob :=
  { j with status := .cancelled, finishedAt := some now, versionNo := j.versionNo + 1 }

/-- The rows that the transaction updated, as they commit. -/
def applyCancelledJobs (matched : List Uuid) (now : DateTime) (db : Database) : Database :=
  { db with
    buildJobs := db.buildJobs.updateWhere (fun j => decide (j.id ∈ matched)) (cancelledByApi now) }

/-- The task after the locked read of `cancel`: a terminal task is returned as it is. -/
def cancelTask (task : BuildTask) (cancelledReadyJob : Nat) (now : DateTime) :
    Except ApiError BuildTask :=
  if task.status.isTerminal then .ok task
  else if task.status = .queued ∧ cancelledReadyJob = 1 then
    transitionTo { task with cancelRequested := true, versionNo := task.versionNo + 1 } .cancelled
      now
  else if task.cancelRequested then .ok task
  else .ok { task with cancelRequested := true, versionNo := task.versionNo + 1 }

/-- The rest of `cancel`: the locked read of the task and the commit. -/
def finishCancel (c : CancelTransaction) (matched : List Uuid) (db : Database) :
    Except ApiError Database :=
  match activeOwnedTask db c.userId c.taskId with
  | .error e => .error e
  | .ok task =>
      match cancelTask task matched.length c.now with
      | .error e => .error e
      | .ok task' => .ok ((applyCancelledJobs matched c.now db).setTask task')

end WheelForge.Api
