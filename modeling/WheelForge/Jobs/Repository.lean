import WheelForge.Jobs.Schema
import WheelForge.Parser.Models
import WheelForge.Build.Models

/-!
# The worker's job repository

Each operation of `JobRepository` is one transaction on the `Database`. The clock reading and the
UUIDs an operation draws are arguments, so an operation is a function of its inputs and of the
committed tables it runs on. A result together with a database is a commit, an error is a rollback.

`claim_next` loops over transactions: `claimPass` is one pass of the loop, and `again` is the
`continue` of a pass that terminalized an exhausted job or lost the race for its row.
-/

set_option autoImplicit false

namespace WheelForge.Jobs

open WheelForge.Relational
open WheelForge.Parser (ParsedRequirements RequirementItem)
open WheelForge.Resolver (ResolutionResult ResolvedPackage VersionChange VersionChangeKind)
open WheelForge.Build (DownloadedWheel StaticValidationReport PublishedObject)

/-- `JobLease`. -/
structure JobLease where
  id : Uuid
  jobType : JobType
  subjectId : Uuid
  payloadVersion : Int
  payloadJson : String
  workerId : String
  executionId : Uuid
  attempts : Nat
  maxAttempts : Nat
  reclaimed : Bool
  previousExecutionId : Option Uuid
deriving DecidableEq

/-- `ParseSubject`. -/
structure ParseSubject where
  id : Uuid
  userId : Uuid
  originalObjectKey : String
  normalizedObjectKey : String
  sizeBytes : Nat
  sha256 : String

/-- `BuildSubject`. -/
structure BuildSubject where
  id : Uuid
  userId : Uuid
  requirementFileId : Uuid
  originalObjectKey : String
  normalizedObjectKey : String
  originalSizeBytes : Nat
  originalSha256 : String
  solveMode : String
  targetProfileId : Uuid
  targetSnapshot : Json

/-- A repository: its lease duration and the text and JSON functions its operations call. -/
structure JobRepository where
  leaseSeconds : Int
  sanitizeText : String → Nat → String
  /-- `contracts.bounded_database_payload_json`; `none` is its `ValueError`. -/
  boundedDatabasePayloadJson : Json → Option String
  /-- `json.loads`; `none` is `JSONDecodeError`. -/
  jsonLoads : String → Option Json
  /-- `json.dumps(sanitize_structure(context), ensure_ascii=True, default=str)`. -/
  encodeContext : Json → String
  /-- `_package_resolution_audits`; `none` is its `ValueError`. -/
  packageResolutionAudits : ResolutionResult → List String → Option (String → Json)
  /-- `_resolution_summary_audit`; `none` is its `ValueError`. -/
  resolutionSummaryAudit : ResolutionResult → Option Json
  leaseSeconds_pos : 0 < leaseSeconds

def maxResolvedPackages : Nat := 500

/-- `_bounded`. -/
def bounded (value : String) (limit : Nat) : String :=
  String.ofList ((value.toList.map fun c => if c = '\x00' then '?' else c).take limit)

/-- `str(value)` of a nullable column. -/
def pyStr : Option String → String
  | none => "None"
  | some s => s

/-! ## Ownership -/

/-- `_ownership`: the conditions every write under a lease puts on the job row. -/
def ownership (lease : JobLease) (now : DateTime) (j : BuildJob) : Bool :=
  decide (j.id = lease.id) && decide (j.status = .running) &&
    decide (j.leaseOwner = some lease.workerId) &&
    decide (j.executionId = some lease.executionId) &&
    match j.leaseExpiresAt with
    | some expires => decide (now < expires)
    | none => false

/-- `_owns`. -/
def owns (db : Database) (lease : JobLease) (now : DateTime) : Bool :=
  match db.job? lease.id with
  | some j => ownership lease now j
  | none => false

/-- `update(build_jobs).where(*self._ownership(lease, now)).values(f)`. -/
def updateOwnedJob (db : Database) (lease : JobLease) (now : DateTime)
    (f : BuildJob → BuildJob) : Option Database :=
  db.updateJob lease.id (ownership lease now) f

/-! ## The values written to a job row -/

/-- The values of a renewed lease. -/
def BuildJob.renewed (j : BuildJob) (now : DateTime) (leaseSeconds : Int) : BuildJob :=
  { j with
    heartbeatAt := some now
    leaseExpiresAt := some (now + seconds leaseSeconds)
    versionNo := j.versionNo + 1 }

/-- The values of a job that leaves `RUNNING` for a terminal status. -/
def BuildJob.finished (j : BuildJob) (status : JobStatus) (now : DateTime) : BuildJob :=
  { j with
    status := status
    leaseOwner := none
    executionId := none
    leaseExpiresAt := none
    heartbeatAt := none
    finishedAt := some now
    versionNo := j.versionNo + 1 }

/-- The values of a job that fails with an error text. -/
def BuildJob.failed (j : BuildJob) (error : String) (now : DateTime) : BuildJob :=
  { j.finished .failed now with lastError := some error }

/-- The values of a job that is queued again. -/
def BuildJob.requeued (j : BuildJob) (error : String) (now : DateTime) (delaySeconds : Int) :
    BuildJob :=
  { j with
    status := .ready
    availableAt := now + seconds delaySeconds
    leaseOwner := none
    executionId := none
    leaseExpiresAt := none
    heartbeatAt := none
    lastError := some error
    versionNo := j.versionNo + 1 }

/-- The values of a job that `claim_next` leases. -/
def BuildJob.leased (j : BuildJob) (workerId : String) (executionId : Uuid) (now : DateTime)
    (leaseSeconds : Int) : BuildJob :=
  { j with
    status := .running
    attempts := j.attempts + 1
    leaseOwner := some workerId
    executionId := some executionId
    leaseExpiresAt := some (now + seconds leaseSeconds)
    heartbeatAt := some now
    startedAt := j.startedAt <|> some now
    finishedAt := none
    versionNo := j.versionNo + 1 }

/-! ## The values written to a subject row -/

/-- The values of a task claimed by an execution. -/
def BuildTask.claimed (t : BuildTask) (executionId : Uuid) (now : DateTime) : BuildTask :=
  { t with
    executionId := some executionId
    status := .resolving
    progress := 5
    currentStage := some "PARSING"
    startedAt := t.startedAt <|> some now
    failureCode := none
    failureMessage := none
    versionNo := t.versionNo + 1 }

/-- The values of a task that `_terminalize_subject` fails. -/
def BuildTask.terminalized (t : BuildTask) (code message : String) (now : DateTime) : BuildTask :=
  { t with
    status := .failed
    failureCode := some code
    failureMessage := some message
    finishedAt := some now
    versionNo := t.versionNo + 1 }

/-- The values of a task that `_reset_subject_for_retry` queues again. -/
def BuildTask.requeued (t : BuildTask) : BuildTask :=
  { t with
    executionId := none
    status := .queued
    progress := 0
    currentStage := none
    versionNo := t.versionNo + 1 }

/-- The values of a task whose execution honoured a cancellation. -/
def BuildTask.cancelled (t : BuildTask) (now : DateTime) : BuildTask :=
  { t with
    status := .cancelled
    progress := 100
    currentStage := some "CANCELLED"
    finishedAt := some now
    versionNo := t.versionNo + 1 }

/-- The values of a task that enters a stage. -/
def BuildTask.advanced (t : BuildTask) (status : BuildStatus) (progress : Int) (stage : String) :
    BuildTask :=
  { t with
    status := status
    progress := progress
    currentStage := some stage
    versionNo := t.versionNo + 1 }

/-- The values of a task whose artifact is published. -/
def BuildTask.published (t : BuildTask) (status : BuildStatus) (now : DateTime) : BuildTask :=
  { t with
    status := status
    progress := 100
    currentStage := some "COMPLETED"
    finishedAt := some now
    versionNo := t.versionNo + 1 }

/-- The values of a file whose parse begins. -/
def RequirementFile.claimed (f : RequirementFile) : RequirementFile :=
  { f with parseStatus := .parsing, parseError := none, versionNo := f.versionNo + 1 }

/-- The values of a parsed file. -/
def RequirementFile.parsed (f : RequirementFile) (encoding key : String) : RequirementFile :=
  { f with
    detectedEncoding := some encoding
    normalizedObjectKey := some key
    parseStatus := .parsed
    parseError := none
    versionNo := f.versionNo + 1 }

/-- The values of a file that `_terminalize_subject` fails. -/
def RequirementFile.terminalized (f : RequirementFile) (message : String) : RequirementFile :=
  { f with parseStatus := .failed, parseError := some message, versionNo := f.versionNo + 1 }

/-- The values of a file that `_reset_subject_for_retry` makes pending again. -/
def RequirementFile.requeued (f : RequirementFile) : RequirementFile :=
  { f with parseStatus := .pending, versionNo := f.versionNo + 1 }

/-! ## Subject updates -/

/-- `_terminalize_subject`. -/
def terminalizeSubject (db : Database) (jobType : JobType) (subjectId : Uuid) (now : DateTime)
    (failureCode message : String) : Database :=
  match jobType with
  | .requirementParse =>
      (db.updateFile subjectId
        (fun f => !(f.parseStatus = .parsed || f.parseStatus = .failed))
        (fun f => f.terminalized message)).getD db
  | .build =>
      (db.updateTask subjectId (fun t => !t.status.isTerminal)
        (fun t => t.terminalized failureCode message now)).getD db

/-- `_reset_subject_for_retry`. -/
def resetSubjectForRetry (db : Database) (lease : JobLease) : Database :=
  match lease.jobType with
  | .build =>
      (db.updateTask lease.subjectId (fun t => t.executionId = some lease.executionId)
        BuildTask.requeued).getD db
  | .requirementParse =>
      (db.updateFile lease.subjectId (fun f => f.parseStatus = .parsing)
        RequirementFile.requeued).getD db

/-- `_complete_job`. -/
def completeJob (db : Database) (lease : JobLease) (now : DateTime) : Option Database :=
  updateOwnedJob db lease now fun j => j.finished .completed now

/-- The error text of a job whose attempts are exhausted. -/
def exhaustedMessage : String := "job attempt limit exhausted"

/-- `_terminalize_exhausted`. -/
def terminalizeExhausted (db : Database) (row : BuildJob) (now : DateTime) : Database :=
  match db.updateJob row.id (fun j => j.versionNo = row.versionNo)
    (fun j => j.failed exhaustedMessage now) with
  | some db' =>
      terminalizeSubject db' row.jobType row.subjectId now "JOB_ATTEMPTS_EXHAUSTED"
        exhaustedMessage
  | none => db

/-! ## Claiming a job -/

/-- `ORDER BY priority_no, created_at, id`. -/
def readyOrder (a b : BuildJob) : Prop :=
  a.priorityNo < b.priorityNo ∨ (a.priorityNo = b.priorityNo ∧
    (a.createdAt < b.createdAt ∨ (a.createdAt = b.createdAt ∧ a.id ≤ b.id)))

/-- `ORDER BY lease_expires_at, id` on rows that have an expiry. -/
def expiryOrder (a b : BuildJob) : Prop :=
  a.leaseExpiresAt.getD 0 < b.leaseExpiresAt.getD 0 ∨
    (a.leaseExpiresAt.getD 0 = b.leaseExpiresAt.getD 0 ∧ a.id ≤ b.id)

instance : DecidableRel readyOrder := fun a b => by unfold readyOrder; infer_instance
instance : DecidableRel expiryOrder := fun a b => by unfold expiryOrder; infer_instance

/-- `claim_candidate_statement`; `locked` holds the rows that `SKIP LOCKED` passes over. -/
def claimCandidate (db : Database) (locked : Uuid → Bool) (now : DateTime) : Option BuildJob :=
  db.buildJobs.first?
    (fun j => decide (j.status = .ready) && decide (j.availableAt ≤ now) && !locked j.id)
    readyOrder

/-- `expired_claim_candidate_statement`. -/
def expiredClaimCandidate (db : Database) (locked : Uuid → Bool) (now : DateTime) :
    Option BuildJob :=
  db.buildJobs.first?
    (fun j => decide (j.status = .running) &&
      (match j.leaseExpiresAt with | some e => decide (e ≤ now) | none => false) &&
      !locked j.id)
    expiryOrder

/-- How one pass of the loop of `claim_next` ends. -/
inductive ClaimPass where
  | idle
  | again
  | leased (lease : JobLease)

/-- The worker ids that `claim_next` accepts. -/
def validWorkerId (workerId : String) : Bool := workerId ≠ "" && workerId.length ≤ 100

namespace JobRepository

variable (repo : JobRepository)

/-- The payload text of a lease: a string column is passed on, other JSON is encoded again. -/
def leasePayload (payload : Json) : String :=
  match payload with
  | .string s => s
  | value => (repo.boundedDatabasePayloadJson value).getD "\x7b\x7d"

/-- The lease on a candidate row. -/
def leaseOf (row : BuildJob) (workerId : String) (executionId : Uuid) : JobLease where
  id := row.id
  jobType := row.jobType
  subjectId := row.subjectId
  payloadVersion := row.payloadVersion
  payloadJson := repo.leasePayload row.payloadJson
  workerId := workerId
  executionId := executionId
  attempts := row.attempts + 1
  maxAttempts := row.maxAttempts
  reclaimed := row.status = .running
  previousExecutionId := if row.status = .running then row.executionId else none

/-- One pass of the loop of `claim_next`. -/
def claimPass (workerId : String) (executionId : Uuid) (locked : Uuid → Bool) (now : DateTime)
    (db : Database) : ClaimPass × Database :=
  match claimCandidate db locked now <|> expiredClaimCandidate db locked now with
  | none => (.idle, db)
  | some row =>
      if row.maxAttempts ≤ row.attempts then (.again, terminalizeExhausted db row now)
      else
        match db.updateJob row.id (fun j => j.versionNo = row.versionNo)
          (fun j => j.leased workerId executionId now repo.leaseSeconds) with
        | none => (.again, db)
        | some db' => (.leased (repo.leaseOf row workerId executionId), db')

/-! ## Operations under a lease -/

/-- `heartbeat`. -/
def heartbeat (lease : JobLease) (now : DateTime) : Txn Bool := fun db =>
  match updateOwnedJob db lease now fun j => j.renewed now repo.leaseSeconds with
  | some db' => .ok (true, db')
  | none => .ok (false, db)

/-- `complete`. -/
def complete (lease : JobLease) (now : DateTime) : Txn Bool := fun db =>
  match completeJob db lease now with
  | some db' => .ok (true, db')
  | none => .ok (false, db)

/-- `fail_terminal`. -/
def failTerminal (lease : JobLease) (code error : String) (now : DateTime) : Txn Bool := fun db =>
  match updateOwnedJob db lease now fun j => j.failed (repo.sanitizeText error 2000) now with
  | some db' =>
      .ok (true, terminalizeSubject db' lease.jobType lease.subjectId now code
        (repo.sanitizeText error 2000))
  | none => .ok (false, db)

/-- `retry_or_fail`. -/
def retryOrFail (lease : JobLease) (error : String) (retryable : Bool) (retryDelaySeconds : Int)
    (now : DateTime) : Txn Bool := fun db =>
  if retryable && decide (lease.attempts < lease.maxAttempts) then
    match updateOwnedJob db lease now fun j =>
      j.requeued (repo.sanitizeText error 2000) now retryDelaySeconds with
    | some db' => .ok (true, resetSubjectForRetry db' lease)
    | none => .ok (false, db)
  else
    match updateOwnedJob db lease now fun j => j.failed (repo.sanitizeText error 2000) now with
    | some db' =>
        .ok (true, terminalizeSubject db' lease.jobType lease.subjectId now "JOB_FAILED"
          (repo.sanitizeText error 2000))
    | none => .ok (false, db)

/-- `_fail_subject_claim`. -/
def failSubjectClaim (db : Database) (lease : JobLease) (now : DateTime) (message : String) :
    Database :=
  match updateOwnedJob db lease now fun j => j.failed (repo.sanitizeText message 2000) now with
  | some db' =>
      terminalizeSubject db' lease.jobType lease.subjectId now "SUBJECT_CLAIM_FAILED" message
  | none => db

/-- The `parse_status` a parse execution expects to find. -/
def expectedParseStatus (lease : JobLease) : ParseStatus :=
  if lease.reclaimed then .parsing else .pending

/-- `claim_parse_subject`. -/
def claimParseSubject (lease : JobLease) (now : DateTime) : Txn (Option ParseSubject) := fun db =>
  if owns db lease now then
    match db.file? lease.subjectId with
    | none => .ok (none, repo.failSubjectClaim db lease now "parse subject cannot be claimed")
    | some row =>
        if row.parseStatus ≠ expectedParseStatus lease ∨
            (lease.reclaimed = true ∧ lease.previousExecutionId = none) then
          .ok (none, repo.failSubjectClaim db lease now "parse subject cannot be claimed")
        else
          match db.updateFile lease.subjectId
            (fun f => decide (f.versionNo = row.versionNo) &&
              decide (f.parseStatus = expectedParseStatus lease)) RequirementFile.claimed with
          | none => .ok (none, repo.failSubjectClaim db lease now "parse subject claim raced")
          | some db' =>
              .ok (some
                { id := row.id
                  userId := row.userId
                  originalObjectKey := row.originalObjectKey
                  normalizedObjectKey := pyStr row.normalizedObjectKey
                  sizeBytes := row.sizeBytes
                  sha256 := row.sha256 }, db')
  else .ok (none, db)

/-- The `requirement_items` row of a parsed item. -/
def itemRow (fileId rowId : Uuid) (item : RequirementItem) : RequirementItemRow where
  id := rowId
  requirementFileId := fileId
  lineNo := item.lineNo
  normalizedName := item.name
  extrasJson := item.extras
  specifier := item.specifier
  markerText := item.marker
  originalText := bounded item.originalText 2000
  supported := true
  errorCode := none
  errorMessage := none

/-- `insert(requirement_items)` for each item in turn. -/
def insertItems (fileId : Uuid) (uuids : Nat → Uuid) :
    List RequirementItem → Nat → Table RequirementItemRow → Option (Table RequirementItemRow)
  | [], _, table => some table
  | item :: items, drawn, table =>
      match table.insert? (itemRow fileId (uuids drawn) item) with
      | none => none
      | some table' => insertItems fileId uuids items (drawn + 1) table'

/-- `complete_parse`; `uuids` are the row ids it draws. -/
def completeParse (lease : JobLease) (parsed : ParsedRequirements) (normalizedObjectKey : String)
    (uuids : Nat → Uuid) (now : DateTime) : Txn Bool := fun db =>
  if owns db lease now then
    match db.file? lease.subjectId with
    | none => .ok (false, db)
    | some locked =>
        if locked.parseStatus ≠ .parsing then .ok (false, db)
        else
          match insertItems lease.subjectId uuids parsed.items 0
            (db.requirementItems.deleteWhere fun r =>
              decide (r.requirementFileId = lease.subjectId)) with
          | none => .error .integrity
          | some items =>
              match Database.updateFile { db with requirementItems := items } lease.subjectId
                (fun f => decide (f.parseStatus = .parsing) &&
                  decide (f.versionNo = locked.versionNo))
                (fun f => f.parsed parsed.encoding normalizedObjectKey) with
              | none => .error (.lostLease "parse publication lost job ownership")
              | some db' =>
                  match completeJob db' lease now with
                  | none => .error (.lostLease "parse publication lost job ownership")
                  | some db'' => .ok (true, db'')
  else .ok (false, db)

/-- The conditions `claim_build_subject` puts on the task and its file, other than on the
execution. -/
def validBinding (t : BuildTask) (f : RequirementFile) : Bool :=
  decide (t.deletedAt = none) && decide (f.parseStatus = .parsed) &&
    f.normalizedObjectKey.isSome && decide (t.userId = f.userId) &&
    (t.targetSnapshot.isDict || t.targetSnapshot.isStr)

/-- `initial`: a first claim, or a claim after a retry. -/
def initialClaim (lease : JobLease) (t : BuildTask) : Bool :=
  !lease.reclaimed && decide (t.status = .queued) && decide (t.executionId = none)

/-- `takeover`: a claim of the task of the execution that the lease replaced. -/
def takeoverClaim (lease : JobLease) (t : BuildTask) : Bool :=
  lease.reclaimed && lease.previousExecutionId.isSome && t.status.isNonterminal &&
    decide (t.executionId = lease.previousExecutionId)

/-- The snapshot in a JSON column; a string is decoded. -/
def snapshotOf (value : Json) : Option Json :=
  match value with
  | .string text => repo.jsonLoads text
  | value => some value

/-- `claim_build_subject`. -/
def claimBuildSubject (lease : JobLease) (now : DateTime) : Txn (Option BuildSubject) := fun db =>
  if owns db lease now then
    match db.task? lease.subjectId with
    | none => .ok (none, repo.failSubjectClaim db lease now "build subject cannot be claimed")
    | some row =>
        match db.file? row.requirementFileId with
        | none => .ok (none, repo.failSubjectClaim db lease now "build subject cannot be claimed")
        | some file =>
            if !validBinding row file || !(initialClaim lease row || takeoverClaim lease row) then
              .ok (none, repo.failSubjectClaim db lease now "build subject cannot be claimed")
            else
              match db.updateTask lease.subjectId
                (fun t => decide (t.versionNo = row.versionNo) && decide (t.status = row.status) &&
                  (if takeoverClaim lease row then
                    decide (t.executionId = lease.previousExecutionId)
                  else decide (t.executionId = none)))
                (fun t => t.claimed lease.executionId now) with
              | none =>
                  .ok (none, repo.failSubjectClaim db lease now "build subject claim raced")
              | some db' =>
                  match repo.snapshotOf row.targetSnapshot with
                  | none => .error (.value "target snapshot is not JSON")
                  | some snapshot =>
                      if !snapshot.isDict ||
                          !Json.eqString (snapshot.get? "profileId") row.targetProfileId then
                        .ok (none, repo.failSubjectClaim db' lease now
                          "build target snapshot is malformed")
                      else
                        .ok (some
                          { id := row.id
                            userId := row.userId
                            requirementFileId := row.requirementFileId
                            originalObjectKey := file.originalObjectKey
                            normalizedObjectKey := pyStr file.normalizedObjectKey
                            originalSizeBytes := file.sizeBytes
                            originalSha256 := file.sha256
                            solveMode := row.solveMode
                            targetProfileId := row.targetProfileId
                            targetSnapshot := snapshot }, db')
  else .ok (none, db)

/-- `is_cancel_requested`. -/
def isCancelRequested (lease : JobLease) (now : DateTime) : Txn Bool := fun db =>
  if owns db lease now then
    match db.task? lease.subjectId with
    | some t =>
        if t.executionId = some lease.executionId then .ok (t.cancelRequested, db)
        else .error (.lostLease "build execution is no longer owned")
    | none => .error (.lostLease "build execution is no longer owned")
  else .error (.lostLease "job lease is no longer owned")

/-- `cancel_build`. -/
def cancelBuild (lease : JobLease) (now : DateTime) : Txn Bool := fun db =>
  if owns db lease now then
    match db.updateTask lease.subjectId
      (fun t => decide (t.executionId = some lease.executionId) && t.cancelRequested)
      (fun t => t.cancelled now) with
    | none => .ok (false, db)
    | some db' =>
        match updateOwnedJob db' lease now fun j => j.finished .cancelled now with
        | none => .error (.lostLease "cancellation lost job ownership")
        | some db'' => .ok (true, db'')
  else .ok (false, db)

/-- `coalesce(max(sequence_no), 0)` over the logs of a task. -/
def maxSequence (db : Database) (taskId : Uuid) : Nat :=
  ((db.buildLogs.rows.filter fun r => r.buildTaskId = taskId).map BuildLog.sequenceNo).foldl max 0

/-- The bounded context column of a log row. -/
def safeContext (context : Option Json) : Except RepositoryError (Option Json) :=
  match context with
  | none => .ok none
  | some value =>
      if (repo.encodeContext value).length ≤ 8000 then
        match repo.jsonLoads (repo.encodeContext value) with
        | some decoded => .ok (some decoded)
        | none => .error (.value "context is not JSON")
      else .ok (some (.object [("truncated", .bool true)]))

/-- `_append_log`; the unique key is `(build_task_id, sequence_no)`. -/
def appendLogRow (lease : JobLease) (stage level message : String) (context : Option Json)
    (rowId : Uuid) (now : DateTime) : Txn Nat := fun db =>
  match db.task? lease.subjectId with
  | none => .error (.lostLease "build execution is no longer owned")
  | some t =>
      if t.executionId ≠ some lease.executionId then
        .error (.lostLease "build execution is no longer owned")
      else
        match repo.safeContext context with
        | .error e => .error e
        | .ok safe =>
            match db.buildLogs.insert?
              { id := rowId
                buildTaskId := lease.subjectId
                sequenceNo := maxSequence db lease.subjectId + 1
                stage := bounded stage 50
                level := bounded level 20
                message := repo.sanitizeText message 4000
                contextJson := safe
                createdAt := now } with
            | none => .error .integrity
            | some logs =>
                .ok (maxSequence db lease.subjectId + 1, { db with buildLogs := logs })

/-- `append_log`. -/
def appendLog (lease : JobLease) (stage level message : String) (context : Option Json)
    (rowId : Uuid) (now : DateTime) : Txn Nat := fun db =>
  if owns db lease now then repo.appendLogRow lease stage level message context rowId now db
  else .error (.lostLease "job lease is no longer owned")

/-- `advance_build`. -/
def advanceBuild (lease : JobLease) (status : BuildStatus) (progress : Int)
    (stage message : String) (rowId : Uuid) (now : DateTime) : Txn Unit := fun db =>
  match updateOwnedJob db lease now fun j => j.renewed now repo.leaseSeconds with
  | none => .error (.lostLease "could not renew job lease")
  | some db' =>
      match db'.updateTask lease.subjectId
        (fun t => decide (t.executionId = some lease.executionId) && !t.status.isTerminal)
        (fun t => t.advanced status progress stage) with
      | none => .error (.lostLease "build execution is no longer owned")
      | some db'' =>
          match repo.appendLogRow lease stage "INFO" message none rowId now db'' with
          | .error e => .error e
          | .ok (_, db''') => .ok ((), db''')

/-- The `resolved_packages` row of a package. -/
def packageRow (taskId rowId : Uuid) (resolution : ResolutionResult) (audits : String → Json)
    (package : ResolvedPackage) : ResolvedPackageRow :=
  let change := resolution.changes.reverse.find? fun c => c.package = package.name
  { id := rowId
    buildTaskId := taskId
    normalizedName := package.name
    finalVersion := some package.version.str
    dependencyType := if package.requested then "DIRECT" else "TRANSITIVE"
    originalConstraint := change.map VersionChange.originalConstraint
    strictVersion := change.bind fun c => c.originalVersion.map Pep440.Version.str
    changeDirection := (change.map VersionChange.kind).getD .unchanged |>.value
    changeReason := change.map VersionChange.reason
    attemptsJson := audits package.name
    wheelFilename := some package.wheelFilename
    wheelTags := none
    packageSourceCode := resolution.source.map Resolver.PackageSource.value
    sha256 := none
    wheelStatus := "RESOLVED"
    errorMessage := none }

/-- The `resolved_packages` rows of a resolution. -/
def packageRows (taskId : Uuid) (uuids : Nat → Uuid) (resolution : ResolutionResult)
    (audits : String → Json) : List ResolvedPackageRow :=
  resolution.packages.mapIdx fun i package =>
    packageRow taskId (uuids (i + 1)) resolution audits package

/-- Bulk `insert(resolved_packages)`; the unique key is `(build_task_id, normalized_name)`. -/
def insertPackages :
    List ResolvedPackageRow → Table ResolvedPackageRow → Option (Table ResolvedPackageRow)
  | [], table => some table
  | row :: rows, table =>
      if table.rows.any fun r => decide (r.buildTaskId = row.buildTaskId) &&
          decide (r.normalizedName = row.normalizedName) then none
      else
        match table.insert? row with
        | none => none
        | some table' => insertPackages rows table'

/-- `persist_resolution`; `uuids 0` is the log row, the others are the package rows. -/
def persistResolution (lease : JobLease) (resolution : ResolutionResult) (uuids : Nat → Uuid)
    (now : DateTime) : Txn Unit := fun db =>
  if resolution.packages.length > maxResolvedPackages then
    .error (.value "resolved package count exceeds the limit")
  else
    match repo.packageResolutionAudits resolution (resolution.packages.map ResolvedPackage.name),
      repo.resolutionSummaryAudit resolution with
    | some audits, some summary =>
        if owns db lease now then
          match insertPackages (packageRows lease.subjectId uuids resolution audits)
            (db.resolvedPackages.deleteWhere fun r => decide (r.buildTaskId = lease.subjectId)) with
          | none => .error .integrity
          | some packages =>
              match repo.appendLogRow lease "RESOLUTION_AUDIT" "INFO" "Resolution audit recorded"
                (some (.object [("audit", summary)])) (uuids 0) now
                { db with resolvedPackages := packages } with
              | .error e => .error e
              | .ok (_, db') => .ok ((), db')
        else .error (.lostLease "job lease is no longer owned")
    | _, _ => .error (.value "audit metadata exceeds the byte limit")

/-- `issues[package]`: the sanitized texts of the issues of a package. -/
def packageIssues (validation : StaticValidationReport) (package : String) : List String :=
  (validation.issues.filter fun issue => issue.package = package).map fun issue =>
    repo.sanitizeText (issue.code.value ++ ": " ++ issue.detail) 2000

/-- `"; ".join(package_issues)` where there are issues, else the given text. -/
def joinIssues (issues : List String) (absent : String) : String :=
  if issues = [] then absent else "; ".intercalate issues

/-- The status and the error text of a package result. -/
def packageStatus (wheel : Option DownloadedWheel) (issues : List String)
    (failure : Option String) : String × Option String :=
  match wheel with
  | none =>
      ("MISSING", some
        (match failure with
          | some text => if text = "" then joinIssues issues "Wheel is missing" else text
          | none => joinIssues issues "Wheel is missing"))
  | some _ =>
      if issues = [] then ("STATIC_PASSED", none)
      else ("STATIC_FAILED", some ("; ".intercalate issues))

/-- One iteration of the loop of `persist_package_results`. -/
def persistPackageResult (taskId : Uuid) (resolution : ResolutionResult)
    (wheels : List DownloadedWheel) (validation : StaticValidationReport)
    (downloadFailures : List (String × String)) (package : ResolvedPackage)
    (table : Table ResolvedPackageRow) : Option (Table ResolvedPackageRow) :=
  let wheel := wheels.reverse.find? fun w => w.package = package.name
  let failure := (downloadFailures.reverse.find? fun f => f.1 = package.name).map Prod.snd
  let result := packageStatus wheel (repo.packageIssues validation package.name) failure
  let p := fun r : ResolvedPackageRow =>
    decide (r.buildTaskId = taskId) && decide (r.normalizedName = package.name)
  if table.countWhere p = 1 then
    some (table.updateWhere p fun r =>
      { r with
        wheelFilename := (wheel.map DownloadedWheel.filename) <|> some package.wheelFilename
        wheelTags := wheel.map fun w => w.tags.insertionSort (· ≤ ·)
        packageSourceCode :=
          match wheel with
          | some w => some w.source.value
          | none => resolution.source.map Resolver.PackageSource.value
        sha256 := wheel.map DownloadedWheel.sha256
        wheelStatus := result.1
        errorMessage :=
          match result.2 with
          | some text => if text = "" then none else some (repo.sanitizeText text 2000)
          | none => none })
  else none

/-- The loop of `persist_package_results`. -/
def persistPackages (taskId : Uuid) (resolution : ResolutionResult)
    (wheels : List DownloadedWheel) (validation : StaticValidationReport)
    (downloadFailures : List (String × String)) :
    List ResolvedPackage → Table ResolvedPackageRow → Option (Table ResolvedPackageRow)
  | [], table => some table
  | package :: packages, table =>
      match repo.persistPackageResult taskId resolution wheels validation downloadFailures package
        table with
      | none => none
      | some table' =>
          persistPackages taskId resolution wheels validation downloadFailures packages table'

/-- `persist_package_results`. -/
def persistPackageResults (lease : JobLease) (resolution : ResolutionResult)
    (wheels : List DownloadedWheel) (validation : StaticValidationReport)
    (downloadFailures : List (String × String)) (now : DateTime) : Txn Unit := fun db =>
  if owns db lease now then
    match repo.persistPackages lease.subjectId resolution wheels validation downloadFailures
      resolution.packages db.resolvedPackages with
    | some packages => .ok ((), { db with resolvedPackages := packages })
    | none => .error (.lostLease "resolved package audit row is unavailable")
  else .error (.lostLease "job lease is no longer owned")

/-- The `artifacts` row of a publication. -/
def artifactRow (lease : JobLease) (artifactId : Uuid) (published : PublishedObject)
    (filename : String) (status : BuildStatus) (expiresAt now : DateTime) : ArtifactRow where
  id := artifactId
  buildTaskId := lease.subjectId
  artifactType := "OFFLINE_WHEEL_BUNDLE"
  filename := bounded filename 255
  objectKey := published.objectKey
  sizeBytes := published.sizeBytes
  sha256 := published.sha256
  buildStatus := status
  validationType := "STATIC"
  expiresAt := expiresAt
  downloadCount := 0
  cleanedAt := none
  createdAt := now
  versionNo := 0

/-- `insert(artifacts)`; `object_key` is unique. -/
def insertArtifact (table : Table ArtifactRow) (row : ArtifactRow) : Option (Table ArtifactRow) :=
  if table.rows.any fun r => decide (r.objectKey = row.objectKey) then none
  else table.insert? row

/-- `publish_artifact_terminal`. -/
def publishArtifactTerminal (lease : JobLease) (artifactId : Uuid) (published : PublishedObject)
    (filename : String) (status : BuildStatus) (expiresAt now : DateTime) :
    Txn (Option Uuid) := fun db =>
  if owns db lease now then
    match db.task? lease.subjectId with
    | none => .ok (none, db)
    | some task =>
        if task.executionId ≠ some lease.executionId ∨ task.cancelRequested = true then
          .ok (none, db)
        else
          match insertArtifact db.artifacts
            (artifactRow lease artifactId published filename status expiresAt now) with
          | none => .error .integrity
          | some rows =>
              match Database.updateTask { db with artifacts := rows } lease.subjectId
                (fun t => t.executionId = some lease.executionId)
                (fun t => t.published status now) with
              | none => .error (.lostLease "artifact publication lost execution ownership")
              | some db' =>
                  match completeJob db' lease now with
                  | none => .error (.lostLease "artifact publication lost execution ownership")
                  | some db'' => .ok (some artifactId, db'')
  else .ok (none, db)

end JobRepository

end WheelForge.Jobs
