import WheelForge.Worker.Calls

/-!
# The job pipeline and the consumer

`JobPipeline.run` and `JobConsumer.runOnce` as programs over the calls of `WorkerOp`. A `try` block
that assigns `published` is split where it does: the part before the assignment fails with `none`,
the part after it with `some published` (`parseFailed`, `buildFailed`). A `return` in the middle of a
block is a `Flow.finish`.
-/

set_option autoImplicit false

namespace WheelForge.Worker

open WheelForge.Interaction
open WheelForge.Interaction.Program (raise ofExcept attempt handle)
open WheelForge.Jobs
open WheelForge.Target (TargetProfile)
open WheelForge.Parser (ParsedRequirements RequirementsParseError)
open WheelForge.Resolver (ResolutionResult)
open WheelForge.Build (DownloadedWheel PublishedObject)

/-- `JobPayload`, the fields that the pipeline reads. -/
structure JobEnvelope where
  jobType : JobType
  subjectId : Uuid
  payload : Json

structure RequirementParsePayload where
  originalObjectKey : String
  normalizedObjectKey : String

/-- `BuildPayload`; `targetSnapshot` is `target_snapshot.model_dump(by_alias=True)`. -/
structure BuildPayload where
  requirementFileId : Uuid
  normalizedObjectKey : String
  solveMode : String
  targetSnapshot : Json
  targetProfileId : Uuid

structure PipelineResult where
  status : BuildStatus
  artifactId : Option Uuid
deriving DecidableEq, Repr

/-- How a part of a block ends: it returns from the whole block, or the block goes on. -/
inductive Flow (α : Type) where
  | finish (result : PipelineResult)
  | proceed (value : α)

/-- A pipeline: the validators and text functions that it calls. -/
structure JobPipeline where
  /-- `JobPayload.model_validate_json`. -/
  decodeEnvelope : String → Except String JobEnvelope
  /-- `RequirementParsePayload.model_validate`. -/
  decodeParsePayload : Json → Except String RequirementParsePayload
  /-- `BuildPayload.model_validate`. -/
  decodeBuildPayload : Json → Except String BuildPayload
  /-- `TargetProfile.model_validate`. -/
  validateTarget : Json → Except String TargetProfile
  /-- `parse_requirements`. -/
  parseRequirements : Bytes → Except RequirementsParseError ParsedRequirements
  /-- `_decode_requirements`. -/
  decodeRequirements : Bytes → Except String String
  /-- `hashlib.sha256(content).hexdigest()`. -/
  sha256 : Bytes → String
  sanitizeError : PyError → String

/-- `text.encode("utf-8")`. -/
def utf8 (text : String) : Bytes := text.toUTF8.toList

/-- The default `retry_delay_seconds` of `retry_or_fail`. -/
def retryDelaySeconds : Int := 5

/-! ## Calls of the repository -/

section Calls

variable (lease : JobLease)

def claimParseSubject : WorkerProgram (Option ParseSubject) := request (.operate lease .claimParseSubject)

def claimBuildSubject : WorkerProgram (Option BuildSubject) := request (.operate lease .claimBuildSubject)

def isCancelRequested : WorkerProgram Bool := request (.operate lease .isCancelRequested)

def cancelBuild : WorkerProgram Bool := request (.operate lease .cancelBuild)

def failTerminal (code error : String) : WorkerProgram Bool :=
  request (.operate lease (.failTerminal code error))

def retryOrFail (error : String) (retryable : Bool) : WorkerProgram Bool :=
  request (.operate lease (.retryOrFail error retryable retryDelaySeconds))

def freshUuids : WorkerProgram (Nat → Uuid) := request .uuids

def completeParse (parsed : ParsedRequirements) (normalizedObjectKey : String) :
    WorkerProgram Bool := do
  let uuids ← freshUuids
  request (.operate lease (.completeParse parsed normalizedObjectKey uuids))

def advanceBuild (status : BuildStatus) (progress : Int) (stage message : String) :
    WorkerProgram Unit := do
  let uuids ← freshUuids
  request (.operate lease (.advanceBuild status progress stage message (uuids 0)))

def persistResolution (resolution : ResolutionResult) : WorkerProgram Unit := do
  let uuids ← freshUuids
  request (.operate lease (.persistResolution resolution uuids))

def persistPackageResults (resolution : ResolutionResult) (wheels : List DownloadedWheel)
    (validation : BuildValidation) : WorkerProgram Unit :=
  request (.operate lease (.persistPackageResults resolution wheels validation.report
    (validation.downloadFailures.map fun item => (item.package, item.error))))

def publishArtifactTerminal (artifactId : Uuid) (published : PublishedObject) (filename : String)
    (status : BuildStatus) (expiresAt : DateTime) : WorkerProgram (Option Uuid) :=
  request (.operate lease (.publishArtifactTerminal artifactId published filename status expiresAt))

end Calls

/-! ## Blocks -/

/-- `if not condition: raise error`. -/
def require (condition : Bool) (error : PyError) : WorkerProgram Unit :=
  if condition then pure () else raise error

/-- A validator whose failure is a `ValueError`. -/
def validated {α : Type} (result : Except String α) : WorkerProgram α :=
  ofExcept (result.mapError (.single .value))

/-- `_best_effort_cleanup`. -/
def bestEffort {α : Type} (operation : WorkerProgram α) : WorkerProgram Unit :=
  handle (do let _ ← operation; pure ()) fun error =>
    if error.isException then pure () else raise error

/-- `try: body finally: cleanup`. -/
def tryFinally {α : Type} (body : WorkerProgram α) (cleanup : WorkerProgram Unit) :
    WorkerProgram α := do
  let result ← attempt body
  cleanup
  ofExcept result

/-- The next part of a block, unless the block has returned. -/
def Flow.andThen {α β : Type} (first : WorkerProgram (Flow α))
    (next : α → WorkerProgram (Flow β)) : WorkerProgram (Flow β) := do
  match ← first with
  | .finish result => pure (.finish result)
  | .proceed value => next value

/-- `_during_lease`: the operation runs beside a heartbeat thread. -/
def duringLease {α : Type} (lease : JobLease) (operation : WorkerProgram α) :
    WorkerProgram α := do
  let result ← attempt operation
  let failure : Option PyError ← request (.stopHeartbeat lease)
  match result, failure with
  | .ok value, none => pure value
  | .ok _, some failure => raise failure
  | .error error, none => raise error
  | .error error, some failure =>
      raise (.group "stage and lease heartbeat both failed" [error, failure])

/-- `_cancel_if_requested`. -/
def cancelIfRequested (lease : JobLease) : WorkerProgram (Option PipelineResult) := do
  if ← isCancelRequested lease then
    if ← cancelBuild lease then pure (some ⟨.cancelled, none⟩)
    else raise (.single .lostLease "cancelled build could not publish its terminal state")
  else pure none

/-- The rest of a block, unless a cancellation was requested. -/
def unlessCancelled {α : Type} (lease : JobLease) (rest : WorkerProgram (Flow α)) :
    WorkerProgram (Flow α) := do
  match ← cancelIfRequested lease with
  | some cancelled => pure (.finish cancelled)
  | none => rest

/-- `_require_before_deadline`; a `TimeoutError` is an `OSError`. -/
def requireBeforeDeadline (deadline : Int) : WorkerProgram Unit := do
  let now : Int ← request .monotonic
  require (decide (now ≤ deadline))
    (.single .os "build task exceeded the configured time limit")

/-- The loop of `_require_download_limits`. -/
def requireWheelBytes (limits : BuildResourceLimits) :
    List DownloadedWheel → Nat → WorkerProgram Unit
  | [], _ => pure ()
  | wheel :: wheels, total => do
      require (decide (wheel.byteSize ≤ limits.maxWheelBytes))
        (.single .value "downloaded Wheel byte limit exceeded")
      require (decide (total + wheel.byteSize ≤ limits.maxTotalBytes))
        (.single .value "total downloaded Wheel byte limit exceeded")
      requireWheelBytes limits wheels (total + wheel.byteSize)

/-- `_require_download_limits`. -/
def requireDownloadLimits (wheels : List DownloadedWheel) (limits : BuildResourceLimits) :
    WorkerProgram Unit := do
  require (decide (wheels.length ≤ limits.maxPackages))
    (.single .value "downloaded Wheel count exceeds the limit")
  requireWheelBytes limits wheels 0

namespace JobPipeline

variable (pipeline : JobPipeline)

/-- `parse_requirements` as a part of a block. -/
def parse (content : Bytes) : WorkerProgram ParsedRequirements :=
  ofExcept ((pipeline.parseRequirements content).mapError fun error =>
    .single .requirementsParse error.text)

/-- `_require_file_observation`. -/
def requireFileObservation (content : Bytes) (expectedSize : Nat) (expectedSha256 label : String) :
    WorkerProgram Unit :=
  require (decide (content.length = expectedSize) &&
      decide (pipeline.sha256 content = expectedSha256))
    (.single .subjectIntegrity (label ++ " does not match its database observation"))

/-- The end of both `except BaseException` handlers: the published object is removed, and the job is
retried or failed. -/
def abandon (lease : JobLease) (published : Option PublishedObject) (error : PyError) :
    WorkerProgram PipelineResult := do
  match published with
  | some orphan => bestEffort (request (.deleteIfOwned orphan.objectKey orphan.sha256))
  | none => pure ()
  if error.isInterrupt then raise error
  else if error.containsLostLease then pure ⟨.failed, none⟩
  else do
    let updated ← retryOrFail lease (pipeline.sanitizeError error) error.retryable
    if updated && error.retryable && decide (lease.attempts < lease.maxAttempts) then
      pure ⟨.queued, none⟩
    else pure ⟨.failed, none⟩

/-! ## `_run_parse` -/

/-- The `try` block of `_run_parse` up to the publication of the normalized object. -/
def publishNormalized (lease : JobLease) (payload : RequirementParsePayload)
    (subject : ParseSubject) : WorkerProgram (ParsedRequirements × PublishedObject) := do
  require (decide (payload.originalObjectKey = subject.originalObjectKey) &&
      decide (payload.normalizedObjectKey = subject.normalizedObjectKey))
    (.single .subjectIntegrity "parse payload disagrees with database subject")
  let original : Bytes ← request (.readBytes subject.originalObjectKey)
  pipeline.requireFileObservation original subject.sizeBytes subject.sha256
    "original requirements"
  let parsed ← pipeline.parse original
  let published : PublishedObject ← handle
    (request (.publishOrReuseBytes subject.normalizedObjectKey (utf8 parsed.normalizedText)
      lease.executionId))
    fun error =>
      if error.isA .fileExists then
        raise (.single .subjectIntegrity
          "normalized requirements object conflicts with parsed content")
      else raise error
  pure (parsed, published)

/-- The `try` block of `_run_parse` after the publication. -/
def recordParse (lease : JobLease) (subject : ParseSubject) (parsed : ParsedRequirements) :
    WorkerProgram PipelineResult := do
  if ← completeParse lease parsed subject.normalizedObjectKey then pure ⟨.success, none⟩
  else raise (.single .lostLease "parse result could not be published")

/-- The handlers of `_run_parse`. -/
def parseFailed (lease : JobLease) (published : Option PublishedObject) (error : PyError) :
    WorkerProgram PipelineResult :=
  if error.isA .requirementsParse then do
    let _ ← failTerminal lease "INVALID_REQUIREMENTS" (pipeline.sanitizeError error)
    pure ⟨.failed, none⟩
  else if error.isA .subjectIntegrity then do
    let _ ← failTerminal lease "PARSE_SUBJECT_INTEGRITY_FAILURE"
      ("PARSE_SUBJECT_INTEGRITY_FAILURE: " ++ pipeline.sanitizeError error)
    pure ⟨.failed, none⟩
  else pipeline.abandon lease published error

/-- `_run_parse`. -/
def runParse (lease : JobLease) (payload : RequirementParsePayload) :
    WorkerProgram PipelineResult := do
  match ← claimParseSubject lease with
  | none => pure ⟨.failed, none⟩
  | some subject =>
      match ← attempt (pipeline.publishNormalized lease payload subject) with
      | .error error => pipeline.parseFailed lease none error
      | .ok (parsed, published) =>
          handle (recordParse lease subject parsed) fun error =>
            pipeline.parseFailed lease (some published) error

/-! ## `_run_build` -/

/-- What `_run_build` knows once the requirements are read. -/
structure PreparedBuild where
  limits : BuildResourceLimits
  deadline : Int
  target : TargetProfile
  originalText : String
  parsed : ParsedRequirements

/-- What `_run_build` knows once the object is published. -/
structure PublishedBuild where
  limits : BuildResourceLimits
  terminal : BuildStatus
  built : BuiltArtifact
  artifactId : Uuid
  published : PublishedObject

/-- The `try` block of `_run_build` up to the first stage. -/
def prepare (lease : JobLease) (payload : BuildPayload) (subject : BuildSubject) :
    WorkerProgram (Flow PreparedBuild) := do
  let limits : BuildResourceLimits ← request .resourceLimits
  let started : Int ← request .monotonic
  let deadline := started + seconds limits.taskTimeoutSeconds
  require (decide (payload.requirementFileId = subject.requirementFileId) &&
      decide (payload.normalizedObjectKey = subject.normalizedObjectKey) &&
      decide (payload.solveMode = subject.solveMode) &&
      Json.pyEq payload.targetSnapshot subject.targetSnapshot &&
      decide (payload.targetProfileId = subject.targetProfileId))
    (.single .value "build payload disagrees with database subject")
  let target ← validated (pipeline.validateTarget subject.targetSnapshot)
  unlessCancelled lease do
    let original : Bytes ← request (.readBytes subject.originalObjectKey)
    pipeline.requireFileObservation original subject.originalSizeBytes subject.originalSha256
      "original requirements"
    let originalParsed ← pipeline.parse original
    let normalized : Bytes ← request (.readBytes subject.normalizedObjectKey)
    require (decide (normalized = utf8 originalParsed.normalizedText))
      (.single .value "normalized requirements content is not database-bound")
    let parsed ← pipeline.parse normalized
    requireBeforeDeadline deadline
    let originalText ← validated (pipeline.decodeRequirements original)
    unlessCancelled lease (pure (.proceed ⟨limits, deadline, target, originalText, parsed⟩))

/-- The resolution stage. -/
def resolveStage (lease : JobLease) (prepared : PreparedBuild) :
    WorkerProgram (Flow ResolutionResult) := do
  advanceBuild lease .resolving 15 "RESOLVING" "Resolving dependencies"
  let resolution : ResolutionResult ← duringLease lease
    (request (.resolve prepared.parsed prepared.target))
  requireBeforeDeadline prepared.deadline
  require (decide (resolution.packages.length ≤ prepared.limits.maxPackages))
    (.single .value "resolved package count exceeds the limit")
  duringLease lease (persistResolution lease resolution)
  unlessCancelled lease (pure (.proceed resolution))

/-- The download stage. -/
def downloadStage (lease : JobLease) (prepared : PreparedBuild) (resolution : ResolutionResult) :
    WorkerProgram (Flow BuildDownload) := do
  advanceBuild lease .downloading 40 "DOWNLOADING" "Downloading target Wheels"
  let download : BuildDownload ← duringLease lease (request (.download resolution prepared.target))
  requireDownloadLimits download.wheels prepared.limits
  requireBeforeDeadline prepared.deadline
  unlessCancelled lease (pure (.proceed download))

/-- The validation stage. -/
def validateStage (lease : JobLease) (prepared : PreparedBuild) (resolution : ResolutionResult)
    (download : BuildDownload) : WorkerProgram (Flow BuildValidation) := do
  advanceBuild lease .validating 70 "VALIDATING" "Validating Wheel archives"
  let checked : BuildValidation ← duringLease lease
    (request (.validate resolution download.wheels prepared.target))
  requireBeforeDeadline prepared.deadline
  let validation : BuildValidation :=
    { checked with downloadFailures := download.failures ++ checked.downloadFailures }
  persistPackageResults lease resolution download.wheels validation
  unlessCancelled lease do
    if !validation.report.complete && validation.wheels.isEmpty then
      let _ ← failTerminal lease "STATIC_VALIDATION_FAILED"
        "Static validation found no useful Wheel output"
      pure (.finish ⟨.failed, none⟩)
    else pure (.proceed validation)

/-- The packaging stage. -/
def packageStage (lease : JobLease) (prepared : PreparedBuild) (resolution : ResolutionResult)
    (validation : BuildValidation) : WorkerProgram (Flow BuiltArtifact) := do
  advanceBuild lease .packaging 85 "PACKAGING" "Packaging offline artifact"
  let _ : Unit ← request (.mkdir "artifact")
  let built : BuiltArtifact ← duringLease lease (request (.package
    { buildId := lease.subjectId
      originalRequirements := prepared.originalText
      resolution := resolution
      versionChanges := resolution.changes
      target := prepared.target
      validation := validation.report
      wheels := validation.wheels }))
  requireBeforeDeadline prepared.deadline
  unlessCancelled lease (pure (.proceed built))

/-- The key under which an execution publishes its artifact. -/
def artifactObjectKey (lease : JobLease) (artifactId : Uuid) : String :=
  "artifacts/" ++ lease.subjectId ++ "/" ++ lease.executionId ++ "/" ++ artifactId ++ ".zip"

/-- The publication of the built artifact. -/
def publishStage (lease : JobLease) (prepared : PreparedBuild) (validation : BuildValidation)
    (built : BuiltArtifact) : WorkerProgram (Flow PublishedBuild) := do
  let uuids ← freshUuids
  let size : Nat ← request (.openRegular built.path)
  require (decide (size ≤ prepared.limits.maxTotalBytes))
    (.single .value "Artifact byte limit exceeded")
  let published : PublishedObject ← duringLease lease
    (request (.publishDescriptor (artifactObjectKey lease (uuids 0)) built.path lease.executionId))
  pure (.proceed
    { limits := prepared.limits
      terminal := if validation.report.complete then .success else .partialSuccess
      built := built
      artifactId := uuids 0
      published := published })

/-- The `try` block of `_run_build` up to the publication of the artifact. -/
def buildArtifact (lease : JobLease) (payload : BuildPayload) (subject : BuildSubject) :
    WorkerProgram (Flow PublishedBuild) :=
  Flow.andThen (pipeline.prepare lease payload subject) fun prepared =>
    Flow.andThen (resolveStage lease prepared) fun resolution =>
      Flow.andThen (downloadStage lease prepared resolution) fun download =>
        Flow.andThen (validateStage lease prepared resolution download) fun validation =>
          Flow.andThen (packageStage lease prepared resolution validation) fun built =>
            publishStage lease prepared validation built

/-- The `try` block of `_run_build` after the publication. -/
def recordArtifact (lease : JobLease) (b : PublishedBuild) : WorkerProgram PipelineResult := do
  require (decide (b.published.sha256 = b.built.sha256))
    (.single .os "artifact digest changed during local publication")
  match ← cancelIfRequested lease with
  | some cancelled => do
      bestEffort (request (.deleteIfOwned b.published.objectKey b.published.sha256))
      pure cancelled
  | none => do
      let now : DateTime ← request .clock
      match ← publishArtifactTerminal lease b.artifactId b.published b.built.name b.terminal
        (now + seconds (86400 * b.limits.artifactRetentionDays)) with
      | some artifact => pure ⟨b.terminal, some artifact⟩
      | none => raise (.single .lostLease "artifact metadata was not published")

/-- The handlers of `_run_build`. -/
def buildFailed (lease : JobLease) (published : Option PublishedObject) (error : PyError) :
    WorkerProgram PipelineResult :=
  if error.isA .downloadCancelled then do
    match ← cancelIfRequested lease with
    | some result => pure result
    | none => pure ⟨.cancelled, none⟩
  else if error.isA .requirementsParse || error.isA .wheelArchiveValidation then do
    let _ ← failTerminal lease "PERMANENT_BUILD_FAILURE" (pipeline.sanitizeError error)
    pure ⟨.failed, none⟩
  else pipeline.abandon lease published error

/-- The `finally` block of `_run_build`. -/
def releaseWorkspace : WorkerProgram Unit := do
  bestEffort (request .closeSnapshots)
  bestEffort (request .cleanupWorkspace)

/-- The `try` statement of `_run_build`, without its `finally` block. -/
def buildBlock (lease : JobLease) (payload : BuildPayload) (subject : BuildSubject) :
    WorkerProgram PipelineResult := do
  match ← attempt (pipeline.buildArtifact lease payload subject) with
  | .error error => pipeline.buildFailed lease none error
  | .ok (.finish result) => pure result
  | .ok (.proceed b) =>
      handle (recordArtifact lease b) fun error =>
        pipeline.buildFailed lease (some b.published) error

/-- `_run_build`. -/
def runBuild (lease : JobLease) (payload : BuildPayload) : WorkerProgram PipelineResult := do
  match ← claimBuildSubject lease with
  | none => pure ⟨.failed, none⟩
  | some subject => do
      let _ : Unit ← request (.allocate lease.executionId)
      tryFinally (pipeline.buildBlock lease payload subject) releaseWorkspace

/-! ## `run` and `run_once` -/

/-- The `try` block of `run`. -/
def dispatch (lease : JobLease) : WorkerProgram PipelineResult := do
  let wire ← validated (pipeline.decodeEnvelope lease.payloadJson)
  require (decide (wire.jobType = lease.jobType) && decide (wire.subjectId = lease.subjectId) &&
      decide (lease.payloadVersion = 1))
    (.single .value "job envelope disagrees with the leased row")
  match wire.jobType with
  | .requirementParse => do
      let payload ← validated (pipeline.decodeParsePayload wire.payload)
      pipeline.runParse lease payload
  | .build => do
      let payload ← validated (pipeline.decodeBuildPayload wire.payload)
      pipeline.runBuild lease payload

/-- `JobPipeline.run`. -/
def run (lease : JobLease) : WorkerProgram PipelineResult :=
  handle (pipeline.dispatch lease) fun error =>
    if error.isValueError then do
      let _ ← failTerminal lease "MALFORMED_JOB_PAYLOAD" (pipeline.sanitizeError error)
      pure ⟨.failed, none⟩
    else raise error

/-- `JobConsumer.run_once`. -/
def runOnce (workerId : String) : WorkerProgram Bool := do
  let lease : Option JobLease ← request (.claimNext workerId)
  match lease with
  | none => pure false
  | some lease =>
      handle (do let _ ← pipeline.run lease; pure true) fun error =>
        if error.isInterrupt then raise error
        else if error.containsLostLease then pure true
        else do
          let _ ← retryOrFail lease (pipeline.sanitizeError error) true
          pure true

end JobPipeline

end WheelForge.Worker
