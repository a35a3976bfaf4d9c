import WheelForge.Api.LocalFileStorage
import WheelForge.Java.Platform

/-!
# Uploading a requirements file

`RequirementFileService.upload` stores the original and writes the row of the file and its parse
job in one transaction. The object is deleted by `cleanupBeforeRegistration` while the transaction
does not know of it, and by a callback on completion from then on.
-/

set_option autoImplicit false

namespace WheelForge.Api.RequirementFileService

open WheelForge.Java (CommitOutcome CompletionStatus MethodOutcome Resources afterCompletion
  transactional)
open WheelForge.Jobs
open WheelForge.Relational

/-! ## A request -/

/-- The uploaded file: its stream gives the rounds of the copy, and closing it can raise. -/
structure MultipartFile where
  originalFilename : Option String
  size : Nat
  inputStream : Except Throwable (List CopyRound)
  close : Option Throwable

/-- A request with what the calls it makes raise, and how its transaction ends. -/
structure UploadRequest where
  userId : Uuid
  file : MultipartFile
  /-- `idSupplier.get()`, and that of `BuildJobService`. -/
  fileId : Uuid
  jobId : Uuid
  temporaryIds : List Uuid
  now : DateTime
  transactionActive : Bool
  synchronizationActive : Bool
  storageFaults : StorageFaults
  /-- What the statements of `save` and `enqueue` raise for other reasons than their rows. -/
  databaseFault : Option Throwable
  commit : CommitOutcome
  rollbackRaises : Bool

namespace UploadRequest

/-- The directory of `baseKey`. -/
def baseDirectory (request : UploadRequest) : ObjectPath :=
  ["users", request.userId, "requirements", request.fileId]

def originalName : String := "original.txt"

/-- The object of `originalKey`. -/
def originalObject (request : UploadRequest) : ObjectPath :=
  request.baseDirectory ++ [originalName]

end UploadRequest

/-- `MAX_BYTES`. -/
def maxBytes : Nat := 512 * 1024

/-- `toLowerCase(Locale.ROOT).endsWith(".txt")`: only ASCII letters have these lower cases. -/
def endsWithTxt (filename : String) : Bool :=
  ".txt".toList.isSuffixOf (filename.toList.map Char.toLower)

/-- `validateMetadata`. -/
def validateMetadata (file : MultipartFile) : Except Throwable String :=
  match file.originalFilename with
  | none =>
      .error (.api (.badRequest "INVALID_REQUIREMENT_FILE"
        "Only .txt requirements files are supported"))
  | some filename =>
      if 255 < Java.length filename then
        .error (.api (.badRequest "INVALID_REQUIREMENT_FILE"
          "Original filename must not exceed 255 characters"))
      else if !endsWithTxt filename then
        .error (.api (.badRequest "INVALID_REQUIREMENT_FILE"
          "Only .txt requirements files are supported"))
      else if file.size = 0 then
        .error (.api (.badRequest "INVALID_REQUIREMENT_FILE"
          "Requirements file must not be empty"))
      else if maxBytes < file.size then
        .error (.payloadTooLarge "Requirements file exceeds 512 KiB")
      else .ok filename

/-- The `catch` clauses of `upload`. -/
def uploadException : Throwable → Throwable
  | .nulByte =>
      .api (.badRequest "INVALID_REQUIREMENT_FILE" "Requirements files must not contain NUL bytes")
  | .sizeMismatch _ _ => .payloadTooLarge "Requirements file exceeds 512 KiB"
  | .ioException =>
      .api (.badRequest "INVALID_REQUIREMENT_FILE" "Requirements file could not be read")
  | e => e

structure RequirementFileView where
  id : Uuid
  originalName : String
  sizeBytes : Nat
  sha256 : String
  parseStatus : ParseStatus
  parseError : Option String
  createdAt : DateTime

def toView (file : RequirementFile) : RequirementFileView where
  id := file.id
  originalName := file.originalName
  sizeBytes := file.sizeBytes
  sha256 := file.sha256
  parseStatus := file.parseStatus
  parseError := file.parseError
  createdAt := file.createdAt

section Upload

variable (digest : List UInt8 → String) (encode : WireEncoder)

abbrev Callback := CompletionStatus → Objects → Objects

/-- The callback of `registerRollbackCleanup`. -/
def rollbackCleanup (request : UploadRequest) : Callback := fun status objects =>
  if status ≠ .committed then
    (deleteIfExists request.storageFaults request.originalObject objects).2
  else objects

/-- The `try` statement of `upload`: the stored object, the objects and the registered callbacks. -/
def storeOriginal (request : UploadRequest) (objects : Objects) :
    Except Throwable StoredObject × Objects × List Callback :=
  match request.file.inputStream with
  | .error e => (.error (uploadException e), objects, [])
  | .ok rounds =>
      match putAtomically digest request.storageFaults request.temporaryIds request.baseDirectory
        UploadRequest.originalName rounds request.file.size objects with
      | (.error e, objects) => (.error (uploadException e), objects, [])
      | (.ok stored, objects) =>
          if request.synchronizationActive then
            match request.file.close with
            | some e => (.error (uploadException e), objects, [rollbackCleanup request])
            | none => (.ok stored, objects, [rollbackCleanup request])
          else
            -- `cleanupBeforeRegistration`, whose own exception is suppressed
            (.error (.illegalState "Upload transaction synchronization is not active"),
              (deleteIfExists request.storageFaults request.originalObject objects).2, [])

/-- The row that `upload` saves. -/
def pendingFile (request : UploadRequest) (filename : String) (stored : StoredObject) :
    RequirementFile where
  id := request.fileId
  userId := request.userId
  originalName := filename
  detectedEncoding := none
  sizeBytes := stored.sizeBytes
  sha256 := stored.sha256
  originalObjectKey :=
    "users/" ++ request.userId ++ "/requirements/" ++ request.fileId ++ "/original.txt"
  normalizedObjectKey :=
    some ("users/" ++ request.userId ++ "/requirements/" ++ request.fileId ++ "/normalized.txt")
  parseStatus := .pending
  parseError := none
  createdAt := request.now
  versionNo := 0

/-- `save` and `enqueue`. -/
def saveAndEnqueueParse (request : UploadRequest) (filename : String) (stored : StoredObject)
    (db : Database) : Except Throwable Database :=
  match request.databaseFault with
  | some e => .error e
  | none =>
      match Api.upload encode request.userId request.fileId request.jobId filename
        stored.sizeBytes stored.sha256 request.now db with
      | .error e => .error (.api e)
      | .ok db => .ok db

/-- The body of `upload`. -/
def upload (request : UploadRequest) (db : Database) (objects : Objects) :
    MethodOutcome Throwable RequirementFileView Database Objects :=
  if !request.transactionActive then
    ⟨.error (.illegalState "Requirement uploads require an active transaction"), db, objects, []⟩
  else
    match validateMetadata request.file with
    | .error e => ⟨.error e, db, objects, []⟩
    | .ok filename =>
        match storeOriginal digest request objects with
        | (.error e, objects, callbacks) => ⟨.error e, db, objects, callbacks⟩
        | (.ok stored, objects, callbacks) =>
            match saveAndEnqueueParse encode request filename stored db with
            | .error e => ⟨.error e, db, objects, callbacks⟩
            | .ok db => ⟨.ok (toView (pendingFile request filename stored)), db, objects, callbacks⟩

/-- `upload` with its transaction. -/
def uploadTransaction (request : UploadRequest) (w : Resources Database Objects) :
    Except Throwable RequirementFileView × Resources Database Objects :=
  transactional request.commit (.unchecked "TransactionSystemException") request.rollbackRaises
    w.db (upload digest encode request w.db w.outside)

end Upload

end WheelForge.Api.RequirementFileService
