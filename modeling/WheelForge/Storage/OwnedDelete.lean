import WheelForge.Interaction.Program
import WheelForge.Storage.Files
import WheelForge.Storage.Publication
import WheelForge.Storage.QuarantineMetadata
import WheelForge.Transition.System

/-!
# Owned deletes and their quarantines

`delete_if_owned` moves a file into a quarantine directory of its own before it decides on the
file's fate, and a queue record leads later sweeps to the directory. Both are programs over calls to
the file system and the queue. A process may stop between two calls, calls may fail, and other
programs change files outside the quarantine directories at any time.

A quarantine directory is named by its UUID; `os.close` and the descriptors of parent directories
are left out, and so are the counters of a sweep.
-/

set_option autoImplicit false

namespace WheelForge.Storage.OwnedDelete

open WheelForge.Interaction WheelForge.Transition

/-! ## Metadata -/

/-- What `_QuarantineMetadata` says of a quarantined file; `source` is `None` in the metadata of older
versions. -/
structure Metadata where
  quarantineId : Uuid
  objectKey : String
  originalName : Name
  expectedSha256 : String
  ownerExecutionId : Option Uuid
  createdAt : DateTime
  source : Option FileStatus
  outcome : Option QuarantineOutcome
  attemptCount : Nat
deriving DecidableEq

/-- `_read_quarantine_metadata` refuses a source that was modified before the epoch. -/
def Metadata.readable (m : Metadata) : Bool :=
  match m.source with
  | some status => 0 ≤ status.mtime
  | none => true

/-- The metadata that `_persist_quarantine_outcome` writes. -/
def Metadata.withOutcome (m : Metadata) (outcome : QuarantineOutcome) : Metadata :=
  { m with outcome := some outcome, attemptCount := min (m.attemptCount + 1) 1000000 }

/-- `_RECOVERY_CANDIDATE`. -/
def recoveryCandidate : Name := ".wf-recovery-candidate".toList

/-- `re.fullmatch(r"[0-9a-f]{64}", text)` -/
def digestPattern (text : String) : Bool :=
  text.toList.length = 64 && text.toList.all hexDigit

/-! ## Calls -/

inductive DeleteError where
  | invalidObjectKey (message : String)
  | fileNotFound
  | fileExists
  | os (message : String)
  | value
  | queue
deriving DecidableEq

/-- What the storage reads of an `os.stat_result`. -/
structure EntryStatus where
  /-- `stat.S_ISREG(status.st_mode)` -/
  regular : Bool
  status : FileStatus
deriving DecidableEq

inductive DeleteCall where
  | openParent (parent : Path)
  /-- `os.open` and `os.fstat` of `_open_regular`. -/
  | openFile (path : Path)
  | fstat (descriptor : FileId)
  /-- `_hash_descriptor`: the file is read at once. -/
  | hash (descriptor : FileId)
  | lstat (path : Path)
  /-- `self._clock()` -/
  | clock
  | enqueue (id : Uuid) (objectKey : String)
  | complete (id : Uuid)
  /-- `_queue_move` of the record to another lane. -/
  | move (id : Uuid)
  | mkdir (id : Uuid) (parent : Path)
  | openQuarantine (id : Uuid) (parent : Path)
  /-- The extended attribute of the directory. -/
  | putMetadata (id : Uuid) (m : Metadata)
  | getMetadata (id : Uuid)
  | fsync
  /-- `_rename_no_replace` into the directory. -/
  | renameInto (path : Path) (id : Uuid) (name : Name)
  /-- `_rename_no_replace` inside the directory. -/
  | renameInside (id : Uuid) (source target : Name)
  /-- `_rename_no_replace` out of the directory. -/
  | renameOut (id : Uuid) (name : Name) (path : Path)
  | lstatInside (id : Uuid) (name : Name)
  | unlinkInside (id : Uuid) (name : Name)
  /-- `_descriptor_directory_empty`. -/
  | isEmpty (id : Uuid)
  | rmdir (id : Uuid)
  /-- `_prune_artifact_directories`. -/
  | prune (artifact : Uuid × Option Uuid)

/-- What a call answers. -/
@[reducible] def DeleteCall.Answer : DeleteCall → Type
  | openFile _ => FileId × Bool
  | fstat _ | lstat _ | lstatInside _ _ => EntryStatus
  | hash _ => String
  | clock => DateTime
  | getMetadata _ => Option Metadata
  | isEmpty _ => Bool
  | _ => Unit

abbrev DeleteProgram (α : Type) := Program DeleteCall DeleteCall.Answer DeleteError α

def perform (call : DeleteCall) : DeleteProgram call.Answer := Program.op call

/-- `_best_effort`. -/
def bestEffort (p : DeleteProgram Unit) : DeleteProgram Unit := Program.handle p fun _ => return ()

/-- `try: p except BaseException: cleanup; raise`. -/
def onError {α : Type} (p : DeleteProgram α) (cleanup : DeleteProgram Unit) : DeleteProgram α :=
  Program.handle p fun e => do
    cleanup
    .raise e

/-- `try: p except FileNotFoundError: h`. -/
def onNotFound {α : Type} (p h : DeleteProgram α) : DeleteProgram α :=
  Program.handle p fun e => if e = .fileNotFound then h else .raise e

/-! ## `delete_if_owned` -/

structure DeleteInput where
  objectKey : String
  expectedSha256 : String
  /-- `str(self._uuid_factory())` -/
  quarantineId : Uuid

/-- `_require_same_regular`. -/
def requireSameRegular (before after : EntryStatus) : DeleteProgram Unit :=
  if before.regular && after.regular && before.status = after.status then return ()
  else .raise (.os "regular file changed while it was open")

/-- `_require_named_identity`. -/
def requireNamedIdentity (path : Path) (expected : FileId) : DeleteProgram Unit := do
  let named : EntryStatus ← perform (.lstat path)
  if named.regular && named.status.identity = expected then return ()
  else .raise (.os "object identity changed")

/-- `_remove_empty_quarantine_directory`. -/
def removeEmptyQuarantineDirectory (id : Uuid) : DeleteProgram Unit := do
  perform (.rmdir id)
  perform .fsync

/-- `_quarantine_named` up to the rename: whether the file was there to be moved. -/
def moveIntoQuarantine (path : Path) (m : Metadata) : DeleteProgram Bool := do
  perform (.openQuarantine m.quarantineId path.dropLast)
  perform (.putMetadata m.quarantineId m)
  perform .fsync
  perform .fsync
  onNotFound
    (do
      perform (.renameInto path m.quarantineId m.originalName)
      return true)
    (do
      removeEmptyQuarantineDirectory m.quarantineId
      perform (.complete m.quarantineId)
      return false)

/-- `_quarantine_named`; `false` is its `None`. -/
def quarantineNamed (path : Path) (m : Metadata) : DeleteProgram Bool := do
  perform (.enqueue m.quarantineId m.objectKey)
  onError (perform (.mkdir m.quarantineId path.dropLast))
    (bestEffort (perform (.complete m.quarantineId)))
  let moved ← onError (moveIntoQuarantine path m) (do
    bestEffort (removeEmptyQuarantineDirectory m.quarantineId)
    bestEffort (perform (.complete m.quarantineId)))
  if moved then
    -- from here on the file is in the directory, and an exception leaves it there
    perform .fsync
    perform .fsync
    return true
  else return false

/-- `_isolate_quarantine_candidate`. -/
def isolateQuarantineCandidate (id : Uuid) (name : Name) : DeleteProgram Unit :=
  onNotFound
    (do
      let _ : EntryStatus ← perform (.lstatInside id recoveryCandidate)
      return ())
    (perform (.renameInside id name recoveryCandidate))

/-- The metadata of a file that is about to be moved into quarantine. -/
def deletionMetadata (input : DeleteInput) (name : Name) (now : DateTime) (after : FileStatus) :
    Metadata where
  quarantineId := input.quarantineId
  objectKey := input.objectKey
  originalName := name
  expectedSha256 := input.expectedSha256
  ownerExecutionId := (artifactMatch input.objectKey).bind Prod.snd
  createdAt := now
  source := some after
  outcome := none
  attemptCount := 0

/-- The directories of a generated artifact are pruned with it. -/
def pruneArtifact (objectKey : String) : DeleteProgram Unit :=
  match artifactMatch objectKey with
  | some (task, some owner) => perform (.prune (task, some owner))
  | _ => return ()

/-- The file in the quarantine directory: deleted if it is still the one that was hashed. -/
def deleteQuarantined (input : DeleteInput) (name : Name) (after : FileStatus) :
    DeleteProgram Bool := do
  isolateQuarantineCandidate input.quarantineId name
  let isolated : EntryStatus ← perform (.lstatInside input.quarantineId recoveryCandidate)
  if isolated.regular && isolated.status = after then
    perform (.unlinkInside input.quarantineId recoveryCandidate)
    perform .fsync
    removeEmptyQuarantineDirectory input.quarantineId
    perform (.complete input.quarantineId)
    pruneArtifact input.objectKey
    return true
  else return false

/-- The part of `_delete_if_owned_locked` that holds the descriptor of the file. -/
def deleteOpened (input : DeleteInput) (path : Path) (descriptor : FileId) :
    DeleteProgram Bool := do
  let before : EntryStatus ← perform (.fstat descriptor)
  let digest : String ← perform (.hash descriptor)
  let after : EntryStatus ← perform (.fstat descriptor)
  requireSameRegular before after
  requireNamedIdentity path after.status.identity
  if digest ≠ input.expectedSha256 then return false
  else
    let now : DateTime ← perform .clock
    let name := path.getLast?.getD []
    if ← quarantineNamed path (deletionMetadata input name now after.status) then
      deleteQuarantined input name after.status
    else return false

/-- `_open_regular`. -/
def openRegular (path : Path) : DeleteProgram FileId := do
  let opened : FileId × Bool ← perform (.openFile path)
  if opened.2 then return opened.1 else .raise (.os "object must be a regular file")

/-- `_delete_if_owned_locked`. -/
def deleteIfOwnedLocked (input : DeleteInput) : DeleteProgram Bool :=
  match objectKeyParts input.objectKey with
  | .error message => .raise (.invalidObjectKey message)
  | .ok path => do
      let found ← onNotFound
        (do
          perform (.openParent path.dropLast)
          let descriptor ← openRegular path
          return some descriptor)
        (return none)
      match found with
      | none => return false
      | some descriptor => deleteOpened input path descriptor

/-- `delete_if_owned`, with the gate held. -/
def deleteIfOwned (input : DeleteInput) : DeleteProgram Bool :=
  if digestPattern input.expectedSha256 then deleteIfOwnedLocked input else return false

/-! ## `_recover_queued_quarantine` -/

/-- The arguments of a sweep that the recovery of a quarantine reads. -/
structure RecoverInput where
  cutoff : DateTime
  referencedArtifactKeys : List String
  activeExecutionIds : List Uuid
  activeBuildExecutions : List (Uuid × Uuid)

/-- The file of a quarantine is still in use. -/
def RecoverInput.protects (sweep : RecoverInput) (m : Metadata) : Bool :=
  decide (m.objectKey ∈ sweep.referencedArtifactKeys) ||
    m.ownerExecutionId.any (fun owner => decide (owner ∈ sweep.activeExecutionIds)) ||
    match artifactMatch m.objectKey with
    | some (task, some owner) => sweep.activeBuildExecutions.contains (task, owner)
    | _ => false

/-- `_quarantine_prune_candidate`, and the directories are pruned. -/
def pruneQuarantine (objectKey : String) (path : Path) : DeleteProgram Unit :=
  match artifactMatch objectKey with
  | some (task, some owner) => perform (.prune (task, some owner))
  | _ =>
      match path.dropLast with
      | [root, task, owner] =>
          if root = "artifacts".toList && uuidPattern task && uuidPattern owner then
            perform (.prune (String.ofList task, some (String.ofList owner)))
          else return ()
      | _ => return ()

/-- The branch for a quarantine without a candidate. -/
def removeEmptyQuarantine (id : Uuid) (path : Path) (m : Metadata) : DeleteProgram Outcome := do
  let empty : Bool ← perform (.isEmpty id)
  if empty then
    perform (.rmdir id)
    perform .fsync
    pruneQuarantine m.objectKey path
    return .done
  else return .held

/-- `_persist_quarantine_outcome`, and the record is held. -/
def holdQuarantine (id : Uuid) (m : Metadata) (outcome : QuarantineOutcome) :
    DeleteProgram Outcome := do
  perform (.putMetadata id (m.withOutcome outcome))
  perform .fsync
  return .held

/-- The branch for a candidate: it goes back under its name if it is the file of the metadata. -/
def restoreCandidate (id : Uuid) (path : Path) (m : Metadata) (candidate : EntryStatus) :
    DeleteProgram Outcome :=
  match m.source with
  | none => holdQuarantine id m .held
  | some source =>
      if candidate.regular && candidate.status = source then do
        let restored ← Program.attempt (perform (.renameOut id recoveryCandidate path))
        match restored with
        | .error .fileExists => holdQuarantine id m .conflict
        | .error e => .raise e
        | .ok _ =>
            perform .fsync
            perform .fsync
            perform (.rmdir id)
            perform .fsync
            pruneQuarantine m.objectKey path
            return .done
      else holdQuarantine id m .conflict

/-- The part of `_recover_queued_quarantine` behind the checks of the metadata. -/
def recoverCandidate (id : Uuid) (path : Path) (m : Metadata) : DeleteProgram Outcome := do
  let candidate ← onNotFound
    (do
      isolateQuarantineCandidate id m.originalName
      let status : EntryStatus ← perform (.lstatInside id recoveryCandidate)
      return some status)
    (return none)
  match candidate with
  | none => removeEmptyQuarantine id path m
  | some status => restoreCandidate id path m status

/-- `_recover_queued_quarantine` with the metadata that it has read. -/
def recoverDescribed (sweep : RecoverInput) (id : Uuid) (objectKey : String) (path : Path)
    (metadata : Option Metadata) : DeleteProgram Outcome :=
  match metadata with
  | none => return .held
  | some m =>
      if m.objectKey ≠ objectKey then return .held
      else if m.outcome = some .conflict ∨ m.outcome = some .invalid ∨ m.outcome = some .held then
        return .held
      else if sweep.cutoff < m.createdAt then return .deferred
      else if sweep.protects m then return .deferred
      else recoverCandidate id path m

/-- `_recover_queued_quarantine`. -/
def recoverQueuedQuarantine (sweep : RecoverInput) (id : Uuid) (objectKey : String) :
    DeleteProgram Outcome :=
  match objectKeyParts objectKey with
  | .error _ => return .held
  | .ok path => do
      let parent ← onNotFound
        (do
          perform (.openParent path.dropLast)
          return true)
        (return false)
      if !parent then return .held
      else
        let found ← onNotFound
          (do
            perform (.openQuarantine id path.dropLast)
            return true)
          (return false)
        if !found then return .done
        else
          let read ← Program.attempt (perform (.getMetadata id))
          match read with
          -- the reader raises nothing but `OSError`, `RuntimeError` and `ValueError`
          | .error _ => return .held
          | .ok metadata => recoverDescribed sweep id objectKey path metadata

/-- `_process_data_queue_item` on a record of kind `quarantine`. -/
def processQuarantine (sweep : RecoverInput) (id : Uuid) (objectKey : String) :
    DeleteProgram Unit := do
  let outcome ← recoverQueuedQuarantine sweep id objectKey
  match outcome with
  | .done => perform (.complete id)
  | .deferred | .held => perform (.move id)

/-! ## The surroundings -/

/-- What has happened to a quarantine. -/
inductive Event where
  /-- Metadata was stored. -/
  | described (m : Metadata)
  /-- The status of the recovery candidate was read. -/
  | observed (status : EntryStatus)
  | quarantined (identity : FileId)
  | restored (identity : FileId) (path : Path)
  | unlinked (identity : FileId)
deriving DecidableEq

structure QuarantineDirectory where
  parent : Path
  metadata : Option Metadata
  entries : List (Name × FileId)
deriving DecidableEq

/-- What belongs to the UUID of a quarantine: its directory, the object key of its live record, and
its history, the latest event first. -/
structure Quarantine where
  directory : Option QuarantineDirectory
  record : Option String
  history : List Event
deriving DecidableEq

/-- The files outside the quarantine directories, the quarantines, the clock, and the digests that
were computed so far. -/
structure Tree where
  files : FileSystem
  regular : FileId → Bool
  quarantines : Uuid → Quarantine
  clock : DateTime
  digests : List (FileId × String)

namespace QuarantineDirectory

variable (d : QuarantineDirectory)

def find (name : Name) : Option FileId := d.entries.lookup name

def insert (name : Name) (identity : FileId) : QuarantineDirectory :=
  { d with entries := (name, identity) :: d.entries }

def erase (name : Name) : QuarantineDirectory :=
  { d with entries := d.entries.filter fun entry => entry.1 ≠ name }

end QuarantineDirectory

namespace Tree

variable (s : Tree)

def status (identity : FileId) : EntryStatus := ⟨s.regular identity, s.files.fstat identity⟩

def set (id : Uuid) (z : Quarantine) : Tree :=
  { s with quarantines := Function.update s.quarantines id z }

def setEntry (path : Path) (target : Option FileId) : Tree :=
  { s with files := s.files.setEntry path target }

end Tree

namespace Quarantine

variable (z : Quarantine)

def withDirectory (d : Option QuarantineDirectory) : Quarantine := { z with directory := d }

def withRecord (objectKey : Option String) : Quarantine := { z with record := objectKey }

def happened (e : Event) : Quarantine := { z with history := e :: z.history }

end Quarantine

/-- How the file system and the queue answer a call that does not fail. -/
def answer (sha256 : List UInt8 → String) (s : Tree) :
    (call : DeleteCall) → Except DeleteError call.Answer × Tree
  | .openParent _ => (.ok (), s)
  | .openFile path =>
      match s.files.entries path with
      | none => (.error .fileNotFound, s)
      | some identity => (.ok (identity, s.regular identity), s)
  | .fstat descriptor => (.ok (s.status descriptor), s)
  | .hash descriptor =>
      let digest := sha256 (s.files.inodes descriptor).content
      (.ok digest, { s with digests := (descriptor, digest) :: s.digests })
  | .lstat path =>
      match s.files.entries path with
      | none => (.error .fileNotFound, s)
      | some identity => (.ok (s.status identity), s)
  | .clock => (.ok s.clock, s)
  | .enqueue id objectKey => (.ok (), s.set id ((s.quarantines id).withRecord (some objectKey)))
  | .complete id => (.ok (), s.set id ((s.quarantines id).withRecord none))
  | .move _ => (.ok (), s)
  | .mkdir id parent =>
      match (s.quarantines id).directory with
      | some _ => (.error .fileExists, s)
      | none => (.ok (), s.set id ((s.quarantines id).withDirectory (some ⟨parent, none, []⟩)))
  | .openQuarantine id parent =>
      match (s.quarantines id).directory with
      | none => (.error .fileNotFound, s)
      | some d => (if d.parent = parent then .ok () else .error .fileNotFound, s)
  | .putMetadata id m =>
      match (s.quarantines id).directory with
      | none => (.error (.os "stale directory"), s)
      | some d =>
          (.ok (), s.set id
            (((s.quarantines id).withDirectory (some { d with metadata := some m })).happened
              (.described m)))
  | .getMetadata id =>
      match (s.quarantines id).directory with
      | none => (.error (.os "stale directory"), s)
      | some d => (if d.metadata.all Metadata.readable then .ok d.metadata else .error .value, s)
  | .fsync => (.ok (), s)
  | .renameInto path id name =>
      match (s.quarantines id).directory, s.files.entries path with
      | none, _ => (.error (.os "stale directory"), s)
      | some _, none => (.error .fileNotFound, s)
      | some d, some identity =>
          match d.find name with
          | some _ => (.error .fileExists, s)
          | none =>
              (.ok (), (s.setEntry path none).set id
                (((s.quarantines id).withDirectory (some (d.insert name identity))).happened
                  (.quarantined identity)))
  | .renameInside id source target =>
      match (s.quarantines id).directory with
      | none => (.error (.os "stale directory"), s)
      | some d =>
          match d.find source, d.find target with
          | none, _ => (.error .fileNotFound, s)
          | some _, some _ => (.error .fileExists, s)
          | some identity, none =>
              (.ok (), s.set id ((s.quarantines id).withDirectory
                (some ((d.erase source).insert target identity))))
  | .renameOut id name path =>
      match (s.quarantines id).directory with
      | none => (.error (.os "stale directory"), s)
      | some d =>
          match d.find name, s.files.entries path with
          | none, _ => (.error .fileNotFound, s)
          | some _, some _ => (.error .fileExists, s)
          | some identity, none =>
              (.ok (), (s.setEntry path (some identity)).set id
                (((s.quarantines id).withDirectory (some (d.erase name))).happened
                  (.restored identity path)))
  | .lstatInside id name =>
      match (s.quarantines id).directory.bind fun d => d.find name with
      | none => (.error .fileNotFound, s)
      | some identity =>
          (.ok (s.status identity),
            s.set id ((s.quarantines id).happened (.observed (s.status identity))))
  | .unlinkInside id name =>
      match (s.quarantines id).directory with
      | none => (.error (.os "stale directory"), s)
      | some d =>
          match d.find name with
          | none => (.error .fileNotFound, s)
          | some identity =>
              (.ok (), s.set id (((s.quarantines id).withDirectory (some (d.erase name))).happened
                (.unlinked identity)))
  | .isEmpty id => (.ok ((s.quarantines id).directory.all fun d => d.entries.isEmpty), s)
  | .rmdir id =>
      match (s.quarantines id).directory with
      | none => (.error .fileNotFound, s)
      | some d =>
          if d.entries.isEmpty then (.ok (), s.set id ((s.quarantines id).withDirectory none))
          else (.error (.os "directory not empty"), s)
  | .prune _ => (.ok (), s)

/-- Other programs change files outside the quarantine directories, and the contents of any file;
time passes. -/
structure Disturbs (s t : Tree) : Prop where
  quarantines : t.quarantines = s.quarantines
  digests : t.digests = s.digests

/-- The errors that a call may raise at any time. -/
def Fails : DeleteCall → DeleteError → Prop
  | .openParent _, _ => True
  | _, e => e ≠ .fileNotFound ∧ e ≠ .fileExists

/-- An operation of the queue may take effect and raise. -/
def DeleteCall.onQueue : DeleteCall → Bool
  | enqueue _ _ | complete _ => true
  | _ => false

/-- After other programs had their turn, the call is answered, or it fails. -/
inductive Answers (sha256 : List UInt8 → String) (s : Tree) (call : DeleteCall) :
    Except DeleteError call.Answer → Tree → Prop
  | answered {s' : Tree} (h : Disturbs s s') :
      Answers sha256 s call (answer sha256 s' call).1 (answer sha256 s' call).2
  | failed {s' : Tree} {e : DeleteError} (h : Disturbs s s') (he : Fails call e) :
      Answers sha256 s call (.error e) s'
  | lost {s' : Tree} {e : DeleteError} (h : Disturbs s s') (he : Fails call e)
      (hqueue : call.onQueue = true) : Answers sha256 s call (.error e) (answer sha256 s' call).2

/-! ## The system -/

inductive QuarantineAction where
  /-- A call of `delete_if_owned`, up to its end or to a crash. -/
  | delete (input : DeleteInput)
  /-- A sweep comes to the record of a quarantine, up to its end or to a crash. -/
  | recover (sweep : RecoverInput) (id : Uuid)
  | others

/-- Deletes, sweeps and crashes in any order, from a tree without quarantines. The UUID of a delete
is new. -/
def quarantineSystem (sha256 : List UInt8 → String) : System Tree QuarantineAction where
  init s := (∀ id, s.quarantines id = ⟨none, none, []⟩) ∧ s.digests = []
  step s
    | .delete input, t => s.quarantines input.quarantineId = ⟨none, none, []⟩ ∧
        Program.Stops (Answers sha256) (deleteIfOwned input) s t
    | .recover sweep id, t => ∃ objectKey, (s.quarantines id).record = some objectKey ∧
        Program.Stops (Answers sha256) (processQuarantine sweep id objectKey) s t
    | .others, t => Disturbs s t

end WheelForge.Storage.OwnedDelete
