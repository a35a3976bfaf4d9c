import WheelForge.Maintenance.QueueRuns
import WheelForge.Storage.Files

/-!
# Publications and the sweeps that overtake them

`_publish` enqueues an intent and creates its stage file in one gated section, copies the content
without the gate, and identifies, links and completes in a second one. Sweeps and other holders of
the gate run in between. Every gated section is one step of `storageSystem`.
-/

set_option autoImplicit false

namespace WheelForge.Storage

open WheelForge.Maintenance
open WheelForge.Transition

/-! ## Queue records -/

/-- The fields of the snapshot of a stage file. -/
structure SourceIdentity where
  identity : FileId
  size : Nat
  mtime : Int
  sha256 : String
deriving DecidableEq

/-- A record of kind `publication`; `source` is absent until the snapshot. -/
structure PublicationRecord where
  objectKey : String
  stageObjectKey : String
  stageOwnershipToken : String
  ownerExecutionId : Option Uuid
  createdAt : DateTime
  source : Option SourceIdentity
deriving DecidableEq

/-- The kinds of the records for files without an intent. -/
inductive FileKind where
  | artifact
  | stage
deriving DecidableEq, Repr

inductive QueueBody where
  | publication (record : PublicationRecord)
  | file (kind : FileKind) (objectKey : String)
  | quarantine (objectKey : String) (quarantineId : Uuid) (nextAttemptAt : Option DateTime)
  /-- Any other kind. -/
  | unknown
deriving DecidableEq

/-- The UUID, JSON and digest functions of the storage. -/
structure StorageCodec extends QueueCodec QueueBody where
  sha256 : List UInt8 → String
  /-- `str(UUID(text))` matches `_UUID_PATTERN`. -/
  uuid_pattern : ∀ {text id : Uuid}, canonicalUuid text = some id → uuidPattern id.toList = true

/-- `_data_queue_mutation_cost`. -/
def mutationCost : QueueBody → Nat
  | .quarantine .. => 16
  | .file .artifact _ | .publication _ => 12
  | .file .stage _ => 8
  | .unknown => 5

/-- `_queue_record_is_due`. -/
def recordIsDue (now : DateTime) (record : QueueRecord QueueBody) : Bool :=
  match record.body with
  | .quarantine _ _ (some nextAttempt) => nextAttempt ≤ now
  | _ => true

/-! ## The data root -/

structure DataRoot where
  queue : QueueDir QueueBody
  files : FileSystem

inductive StorageError where
  | invalidObjectKey (message : String)
  | queue (error : QueueError)
  | fileNotFound
  | fileExists
  | os (message : String)
  | value
deriving DecidableEq

/-- A section that holds the gate: an exception leaves the root as it is by then. -/
abbrev Gated (α : Type) := EStateM StorageError DataRoot α

/-- A program of the queue in a section. -/
def onQueue {α : Type} (p : QueueProgram QueueBody α) : Gated α := fun root =>
  match run p root.queue with
  | (.ok a, queue) => .ok a { root with queue := queue }
  | (.error e, queue) => .error (.queue e) { root with queue := queue }

def setFiles (files : FileSystem) : Gated Unit := modify fun root => { root with files := files }

/-- `_require_named_identity`. -/
def requireNamedIdentity (path : Path) (identity : FileId) : Gated Unit := do
  let root ← get
  match root.files.entries path with
  | none => throw .fileNotFound
  | some named =>
      if named = identity then pure () else throw (.os "object identity changed")

/-- `_create_exclusive` with `_set_descriptor_xattr`: the inode of the new file. -/
def createExclusive (path : Path) (identity : FileId) (marker : String) (mtime : Int) :
    Gated Unit := do
  let root ← get
  match root.files.entries path with
  | some _ => throw .fileExists
  | none =>
      setFiles ((root.files.setEntry path (some identity)).setInode identity
        ⟨[], mtime, some marker⟩)

/-- `_link_no_replace`. -/
def linkNoReplace (source target : Path) : Gated Unit := do
  let root ← get
  match root.files.entries source, root.files.entries target with
  | none, _ => throw .fileNotFound
  | some _, some _ => throw .fileExists
  | some identity, none => setFiles (root.files.setEntry target (some identity))

/-- `_unlink_named`. -/
def unlinkNamed (path : Path) : Gated Unit := do
  let root ← get
  setFiles (root.files.unlink path)

/-! ## `_publish` -/

/-- Where a call of `_publish` is: it copies, it has read the status of the complete stage file, it
has returned, an exception is on its way to the clean-up, or the exception has left the call. -/
inductive Phase where
  | copying
  | copied (status : FileStatus)
  | published
  | failing
  | raised
deriving DecidableEq

/-- The locals of a call of `_publish`. -/
structure Publication where
  objectKey : String
  parts : Path
  owner : Option Uuid
  stageIdentifier : Uuid
  intent : QueueItem QueueBody
  /-- `None` when the stage file could not be created. -/
  descriptor : Option FileId
  /-- What the writer has copied. -/
  written : List UInt8
  phase : Phase

namespace Publication

variable (p : Publication)

def stageName : Name := stageNameOf p.owner p.stageIdentifier

def stagePath : Path := p.parts.dropLast ++ [p.stageName]

/-- The call is between its two sections. -/
def inProgress : Bool :=
  match p.phase with
  | .copying | .copied _ => true
  | _ => false

/-- The call has steps left. -/
def Open : Prop := p.phase ≠ .published ∧ p.phase ≠ .raised

end Publication

section Publish

variable (limits : QueueLimits) (codec : StorageCodec)

/-- The record of an intent. -/
def intentRecord (objectKey : String) (parts : Path) (owner : Option Uuid) (stageIdentifier : Uuid)
    (now : DateTime) : PublicationRecord where
  objectKey := objectKey
  stageObjectKey := joinParts (parts.dropLast ++ [stageNameOf owner stageIdentifier])
  stageOwnershipToken := stageIdentifier
  ownerExecutionId := owner
  createdAt := now
  source := none

/-- The arguments of a call and what it draws: its UUIDs, the clock, and the inode of its stage
file with its time. -/
structure PublishInput where
  objectKey : String
  ownerExecutionId : Option String
  stageIdentifier : Uuid
  recordId : Uuid
  now : DateTime
  descriptor : FileId
  mtime : Int

/-- `str(UUID(owner_execution_id)) if owner_execution_id else None`. -/
def canonicalOwner (owner : Option String) : Except StorageError (Option Uuid) :=
  match owner with
  | none | some "" => .ok none
  | some text =>
      match codec.canonicalUuid text with
      | some owner => .ok (some owner)
      | none => .error .value

/-- The part of `_publish` before its first section. -/
def publishArguments (input : PublishInput) : Except StorageError (Path × Option Uuid) :=
  match objectKeyParts input.objectKey with
  | .error message => .error (.invalidObjectKey message)
  | .ok parts =>
      match canonicalOwner codec input.ownerExecutionId with
      | .error e => .error e
      | .ok owner => .ok (parts, owner)

/-- The intent of the first section. -/
def enqueueIntent (input : PublishInput) (parts : Path) (owner : Option Uuid) :
    Gated (QueueItem QueueBody) :=
  onQueue (enqueue limits codec.toQueueCodec .ready
    ⟨none, none, .publication
      (intentRecord input.objectKey parts owner input.stageIdentifier input.now)⟩
    input.recordId true false)

/-- The snapshot that the second section adds to the intent. -/
def snapshot (record : PublicationRecord) (status : FileStatus) (digest : String) :
    PublicationRecord :=
  { record with source := some ⟨status.identity, status.size, status.mtime, digest⟩ }

/-- The body of the record that the second section moves. -/
def snapshotBody (p : Publication) (status : FileStatus) : QueueBody :=
  match p.intent.record.body with
  | .publication record => .publication (snapshot record status (codec.sha256 p.written))
  | body => body

/-- The second section up to the assignment of `intent`. -/
def identifyStage (p : Publication) (status : FileStatus) : Gated (QueueItem QueueBody) := do
  requireNamedIdentity p.stagePath status.identity
  onQueue (queueMove limits codec.toQueueCodec p.intent .ready (some (snapshotBody codec p status)))

/-- The rest of the second section. -/
def linkStage (p : Publication) (intent : QueueItem QueueBody) : Gated Unit := do
  linkNoReplace p.stagePath p.parts
  unlinkNamed p.stagePath
  if (artifactMatch p.objectKey).isNone then onQueue (complete limits intent) else pure ()

/-- The clean-up section of a failed call. -/
def cleanUp (p : Publication) : Gated Unit :=
  match p.descriptor with
  | none => onQueue (complete limits p.intent)
  | some identity => do
      let root ← get
      if (artifactMatch p.objectKey).isNone || (root.files.entries p.parts).isNone then
        match root.files.entries p.stagePath with
        | none => pure ()
        | some named =>
            if named = identity then do
              unlinkNamed p.stagePath
              onQueue (complete limits p.intent)
            else throw (.os "object identity changed")
      else pure ()

end Publish

/-! ## `sweep_abandoned` -/

/-- What a record is worth to a sweep. -/
inductive Outcome where
  | done
  | deferred
  | held
deriving DecidableEq, Repr

structure SweepBudget where
  maxQuarantines : Nat
  maxEntries : Nat
  maxMutations : Nat

/-- The arguments of a sweep, and what it observes of the clocks and of the quarantines. -/
structure SweepInput where
  /-- The time of `cutoff.timestamp()`, in the unit of `st_mtime_ns`. -/
  cutoff : Int
  referencedArtifactKeys : List String
  activeExecutionIds : List Uuid
  activeBuildExecutions : List (Uuid × Uuid)
  budget : SweepBudget
  now : DateTime
  /-- Whether the deadline is still ahead, with so many records of a lane left. -/
  inTime : Lane → Nat → Bool
  /-- `_recover_queued_quarantine`. -/
  recoverQuarantine : QueueBody → FileSystem → Outcome × FileSystem
  /-- The listing of the root directory, as far as the scan of it gets. -/
  rootEntries : List Name

/-- The statistics of a sweep that its loops read. -/
structure SweepStats where
  quarantinesExamined : Nat
  entriesScanned : Nat
  mutations : Nat
  budgetExhausted : Bool

section Sweep

variable (limits : QueueLimits) (codec : StorageCodec) (sweep : SweepInput)

/-- `match.group("owner") in active_execution_ids`. -/
def activeOwner (owner : Option Uuid) : Bool :=
  match owner with
  | some owner => owner ∈ sweep.activeExecutionIds
  | none => false

/-- `(match.group("task"), match.group("owner")) in active_build_executions`. -/
def activeBuild (artifact : Uuid × Option Uuid) : Bool :=
  match artifact with
  | (task, some owner) => (task, owner) ∈ sweep.activeBuildExecutions
  | (_, none) => false

/-- A stage file that a sweep leaves alone. -/
def keepsStage (status : FileStatus) (owner : Option Uuid) : Bool :=
  sweep.cutoff < status.mtime || activeOwner sweep owner

/-- `_publication_marker_matches`. -/
def publicationMarkerMatches (files : FileSystem) (path : Path) (token : String) : Bool :=
  codec.canonicalUuid token = some token &&
    match files.entries path with
    | none => false
    | some identity => (files.inodes identity).marker = some token

/-- `is_owned` of `_recover_queued_publication`. -/
def isOwned (source : SourceIdentity) (status : Option FileStatus) : Bool :=
  match status with
  | none => false
  | some status => status.identity = source.identity && status.size = source.size

/-- `_recover_queued_publication` on a record with a snapshot. -/
def recoverIdentified (files : FileSystem) (objectKey : String) (parts stageParts : Path)
    (stageOwner : Option Uuid) (source : SourceIdentity) : Outcome × FileSystem :=
  match files.stat parts, files.stat stageParts, artifactMatch objectKey with
  | some canonical, staged, artifact =>
      if !isOwned source (some canonical) then
        if isOwned source staged then
          (if artifact.isNone then .done else .held, files.unlink stageParts)
        else if staged.isNone && artifact.isNone then (.done, files)
        else (.held, files)
      else if staged.isSome && !isOwned source staged then (.held, files)
      else
        let released := if isOwned source staged then files.unlink stageParts else files
        match artifact with
        | none => (.done, released)
        | some artifact =>
            if objectKey ∈ sweep.referencedArtifactKeys || activeBuild sweep artifact ||
                sweep.cutoff < canonical.mtime then
              (.deferred, files)
            else (.done, released.unlink parts)
  | none, none, _ => (.done, files)
  | none, some staged, _ =>
      if !isOwned source (some staged) then (.held, files)
      else if keepsStage sweep staged stageOwner then (.deferred, files)
      else (.done, files.unlink stageParts)

/-- `_recover_queued_publication`. -/
def recoverPublication (files : FileSystem) (record : PublicationRecord) :
    Outcome × FileSystem :=
  match objectKeyParts record.objectKey, objectKeyParts record.stageObjectKey with
  | .ok parts, .ok stageParts =>
      if parts.dropLast ≠ stageParts.dropLast then (.held, files)
      else
        match stageMatch (stageParts.getLast?.getD []) with
        | none => (.held, files)
        | some stageOwner =>
            match files.stat parts, files.stat stageParts, record.source with
            | none, none, _ => (.done, files)
            | _, _, some source =>
                recoverIdentified sweep files record.objectKey parts stageParts stageOwner source
            | some _, _, none => (.held, files)
            | none, some staged, none =>
                if !publicationMarkerMatches codec files stageParts record.stageOwnershipToken then
                  (.held, files)
                else if keepsStage sweep staged stageOwner then (.deferred, files)
                else (.done, files.unlink stageParts)
  | _, _ => (.held, files)

/-- `_recover_queued_file` on a record of kind `artifact` or `stage`. -/
def recoverFile (files : FileSystem) (kind : FileKind) (objectKey : String) :
    Outcome × FileSystem :=
  match objectKeyParts objectKey with
  | .error _ => (.done, files)
  | .ok parts =>
      match files.stat parts with
      | none => (.done, files)
      | some status =>
          if sweep.cutoff < status.mtime then (.deferred, files)
          else
            match kind with
            | .stage =>
                match stageMatch (parts.getLast?.getD []) with
                | none => (.held, files)
                | some owner =>
                    if activeOwner sweep owner then (.deferred, files)
                    else (.done, files.unlink parts)
            | .artifact =>
                match artifactMatch objectKey with
                | none => (.held, files)
                | some artifact =>
                    if objectKey ∈ sweep.referencedArtifactKeys || activeBuild sweep artifact then
                      (.deferred, files)
                    else (.done, files.unlink parts)

/-- What a sweep does with the files of a record. -/
def recoverRecord (files : FileSystem) (body : QueueBody) : Outcome × FileSystem :=
  match body with
  | .quarantine .. => sweep.recoverQuarantine body files
  | .publication record => recoverPublication codec sweep files record
  | .file kind objectKey => recoverFile sweep files kind objectKey
  | .unknown => (.held, files)

/-- The body of a deferred record. -/
def deferredBody (body : QueueBody) : QueueBody :=
  match body with
  | .quarantine objectKey quarantineId _ =>
      .quarantine objectKey quarantineId (some (sweep.now + seconds 300))
  | body => body

/-- `_process_data_queue_item`. -/
def processItem (item : QueueItem QueueBody) : Gated Unit := do
  let root ← get
  let (outcome, files) := recoverRecord codec sweep root.files item.record.body
  setFiles files
  match outcome with
  | .done => onQueue (complete limits item)
  | .deferred =>
      let _ ← onQueue (queueMove limits codec.toQueueCodec item .deferred
        (some (deferredBody sweep item.record.body)))
      pure ()
  | .held =>
      let _ ← onQueue (queueMove limits codec.toQueueCodec item .held none)
      pure ()

/-- The statistics after a record was processed. -/
def SweepStats.processed (stats : SweepStats) (body : QueueBody) : SweepStats :=
  { stats with
    quarantinesExamined := stats.quarantinesExamined +
      (match body with
      | .quarantine .. => 1
      | _ => 0)
    mutations := stats.mutations + mutationCost body }

/-- `_data_budget_available`. -/
def budgetAvailable (stats : SweepStats) (inTime : Bool) : Bool :=
  inTime && stats.entriesScanned < sweep.budget.maxEntries &&
    stats.quarantinesExamined < sweep.budget.maxQuarantines &&
    stats.mutations < sweep.budget.maxMutations

/-- The next record of a lane, and the entries that were scanned for it. -/
def nextItem (lane : Lane) (stats : SweepStats) :
    Gated (Option (QueueItem QueueBody) × SweepStats) :=
  match lane with
  | .deferred => do
      let (item, inspected) ← onQueue (peekDue limits lane (recordIsDue sweep.now)
        (sweep.budget.maxEntries - stats.entriesScanned))
      pure (item, { stats with entriesScanned := stats.entriesScanned + inspected })
  | _ => do
      let item ← onQueue (peek limits lane)
      pure (item, if item.isSome then
        { stats with entriesScanned := stats.entriesScanned + 1 } else stats)

/-- The loop over a lane, for the given number of records. -/
def sweepLane (lane : Lane) : Nat → SweepStats → Gated SweepStats
  | 0, stats => pure stats
  | n + 1, stats =>
      if !budgetAvailable sweep stats (sweep.inTime lane n) then
        pure { stats with budgetExhausted := true }
      else do
        let (item, stats) ← nextItem limits sweep lane stats
        match item with
        | none => pure stats
        | some item =>
            if sweep.budget.maxMutations < stats.mutations + mutationCost item.record.body then
              pure { stats with budgetExhausted := true }
            else do
              processItem limits codec sweep item
              sweepLane lane n (stats.processed item.record.body)

/-- `_scan_legacy_root_entries` on the stage files among the root entries. -/
def scanRootEntries (files : FileSystem) : List Name → FileSystem
  | [] => files
  | name :: names =>
      scanRootEntries
        (match stageMatch name, files.stat [name] with
        | some owner, some status =>
            if keepsStage sweep status owner then files else files.unlink [name]
        | _, _ => files) names

/-- The loop over the lanes of `_sweep_abandoned_locked`. -/
def sweepLanes (state : QueueState) : List Lane → SweepStats → Gated SweepStats
  | [], stats => pure stats
  | lane :: lanes, stats => do
      let stats ← sweepLane limits codec sweep lane (state.lanes lane).count stats
      if stats.budgetExhausted then pure stats else sweepLanes state lanes stats

/-- `_sweep_abandoned_locked`. -/
def sweepAbandoned : Gated Unit := do
  let state ← onQueue (readState limits)
  let stats ← sweepLanes limits codec sweep state [.ready, .deferred] ⟨0, 0, 0, false⟩
  let root ← get
  if budgetAvailable sweep stats (sweep.inTime .held 0) then
    setFiles (scanRootEntries sweep root.files sweep.rootEntries)
  else pure ()

end Sweep

/-! ## The system -/

/-- The data root and the calls of `_publish`. -/
structure World where
  root : DataRoot
  calls : Nat → Option Publication

def World.setCall (w : World) (call : Nat) (p : Publication) : World :=
  { w with calls := Function.update w.calls call (some p) }

inductive StorageAction where
  /-- `_publish` up to the end of its first section. -/
  | start (call : Nat) (input : PublishInput)
  | write (call : Nat) (chunk : List UInt8) (mtime : Int)
  /-- The writer returns, and the status of the stage file is read. -/
  | close (call : Nat)
  /-- The second section. -/
  | finish (call : Nat)
  /-- An exception of the writer, or of a gate that is not free in time. -/
  | fail (call : Nat)
  | cleanUp (call : Nat)
  | sweep (input : SweepInput)
  /-- Other queue traffic. -/
  | queue (action : QueueAction QueueBody)
  /-- Other changes of the directory entries, as in `delete_if_owned`. -/
  | entry (path : Path) (target : Option FileId)

section System

variable (limits : QueueLimits) (codec : StorageCodec)

/-- The root when a section ends, however it ends. -/
def rootAfter {α : Type} (section_ : Gated α) (root : DataRoot) : DataRoot :=
  match section_ root with
  | .ok _ root => root
  | .error _ root => root

/-- The locals of a call after its first section. -/
def startedCall (input : PublishInput) (parts : Path) (owner : Option Uuid)
    (intent : QueueItem QueueBody) : Publication where
  objectKey := input.objectKey
  parts := parts
  owner := owner
  stageIdentifier := input.stageIdentifier
  intent := intent
  descriptor := some input.descriptor
  written := []
  phase := .copying

def startCall (w : World) (call : Nat) (input : PublishInput) : World :=
  match publishArguments codec input with
  | .error _ => w
  | .ok (parts, owner) =>
      match enqueueIntent limits codec input parts owner w.root with
      | .error _ root => { w with root := root }
      | .ok intent root =>
          let p := startedCall input parts owner intent
          match createExclusive p.stagePath input.descriptor input.stageIdentifier input.mtime
            root with
          | .ok _ root => { w with root := root }.setCall call p
          | .error _ root =>
              { w with root := root }.setCall call { p with descriptor := none, phase := .failing }

/-- The inode of a stage file after the writer appended to it. -/
def Inode.append (inode : Inode) (chunk : List UInt8) (mtime : Int) : Inode :=
  { inode with content := inode.content ++ chunk, mtime := mtime }

def writeCall (w : World) (call : Nat) (p : Publication) (chunk : List UInt8) (mtime : Int) :
    World :=
  match p.phase, p.descriptor with
  | .copying, some identity =>
      { w with
        root := { w.root with
          files := w.root.files.setInode identity
            ((w.root.files.inodes identity).append chunk mtime) } }.setCall call
        { p with written := p.written ++ chunk }
  | _, _ => w

def closeCall (w : World) (call : Nat) (p : Publication) : World :=
  match p.phase, p.descriptor with
  | .copying, some identity =>
      let status := w.root.files.fstat identity
      w.setCall call
        { p with phase := if status.size = p.written.length then .copied status else .failing }
  | _, _ => w

def finishCall (w : World) (call : Nat) (p : Publication) : World :=
  match p.phase with
  | .copied status =>
      match identifyStage limits codec p status w.root with
      | .error _ root => { w with root := root }.setCall call { p with phase := .failing }
      | .ok intent root =>
          match linkStage limits p intent root with
          | .error _ root =>
              { w with root := root }.setCall call { p with intent := intent, phase := .failing }
          | .ok _ root =>
              { w with root := root }.setCall call { p with intent := intent, phase := .published }
  | _ => w

def failCall (w : World) (call : Nat) (p : Publication) : World :=
  if p.inProgress then w.setCall call { p with phase := .failing } else w

def cleanUpCall (w : World) (call : Nat) (p : Publication) : World :=
  match p.phase with
  | .failing =>
      { w with root := rootAfter (cleanUp limits p) w.root }.setCall call { p with phase := .raised }
  | _ => w

/-- A step of a call that has started. -/
def onCall (w : World) (call : Nat) (f : Publication → World) : World :=
  match w.calls call with
  | some p => f p
  | none => w

def StorageAction.perform (w : World) : StorageAction → World
  | .start call input => startCall limits codec w call input
  | .write call chunk mtime => onCall w call fun p => writeCall w call p chunk mtime
  | .close call => onCall w call fun p => closeCall w call p
  | .finish call => onCall w call fun p => finishCall limits codec w call p
  | .fail call => onCall w call fun p => failCall w call p
  | .cleanUp call => onCall w call fun p => cleanUpCall limits w call p
  | .sweep input => { w with root := rootAfter (sweepAbandoned limits codec input) w.root }
  | .queue action =>
      { w with root := { w.root with
          queue := action.perform limits codec.toQueueCodec w.root.queue } }
  | .entry path target =>
      { w with root := { w.root with files := w.root.files.setEntry path target } }

/-- What `uuid4` and the file system promise of what a call draws: its UUIDs are canonical and new,
and the new inode has no name and no descriptor. -/
structure Fresh (w : World) (call : Nat) (input : PublishInput) : Prop where
  call : w.calls call = none
  record_canonical : codec.canonicalUuid input.recordId = some input.recordId
  stage_canonical : codec.canonicalUuid input.stageIdentifier = some input.stageIdentifier
  record_call : ∀ c p, w.calls c = some p → p.intent.record.recordId ≠ input.recordId
  record_live : ∀ f ∈ w.root.queue.slots, f.record.recordId ≠ input.recordId
  stage_call : ∀ c p, w.calls c = some p → p.stageIdentifier ≠ input.stageIdentifier
  stage_live : ∀ f ∈ w.root.queue.slots, ∀ record, f.record.body = .publication record →
    record.stageOwnershipToken ≠ input.stageIdentifier
  stage_entry : ∀ path owner, w.root.files.entries (path ++ [stageNameOf owner
    input.stageIdentifier]) = none
  inode_entry : ∀ path, w.root.files.entries path ≠ some input.descriptor
  inode_open : ∀ c p, w.calls c = some p → p.Open → p.descriptor ≠ some input.descriptor

/-- Queue traffic of others: it has its own record ids and writes no publication records. -/
def Foreign (w : World) : QueueAction QueueBody → Prop
  | .enqueue _ input fresh _ _ =>
      (∀ id, codec.canonicalUuid (input.recordId.getD fresh) = some id →
        ∀ c p, w.calls c = some p → p.intent.record.recordId ≠ id) ∧
      ∀ record, input.body ≠ .publication record
  | .complete item => ∀ c p, w.calls c = some p → p.intent.record.recordId ≠ item.record.recordId
  | .move item _ body =>
      (∀ id, id = item.record.recordId ∨ codec.canonicalUuid item.record.recordId = some id →
        ∀ c p, w.calls c = some p → p.intent.record.recordId ≠ id) ∧
      ∀ record, body.getD item.record.body ≠ .publication record
  | _ => True

/-- Files with stage names keep their names and contents. -/
def KeepsStages (files files' : FileSystem) : Prop :=
  files'.inodes = files.inodes ∧ ∀ path owner stageIdentifier,
    files'.entries (path ++ [stageNameOf owner stageIdentifier]) =
      files.entries (path ++ [stageNameOf owner stageIdentifier])

/-- The steps that can happen. -/
def Enabled (w : World) : StorageAction → Prop
  | .start call input => Fresh codec w call input
  | .sweep input => ∀ body files, KeepsStages files (input.recoverQuarantine body files).2
  | .queue action => Foreign codec w action
  | .entry path _ => ∀ parent owner stageIdentifier,
      path ≠ parent ++ [stageNameOf owner stageIdentifier]
  | _ => True

/-- Calls of `_publish`, sweeps and other traffic in any order. -/
def storageSystem : System World StorageAction where
  init w := w.root.queue = QueueDir.initial ∧ w.calls = fun _ => none
  step w a t := Enabled codec w a ∧ t = a.perform limits codec w

end System

end WheelForge.Storage
