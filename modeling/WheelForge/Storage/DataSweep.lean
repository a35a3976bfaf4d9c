import WheelForge.Storage.OwnedDelete
import WheelForge.Storage.SweepBudgets

/-!
# The sweep of the data root

`RootedLocalStorage.sweep_abandoned` with the statistics that it reports. The sweep is a program: its
calls are the steps of the maintenance queue, the calls to the clocks and to the file system, and the
recovery of one record. They may be answered in any way.

Most steps compare what they cost with the budget before they are made. The legacy scan does not: it
removes an entry, at the price of two mutations, when one mutation is left, and it scans the
`artifacts` directory after the root directory without a look at the budget of directories. A sweep
stays within its budget if and only if its calls are affordable where they are made.
-/

set_option autoImplicit false

namespace WheelForge.Storage.DataSweep

open WheelForge.Interaction WheelForge.Maintenance
open OwnedDelete (Metadata)

/-! ## Calls -/

/-- The directories that the legacy scan lists. -/
inductive ScannedDirectory where
  | root
  | artifacts
deriving DecidableEq, Repr

/-- The result of `entry.stat(follow_symlinks=False)`: `S_ISREG(st_mode)` and `st_mtime`. -/
structure EntryStatus where
  regular : Bool
  mtime : Int

inductive DataCall where
  | monotonic
  /-- `self._clock()` -/
  | clock
  /-- Entering `_exclusive_descriptor_gate`, with the readings of the clock that this takes. -/
  | acquireGate (deadline : Int)
  | queue (call : QueueCall QueueBody)
  /-- What `_process_data_queue_item` does with the files of a record. -/
  | recoverRecord (body : QueueBody)
  | freshUuid
  | scandir (directory : ScannedDirectory)
  /-- The next name of the listing. -/
  | nextEntry (directory : ScannedDirectory)
  /-- `os.open("artifacts", ..)` -/
  | openArtifacts
  | lstat (directory : ScannedDirectory) (name : Name)
  | unlink (directory : ScannedDirectory) (name : Name)
  | fsync (directory : ScannedDirectory)
  | openQuarantine (directory : ScannedDirectory) (name : Name)
  /-- `_read_quarantine_metadata` -/
  | readMetadata (directory : ScannedDirectory) (name : Name)
  /-- `os.fstat(descriptor).st_mtime` -/
  | fstatMtime (directory : ScannedDirectory) (name : Name)
  /-- `_descriptor_directory_empty` -/
  | isEmpty (directory : ScannedDirectory) (name : Name)
  | rmdir (directory : ScannedDirectory) (name : Name)
  /-- Whether `_LEGACY_QUARANTINE_STATE_XATTR` is set. -/
  | legacyState (directory : ScannedDirectory) (name : Name)
  | setLegacyState (directory : ScannedDirectory) (name : Name)
  /-- `_persist_quarantine_outcome(.., "held")` -/
  | persistOutcome (directory : ScannedDirectory) (name : Name)
  /-- `_fsync_descriptor` on a quarantine. -/
  | fsyncQuarantine (directory : ScannedDirectory) (name : Name)

/-- What a call answers. -/
@[reducible] def DataCall.Answer : DataCall → Type
  | monotonic | fstatMtime _ _ => Int
  | clock => DateTime
  | acquireGate _ | isEmpty _ _ | legacyState _ _ => Bool
  | queue call => Except QueueError call.Answer
  | recoverRecord _ => Outcome
  | freshUuid => Uuid
  | nextEntry _ => Option Name
  | lstat _ _ => EntryStatus
  | readMetadata _ _ => Option Metadata
  | _ => Unit

abbrev DataProgram (α : Type) := Program DataCall DataCall.Answer SweepError α

def perform (call : DataCall) : DataProgram call.Answer := Program.op call

/-- A program of the queue of the data root. -/
def onQueue {α : Type} (p : QueueProgram QueueBody α) : DataProgram α :=
  Program.embed DataCall.queue (fun _ answer => answer) SweepError.queue p

/-! ## Statistics -/

/-- `StorageSweepStats`, without the counters of the recovery of a record. -/
structure StorageSweepStats where
  emptyQuarantinesRemoved : Nat := 0
  quarantinesExamined : Nat := 0
  budgetExhausted : Bool := false
  directoriesScanned : Nat := 0
  entriesScanned : Nat := 0
  mutations : Nat := 0
  lockContended : Bool := false
  progressMade : Bool := false
  backlogEntries : Nat := 0
  quarantinesHeld : Nat := 0
  queueRecordBytes : Nat := 0
  queueSegments : Nat := 0
  queueCapacityEvents : Nat := 0
deriving DecidableEq, Repr

namespace StorageSweepStats

def mutated (stats : StorageSweepStats) (mutations : Nat) : StorageSweepStats :=
  { stats with mutations := stats.mutations + mutations, progressMade := true }

def scanned (stats : StorageSweepStats) (entries : Nat) : StorageSweepStats :=
  { stats with entriesScanned := stats.entriesScanned + entries }

def listed (stats : StorageSweepStats) : StorageSweepStats :=
  { stats with directoriesScanned := stats.directoriesScanned + 1 }

def exhausted (stats : StorageSweepStats) : StorageSweepStats :=
  { stats with budgetExhausted := true }

/-- `quarantines_examined += 1` for a record of kind `quarantine`. -/
def examined (stats : StorageSweepStats) (body : QueueBody) : StorageSweepStats :=
  { stats with
    quarantinesExamined := stats.quarantinesExamined +
      (match body with
      | .quarantine .. => 1
      | _ => 0) }

def counted (stats : StorageSweepStats) (counts : QueueCounts) : StorageSweepStats :=
  { stats with
    backlogEntries := counts.ready + counts.deferred
    quarantinesHeld := counts.held
    queueRecordBytes := counts.recordBytes
    queueSegments := counts.segments
    queueCapacityEvents := counts.capacityEvents }

end StorageSweepStats

/-! ## The sweep -/

/-- The arguments of a sweep. -/
structure DataSweepInput where
  cutoff : DateTime
  /-- `cutoff.timestamp()` -/
  cutoffTimestamp : Int
  activeExecutionIds : List Uuid
  budget : StorageSweepBudget

section Sweep

variable (limits : QueueLimits) (codec : StorageCodec) (sweep : DataSweepInput) (deadline : Int)

/-- `_data_budget_available`. -/
def dataBudgetAvailable (stats : StorageSweepStats) : DataProgram Bool := do
  let now : Int ← perform .monotonic
  return now < deadline && stats.entriesScanned < sweep.budget.maxEntries &&
    stats.quarantinesExamined < sweep.budget.maxQuarantines &&
    stats.mutations < sweep.budget.maxMutations

/-- The next record of a lane, and the statistics with the entries scanned for it. -/
def nextItem (lane : Lane) (stats : StorageSweepStats) :
    DataProgram (Option (QueueItem QueueBody) × StorageSweepStats) :=
  match lane with
  | .deferred => do
      let now : DateTime ← perform .clock
      let found ← onQueue (peekDue limits lane (recordIsDue now)
        ((sweep.budget.maxEntries : Int) - stats.entriesScanned))
      return (found.1, stats.scanned found.2)
  | _ => do
      let item ← onQueue (peek limits lane)
      return (item, if item.isSome then stats.scanned 1 else stats)

/-- The record of a deferred item: a quarantine waits five minutes. -/
def deferredRecord (now : DateTime) : QueueBody → QueueBody
  | .quarantine objectKey quarantineId _ =>
      .quarantine objectKey quarantineId (some (now + seconds 300))
  | body => body

/-- The queue and the statistics after a record with an outcome. -/
def settle (item : QueueItem QueueBody) (outcome : Outcome) (stats : StorageSweepStats) :
    DataProgram StorageSweepStats :=
  match outcome with
  | .done => do
      onQueue (complete limits item)
      return stats
  | .deferred => do
      let now : DateTime ← perform .clock
      let _ ← onQueue (queueMove limits codec.toQueueCodec item .deferred
        (some (deferredRecord now item.record.body)))
      return stats
  | .held => do
      let _ ← onQueue (queueMove limits codec.toQueueCodec item .held none)
      return { stats with quarantinesHeld := stats.quarantinesHeld + 1 }

/-- `_process_data_queue_item`. -/
def processDataQueueItem (item : QueueItem QueueBody) (stats : StorageSweepStats) :
    DataProgram StorageSweepStats := do
  let stats := stats.examined item.record.body
  let outcome : Outcome ← perform (.recoverRecord item.record.body)
  let stats ← settle limits codec item outcome stats
  return stats.mutated (mutationCost item.record.body)

/-- The loop over a lane, for the given number of records. -/
def sweepLane (lane : Lane) : Nat → StorageSweepStats → DataProgram StorageSweepStats
  | 0, stats => return stats
  | n + 1, stats => do
      if ← dataBudgetAvailable sweep deadline stats then
        let found ← nextItem limits sweep lane stats
        match found.1 with
        | none => return found.2
        | some item =>
            if sweep.budget.maxMutations < found.2.mutations + mutationCost item.record.body then
              return found.2.exhausted
            else
              let stats ← processDataQueueItem limits codec item found.2
              sweepLane lane n stats
      else return stats.exhausted

/-! ## The legacy scan -/

/-- `match.group("owner") in active_execution_ids`. -/
def ownerActive (owner : Option Uuid) : Bool :=
  match owner with
  | some owner => owner ∈ sweep.activeExecutionIds
  | none => false

/-- The branch for a stage file. -/
def scanStage (name : Name) (owner : Option Uuid) (stats : StorageSweepStats) :
    DataProgram StorageSweepStats := do
  let status : EntryStatus ← perform (.lstat .root name)
  if status.regular && status.mtime ≤ sweep.cutoffTimestamp && !ownerActive sweep owner then
    perform (.unlink .root name)
    perform (.fsync .root)
    return stats.mutated 2
  else return stats

/-- `except (OSError, RuntimeError, ValueError)`. -/
def SweepError.isCaught : SweepError → Bool
  | .other => false
  | _ => true

/-- `_read_quarantine_metadata`, with `None` where it fails. -/
def quarantineMetadata (directory : ScannedDirectory) (name : Name) :
    DataProgram (Option Metadata) :=
  Program.handle (perform (.readMetadata directory name)) fun e =>
    if SweepError.isCaught e then return none else .raise e

/-- `old_enough`. -/
def oldEnough (directory : ScannedDirectory) (name : Name)
    (metadata : Option Metadata) : DataProgram Bool :=
  if metadata.any fun metadata => decide (metadata.createdAt ≤ sweep.cutoff) then return true
  else do
    let mtime : Int ← perform (.fstatMtime directory name)
    return mtime ≤ sweep.cutoffTimestamp

/-- The record of a legacy quarantine. -/
def legacyRecord (quarantineId : Uuid) : Option Metadata → RecordInput QueueBody
  | none => ⟨some quarantineId, none, .unknown⟩
  | some metadata => ⟨some quarantineId, none, .quarantine metadata.objectKey quarantineId none⟩

/-- `_index_legacy_quarantine` without a deadline; the source identity is absent where it enqueues,
so that the lane is `held`. -/
def indexLegacyQuarantine (directory : ScannedDirectory) (name : Name) (quarantineId : Uuid)
    (metadata : Option Metadata) (stats : StorageSweepStats) :
    DataProgram StorageSweepStats :=
  if (metadata.bind Metadata.source).isSome then return stats
  else do
    let indexed : Bool ← perform (.legacyState directory name)
    if indexed then return stats
    else if sweep.budget.maxMutations < stats.mutations + 16 then return stats.exhausted
    else
      let fresh : Uuid ← perform .freshUuid
      let _ ← onQueue (enqueue limits codec.toQueueCodec .held (legacyRecord quarantineId metadata)
        fresh true false)
      if metadata.isSome then perform (.persistOutcome directory name)
      perform (.setLegacyState directory name)
      perform (.fsyncQuarantine directory name)
      return stats.mutated 16

/-- The branch for a quarantine. -/
def scanQuarantine (directory : ScannedDirectory) (name : Name) (quarantineId : Uuid)
    (stats : StorageSweepStats) : DataProgram StorageSweepStats := do
  perform (.openQuarantine directory name)
  let metadata ← quarantineMetadata directory name
  if ← oldEnough sweep directory name metadata then
    let empty : Bool ← perform (.isEmpty directory name)
    if empty then
      perform (.rmdir directory name)
      perform (.fsync directory)
      return { stats.mutated 2 with
        emptyQuarantinesRemoved := stats.emptyQuarantinesRemoved + 1 }
    else indexLegacyQuarantine limits codec sweep directory name quarantineId metadata stats
  else return stats

/-- `_QUARANTINE.fullmatch`: the identifier. -/
def quarantineMatch (name : Name) : Option Uuid :=
  if name.take 18 = ".wf-quarantine-v1-".toList && uuidPattern (name.drop 18) then
    some (String.ofList (name.drop 18))
  else none

/-- The body of the loop over the root directory. -/
def scanRootEntry (name : Name) (stats : StorageSweepStats) : DataProgram StorageSweepStats :=
  match stageMatch name, quarantineMatch name with
  | some owner, _ => scanStage sweep name owner stats
  | none, some quarantineId => scanQuarantine limits codec sweep .root name quarantineId stats
  | none, none => return stats

/-- The body of the loop over the `artifacts` directory. -/
def scanArtifactsEntry (name : Name) (stats : StorageSweepStats) : DataProgram StorageSweepStats :=
  match quarantineMatch name with
  | some quarantineId => scanQuarantine limits codec sweep .artifacts name quarantineId stats
  | none => return stats

/-- The loop over a listing, and whether it reached the end of the listing. Every iteration scans an
entry, so that the budget of entries bounds their number; the first argument counts down with it. -/
def scanEntries (directory : ScannedDirectory)
    (body : Name → StorageSweepStats → DataProgram StorageSweepStats) :
    Nat → StorageSweepStats → DataProgram (Bool × StorageSweepStats)
  | 0, stats => return (false, stats.exhausted)
  | n + 1, stats => do
      let entry : Option Name ← perform (.nextEntry directory)
      match entry with
      | none => return (true, stats)
      | some name =>
          if ← dataBudgetAvailable sweep deadline stats then
            let stats ← body name (stats.scanned 1)
            scanEntries directory body n stats
          else return (false, stats.exhausted)

/-- The scan of a directory. -/
def scanDirectory (directory : ScannedDirectory)
    (body : Name → StorageSweepStats → DataProgram StorageSweepStats)
    (stats : StorageSweepStats) : DataProgram (Bool × StorageSweepStats) := do
  perform (.scandir directory)
  scanEntries sweep deadline directory body (sweep.budget.maxEntries - stats.entriesScanned + 1)
    stats.listed

/-- The part of the legacy scan for the `artifacts` directory. -/
def scanArtifacts (stats : StorageSweepStats) : DataProgram StorageSweepStats := do
  match ← Program.attempt (perform .openArtifacts) with
  | .ok _ =>
      let scan ← scanDirectory sweep deadline .artifacts (scanArtifactsEntry limits codec sweep)
        stats
      return scan.2
  | .error .fileNotFound => return stats
  | .error e => .raise e

/-- `_scan_legacy_root_entries`. -/
def scanLegacyRootEntries (stats : StorageSweepStats) : DataProgram StorageSweepStats := do
  if ← dataBudgetAvailable sweep deadline stats then
    let scan ← scanDirectory sweep deadline .root (scanRootEntry limits codec sweep) stats
    if scan.1 then
      if ← dataBudgetAvailable sweep deadline scan.2 then
        scanArtifacts limits codec sweep deadline scan.2
      else return scan.2
    else return scan.2
  else return stats

/-- The loop over the lanes. -/
def sweepLanes (counts : QueueCounts) : DataProgram StorageSweepStats := do
  let stats ← sweepLane limits codec sweep deadline .ready counts.ready {}
  if stats.budgetExhausted then return stats
  else sweepLane limits codec sweep deadline .deferred counts.deferred stats

/-- `_sweep_abandoned_locked`. -/
def sweepAbandonedLocked : DataProgram StorageSweepStats := do
  let initial ← onQueue (queueCounts limits)
  let stats ← sweepLanes limits codec sweep deadline initial
  let stats ← scanLegacyRootEntries limits codec sweep deadline stats
  let counts ← onQueue (queueCounts limits)
  let stats := stats.counted counts
  return if 0 < stats.backlogEntries then stats.exhausted else stats

/-- `RootedLocalStorage.sweep_abandoned`. -/
def sweepAbandoned : DataProgram StorageSweepStats := do
  let start : Int ← perform .monotonic
  let deadline := start + sweep.budget.maxSeconds
  let acquired : Bool ← perform (.acquireGate deadline)
  if acquired then sweepAbandonedLocked limits codec sweep deadline
  else
    let counts ← onQueue (queueCounts limits)
    return ({ budgetExhausted := true, lockContended := true : StorageSweepStats }).counted counts

end Sweep

/-! ## What the calls cost -/

/-- The mutations that a sweep charges for a call. -/
def DataCall.charge : DataCall → Nat
  | recoverRecord body => mutationCost body
  | unlink _ _ | rmdir _ _ => 2
  | setLegacyState _ _ => 16
  | _ => 0

def DataCall.isScan : DataCall → Bool
  | scandir _ => true
  | _ => false

/-- The mutations charged for the calls so far. -/
def mutationsOf (calls : List DataCall) : Nat := (calls.map DataCall.charge).sum

/-- The directories scanned by the calls so far. -/
def scansOf (calls : List DataCall) : Nat := calls.countP DataCall.isScan

/-- A call that the sweep makes without a look at the budget that it draws on: the removal of an
entry needs two mutations, a scan needs a directory. -/
def CallAffordable (budget : StorageSweepBudget) (earlier : List DataCall) : DataCall → Prop
  | .unlink _ _ | .rmdir _ _ => mutationsOf earlier + 2 ≤ budget.maxMutations
  | .scandir _ => scansOf earlier + 1 ≤ budget.maxDirectories
  | _ => True

/-- Every call is affordable where it is made; the latest call comes first. -/
def Affordable (budget : StorageSweepBudget) : List DataCall → Prop
  | [] => True
  | call :: earlier => Affordable budget earlier ∧ CallAffordable budget earlier call

/-- The reported statistics are within the budget. -/
structure Within (budget : StorageSweepBudget) (stats : StorageSweepStats) : Prop where
  mutations : stats.mutations ≤ budget.maxMutations
  entries : stats.entriesScanned ≤ budget.maxEntries
  quarantines : stats.quarantinesExamined ≤ budget.maxQuarantines
  directories : stats.directoriesScanned ≤ budget.maxDirectories

/-- A call is answered in any way and recorded. -/
def Recorded (calls : List DataCall) (call : DataCall) (_ : Except SweepError call.Answer)
    (calls' : List DataCall) : Prop :=
  calls' = call :: calls

/-- The statistics agree with the calls so far, and the calls were affordable if and only if the
mutations and the directories are within the budget. Entries and quarantines always are. -/
structure Charged (budget : StorageSweepBudget) (calls : List DataCall)
    (stats : StorageSweepStats) : Prop where
  mutations : mutationsOf calls = stats.mutations
  scans : scansOf calls = stats.directoriesScanned
  affordable : Affordable budget calls ↔
    stats.mutations ≤ budget.maxMutations ∧ stats.directoriesScanned ≤ budget.maxDirectories
  entries : stats.entriesScanned ≤ budget.maxEntries
  quarantines : stats.quarantinesExamined ≤ budget.maxQuarantines

section Accounting

variable {budget : StorageSweepBudget} {calls : List DataCall} {stats stats' : StorageSweepStats}

/-- The fields that are accounted for are the same. -/
structure SameAccount (stats stats' : StorageSweepStats) : Prop where
  mutations : stats'.mutations = stats.mutations
  directories : stats'.directoriesScanned = stats.directoriesScanned
  entries : stats'.entriesScanned = stats.entriesScanned
  quarantines : stats'.quarantinesExamined = stats.quarantinesExamined

theorem Charged.congr (h : Charged budget calls stats) (hsame : SameAccount stats stats') :
    Charged budget calls stats' where
  mutations := h.mutations.trans hsame.mutations.symm
  scans := h.scans.trans hsame.directories.symm
  affordable := by
    rw [hsame.mutations, hsame.directories]
    exact h.affordable
  entries := hsame.entries ▸ h.entries
  quarantines := hsame.quarantines ▸ h.quarantines

theorem SameAccount.exhausted (stats : StorageSweepStats) : SameAccount stats stats.exhausted :=
  ⟨rfl, rfl, rfl, rfl⟩

theorem SameAccount.counted (stats : StorageSweepStats) (counts : QueueCounts) :
    SameAccount stats (stats.counted counts) :=
  ⟨rfl, rfl, rfl, rfl⟩

/-- A call that costs nothing. -/
def DataCall.Free (call : DataCall) : Prop := call.charge = 0 ∧ call.isScan = false

theorem Charged.free (h : Charged budget calls stats) {call : DataCall} (hcall : call.Free) :
    Charged budget (call :: calls) stats where
  mutations := by
    rw [← h.mutations]
    simp [mutationsOf, hcall.1]
  scans := by
    rw [← h.scans]
    simp [scansOf, hcall.2]
  affordable := by
    rw [← h.affordable]
    have hafford : CallAffordable budget calls call := by
      obtain ⟨hcharge, hscan⟩ := hcall
      cases call <;> simp_all [CallAffordable, DataCall.charge, DataCall.isScan]
    simp [Affordable, hafford]
  entries := h.entries
  quarantines := h.quarantines

theorem Charged.scanned (h : Charged budget calls stats) {entries : Nat}
    (hentries : stats.entriesScanned + entries ≤ budget.maxEntries) :
    Charged budget calls (stats.scanned entries) :=
  ⟨h.mutations, h.scans, h.affordable, hentries, h.quarantines⟩

/-- A charge that was compared with the budget before. -/
theorem Charged.paid (h : Charged budget calls stats) {call : DataCall}
    (hscan : call.isScan = false) (hafford : ∀ earlier, CallAffordable budget earlier call)
    (hpaid : stats.mutations + call.charge ≤ budget.maxMutations) :
    Charged budget (call :: calls) (stats.mutated call.charge) where
  mutations := by
    have hsum := h.mutations
    simp [mutationsOf, StorageSweepStats.mutated] at hsum ⊢
    omega
  scans := by
    rw [StorageSweepStats.mutated, ← h.scans]
    simp [scansOf, hscan]
  affordable := by
    have hprevious := h.affordable
    simp only [Affordable, hafford calls, and_true, StorageSweepStats.mutated, hprevious]
    constructor
    · rintro ⟨_, hdirectories⟩
      exact ⟨hpaid, hdirectories⟩
    · rintro ⟨hmutations, hdirectories⟩
      exact ⟨by omega, hdirectories⟩
  entries := h.entries
  quarantines := h.quarantines

/-- A removal by the legacy scan. -/
theorem Charged.removed (h : Charged budget calls stats) {call : DataCall}
    (hscan : call.isScan = false) (hcharge : call.charge = 2)
    (hafford : ∀ earlier, CallAffordable budget earlier call ↔
      mutationsOf earlier + 2 ≤ budget.maxMutations) :
    Charged budget (call :: calls) (stats.mutated 2) where
  mutations := by
    have hsum := h.mutations
    simp [mutationsOf, StorageSweepStats.mutated, hcharge] at hsum ⊢
    omega
  scans := by
    rw [StorageSweepStats.mutated, ← h.scans]
    simp [scansOf, hscan]
  affordable := by
    have hprevious := h.affordable
    simp only [Affordable, hafford calls, StorageSweepStats.mutated, hprevious, h.mutations]
    constructor
    · rintro ⟨⟨_, hdirectories⟩, hmutations⟩
      exact ⟨hmutations, hdirectories⟩
    · rintro ⟨hmutations, hdirectories⟩
      exact ⟨⟨by omega, hdirectories⟩, hmutations⟩
  entries := h.entries
  quarantines := h.quarantines

theorem Charged.listed (h : Charged budget calls stats) (directory : ScannedDirectory) :
    Charged budget (.scandir directory :: calls) stats.listed where
  mutations := by
    rw [StorageSweepStats.listed, ← h.mutations]
    simp [mutationsOf, DataCall.charge]
  scans := by
    rw [StorageSweepStats.listed, ← h.scans]
    exact List.countP_cons_of_pos rfl
  affordable := by
    have hprevious := h.affordable
    simp only [Affordable, CallAffordable, StorageSweepStats.listed, hprevious, h.scans]
    constructor
    · rintro ⟨⟨hmutations, _⟩, hdirectories⟩
      exact ⟨hmutations, hdirectories⟩
    · rintro ⟨hmutations, hdirectories⟩
      exact ⟨⟨hmutations, by omega⟩, hdirectories⟩
  entries := h.entries
  quarantines := h.quarantines

theorem charged_start (budget : StorageSweepBudget) (stats : StorageSweepStats)
    (hsame : SameAccount {} stats) : Charged budget [] stats := by
  have hzero : Charged budget [] {} := by
    constructor <;> simp [mutationsOf, scansOf, Affordable]
  exact hzero.congr hsame

/-- The statistics are within the budget if and only if the calls were affordable. -/
theorem Charged.within_iff (h : Charged budget calls stats) :
    Within budget stats ↔ Affordable budget calls := by
  rw [h.affordable]
  constructor
  · intro hwithin
    exact ⟨hwithin.mutations, hwithin.directories⟩
  · rintro ⟨hmutations, hdirectories⟩
    exact ⟨hmutations, h.entries, h.quarantines, hdirectories⟩

end Accounting

/-! ## What the sweep charges -/

section Specifications

variable {limits : QueueLimits} {codec : StorageCodec} {sweep : DataSweepInput} {deadline : Int}
  {calls : List DataCall} {stats : StorageSweepStats}

theorem returns_perform {call : DataCall} {Q : List DataCall → call.Answer → Prop}
    (h : ∀ v, Q (call :: calls) v) : (perform call).Returns Recorded calls Q := by
  unfold perform
  rw [Program.returns_op]
  rintro v calls' rfl
  exact h v

/-- A call that costs nothing, and what follows it. -/
theorem returns_free {α : Type} {call : DataCall} {f : call.Answer → DataProgram α}
    {Q : List DataCall → α → Prop} (hcall : call.Free) (h : Charged sweep.budget calls stats)
    (hf : ∀ v calls', Charged sweep.budget calls' stats → (f v).Returns Recorded calls' Q) :
    (perform call >>= f).Returns Recorded calls Q := by
  rw [Program.returns_bind]
  apply returns_perform
  intro v
  exact hf v _ (h.free hcall)

theorem onQueue_returns {α : Type} {p : QueueProgram QueueBody α} {Q : α → Prop}
    (hp : p.Yields Q) (h : Charged sweep.budget calls stats) :
    (onQueue p).Returns Recorded calls fun t a => Charged sweep.budget t stats ∧ Q a := by
  apply hp.embed (I := fun t => Charged sweep.budget t stats) _ h
  rintro t call r t' ht rfl
  exact ht.free ⟨rfl, rfl⟩

/-- The steps of the queue, and what follows them. -/
theorem returns_queue {α β : Type} {p : QueueProgram QueueBody α} {f : α → DataProgram β}
    {Q : List DataCall → β → Prop} (h : Charged sweep.budget calls stats)
    (hf : ∀ a calls', Charged sweep.budget calls' stats → (f a).Returns Recorded calls' Q) :
    (onQueue p >>= f).Returns Recorded calls Q := by
  rw [Program.returns_bind]
  apply (onQueue_returns (Q := fun _ => True) (.of_forall fun _ => trivial) h).mono
  rintro calls' a ⟨h', -⟩
  exact hf a calls' h'

theorem dataBudgetAvailable_returns (h : Charged sweep.budget calls stats) :
    (dataBudgetAvailable sweep deadline stats).Returns Recorded calls fun t available =>
      Charged sweep.budget t stats ∧ (available = true →
        stats.entriesScanned < sweep.budget.maxEntries ∧
          stats.quarantinesExamined < sweep.budget.maxQuarantines) := by
  apply returns_free ⟨rfl, rfl⟩ h
  intro now calls' h'
  rw [Program.returns_pure]
  refine ⟨h', ?_⟩
  intro havailable
  simp at havailable
  exact ⟨havailable.1.1.2, havailable.1.2⟩

theorem nextItem_returns {lane : Lane} (h : Charged sweep.budget calls stats)
    (hentries : stats.entriesScanned < sweep.budget.maxEntries) :
    (nextItem limits sweep lane stats).Returns Recorded calls fun t found =>
      Charged sweep.budget t found.2 ∧
        found.2.quarantinesExamined = stats.quarantinesExamined := by
  have hpeek : (do
      let item ← onQueue (peek limits lane)
      return (item, if item.isSome then stats.scanned 1 else stats) :
        DataProgram (Option (QueueItem QueueBody) × StorageSweepStats)).Returns Recorded calls
      fun t found => Charged sweep.budget t found.2 ∧
        found.2.quarantinesExamined = stats.quarantinesExamined := by
    apply returns_queue h
    intro item calls' h'
    rw [Program.returns_pure]
    split
    · exact ⟨h'.scanned hentries, rfl⟩
    · exact ⟨h', rfl⟩
  cases lane with
  | ready => exact hpeek
  | held => exact hpeek
  | deferred =>
      apply returns_free ⟨rfl, rfl⟩ h
      intro now calls' h'
      rw [Program.returns_bind]
      apply (onQueue_returns peekDue_inspected h').mono
      rintro t found ⟨ht, hinspected⟩
      rw [Program.returns_pure]
      refine ⟨ht.scanned ?_, rfl⟩
      omega

theorem settle_returns {item : QueueItem QueueBody} {outcome : Outcome}
    {paid : StorageSweepStats} (h : Charged sweep.budget calls paid) :
    (settle limits codec item outcome stats).Returns Recorded calls fun t stats' =>
      Charged sweep.budget t paid ∧ SameAccount stats stats' := by
  cases outcome with
  | done =>
      apply returns_queue h
      intro _ calls' h'
      exact Program.returns_pure.2 ⟨h', ⟨rfl, rfl, rfl, rfl⟩⟩
  | deferred =>
      apply returns_free ⟨rfl, rfl⟩ h
      intro now calls' h'
      apply returns_queue h'
      intro _ t ht
      exact Program.returns_pure.2 ⟨ht, ⟨rfl, rfl, rfl, rfl⟩⟩
  | held =>
      apply returns_queue h
      intro _ calls' h'
      exact Program.returns_pure.2 ⟨h', ⟨rfl, rfl, rfl, rfl⟩⟩

theorem SameAccount.mutated {stats' : StorageSweepStats} (h : SameAccount stats stats')
    (mutations : Nat) : SameAccount (stats.mutated mutations) (stats'.mutated mutations) where
  mutations := congrArg (· + mutations) h.mutations
  directories := h.directories
  entries := h.entries
  quarantines := h.quarantines

theorem Charged.examined (h : Charged sweep.budget calls stats) (body : QueueBody)
    (hquarantines : stats.quarantinesExamined < sweep.budget.maxQuarantines) :
    Charged sweep.budget calls (stats.examined body) where
  mutations := h.mutations
  scans := h.scans
  affordable := h.affordable
  entries := h.entries
  quarantines := by
    have hone : (match body with
        | .quarantine .. => 1
        | _ => 0) ≤ 1 := by cases body <;> simp
    simp only [StorageSweepStats.examined]
    omega

/-- A record is processed when its cost was compared with the budget. -/
theorem processDataQueueItem_returns {item : QueueItem QueueBody}
    (h : Charged sweep.budget calls stats)
    (hquarantines : stats.quarantinesExamined < sweep.budget.maxQuarantines)
    (hcost : stats.mutations + mutationCost item.record.body ≤ sweep.budget.maxMutations) :
    (processDataQueueItem limits codec item stats).Returns Recorded calls
      (Charged sweep.budget) := by
  unfold processDataQueueItem
  rw [Program.returns_bind]
  apply returns_perform
  intro outcome
  have hpaid : Charged sweep.budget (.recoverRecord item.record.body :: calls)
      ((stats.examined item.record.body).mutated (mutationCost item.record.body)) :=
    (h.examined item.record.body hquarantines).paid rfl (fun _ => trivial) hcost
  rw [Program.returns_bind]
  apply (settle_returns hpaid).mono
  rintro t stats' ⟨ht, hsame⟩
  exact Program.returns_pure.2 (ht.congr (hsame.mutated _))

theorem sweepLane_returns {lane : Lane} (n : Nat) (h : Charged sweep.budget calls stats) :
    (sweepLane limits codec sweep deadline lane n stats).Returns Recorded calls
      (Charged sweep.budget) := by
  induction n generalizing calls stats with
  | zero => exact Program.returns_pure.2 h
  | succ n ih =>
      unfold sweepLane
      rw [Program.returns_bind]
      apply (dataBudgetAvailable_returns h).mono
      rintro t available ⟨ht, havailable⟩
      cases available with
      | false => exact Program.returns_pure.2 (ht.congr (.exhausted stats))
      | true =>
          obtain ⟨hentries, hquarantines⟩ := havailable rfl
          simp only [if_true]
          rw [Program.returns_bind]
          apply (nextItem_returns ht hentries).mono
          rintro u ⟨item, stats'⟩ ⟨hu, hsame⟩
          cases item with
          | none => exact Program.returns_pure.2 hu
          | some item =>
              simp only
              split
              · exact Program.returns_pure.2 (hu.congr (.exhausted stats'))
              · next hcost =>
                  rw [Program.returns_bind]
                  apply (processDataQueueItem_returns hu (hsame ▸ hquarantines)
                    (Nat.le_of_not_lt hcost)).mono
                  intro v stats'' hv
                  exact ih hv

/-! ### The legacy scan -/

theorem scanStage_returns {name : Name} {owner : Option Uuid}
    (h : Charged sweep.budget calls stats) :
    (scanStage sweep name owner stats).Returns Recorded calls (Charged sweep.budget) := by
  apply returns_free ⟨rfl, rfl⟩ h
  intro status t ht
  split
  · rw [Program.returns_bind]
    apply returns_perform
    intro _
    have hremoved : Charged sweep.budget (.unlink .root name :: t) (stats.mutated 2) :=
      ht.removed rfl rfl fun _ => Iff.rfl
    apply returns_free ⟨rfl, rfl⟩ hremoved
    intro _ u hu
    exact Program.returns_pure.2 hu
  · exact Program.returns_pure.2 ht

theorem quarantineMetadata_returns {directory : ScannedDirectory} {name : Name}
    (h : Charged sweep.budget calls stats) :
    (quarantineMetadata directory name).Returns Recorded calls fun t _ =>
      Charged sweep.budget t stats := by
  unfold quarantineMetadata Program.Returns perform
  rw [Program.meets_handle, Program.meets_op]
  refine ⟨trivial, ?_⟩
  rintro (e | metadata) t rfl
  · have ht : Charged sweep.budget (.readMetadata directory name :: calls) stats :=
      h.free ⟨rfl, rfl⟩
    change Program.Returns _ _ _ _
    split
    · exact Program.returns_pure.2 ht
    · exact Program.returns_raise
  · rintro _ ⟨⟩
    exact h.free ⟨rfl, rfl⟩

theorem oldEnough_returns {directory : ScannedDirectory} {name : Name}
    {metadata : Option Metadata} (h : Charged sweep.budget calls stats) :
    (oldEnough sweep directory name metadata).Returns Recorded calls fun t _ =>
      Charged sweep.budget t stats := by
  unfold oldEnough
  split
  · exact Program.returns_pure.2 h
  · apply returns_free ⟨rfl, rfl⟩ h
    intro mtime t ht
    exact Program.returns_pure.2 ht

theorem indexLegacyQuarantine_returns {directory : ScannedDirectory} {name : Name}
    {quarantineId : Uuid} {metadata : Option Metadata}
    (h : Charged sweep.budget calls stats) :
    (indexLegacyQuarantine limits codec sweep directory name quarantineId metadata stats).Returns
      Recorded calls (Charged sweep.budget) := by
  unfold indexLegacyQuarantine
  split
  · exact Program.returns_pure.2 h
  apply returns_free ⟨rfl, rfl⟩ h
  intro indexed t ht
  split
  · exact Program.returns_pure.2 ht
  split
  · exact Program.returns_pure.2 (ht.congr (.exhausted stats))
  next hcost =>
  apply returns_free ⟨rfl, rfl⟩ ht
  intro fresh t ht
  apply returns_queue ht
  intro _ t ht
  -- the cost of the index was compared with the budget: it is charged with the attribute
  have hindexed : ∀ calls', Charged sweep.budget calls' stats →
      (do
        perform (.setLegacyState directory name)
        perform (.fsyncQuarantine directory name)
        return stats.mutated 16 : DataProgram StorageSweepStats).Returns Recorded calls'
        (Charged sweep.budget) := by
    intro calls' h'
    rw [Program.returns_bind]
    apply returns_perform
    intro _
    have hpaid : Charged sweep.budget (.setLegacyState directory name :: calls')
        (stats.mutated 16) :=
      h'.paid rfl (fun _ => trivial) (Nat.le_of_not_lt hcost)
    apply returns_free ⟨rfl, rfl⟩ hpaid
    intro _ u hu
    exact Program.returns_pure.2 hu
  split
  · apply returns_free ⟨rfl, rfl⟩ ht
    intro _ u hu
    exact hindexed u hu
  · exact hindexed t ht

theorem scanQuarantine_returns {directory : ScannedDirectory} {name : Name} {quarantineId : Uuid}
    (h : Charged sweep.budget calls stats) :
    (scanQuarantine limits codec sweep directory name quarantineId stats).Returns Recorded calls
      (Charged sweep.budget) := by
  apply returns_free ⟨rfl, rfl⟩ h
  intro _ t ht
  rw [Program.returns_bind]
  apply (quarantineMetadata_returns ht).mono
  intro t metadata ht
  rw [Program.returns_bind]
  apply (oldEnough_returns ht).mono
  intro t old ht
  cases old with
  | false => exact Program.returns_pure.2 ht
  | true =>
      apply returns_free ⟨rfl, rfl⟩ ht
      intro empty t ht
      split
      · rw [Program.returns_bind]
        apply returns_perform
        intro _
        have hremoved : Charged sweep.budget (.rmdir directory name :: t) (stats.mutated 2) :=
          ht.removed rfl rfl fun _ => Iff.rfl
        apply returns_free ⟨rfl, rfl⟩ hremoved
        intro _ u hu
        exact Program.returns_pure.2 (hu.congr ⟨rfl, rfl, rfl, rfl⟩)
      · exact indexLegacyQuarantine_returns ht

theorem scanRootEntry_returns {name : Name} (h : Charged sweep.budget calls stats) :
    (scanRootEntry limits codec sweep name stats).Returns Recorded calls
      (Charged sweep.budget) := by
  unfold scanRootEntry
  split
  · exact scanStage_returns h
  · exact scanQuarantine_returns h
  · exact Program.returns_pure.2 h

theorem scanArtifactsEntry_returns {name : Name} (h : Charged sweep.budget calls stats) :
    (scanArtifactsEntry limits codec sweep name stats).Returns Recorded calls
      (Charged sweep.budget) := by
  unfold scanArtifactsEntry
  split
  · exact scanQuarantine_returns h
  · exact Program.returns_pure.2 h

section Listing

variable {directory : ScannedDirectory}
  {body : Name → StorageSweepStats → DataProgram StorageSweepStats}

theorem scanEntries_returns
    (hbody : ∀ name calls stats, Charged sweep.budget calls stats →
      (body name stats).Returns Recorded calls (Charged sweep.budget))
    (n : Nat) (h : Charged sweep.budget calls stats) :
    (scanEntries sweep deadline directory body n stats).Returns Recorded calls fun t scan =>
      Charged sweep.budget t scan.2 := by
  induction n generalizing calls stats with
  | zero => exact Program.returns_pure.2 (h.congr (.exhausted stats))
  | succ n ih =>
      apply returns_free ⟨rfl, rfl⟩ h
      intro entry t ht
      cases entry with
      | none => exact Program.returns_pure.2 ht
      | some name =>
          simp only
          rw [Program.returns_bind]
          apply (dataBudgetAvailable_returns ht).mono
          rintro t available ⟨ht, havailable⟩
          cases available with
          | false => exact Program.returns_pure.2 (ht.congr (.exhausted stats))
          | true =>
              simp only [if_true]
              rw [Program.returns_bind]
              apply (hbody name t _ (ht.scanned (havailable rfl).1)).mono
              intro t stats' ht
              exact ih ht

theorem scanDirectory_returns
    (hbody : ∀ name calls stats, Charged sweep.budget calls stats →
      (body name stats).Returns Recorded calls (Charged sweep.budget))
    (h : Charged sweep.budget calls stats) :
    (scanDirectory sweep deadline directory body stats).Returns Recorded calls fun t scan =>
      Charged sweep.budget t scan.2 := by
  unfold scanDirectory
  rw [Program.returns_bind]
  apply returns_perform
  intro _
  exact scanEntries_returns hbody _ (h.listed directory)

end Listing

theorem scanArtifacts_returns (h : Charged sweep.budget calls stats) :
    (scanArtifacts limits codec sweep deadline stats).Returns Recorded calls
      (Charged sweep.budget) := by
  unfold scanArtifacts
  rw [Program.returns_bind, Program.returns_attempt]
  unfold perform
  rw [Program.meets_op]
  refine ⟨trivial, ?_⟩
  rintro result t rfl
  have ht : Charged sweep.budget (.openArtifacts :: calls) stats := h.free ⟨rfl, rfl⟩
  split
  · rw [Program.returns_bind]
    apply (scanDirectory_returns (fun _ _ _ => scanArtifactsEntry_returns) ht).mono
    intro t scan ht
    exact Program.returns_pure.2 ht
  · exact Program.returns_pure.2 ht
  · exact Program.returns_raise

theorem scanLegacyRootEntries_returns (h : Charged sweep.budget calls stats) :
    (scanLegacyRootEntries limits codec sweep deadline stats).Returns Recorded calls
      (Charged sweep.budget) := by
  unfold scanLegacyRootEntries
  rw [Program.returns_bind]
  apply (dataBudgetAvailable_returns h).mono
  rintro t available ⟨ht, -⟩
  cases available with
  | false => exact Program.returns_pure.2 ht
  | true =>
      simp only [if_true]
      rw [Program.returns_bind]
      apply (scanDirectory_returns (fun _ _ _ => scanRootEntry_returns) ht).mono
      intro t scan ht
      split
      · rw [Program.returns_bind]
        apply (dataBudgetAvailable_returns ht).mono
        rintro t available ⟨ht, -⟩
        cases available with
        | false => exact Program.returns_pure.2 ht
        | true => exact scanArtifacts_returns ht
      · exact Program.returns_pure.2 ht

/-! ### The whole sweep -/

theorem sweepAbandonedLocked_returns (h : Charged sweep.budget calls {}) :
    (sweepAbandonedLocked limits codec sweep deadline).Returns Recorded calls
      (Charged sweep.budget) := by
  apply returns_queue h
  intro initial t ht
  rw [Program.returns_bind]
  have hlanes : (sweepLanes limits codec sweep deadline initial).Returns Recorded t
      (Charged sweep.budget) := by
    unfold sweepLanes
    rw [Program.returns_bind]
    apply (sweepLane_returns initial.ready ht).mono
    intro t stats ht
    split
    · exact Program.returns_pure.2 ht
    · exact sweepLane_returns initial.deferred ht
  apply hlanes.mono
  intro t stats ht
  rw [Program.returns_bind]
  apply (scanLegacyRootEntries_returns ht).mono
  intro t stats ht
  apply returns_queue ht
  intro counts t ht
  rw [Program.returns_pure]
  have hcounted := ht.congr (.counted stats counts)
  split
  · exact hcounted.congr (.exhausted _)
  · exact hcounted

/-- However its calls are answered, a sweep that returns has charged its calls. -/
theorem sweepAbandoned_returns :
    (sweepAbandoned limits codec sweep).Returns Recorded [] (Charged sweep.budget) := by
  have hstart := charged_start sweep.budget {} ⟨rfl, rfl, rfl, rfl⟩
  apply returns_free ⟨rfl, rfl⟩ hstart
  intro start t ht
  apply returns_free ⟨rfl, rfl⟩ ht
  intro acquired t ht
  split
  · exact sweepAbandonedLocked_returns ht
  · apply returns_queue ht
    intro counts t ht
    exact Program.returns_pure.2 (ht.congr ⟨rfl, rfl, rfl, rfl⟩)

end Specifications

end WheelForge.Storage.DataSweep
