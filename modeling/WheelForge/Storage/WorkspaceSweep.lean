import WheelForge.Storage.DataSweep
import WheelForge.Storage.MinimumAge
import WheelForge.Storage.PublicationSafety

/-!
# The sweep of the workspaces

`WorkspaceManager.sweep_abandoned` with the statistics that it reports. Before an item the sweep
reserves ten mutations, the price of moving the item; the removal of the workspace of the item gets
what is left of the budget and compares every step with it. A sweep that returns is within its
budget.
-/

set_option autoImplicit false

namespace WheelForge.Storage.WorkspaceSweep

open WheelForge.Interaction WheelForge.Maintenance

/-! ## Records -/

/-- The value of a field of a record, as `json.loads` returns it; `true` and `false` are the integers
1 and 0, and a string that is not Unicode text is `other`. -/
inductive RecordField where
  | missing
  | text (value : String)
  | integer (value : Int)
  | other
deriving DecidableEq, Repr

structure WorkspaceRecord where
  kind : RecordField
  executionId : RecordField
  workspaceName : RecordField
  sourceDev : RecordField
  sourceIno : RecordField
  /-- `None` also where it is not a date. -/
  nextAttemptAt : Option DateTime
deriving DecidableEq

/-- `(st_dev, st_ino)` -/
abbrev Identity := Int × Int

/-- `_queue_record_is_due` -/
def recordIsDue (now : DateTime) (record : QueueRecord WorkspaceRecord) : Bool :=
  match record.body.nextAttemptAt with
  | some nextAttempt => nextAttempt ≤ now
  | none => true

/-- `_deferred_queue_record` -/
def deferredQueueRecord (record : WorkspaceRecord) (now : DateTime) : WorkspaceRecord :=
  { record with nextAttemptAt := some (now + seconds 300) }

/-- `_immediate_queue_record` -/
def immediateQueueRecord (record : WorkspaceRecord) : WorkspaceRecord :=
  { record with nextAttemptAt := none }

/-- `_GENERATED_WORKSPACE.fullmatch`: the group. -/
def generatedWorkspace (name : String) : Option String :=
  if name.toList.take 13 = "wf-execution-".toList && uuidPattern (name.toList.drop 13) then
    some (String.ofList (name.toList.drop 13))
  else none

/-! ## Calls -/

/-- What the sweep reads of a result of `os.stat(.., follow_symlinks=False)`. -/
structure WorkspaceStatus where
  identity : Identity
  /-- `S_ISDIR(st_mode)` -/
  directory : Bool
  /-- `_is_reparse` -/
  reparse : Bool
  mtime : Int

inductive WorkspaceCall where
  | monotonic
  /-- `self._clock()` -/
  | clock
  /-- Entering `_exclusive_descriptor_gate`, with the readings of the clock that this takes. -/
  | acquireGate (deadline : Int)
  | queue (call : QueueCall WorkspaceRecord)
  | stat (name : String)
  /-- `_rename_no_replace` -/
  | renameNoReplace (name retired : String)
  | fsyncRoot
  | openWorkspace (name : String)
  /-- `os.fstat` on the open workspace. -/
  | fstat
  | rmdir (name : String)
  /-- A call of `_bounded_clear_workspace`. -/
  | clear (call : ClearCall)

/-- What a call answers. -/
@[reducible] def WorkspaceCall.Answer : WorkspaceCall → Type
  | monotonic => Int
  | clock => DateTime
  | acquireGate _ => Bool
  | queue call => Except QueueError call.Answer
  | stat _ => WorkspaceStatus
  | fstat => Identity
  | clear call => Except ClearError call.Answer
  | _ => Unit

abbrev WorkspaceProgram (α : Type) := Program WorkspaceCall WorkspaceCall.Answer SweepError α

def perform (call : WorkspaceCall) : WorkspaceProgram call.Answer := Program.op call

/-- A program of the queue of the workspaces. -/
def onQueue {α : Type} (p : QueueProgram WorkspaceRecord α) : WorkspaceProgram α :=
  Program.embed WorkspaceCall.queue (fun _ answer => answer) SweepError.queue p

/-- A program of the clearing of a workspace. -/
def onWorkspace {α : Type} (p : ClearProgram α) : WorkspaceProgram α :=
  Program.embed WorkspaceCall.clear (fun _ answer => answer) SweepError.clear p

/-! ## Statistics -/

/-- `WorkspaceSweepStats`. -/
structure WorkspaceSweepStats extends ClearStats where
  workspacesExamined : Nat
  workspacesRemoved : Nat
  workspacesProtected : Nat
  invalidWorkspaces : Nat
  lockContended : Bool
  budgetExhausted : Bool
  backlogEntries : Nat
  workspacesHeld : Nat
  queueRecordBytes : Nat
  queueSegments : Nat
  queueCapacityEvents : Nat
deriving DecidableEq

namespace WorkspaceSweepStats

/-- `WorkspaceSweepStats()` -/
def initial : WorkspaceSweepStats where
  entriesScanned := 0
  directoriesScanned := 0
  mutations := 0
  progressMade := false
  workspacesExamined := 0
  workspacesRemoved := 0
  workspacesProtected := 0
  invalidWorkspaces := 0
  lockContended := false
  budgetExhausted := false
  backlogEntries := 0
  workspacesHeld := 0
  queueRecordBytes := 0
  queueSegments := 0
  queueCapacityEvents := 0

def mutated (stats : WorkspaceSweepStats) (mutations : Nat) : WorkspaceSweepStats :=
  { stats with toClearStats := stats.toClearStats.mutated mutations }

def examined (stats : WorkspaceSweepStats) (records : Nat) : WorkspaceSweepStats :=
  { stats with workspacesExamined := stats.workspacesExamined + records }

def exhausted (stats : WorkspaceSweepStats) : WorkspaceSweepStats :=
  { stats with budgetExhausted := true }

/-- A record that is moved to the lane `held` as invalid. -/
def invalid (stats : WorkspaceSweepStats) : WorkspaceSweepStats :=
  { stats with
    invalidWorkspaces := stats.invalidWorkspaces + 1
    workspacesHeld := stats.workspacesHeld + 1 }

def counted (stats : WorkspaceSweepStats) (counts : QueueCounts) : WorkspaceSweepStats :=
  { stats with
    backlogEntries := counts.ready + counts.deferred
    workspacesHeld := counts.held
    queueRecordBytes := counts.recordBytes
    queueSegments := counts.segments
    queueCapacityEvents := counts.capacityEvents }

end WorkspaceSweepStats

/-- `_reserved_workspace_budget` -/
def reservedWorkspaceBudget (budget : StorageSweepBudget) (reserve : Nat) : StorageSweepBudget :=
  { budget with
    maxMutations := max 1 (budget.maxMutations - reserve)
    mutations_pos := Nat.lt_of_lt_of_le Nat.zero_lt_one (le_max_left _ _) }

/-- The limits that clearing reads. -/
def clearBudget (budget : StorageSweepBudget) : ClearBudget where
  maxEntries := budget.maxEntries
  maxDirectories := budget.maxDirectories
  maxMutations := budget.maxMutations

/-! ## The removal of a workspace -/

section Removal

variable (budget : StorageSweepBudget) (deadline : Int)

/-- `_workspace_mutation_available` -/
def workspaceMutationAvailable (stats : WorkspaceSweepStats) (needed : Nat) :
    WorkspaceProgram Bool := do
  let now : Int ← perform .monotonic
  return now < deadline && stats.mutations + needed ≤ budget.maxMutations

/-- `_retired_workspace_name` -/
def retiredWorkspaceName (name : String) : WorkspaceProgram String :=
  match generatedWorkspace name with
  | some group => return ".wf-retired-v1-" ++ group
  | none => .raise (.runtime "workspace name is not generated")

/-- `os.stat` with `None` for a `FileNotFoundError`. -/
def statIfPresent (name : String) : WorkspaceProgram (Option WorkspaceStatus) :=
  Program.handle (some <$> perform (.stat name)) fun
    | .fileNotFound => return none
    | e => .raise e

def identityChanged : SweepError := .runtime "workspace identity changed"

/-- The part of `_bounded_cleanup_workspace` after `retired` was found. -/
def clearRetired (retired : String) (expectedIdentity : Identity)
    (retiredStatus : WorkspaceStatus) (stats : WorkspaceSweepStats) :
    WorkspaceProgram (Bool × WorkspaceSweepStats) :=
  if retiredStatus.identity ≠ expectedIdentity then .raise identityChanged
  else do
    perform (.openWorkspace retired)
    let opened : Identity ← perform .fstat
    if opened ≠ expectedIdentity then .raise identityChanged
    else
      let cleared ← onWorkspace
        (boundedClearWorkspace stats.toClearStats (clearBudget budget) deadline)
      let stats := { stats with toClearStats := cleared.2 }
      if !cleared.1 then return (false, stats)
      else if ← workspaceMutationAvailable budget deadline stats 2 then
        let current : WorkspaceStatus ← perform (.stat retired)
        if current.identity ≠ expectedIdentity then .raise identityChanged
        else
          perform (.rmdir retired)
          perform .fsyncRoot
          return (true, stats.mutated 2)
      else return (false, stats)

/-- `_bounded_cleanup_workspace` -/
def boundedCleanupWorkspace (name : String) (expectedIdentity : Identity)
    (stats : WorkspaceSweepStats) : WorkspaceProgram (Bool × WorkspaceSweepStats) := do
  let retired ← retiredWorkspaceName name
  match ← statIfPresent retired with
  | some status => clearRetired budget deadline retired expectedIdentity status stats
  | none =>
      match ← statIfPresent name with
      | none => return (true, stats)
      | some current =>
          if current.identity ≠ expectedIdentity || !current.directory then
            .raise identityChanged
          else if ← workspaceMutationAvailable budget deadline stats 2 then
            perform (.renameNoReplace name retired)
            perform .fsyncRoot
            let status : WorkspaceStatus ← perform (.stat retired)
            clearRetired budget deadline retired expectedIdentity status (stats.mutated 2)
          else return (false, stats)

end Removal

/-! ## The sweep -/

/-- The arguments of a sweep. -/
structure WorkspaceSweepInput where
  /-- `_datetime_timestamp(cutoff)` -/
  cutoffTimestamp : Int
  activeExecutionIds : List String
  budget : StorageSweepBudget

/-- A candidate of `_workspace_status`, if it is there. -/
def candidateStatus (candidate : String) : WorkspaceProgram (Option WorkspaceStatus) := do
  match ← statIfPresent candidate with
  | none => return none
  | some status =>
      if !status.directory || status.reparse then .raise identityChanged else return some status

/-- `_workspace_status` -/
def workspaceStatus (name : String) (expectedIdentity : Option Identity) :
    WorkspaceProgram (Option WorkspaceStatus) := do
  let matches_ (status : WorkspaceStatus) : Bool :=
    expectedIdentity = none || some status.identity = expectedIdentity
  let retired ← retiredWorkspaceName name
  match ← candidateStatus retired with
  | some status =>
      if matches_ status then return some status
      else .raise (.runtime "workspace retired namespace is occupied")
  | none =>
      match ← candidateStatus name with
      | some status => if matches_ status then return some status else return none
      | none => return none

section Sweep

variable (limits : QueueLimits) (codec : QueueCodec WorkspaceRecord) (sweep : WorkspaceSweepInput)
  (deadline : Int)

/-- `_workspace_record_name_matches` -/
def workspaceRecordNameMatches (name executionId : String) : Bool :=
  match codec.canonicalUuid executionId with
  | some canonical => name = "wf-execution-" ++ canonical
  | none => false

/-- The execution, the name and the identity of a record, unless it is invalid. -/
def readRecord (record : WorkspaceRecord) : Option (String × String × Option Identity) :=
  match record.kind, record.executionId, record.workspaceName with
  | .text kind, .text executionId, .text name =>
      if kind = "workspace" && workspaceRecordNameMatches codec name executionId then
        match record.sourceDev, record.sourceIno with
        | .missing, .missing => some (executionId, name, none)
        | .integer dev, .integer ino => some (executionId, name, some (dev, ino))
        | _, _ => none
      else none
  | _, _, _ => none

/-- The next item of a lane, and the statistics with the records examined for it. -/
def nextItem (lane : Lane) (stats : WorkspaceSweepStats) :
    WorkspaceProgram (Option (QueueItem WorkspaceRecord) × WorkspaceSweepStats) :=
  match lane with
  | .deferred => do
      let now : DateTime ← perform .clock
      let found ← onQueue (peekDue limits lane (recordIsDue now)
        ((sweep.budget.maxEntries : Int) - stats.workspacesExamined))
      return (found.1, stats.examined found.2)
  | _ => do
      let item ← onQueue (peek limits lane)
      return (item, if item.isSome then stats.examined 1 else stats)

/-- Moving an item. -/
def moveItem (item : QueueItem WorkspaceRecord) (destination : Lane)
    (record : Option WorkspaceRecord) (stats : WorkspaceSweepStats) :
    WorkspaceProgram WorkspaceSweepStats := do
  let _ ← onQueue (queueMove limits codec item destination record)
  return stats.mutated 10

/-- Completing an item. -/
def completeItem (item : QueueItem WorkspaceRecord) (stats : WorkspaceSweepStats) :
    WorkspaceProgram WorkspaceSweepStats := do
  onQueue (complete limits item)
  return stats.mutated 5

/-- The removal of the workspace of an item. -/
def removeItem (item : QueueItem WorkspaceRecord) (name : String) (identity : Identity)
    (stats : WorkspaceSweepStats) : WorkspaceProgram WorkspaceSweepStats := do
  let cleanup ← boundedCleanupWorkspace (reservedWorkspaceBudget sweep.budget 10) deadline name
    identity stats
  if cleanup.1 then
    completeItem limits item
      { cleanup.2 with workspacesRemoved := cleanup.2.workspacesRemoved + 1 }
  else moveItem limits codec item .deferred (some (immediateQueueRecord item.record.body)) cleanup.2

/-- The body of the loop over a lane for an item. -/
def sweepItem (item : QueueItem WorkspaceRecord) (stats : WorkspaceSweepStats) :
    WorkspaceProgram WorkspaceSweepStats :=
  match readRecord codec item.record.body with
  | none => moveItem limits codec item .held none stats.invalid
  | some (executionId, name, expectedIdentity) =>
      if executionId ∈ sweep.activeExecutionIds then do
        let now : DateTime ← perform .clock
        moveItem limits codec item .deferred (some (deferredQueueRecord item.record.body now))
          { stats with workspacesProtected := stats.workspacesProtected + 1 }
      else do
        match ← workspaceStatus name expectedIdentity with
        | none => completeItem limits item stats
        | some observed =>
            if expectedIdentity = none then
              moveItem limits codec item .held none stats.invalid
            else if sweep.cutoffTimestamp < observed.mtime then
              moveItem limits codec item .deferred
                (some (immediateQueueRecord item.record.body)) stats
            else removeItem limits codec sweep deadline item name observed.identity stats

/-- The guard of the loop over a lane. -/
def sweepSpent (stats : WorkspaceSweepStats) : WorkspaceProgram Bool := do
  let now : Int ← perform .monotonic
  return deadline ≤ now || sweep.budget.maxEntries ≤ stats.workspacesExamined ||
    sweep.budget.maxMutations < stats.mutations + 10

/-- The loop over a lane, for the given number of records. -/
def sweepLane (lane : Lane) : Nat → WorkspaceSweepStats → WorkspaceProgram WorkspaceSweepStats
  | 0, stats => return stats
  | n + 1, stats => do
      if ← sweepSpent sweep deadline stats then return stats.exhausted
      else
        let found ← nextItem limits sweep lane stats
        match found.1 with
        | none => return found.2
        | some item =>
            let stats ← sweepItem limits codec sweep deadline item found.2
            sweepLane lane n stats

/-- The loop over the lanes. -/
def sweepLanes (start : QueueCounts) : WorkspaceProgram WorkspaceSweepStats := do
  let stats ← sweepLane limits codec sweep deadline .ready start.ready .initial
  if stats.budgetExhausted then return stats
  else sweepLane limits codec sweep deadline .deferred start.deferred stats

/-- `_sweep_abandoned_locked` -/
def sweepAbandonedLocked : WorkspaceProgram WorkspaceSweepStats := do
  let start ← onQueue (queueCounts limits)
  let stats ← sweepLanes limits codec sweep deadline start
  let counts ← onQueue (queueCounts limits)
  let stats := stats.counted counts
  return if 0 < stats.backlogEntries then stats.exhausted else stats

/-- `WorkspaceManager.sweep_abandoned` -/
def sweepAbandoned : WorkspaceProgram WorkspaceSweepStats := do
  let start : Int ← perform .monotonic
  let deadline := start + sweep.budget.maxSeconds
  let acquired : Bool ← perform (.acquireGate deadline)
  if acquired then sweepAbandonedLocked limits codec sweep deadline
  else
    let counts ← onQueue (queueCounts limits)
    return ({ WorkspaceSweepStats.initial with
      lockContended := true, budgetExhausted := true }).counted counts

end Sweep

/-! ## What clearing charges -/

/-- The reported statistics are within the budget. -/
structure Within (budget : StorageSweepBudget) (stats : WorkspaceSweepStats) : Prop where
  mutations : stats.mutations ≤ budget.maxMutations
  entries : stats.entriesScanned ≤ budget.maxEntries
  directories : stats.directoriesScanned ≤ budget.maxDirectories

/-- What a step under a limit of mutations leaves of the mutations: it makes none, or at least two
within the limit. -/
def Spends (limit mutations mutations' : Nat) : Prop :=
  mutations' = mutations ∨ mutations + 2 ≤ mutations' ∧ mutations' ≤ limit

theorem Spends.trans {limit a b c : Nat} (hab : Spends limit a b) (hbc : Spends limit b c) :
    Spends limit a c := by
  unfold Spends at *
  omega

/-- What an iteration leaves of the statistics. -/
def statsAfter : Iteration → ClearStats
  | .finished _ stats | .next _ stats => stats

section Clearing

/-- The statistics of clearing, from `stats` on. -/
structure Clears (budget : ClearBudget) (stats stats' : ClearStats) : Prop where
  mutations : Spends budget.maxMutations stats.mutations stats'.mutations
  entries : stats'.entriesScanned ≤ budget.maxEntries
  directories : stats'.directoriesScanned ≤ budget.maxDirectories

variable {budget : ClearBudget} {deadline : Int} {stack : Stack} {stats stats' : ClearStats}

theorem Clears.trans {stats'' : ClearStats} (h : Clears budget stats stats')
    (h' : Clears budget stats' stats'') : Clears budget stats stats'' :=
  ⟨h.mutations.trans h'.mutations, h'.entries, h'.directories⟩

theorem mutationAvailable_yields {needed : Nat} :
    (mutationAvailable stats budget deadline needed).Yields fun available =>
      available = true → stats.mutations + needed ≤ budget.maxMutations := by
  apply Program.yields_after
  intro now
  rw [Program.yields_pure]
  intro havailable
  simp at havailable
  exact havailable.2

/-- A branch that makes its mutations when they are available, and otherwise nothing. -/
theorem clears_mutated {needed : Nat} (hneeded : 2 ≤ needed)
    (hmutations : stats.mutations + needed ≤ budget.maxMutations)
    (hentries : stats.entriesScanned ≤ budget.maxEntries)
    (hdirectories : stats.directoriesScanned ≤ budget.maxDirectories) :
    Clears budget stats (stats.mutated needed) := by
  refine ⟨.inr ⟨?_, hmutations⟩, hentries, hdirectories⟩
  exact Nat.add_le_add_left hneeded stats.mutations

theorem leaveDirectory_yields (hentries : stats.entriesScanned ≤ budget.maxEntries)
    (hdirectories : stats.directoriesScanned ≤ budget.maxDirectories) :
    (leaveDirectory budget deadline stack stats).Yields fun iteration =>
      Clears budget stats (statsAfter iteration) := by
  have hsame : Clears budget stats stats := ⟨.inl rfl, hentries, hdirectories⟩
  unfold leaveDirectory
  split
  · exact Program.yields_pure.2 hsame
  · apply mutationAvailable_yields.bind
    intro available havailable
    split
    · next htrue =>
        apply Program.yields_after
        intro _
        apply Program.yields_after
        intro _
        apply Program.yields_after
        intro _
        apply Program.yields_after
        intro _
        exact Program.yields_pure.2
          (clears_mutated (by decide) (havailable htrue) hentries hdirectories)
    · exact Program.yields_pure.2 hsame

theorem enterDirectory_yields {name : EntryName}
    (hentries : stats.entriesScanned ≤ budget.maxEntries)
    (hdirectories : stats.directoriesScanned ≤ budget.maxDirectories) :
    (enterDirectory budget deadline stack stats name).Yields fun iteration =>
      Clears budget stats (statsAfter iteration) := by
  apply mutationAvailable_yields.bind
  intro available havailable
  split
  · next htrue =>
      apply Program.yields_after
      intro _
      exact Program.yields_pure.2
        (clears_mutated (by decide) (havailable htrue) hentries hdirectories)
  · exact Program.yields_pure.2 ⟨.inl rfl, hentries, hdirectories⟩

theorem removeFile_yields {name : EntryName}
    (hentries : stats.entriesScanned ≤ budget.maxEntries)
    (hdirectories : stats.directoriesScanned ≤ budget.maxDirectories) :
    (removeFile budget deadline stack stats name).Yields fun iteration =>
      Clears budget stats (statsAfter iteration) := by
  apply mutationAvailable_yields.bind
  intro available havailable
  split
  · next htrue =>
      apply Program.yields_after
      intro _
      apply Program.yields_after
      intro _
      exact Program.yields_pure.2
        (clears_mutated (by decide) (havailable htrue) hentries hdirectories)
  · exact Program.yields_pure.2 ⟨.inl rfl, hentries, hdirectories⟩

theorem spent_yields :
    (spent stats budget deadline).Yields fun isSpent => isSpent = false →
      stats.entriesScanned < budget.maxEntries ∧
        stats.directoriesScanned < budget.maxDirectories := by
  apply Program.yields_after
  intro now
  rw [Program.yields_pure]
  intro hspent
  simp at hspent
  exact ⟨hspent.1.2, hspent.2⟩

/-- One iteration: it scans a directory and at most one entry, both within the budget. -/
theorem clearIteration_yields (hentries : stats.entriesScanned ≤ budget.maxEntries)
    (hdirectories : stats.directoriesScanned ≤ budget.maxDirectories) :
    (clearIteration budget deadline stack stats).Yields fun iteration =>
      Clears budget stats (statsAfter iteration) := by
  apply spent_yields.bind
  intro isSpent hspent
  cases isSpent with
  | true => exact Program.yields_pure.2 ⟨.inl rfl, hentries, hdirectories⟩
  | false =>
      obtain ⟨hentry, hdirectory⟩ := hspent rfl
      apply Program.yields_after
      intro _
      apply Program.yields_after
      intro entry
      cases entry with
      | none =>
          refine Program.Yields.mono (leaveDirectory_yields ?_ ?_) ?_
          · exact hentries
          · exact hdirectory
          · intro iteration h
            exact ⟨h.mutations, h.entries, h.directories⟩
      | some name =>
          apply Program.yields_after
          intro isDirectory
          split
          · refine Program.Yields.mono (enterDirectory_yields ?_ ?_) ?_
            · exact hentry
            · exact hdirectory
            · intro iteration h
              exact ⟨h.mutations, h.entries, h.directories⟩
          · refine Program.Yields.mono (removeFile_yields ?_ ?_) ?_
            · exact hentry
            · exact hdirectory
            · intro iteration h
              exact ⟨h.mutations, h.entries, h.directories⟩

theorem clearLoop_yields (n : Nat) (hentries : stats.entriesScanned ≤ budget.maxEntries)
    (hdirectories : stats.directoriesScanned ≤ budget.maxDirectories) :
    (clearLoop budget deadline n stack stats).Yields fun cleared =>
      Clears budget stats cleared.2 := by
  induction n generalizing stack stats with
  | zero => exact Program.yields_pure.2 ⟨.inl rfl, hentries, hdirectories⟩
  | succ n ih =>
      apply (clearIteration_yields hentries hdirectories).bind
      rintro (⟨complete, stats'⟩ | ⟨stack', stats'⟩) h
      · exact Program.yields_pure.2 h
      · apply (ih h.entries h.directories).mono
        intro cleared hcleared
        exact h.trans hcleared

/-- `_bounded_clear_workspace` stays within its budget. -/
theorem boundedClearWorkspace_yields (hentries : stats.entriesScanned ≤ budget.maxEntries)
    (hdirectories : stats.directoriesScanned ≤ budget.maxDirectories) :
    (boundedClearWorkspace stats budget deadline).Yields fun cleared =>
      Clears budget stats cleared.2 := by
  apply Program.yields_after
  intro stack
  exact clearLoop_yields _ hentries hdirectories

end Clearing

/-! ## What the removal of a workspace charges -/

section Cleanup

variable {budget : StorageSweepBudget} {deadline : Int} {stats : WorkspaceSweepStats}

/-- The statistics of the removal of a workspace, from `stats` on. -/
structure Cleans (budget : StorageSweepBudget) (stats stats' : WorkspaceSweepStats) : Prop where
  mutations : Spends budget.maxMutations stats.mutations stats'.mutations
  entries : stats'.entriesScanned ≤ budget.maxEntries
  directories : stats'.directoriesScanned ≤ budget.maxDirectories

theorem workspaceMutationAvailable_yields {needed : Nat} :
    (workspaceMutationAvailable budget deadline stats needed).Yields fun available =>
      available = true → stats.mutations + needed ≤ budget.maxMutations := by
  apply Program.yields_after
  intro now
  rw [Program.yields_pure]
  intro havailable
  simp at havailable
  exact havailable.2

theorem clearRetired_yields {retired : String} {expectedIdentity : Identity}
    {retiredStatus : WorkspaceStatus} (hentries : stats.entriesScanned ≤ budget.maxEntries)
    (hdirectories : stats.directoriesScanned ≤ budget.maxDirectories) :
    (clearRetired budget deadline retired expectedIdentity retiredStatus stats).Yields
      fun cleanup => Cleans budget stats cleanup.2 := by
  unfold clearRetired
  split
  · exact Program.yields_raise
  apply Program.yields_after
  intro _
  apply Program.yields_after
  intro opened
  split
  · exact Program.yields_raise
  have hclear : (onWorkspace
      (boundedClearWorkspace stats.toClearStats (clearBudget budget) deadline)).Yields
      fun cleared => Clears (clearBudget budget) stats.toClearStats cleared.2 :=
    (boundedClearWorkspace_yields hentries hdirectories).embedded
  apply hclear.bind
  rintro ⟨complete, cleared⟩ ⟨hmutations, hentries', hdirectories'⟩
  have hcleared : Cleans budget stats { stats with toClearStats := cleared } :=
    ⟨hmutations, hentries', hdirectories'⟩
  cases complete with
  | false => exact Program.yields_pure.2 hcleared
  | true =>
      apply workspaceMutationAvailable_yields.bind
      intro available havailable
      split
      · next htrue =>
          apply Program.yields_after
          intro current
          split
          · exact Program.yields_raise
          apply Program.yields_after
          intro _
          apply Program.yields_after
          intro _
          rw [Program.yields_pure]
          refine ⟨hmutations.trans (.inr ⟨le_rfl, havailable htrue⟩), hentries', hdirectories'⟩
      · exact Program.yields_pure.2 hcleared

/-- `_bounded_cleanup_workspace` stays within its budget. -/
theorem boundedCleanupWorkspace_yields {name : String} {expectedIdentity : Identity}
    (hentries : stats.entriesScanned ≤ budget.maxEntries)
    (hdirectories : stats.directoriesScanned ≤ budget.maxDirectories) :
    (boundedCleanupWorkspace budget deadline name expectedIdentity stats).Yields
      fun cleanup => Cleans budget stats cleanup.2 := by
  have hsame : Cleans budget stats stats := ⟨.inl rfl, hentries, hdirectories⟩
  apply Program.yields_after
  intro retired
  apply Program.yields_after
  intro retiredStatus
  cases retiredStatus with
  | some status => exact clearRetired_yields hentries hdirectories
  | none =>
      apply Program.yields_after
      intro current
      cases current with
      | none => exact Program.yields_pure.2 hsame
      | some current =>
          simp only
          split
          · exact Program.yields_raise
          apply workspaceMutationAvailable_yields.bind
          intro available havailable
          split
          · next htrue =>
              apply Program.yields_after
              intro _
              apply Program.yields_after
              intro _
              apply Program.yields_after
              intro status
              -- the two mutations of the renaming come before those of the clearing
              have hrenamed : Spends budget.maxMutations stats.mutations
                  (stats.mutated 2).mutations := .inr ⟨le_rfl, havailable htrue⟩
              refine Program.Yields.mono (clearRetired_yields ?_ ?_) ?_
              · exact hentries
              · exact hdirectories
              · intro cleanup h
                exact ⟨hrenamed.trans h.mutations, h.entries, h.directories⟩
          · exact Program.yields_pure.2 hsame

end Cleanup

/-! ## What the sweep charges -/

section Specifications

variable {limits : QueueLimits} {codec : QueueCodec WorkspaceRecord} {sweep : WorkspaceSweepInput}
  {deadline : Int} {stats : WorkspaceSweepStats}

/-- The mutations that are reserved for an item are there after its workspace was removed. -/
theorem reserve_left {max_ mutations mutations' : Nat} (h : mutations + 10 ≤ max_)
    (hspends : Spends (max 1 (max_ - 10)) mutations mutations') : mutations' + 10 ≤ max_ := by
  unfold Spends at hspends
  omega

theorem moveItem_yields {item : QueueItem WorkspaceRecord} {destination : Lane}
    {record : Option WorkspaceRecord} (h : Within sweep.budget stats)
    (hreserve : stats.mutations + 10 ≤ sweep.budget.maxMutations) :
    (moveItem limits codec item destination record stats).Yields (Within sweep.budget) := by
  apply Program.yields_after
  intro _
  exact Program.yields_pure.2 ⟨hreserve, h.entries, h.directories⟩

theorem completeItem_yields {item : QueueItem WorkspaceRecord} (h : Within sweep.budget stats)
    (hreserve : stats.mutations + 10 ≤ sweep.budget.maxMutations) :
    (completeItem limits item stats).Yields (Within sweep.budget) := by
  apply Program.yields_after
  intro _
  refine Program.yields_pure.2 ⟨?_, h.entries, h.directories⟩
  change stats.mutations + 5 ≤ sweep.budget.maxMutations
  omega

theorem removeItem_yields {item : QueueItem WorkspaceRecord} {name : String} {identity : Identity}
    (h : Within sweep.budget stats)
    (hreserve : stats.mutations + 10 ≤ sweep.budget.maxMutations) :
    (removeItem limits codec sweep deadline item name identity stats).Yields
      (Within sweep.budget) := by
  have hcleanup : (boundedCleanupWorkspace (reservedWorkspaceBudget sweep.budget 10) deadline name
      identity stats).Yields fun cleanup =>
      Cleans (reservedWorkspaceBudget sweep.budget 10) stats cleanup.2 :=
    boundedCleanupWorkspace_yields h.entries h.directories
  apply hcleanup.bind
  rintro ⟨removed, stats'⟩ hcleans
  have hleft : stats'.mutations + 10 ≤ sweep.budget.maxMutations :=
    reserve_left hreserve hcleans.mutations
  have hwithin : Within sweep.budget stats' :=
    ⟨by omega, hcleans.entries, hcleans.directories⟩
  cases removed with
  | true => exact completeItem_yields ⟨hwithin.mutations, hwithin.entries, hwithin.directories⟩ hleft
  | false => exact moveItem_yields hwithin hleft

/-- One item: its ten mutations are reserved. -/
theorem sweepItem_yields {item : QueueItem WorkspaceRecord} (h : Within sweep.budget stats)
    (hreserve : stats.mutations + 10 ≤ sweep.budget.maxMutations) :
    (sweepItem limits codec sweep deadline item stats).Yields (Within sweep.budget) := by
  have hinvalid : Within sweep.budget stats.invalid := ⟨h.mutations, h.entries, h.directories⟩
  unfold sweepItem
  split
  · exact moveItem_yields hinvalid hreserve
  split
  · apply Program.yields_after
    intro now
    exact moveItem_yields ⟨h.mutations, h.entries, h.directories⟩ hreserve
  apply Program.yields_after
  intro observed
  cases observed with
  | none => exact completeItem_yields h hreserve
  | some observed =>
      simp only
      split
      · exact moveItem_yields hinvalid hreserve
      split
      · exact moveItem_yields h hreserve
      · exact removeItem_yields h hreserve

theorem nextItem_yields {lane : Lane} (h : Within sweep.budget stats) :
    (nextItem limits sweep lane stats).Yields fun found =>
      Within sweep.budget found.2 ∧ found.2.mutations = stats.mutations := by
  have hexamined : ∀ n, Within sweep.budget (stats.examined n) ∧
      (stats.examined n).mutations = stats.mutations := by
    intro n
    exact ⟨⟨h.mutations, h.entries, h.directories⟩, rfl⟩
  have hpeek : (do
      let item ← onQueue (peek limits lane)
      return (item, if item.isSome then stats.examined 1 else stats) :
        WorkspaceProgram (Option (QueueItem WorkspaceRecord) × WorkspaceSweepStats)).Yields
      fun found => Within sweep.budget found.2 ∧ found.2.mutations = stats.mutations := by
    apply Program.yields_after
    intro item
    rw [Program.yields_pure]
    split
    · exact hexamined 1
    · exact ⟨h, rfl⟩
  cases lane with
  | ready => exact hpeek
  | held => exact hpeek
  | deferred =>
      apply Program.yields_after
      intro now
      apply Program.yields_after
      intro found
      exact Program.yields_pure.2 (hexamined found.2)

theorem sweepSpent_yields :
    (sweepSpent sweep deadline stats).Yields fun isSpent => isSpent = false →
      stats.mutations + 10 ≤ sweep.budget.maxMutations := by
  apply Program.yields_after
  intro now
  rw [Program.yields_pure]
  intro hspent
  simp at hspent
  exact hspent.2

theorem sweepLane_yields {lane : Lane} (n : Nat) (h : Within sweep.budget stats) :
    (sweepLane limits codec sweep deadline lane n stats).Yields (Within sweep.budget) := by
  induction n generalizing stats with
  | zero => exact Program.yields_pure.2 h
  | succ n ih =>
      apply sweepSpent_yields.bind
      intro isSpent hspent
      cases isSpent with
      | true => exact Program.yields_pure.2 ⟨h.mutations, h.entries, h.directories⟩
      | false =>
          have hreserve := hspent rfl
          apply (nextItem_yields h).bind
          rintro ⟨item, stats'⟩ ⟨hstats', hsame⟩
          cases item with
          | none => exact Program.yields_pure.2 hstats'
          | some item =>
              apply (sweepItem_yields hstats' (hsame ▸ hreserve)).bind
              intro stats'' hstats''
              exact ih hstats''

theorem initial_within (budget : StorageSweepBudget) : Within budget .initial :=
  ⟨Nat.zero_le _, Nat.zero_le _, Nat.zero_le _⟩

theorem sweepLanes_yields {start : QueueCounts} :
    (sweepLanes limits codec sweep deadline start).Yields (Within sweep.budget) := by
  apply (sweepLane_yields start.ready (initial_within sweep.budget)).bind
  intro stats h
  split
  · exact Program.yields_pure.2 h
  · exact sweepLane_yields start.deferred h

theorem sweepAbandonedLocked_yields :
    (sweepAbandonedLocked limits codec sweep deadline).Yields (Within sweep.budget) := by
  apply Program.yields_after
  intro start
  apply sweepLanes_yields.bind
  intro stats h
  apply Program.yields_after
  intro counts
  rw [Program.yields_pure]
  split <;> exact ⟨h.mutations, h.entries, h.directories⟩

/-- However its calls are answered, a sweep of the workspaces that returns is within its budget. -/
theorem sweepAbandoned_yields :
    (sweepAbandoned limits codec sweep).Yields (Within sweep.budget) := by
  apply Program.yields_after
  intro start
  apply Program.yields_after
  intro acquired
  split
  · exact sweepAbandonedLocked_yields
  · apply Program.yields_after
    intro counts
    exact Program.yields_pure.2 ⟨Nat.zero_le _, Nat.zero_le _, Nat.zero_le _⟩

end Specifications

end WheelForge.Storage.WorkspaceSweep

/-! ## Both sweeps -/

namespace WheelForge.Storage

open WheelForge.Interaction WheelForge.Maintenance

/-- A sweep of the data root that returns is within its budget if and only if its calls were
affordable where they were made: no entry is removed with one mutation left, and the `artifacts`
directory is scanned under a budget of two directories. A sweep of the workspaces that returns is
within its budget. The calls of both may be answered in any way. -/
theorem sweeps_within_iff (limits : QueueLimits) :
    (∀ (codec : StorageCodec) (sweep : DataSweep.DataSweepInput)
      (stats : DataSweep.StorageSweepStats) (calls : List DataSweep.DataCall),
      Program.Run DataSweep.Recorded (DataSweep.sweepAbandoned limits codec sweep) [] (.ok stats)
        calls →
      (DataSweep.Within sweep.budget stats ↔ DataSweep.Affordable sweep.budget calls)) ∧
    (∀ (σ : Type) (answers : σ → (call : WorkspaceSweep.WorkspaceCall) →
        Except SweepError call.Answer → σ → Prop)
      (codec : QueueCodec WorkspaceSweep.WorkspaceRecord)
      (sweep : WorkspaceSweep.WorkspaceSweepInput) (stats : WorkspaceSweep.WorkspaceSweepStats)
      (s t : σ),
      Program.Run answers (WorkspaceSweep.sweepAbandoned limits codec sweep) s (.ok stats) t →
      WorkspaceSweep.Within sweep.budget stats) := by
  constructor
  · intro codec sweep stats calls hrun
    exact (hrun.returns DataSweep.sweepAbandoned_returns).within_iff
  · intro σ answers codec sweep stats s t hrun
    exact hrun.yields WorkspaceSweep.sweepAbandoned_yields

/-! ### A data root with one stage file -/

/-- A sweep with the default budget and the given limits. -/
def smallSweep (maxDirectories maxMutations : Nat) (directories_pos : 0 < maxDirectories)
    (mutations_pos : 0 < maxMutations) : DataSweep.DataSweepInput where
  cutoff := 1000
  cutoffTimestamp := 1000
  activeExecutionIds := []
  budget := { defaultBudget with
    maxDirectories := maxDirectories
    maxMutations := maxMutations
    directories_pos := directories_pos
    mutations_pos := mutations_pos }

/-- The answers of a data root that holds one stage file, which is old, and an empty `artifacts`
directory; the queue is empty. -/
def strayAnswer (calls : List DataSweep.DataCall) : (call : DataSweep.DataCall) →
    Option (Except SweepError call.Answer × List DataSweep.DataCall)
  | .monotonic => some (.ok 0, .monotonic :: calls)
  | .acquireGate deadline => some (.ok true, .acquireGate deadline :: calls)
  | .queue .observe => some (.ok (.ok QueueDir.initial), .queue .observe :: calls)
  | .scandir directory => some (.ok (), .scandir directory :: calls)
  | .nextEntry .root =>
      let listed := calls.any fun
        | .nextEntry .root => true
        | _ => false
      some (.ok (if listed then none else some strayStage), .nextEntry .root :: calls)
  | .nextEntry .artifacts => some (.ok none, .nextEntry .artifacts :: calls)
  | .openArtifacts => some (.ok (), .openArtifacts :: calls)
  | .lstat directory name => some (.ok ⟨true, 0⟩, .lstat directory name :: calls)
  | .unlink directory name => some (.ok (), .unlink directory name :: calls)
  | .fsync directory => some (.ok (), .fsync directory :: calls)
  | _ => none

theorem strayAnswer_recorded (calls : List DataSweep.DataCall) (call : DataSweep.DataCall)
    (answer : Except SweepError call.Answer) (calls' : List DataSweep.DataCall)
    (h : strayAnswer calls call = some (answer, calls')) :
    DataSweep.Recorded calls call answer calls' := by
  unfold strayAnswer at h
  split at h <;> cases h <;> rfl

/-- What a sweep of the data root reports, with its calls. -/
def straySwept (sweep : DataSweep.DataSweepInput) :
    Option (Except SweepError DataSweep.StorageSweepStats × List DataSweep.DataCall) :=
  Program.replay strayAnswer (DataSweep.sweepAbandoned queueLimits publicationCodec sweep) []

/-- The report of a sweep that removed the stage file. -/
def strayReport (directories : Nat) : DataSweep.StorageSweepStats where
  directoriesScanned := directories
  entriesScanned := 1
  mutations := 2
  progressMade := true

theorem straySwept_run {sweep : DataSweep.DataSweepInput}
    {result : Except SweepError DataSweep.StorageSweepStats} {calls : List DataSweep.DataCall}
    (h : straySwept sweep = some (result, calls)) :
    Program.Run DataSweep.Recorded (DataSweep.sweepAbandoned queueLimits publicationCodec sweep) []
      result calls :=
  Program.replay_run strayAnswer_recorded h

/-- The answers of a workspace root with an empty queue, and the number of calls. -/
def emptyAnswer (calls : Nat) : (call : WorkspaceSweep.WorkspaceCall) →
    Option (Except SweepError call.Answer × Nat)
  | .monotonic => some (.ok 0, calls + 1)
  | .acquireGate _ => some (.ok true, calls + 1)
  | .queue .observe => some (.ok (.ok QueueDir.initial), calls + 1)
  | _ => none

/-- Codec of the records of the workspaces. -/
def workspaceCodec : QueueCodec WorkspaceSweep.WorkspaceRecord where
  canonicalUuid := publicationCodec.canonicalUuid
  encodedSize _ := 256
  canonical := publicationCodec.canonical

def emptySweep : WorkspaceSweep.WorkspaceSweepInput where
  cutoffTimestamp := 1000
  activeExecutionIds := []
  budget := defaultBudget

/-- With two directories and the default mutations, the data root above is swept within the budget;
so is a workspace root with an empty queue. -/
theorem smallSweep_within :
    (∃ stats calls, straySwept (smallSweep 2 64 (by decide) (by decide)) = some (.ok stats, calls) ∧
      (DataSweep.Within (smallSweep 2 64 (by decide) (by decide)).budget stats ↔
        DataSweep.Affordable (smallSweep 2 64 (by decide) (by decide)).budget calls)) ∧
    ∃ stats n, Program.replay emptyAnswer
      (WorkspaceSweep.sweepAbandoned queueLimits workspaceCodec emptySweep) 0 =
        some (.ok stats, n) ∧ WorkspaceSweep.Within emptySweep.budget stats := by
  have hstats : Program.returned (straySwept (smallSweep 2 64 (by decide) (by decide))) =
      some (strayReport 2) := by decide +kernel
  have hempty : Program.returned (Program.replay emptyAnswer
      (WorkspaceSweep.sweepAbandoned queueLimits workspaceCodec emptySweep) 0) =
        some .initial := by decide +kernel
  obtain ⟨n, hworkspaces⟩ := Program.exists_of_returned hempty
  obtain ⟨calls, hswept⟩ := Program.exists_of_returned hstats
  refine ⟨⟨_, calls, hswept, ?_⟩, .initial, n, hworkspaces, ?_⟩
  · exact (sweeps_within_iff queueLimits).1 _ _ _ _ (straySwept_run hswept)
  · apply (sweeps_within_iff queueLimits).2 Nat (fun s call answer s' =>
      emptyAnswer s call = some (answer, s')) _ _ _ _ _ (Program.replay_run _ hworkspaces)
    intro s call answer s' h
    exact h

/-- With one mutation left the legacy scan makes two, and with a budget of one directory it scans
two. -/
theorem smallSweep_overruns :
    (∃ stats calls, Program.Run DataSweep.Recorded (DataSweep.sweepAbandoned queueLimits
        publicationCodec (smallSweep 1 1 (by decide) (by decide))) [] (.ok stats) calls ∧
      stats.mutations = 2) ∧
    ∃ stats calls, Program.Run DataSweep.Recorded (DataSweep.sweepAbandoned queueLimits
        publicationCodec (smallSweep 1 64 (by decide) (by decide))) [] (.ok stats) calls ∧
      stats.directoriesScanned = 2 := by
  constructor
  · have hstats : Program.returned (straySwept (smallSweep 1 1 (by decide) (by decide))) =
        some (strayReport 1) := by decide +kernel
    obtain ⟨calls, hswept⟩ := Program.exists_of_returned hstats
    exact ⟨_, calls, straySwept_run hswept, rfl⟩
  · have hstats : Program.returned (straySwept (smallSweep 1 64 (by decide) (by decide))) =
        some (strayReport 2) := by decide +kernel
    obtain ⟨calls, hswept⟩ := Program.exists_of_returned hstats
    exact ⟨_, calls, straySwept_run hswept, rfl⟩

end WheelForge.Storage
