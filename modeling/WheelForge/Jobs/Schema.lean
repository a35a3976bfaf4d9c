import WheelForge.Contracts
import WheelForge.Relational.Table

/-!
# The job database

The rows of the seven tables that the worker's repository and the API write, with the columns of the
V1 schema, and the single-row updates the statements of the repository are made of.
-/

set_option autoImplicit false

namespace WheelForge.Jobs

open WheelForge.Relational

/-- A row of `build_jobs`. -/
structure BuildJob where
  id : Uuid
  jobType : JobType
  payloadVersion : Int
  subjectId : Uuid
  payloadJson : Json
  status : JobStatus
  priorityNo : Int
  availableAt : DateTime
  attempts : Nat
  maxAttempts : Nat
  leaseOwner : Option String
  executionId : Option Uuid
  leaseExpiresAt : Option DateTime
  heartbeatAt : Option DateTime
  lastError : Option String
  createdAt : DateTime
  startedAt : Option DateTime
  finishedAt : Option DateTime
  versionNo : Nat

/-- A row of `build_tasks`. -/
structure BuildTask where
  id : Uuid
  userId : Uuid
  requirementFileId : Uuid
  targetProfileId : Uuid
  sourceTaskId : Option Uuid
  executionId : Option Uuid
  status : BuildStatus
  progress : Int
  currentStage : Option String
  solveMode : String
  targetSnapshot : Json
  cancelRequested : Bool
  failureCode : Option String
  failureMessage : Option String
  createdAt : DateTime
  startedAt : Option DateTime
  finishedAt : Option DateTime
  deletedAt : Option DateTime
  versionNo : Nat

/-- A row of `requirement_files`. -/
structure RequirementFile where
  id : Uuid
  userId : Uuid
  originalName : String
  detectedEncoding : Option String
  sizeBytes : Nat
  sha256 : String
  originalObjectKey : String
  normalizedObjectKey : Option String
  parseStatus : ParseStatus
  parseError : Option String
  createdAt : DateTime
  versionNo : Nat

/-- A row of `requirement_items`. -/
structure RequirementItemRow where
  id : Uuid
  requirementFileId : Uuid
  lineNo : Nat
  normalizedName : String
  extrasJson : List String
  specifier : String
  markerText : Option String
  originalText : String
  supported : Bool
  errorCode : Option String
  errorMessage : Option String

/-- A row of `resolved_packages`. -/
structure ResolvedPackageRow where
  id : Uuid
  buildTaskId : Uuid
  normalizedName : String
  finalVersion : Option String
  dependencyType : String
  originalConstraint : Option String
  strictVersion : Option String
  changeDirection : String
  changeReason : Option String
  attemptsJson : Json
  wheelFilename : Option String
  wheelTags : Option (List String)
  packageSourceCode : Option String
  sha256 : Option String
  wheelStatus : String
  errorMessage : Option String

/-- A row of `build_logs`. -/
structure BuildLog where
  id : Uuid
  buildTaskId : Uuid
  sequenceNo : Nat
  stage : String
  level : String
  message : String
  contextJson : Option Json
  createdAt : DateTime

/-- A row of `artifacts`. -/
structure ArtifactRow where
  id : Uuid
  buildTaskId : Uuid
  artifactType : String
  filename : String
  objectKey : String
  sizeBytes : Nat
  sha256 : String
  buildStatus : BuildStatus
  validationType : String
  expiresAt : DateTime
  downloadCount : Nat
  cleanedAt : Option DateTime
  createdAt : DateTime
  versionNo : Nat

instance : Keyed BuildJob Uuid := ⟨BuildJob.id⟩
instance : Keyed BuildTask Uuid := ⟨BuildTask.id⟩
instance : Keyed RequirementFile Uuid := ⟨RequirementFile.id⟩
instance : Keyed RequirementItemRow Uuid := ⟨RequirementItemRow.id⟩
instance : Keyed ResolvedPackageRow Uuid := ⟨ResolvedPackageRow.id⟩
instance : Keyed BuildLog Uuid := ⟨BuildLog.id⟩
instance : Keyed ArtifactRow Uuid := ⟨ArtifactRow.id⟩

@[simp] theorem key_buildJob (r : BuildJob) : Keyed.key r = r.id := rfl
@[simp] theorem key_buildTask (r : BuildTask) : Keyed.key r = r.id := rfl
@[simp] theorem key_requirementFile (r : RequirementFile) : Keyed.key r = r.id := rfl
@[simp] theorem key_requirementItem (r : RequirementItemRow) : Keyed.key r = r.id := rfl
@[simp] theorem key_resolvedPackage (r : ResolvedPackageRow) : Keyed.key r = r.id := rfl
@[simp] theorem key_buildLog (r : BuildLog) : Keyed.key r = r.id := rfl
@[simp] theorem key_artifact (r : ArtifactRow) : Keyed.key r = r.id := rfl

/-- The committed contents of the tables. -/
structure Database where
  buildJobs : Table BuildJob
  buildTasks : Table BuildTask
  requirementFiles : Table RequirementFile
  requirementItems : Table RequirementItemRow
  resolvedPackages : Table ResolvedPackageRow
  buildLogs : Table BuildLog
  artifacts : Table ArtifactRow

/-- A database error or a failure the repository raises; the transaction rolls back. -/
inductive RepositoryError where
  /-- `LostLeaseError(message)`. -/
  | lostLease (message : String)
  /-- `sqlalchemy.exc.IntegrityError`: a duplicate primary or unique key. -/
  | integrity
  /-- `ValueError(message)`. -/
  | value (message : String)
deriving DecidableEq, Repr

/-- A transaction: a result and the committed database, or an error and a rollback. -/
abbrev Txn (α : Type) := Database → Except RepositoryError (α × Database)

/-- The database after the transaction ended: an error rolls back. -/
def Txn.commit {α : Type} (txn : Txn α) (db : Database) : Database :=
  match txn db with
  | .ok (_, db') => db'
  | .error _ => db

namespace Database

def empty : Database where
  buildJobs := Table.empty
  buildTasks := Table.empty
  requirementFiles := Table.empty
  requirementItems := Table.empty
  resolvedPackages := Table.empty
  buildLogs := Table.empty
  artifacts := Table.empty

/-- Replace the row of `build_jobs` with the key of `j`. -/
def setJob (db : Database) (j : BuildJob) : Database :=
  { db with buildJobs := db.buildJobs.replace j }

/-- Replace the row of `build_tasks` with the key of `t`. -/
def setTask (db : Database) (t : BuildTask) : Database :=
  { db with buildTasks := db.buildTasks.replace t }

/-- Replace the row of `requirement_files` with the key of `f`. -/
def setFile (db : Database) (f : RequirementFile) : Database :=
  { db with requirementFiles := db.requirementFiles.replace f }

def job? (db : Database) (id : Uuid) : Option BuildJob := db.buildJobs.find? id

def task? (db : Database) (id : Uuid) : Option BuildTask := db.buildTasks.find? id

def file? (db : Database) (id : Uuid) : Option RequirementFile := db.requirementFiles.find? id

/-- `update(build_jobs).where(id == k, c).values(f)`; `none` is the row count `0`. -/
def updateJob (db : Database) (k : Uuid) (c : BuildJob → Bool) (f : BuildJob → BuildJob) :
    Option Database :=
  (db.buildJobs.updateKey k c f).map fun t => { db with buildJobs := t }

/-- `update(build_tasks).where(id == k, c).values(f)`. -/
def updateTask (db : Database) (k : Uuid) (c : BuildTask → Bool) (f : BuildTask → BuildTask) :
    Option Database :=
  (db.buildTasks.updateKey k c f).map fun t => { db with buildTasks := t }

/-- `update(requirement_files).where(id == k, c).values(f)`. -/
def updateFile (db : Database) (k : Uuid) (c : RequirementFile → Bool)
    (f : RequirementFile → RequirementFile) : Option Database :=
  (db.requirementFiles.updateKey k c f).map fun t => { db with requirementFiles := t }

section Updates

variable {db db' : Database} {k : Uuid}

theorem updateJob_eq_some_iff {c : BuildJob → Bool} {f : BuildJob → BuildJob} :
    db.updateJob k c f = some db' ↔
      ∃ j, db.job? k = some j ∧ c j = true ∧ db' = db.setJob (f j) := by
  unfold updateJob
  rw [Option.map_eq_some_iff]
  constructor
  · rintro ⟨t, ht, rfl⟩
    obtain ⟨j, hj, hc, rfl⟩ := Table.updateKey_eq_some_iff.1 ht
    exact ⟨j, hj, hc, rfl⟩
  · rintro ⟨j, hj, hc, rfl⟩
    exact ⟨_, Table.updateKey_eq_some_iff.2 ⟨j, hj, hc, rfl⟩, rfl⟩

theorem updateTask_eq_some_iff {c : BuildTask → Bool} {f : BuildTask → BuildTask} :
    db.updateTask k c f = some db' ↔
      ∃ t, db.task? k = some t ∧ c t = true ∧ db' = db.setTask (f t) := by
  unfold updateTask
  rw [Option.map_eq_some_iff]
  constructor
  · rintro ⟨u, hu, rfl⟩
    obtain ⟨t, ht, hc, rfl⟩ := Table.updateKey_eq_some_iff.1 hu
    exact ⟨t, ht, hc, rfl⟩
  · rintro ⟨t, ht, hc, rfl⟩
    exact ⟨_, Table.updateKey_eq_some_iff.2 ⟨t, ht, hc, rfl⟩, rfl⟩

theorem updateFile_eq_some_iff {c : RequirementFile → Bool}
    {f : RequirementFile → RequirementFile} :
    db.updateFile k c f = some db' ↔
      ∃ r, db.file? k = some r ∧ c r = true ∧ db' = db.setFile (f r) := by
  unfold updateFile
  rw [Option.map_eq_some_iff]
  constructor
  · rintro ⟨u, hu, rfl⟩
    obtain ⟨r, hr, hc, rfl⟩ := Table.updateKey_eq_some_iff.1 hu
    exact ⟨r, hr, hc, rfl⟩
  · rintro ⟨r, hr, hc, rfl⟩
    exact ⟨_, Table.updateKey_eq_some_iff.2 ⟨r, hr, hc, rfl⟩, rfl⟩

theorem updateTask_eq_none_iff {c : BuildTask → Bool} {f : BuildTask → BuildTask} :
    db.updateTask k c f = none ↔ ∀ t, db.task? k = some t → c t = false := by
  unfold updateTask
  rw [Option.map_eq_none_iff]
  exact Table.updateKey_eq_none_iff

theorem updateFile_eq_none_iff {c : RequirementFile → Bool}
    {f : RequirementFile → RequirementFile} :
    db.updateFile k c f = none ↔ ∀ r, db.file? k = some r → c r = false := by
  unfold updateFile
  rw [Option.map_eq_none_iff]
  exact Table.updateKey_eq_none_iff

end Updates

/-! ## Reading after a write -/

section Reads

variable (db : Database) (j : BuildJob) (t : BuildTask) (f : RequirementFile) (k : Uuid)

theorem job?_setJob :
    (db.setJob j).job? k = if k = j.id then (db.job? k).map fun _ => j else db.job? k :=
  Table.find?_replace _ _ _

theorem task?_setTask :
    (db.setTask t).task? k = if k = t.id then (db.task? k).map fun _ => t else db.task? k :=
  Table.find?_replace _ _ _

theorem file?_setFile :
    (db.setFile f).file? k = if k = f.id then (db.file? k).map fun _ => f else db.file? k :=
  Table.find?_replace _ _ _

@[simp] theorem job?_setTask : (db.setTask t).job? k = db.job? k := rfl
@[simp] theorem job?_setFile : (db.setFile f).job? k = db.job? k := rfl
@[simp] theorem task?_setJob : (db.setJob j).task? k = db.task? k := rfl
@[simp] theorem task?_setFile : (db.setFile f).task? k = db.task? k := rfl
@[simp] theorem file?_setJob : (db.setJob j).file? k = db.file? k := rfl
@[simp] theorem file?_setTask : (db.setTask t).file? k = db.file? k := rfl
@[simp] theorem artifacts_setJob : (db.setJob j).artifacts = db.artifacts := rfl
@[simp] theorem artifacts_setTask : (db.setTask t).artifacts = db.artifacts := rfl
@[simp] theorem artifacts_setFile : (db.setFile f).artifacts = db.artifacts := rfl

end Reads

section Unchecked

variable {db : Database} {k : Uuid}

/-- The row an update by key leaves behind when its row count is not checked. -/
theorem task?_updateTask_getD {c : BuildTask → Bool} {f : BuildTask → BuildTask}
    (hf : ∀ t, (f t).id = t.id) (k' : Uuid) :
    ((db.updateTask k c f).getD db).task? k' =
      if k' = k then (db.task? k').map fun t => if c t = true then f t else t
      else db.task? k' := by
  cases h : db.updateTask k c f with
  | none =>
      rw [Option.getD_none]
      split
      · next hk =>
        subst hk
        cases ht : db.task? k' with
        | none => rfl
        | some t =>
            rw [Option.map_some, if_neg (by rw [updateTask_eq_none_iff.1 h t ht]; exact Bool.false_ne_true)]
      · rfl
  | some db' =>
      obtain ⟨t, ht, hc, rfl⟩ := updateTask_eq_some_iff.1 h
      have hid : (f t).id = k := (hf t).trans (Table.key_of_find? ht)
      rw [Option.getD_some, task?_setTask, hid]
      split
      · next hk =>
        subst hk
        rw [ht, Option.map_some, Option.map_some, if_pos hc]
      · rfl

theorem file?_updateFile_getD {c : RequirementFile → Bool} {f : RequirementFile → RequirementFile}
    (hf : ∀ r, (f r).id = r.id) (k' : Uuid) :
    ((db.updateFile k c f).getD db).file? k' =
      if k' = k then (db.file? k').map fun r => if c r = true then f r else r
      else db.file? k' := by
  cases h : db.updateFile k c f with
  | none =>
      rw [Option.getD_none]
      split
      · next hk =>
        subst hk
        cases hr : db.file? k' with
        | none => rfl
        | some r =>
            rw [Option.map_some, if_neg (by rw [updateFile_eq_none_iff.1 h r hr]; exact Bool.false_ne_true)]
      · rfl
  | some db' =>
      obtain ⟨r, hr, hc, rfl⟩ := updateFile_eq_some_iff.1 h
      have hid : (f r).id = k := (hf r).trans (Table.key_of_find? hr)
      rw [Option.getD_some, file?_setFile, hid]
      split
      · next hk =>
        subst hk
        rw [hr, Option.map_some, Option.map_some, if_pos hc]
      · rfl

/-- An update of `build_tasks` leaves the other tables alone. -/
theorem updateTask_getD_frame (c : BuildTask → Bool) (f : BuildTask → BuildTask) :
    ∃ tasks, (db.updateTask k c f).getD db = { db with buildTasks := tasks } := by
  unfold updateTask
  cases db.buildTasks.updateKey k c f with
  | none => exact ⟨db.buildTasks, rfl⟩
  | some tasks => exact ⟨tasks, rfl⟩

/-- An update of `requirement_files` leaves the other tables alone. -/
theorem updateFile_getD_frame (c : RequirementFile → Bool)
    (f : RequirementFile → RequirementFile) :
    ∃ files, (db.updateFile k c f).getD db = { db with requirementFiles := files } := by
  unfold updateFile
  cases db.requirementFiles.updateKey k c f with
  | none => exact ⟨db.requirementFiles, rfl⟩
  | some files => exact ⟨files, rfl⟩

end Unchecked

end Database

end WheelForge.Jobs
