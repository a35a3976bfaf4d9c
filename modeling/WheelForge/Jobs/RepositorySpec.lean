import WheelForge.Jobs.Repository

/-!
# What the repository operations do

`Owned` is the state of the job row under a held lease. Every operation under a lease is a no-op
when the lease is not held (`perform_of_not_owns`), and otherwise one of the effects listed by
`LeaseEffect` (`perform_effect`); `claimPass_cases` says the same of a pass of `claim_next`. The
invariants of the job system are proved from these statements and never unfold an operation.
-/

set_option autoImplicit false

namespace WheelForge.Jobs

open WheelForge.Relational
open WheelForge.Parser (ParsedRequirements)
open WheelForge.Resolver (ResolutionResult)
open WheelForge.Build (DownloadedWheel StaticValidationReport PublishedObject)

/-! ## The held lease -/

/-- `j` is the job row of `lease`, and `lease` holds it at `now`. -/
structure Owned (db : Database) (lease : JobLease) (now : DateTime) (j : BuildJob) : Prop where
  found : db.job? lease.id = some j
  running : j.status = .running
  owner : j.leaseOwner = some lease.workerId
  execution : j.executionId = some lease.executionId
  unexpired : ∃ expires, j.leaseExpiresAt = some expires ∧ now < expires

theorem job?_id {db : Database} {k : Uuid} {j : BuildJob} (h : db.job? k = some j) : j.id = k :=
  Table.key_of_find? h

theorem task?_id {db : Database} {k : Uuid} {t : BuildTask} (h : db.task? k = some t) : t.id = k :=
  Table.key_of_find? h

theorem file?_id {db : Database} {k : Uuid} {f : RequirementFile} (h : db.file? k = some f) :
    f.id = k :=
  Table.key_of_find? h

theorem ownership_eq_true_iff {lease : JobLease} {now : DateTime} {j : BuildJob} :
    ownership lease now j = true ↔
      j.id = lease.id ∧ j.status = .running ∧ j.leaseOwner = some lease.workerId ∧
        j.executionId = some lease.executionId ∧
        ∃ expires, j.leaseExpiresAt = some expires ∧ now < expires := by
  unfold ownership
  cases j.leaseExpiresAt with
  | none => simp
  | some expires => simp [and_assoc]

theorem owned_iff {db : Database} {lease : JobLease} {now : DateTime} {j : BuildJob} :
    Owned db lease now j ↔ db.job? lease.id = some j ∧ ownership lease now j = true := by
  rw [ownership_eq_true_iff]
  constructor
  · intro h
    exact ⟨h.found, job?_id h.found, h.running, h.owner, h.execution, h.unexpired⟩
  · rintro ⟨hf, -, hr, ho, he, hx⟩
    exact ⟨hf, hr, ho, he, hx⟩

theorem owns_eq_true_iff {db : Database} {lease : JobLease} {now : DateTime} :
    owns db lease now = true ↔ ∃ j, Owned db lease now j := by
  unfold owns
  cases h : db.job? lease.id with
  | none =>
      constructor
      · intro hf
        cases hf
      · rintro ⟨j, hj⟩
        rw [hj.found] at h
        cases h
  | some j =>
      constructor
      · intro hj
        exact ⟨j, owned_iff.2 ⟨h, hj⟩⟩
      · rintro ⟨j', hj'⟩
        obtain ⟨hf, ho⟩ := owned_iff.1 hj'
        rw [h] at hf
        cases hf
        exact ho

theorem updateOwnedJob_eq_some_iff {db db' : Database} {lease : JobLease} {now : DateTime}
    {f : BuildJob → BuildJob} :
    updateOwnedJob db lease now f = some db' ↔
      ∃ j, Owned db lease now j ∧ db' = db.setJob (f j) := by
  unfold updateOwnedJob
  rw [Database.updateJob_eq_some_iff]
  constructor
  · rintro ⟨j, hj, ho, rfl⟩
    exact ⟨j, owned_iff.2 ⟨hj, ho⟩, rfl⟩
  · rintro ⟨j, hj, rfl⟩
    exact ⟨j, (owned_iff.1 hj).1, (owned_iff.1 hj).2, rfl⟩

theorem updateOwnedJob_of_owned {db : Database} {lease : JobLease} {now : DateTime} {j : BuildJob}
    (h : Owned db lease now j) (f : BuildJob → BuildJob) :
    updateOwnedJob db lease now f = some (db.setJob (f j)) :=
  updateOwnedJob_eq_some_iff.2 ⟨j, h, rfl⟩

theorem updateOwnedJob_of_not_owns {db : Database} {lease : JobLease} {now : DateTime}
    (h : owns db lease now = false) (f : BuildJob → BuildJob) :
    updateOwnedJob db lease now f = none := by
  cases hu : updateOwnedJob db lease now f with
  | none => rfl
  | some db' =>
      obtain ⟨j, hj, -⟩ := updateOwnedJob_eq_some_iff.1 hu
      rw [owns_eq_true_iff.2 ⟨j, hj⟩] at h
      cases h

/-- Ownership only reads the job row. -/
theorem Owned.of_job? {db db' : Database} {lease : JobLease} {now : DateTime} {j : BuildJob}
    (h : Owned db lease now j) (hj : db'.job? lease.id = db.job? lease.id) :
    Owned db' lease now j :=
  ⟨hj.trans h.found, h.running, h.owner, h.execution, h.unexpired⟩

theorem Owned.setTask {db : Database} {lease : JobLease} {now : DateTime} {j : BuildJob}
    (h : Owned db lease now j) (t : BuildTask) : Owned (db.setTask t) lease now j :=
  h.of_job? rfl

theorem Owned.eq {db : Database} {lease : JobLease} {now : DateTime} {j j' : BuildJob}
    (h : Owned db lease now j) (h' : Owned db lease now j') : j = j' := by
  have := h.found.symm.trans h'.found
  cases this
  rfl

/-! ## Effects -/

/-- The columns of a job row that no operation changes. -/
structure BuildJob.Same (j j' : BuildJob) : Prop where
  id : j'.id = j.id
  jobType : j'.jobType = j.jobType
  subjectId : j'.subjectId = j.subjectId
  maxAttempts : j'.maxAttempts = j.maxAttempts

/-- The columns of a task row that no operation of the worker changes. -/
structure BuildTask.Same (t t' : BuildTask) : Prop where
  id : t'.id = t.id
  userId : t'.userId = t.userId
  requirementFileId : t'.requirementFileId = t.requirementFileId
  targetProfileId : t'.targetProfileId = t.targetProfileId
  targetSnapshot : t'.targetSnapshot = t.targetSnapshot
  cancelRequested : t'.cancelRequested = t.cancelRequested
  deletedAt : t'.deletedAt = t.deletedAt

/-- The columns of a file row that no operation changes. -/
structure RequirementFile.Same (f f' : RequirementFile) : Prop where
  id : f'.id = f.id
  userId : f'.userId = f.userId
  originalObjectKey : f'.originalObjectKey = f.originalObjectKey

theorem BuildJob.Same.refl (j : BuildJob) : j.Same j := ⟨rfl, rfl, rfl, rfl⟩

theorem BuildJob.Same.trans {j j' j'' : BuildJob} (h : j.Same j') (h' : j'.Same j'') :
    j.Same j'' :=
  ⟨h'.id.trans h.id, h'.jobType.trans h.jobType, h'.subjectId.trans h.subjectId,
    h'.maxAttempts.trans h.maxAttempts⟩

theorem BuildTask.Same.refl (t : BuildTask) : t.Same t := ⟨rfl, rfl, rfl, rfl, rfl, rfl, rfl⟩

theorem BuildTask.Same.trans {t t' t'' : BuildTask} (h : t.Same t') (h' : t'.Same t'') :
    t.Same t'' :=
  ⟨h'.id.trans h.id, h'.userId.trans h.userId, h'.requirementFileId.trans h.requirementFileId,
    h'.targetProfileId.trans h.targetProfileId, h'.targetSnapshot.trans h.targetSnapshot,
    h'.cancelRequested.trans h.cancelRequested, h'.deletedAt.trans h.deletedAt⟩

theorem RequirementFile.Same.refl (f : RequirementFile) : f.Same f := ⟨rfl, rfl, rfl⟩

theorem RequirementFile.Same.trans {f f' f'' : RequirementFile} (h : f.Same f')
    (h' : f'.Same f'') : f.Same f'' :=
  ⟨h'.id.trans h.id, h'.userId.trans h.userId,
    h'.originalObjectKey.trans h.originalObjectKey⟩

/-- What an operation under a lease writes to the row of its job and to the rows of its subject,
and the artifacts it inserts. -/
structure Effect where
  job : BuildJob → BuildJob
  task : BuildTask → BuildTask
  file : RequirementFile → RequirementFile
  artifacts : List ArtifactRow
  job_same : ∀ j : BuildJob, j.Same (job j)
  task_same : ∀ t : BuildTask, t.Same (task t)
  file_same : ∀ f : RequirementFile, f.Same (file f)

namespace Effect

/-- Nothing is written. -/
def keep : Effect where
  job := id
  task := id
  file := id
  artifacts := []
  job_same := BuildJob.Same.refl
  task_same := BuildTask.Same.refl
  file_same := RequirementFile.Same.refl

def andJob (e : Effect) (f : BuildJob → BuildJob)
    (hf : ∀ j : BuildJob, j.Same (f j) := by intro _; exact ⟨rfl, rfl, rfl, rfl⟩) : Effect :=
  { e with job := fun j => f (e.job j), job_same := fun j => (e.job_same j).trans (hf _) }

def andTask (e : Effect) (f : BuildTask → BuildTask)
    (hf : ∀ t : BuildTask, t.Same (f t) := by
      intro _; exact ⟨rfl, rfl, rfl, rfl, rfl, rfl, rfl⟩) : Effect :=
  { e with task := fun t => f (e.task t), task_same := fun t => (e.task_same t).trans (hf _) }

def andFile (e : Effect) (f : RequirementFile → RequirementFile)
    (hf : ∀ r : RequirementFile, r.Same (f r) := by intro _; exact ⟨rfl, rfl, rfl⟩) : Effect :=
  { e with file := fun r => f (e.file r), file_same := fun r => (e.file_same r).trans (hf _) }

def andArtifact (e : Effect) (row : ArtifactRow) : Effect :=
  { e with artifacts := e.artifacts ++ [row] }

end Effect

/-- `db'` is `db` after the effect `e` on the rows of `lease`, whose job row was `j`. -/
structure Applies (lease : JobLease) (db db' : Database) (j : BuildJob) (e : Effect) : Prop where
  found : db.job? lease.id = some j
  job : ∀ k, db'.job? k = if k = lease.id then some (e.job j) else db.job? k
  task : ∀ k, db'.task? k =
    if k = lease.subjectId then (db.task? k).map e.task else db.task? k
  file : ∀ k, db'.file? k =
    if k = lease.subjectId then (db.file? k).map e.file else db.file? k
  artifacts : db'.artifacts.rows = db.artifacts.rows ++ e.artifacts

namespace Applies

variable {lease : JobLease} {db db₁ db₂ : Database} {j : BuildJob} {e : Effect}

theorem start (h : db.job? lease.id = some j) : Applies lease db db j Effect.keep where
  found := h
  job k := by
    split
    · next hk => subst hk; exact h
    · rfl
  task k := by
    split
    · exact (Option.map_id_apply).symm
    · rfl
  file k := by
    split
    · exact (Option.map_id_apply).symm
    · rfl
  artifacts := (List.append_nil _).symm

theorem job_id (h : Applies lease db db₁ j e) : (e.job j).id = lease.id :=
  (e.job_same j).id.trans (job?_id h.found)

theorem job?_self (h : Applies lease db db₁ j e) : db₁.job? lease.id = some (e.job j) := by
  rw [h.job, if_pos rfl]

/-- A write that leaves the four tables of the job protocol alone. -/
theorem frame (h : Applies lease db db₁ j e) (hj : db₂.buildJobs = db₁.buildJobs)
    (ht : db₂.buildTasks = db₁.buildTasks) (hf : db₂.requirementFiles = db₁.requirementFiles)
    (ha : db₂.artifacts = db₁.artifacts) : Applies lease db db₂ j e where
  found := h.found
  job k := by rw [← h.job]; unfold Database.job?; rw [hj]
  task k := by rw [← h.task]; unfold Database.task?; rw [ht]
  file k := by rw [← h.file]; unfold Database.file?; rw [hf]
  artifacts := by rw [ha]; exact h.artifacts

theorem setJob (h : Applies lease db db₁ j e) (f : BuildJob → BuildJob)
    (hf : ∀ j : BuildJob, j.Same (f j)) :
    Applies lease db (db₁.setJob (f (e.job j))) j (e.andJob f hf) where
  found := h.found
  job k := by
    have hid : (f (e.job j)).id = lease.id := (hf _).id.trans h.job_id
    rw [Database.job?_setJob, hid]
    split
    · next hk =>
      subst hk
      rw [h.job?_self, Option.map_some]
      rfl
    · next hk => rw [h.job, if_neg hk]
  task := h.task
  file := h.file
  artifacts := h.artifacts

/-- The effect of one write to the job row. -/
theorem onJob (h : db.job? lease.id = some j) (f : BuildJob → BuildJob)
    (hf : ∀ j : BuildJob, j.Same (f j)) :
    Applies lease db (db.setJob (f j)) j (Effect.keep.andJob f hf) :=
  (start h).setJob f hf

/-- A write to `build_tasks` that maps the subject's row. -/
theorem mapTask (h : Applies lease db db₁ j e) (f : BuildTask → BuildTask)
    (hf : ∀ t : BuildTask, t.Same (f t)) (hd : ∃ tasks, db₂ = { db₁ with buildTasks := tasks })
    (ht : ∀ k, db₂.task? k =
      if k = lease.subjectId then (db₁.task? k).map f else db₁.task? k) :
    Applies lease db db₂ j (e.andTask f hf) := by
  obtain ⟨tasks, rfl⟩ := hd
  refine ⟨h.found, h.job, fun k => ?_, h.file, h.artifacts⟩
  rw [ht, h.task]
  split
  · rw [Option.map_map]
    rfl
  · rfl

/-- A write to `requirement_files` that maps the subject's row. -/
theorem mapFile (h : Applies lease db db₁ j e) (f : RequirementFile → RequirementFile)
    (hf : ∀ r : RequirementFile, r.Same (f r))
    (hd : ∃ files, db₂ = { db₁ with requirementFiles := files })
    (hr : ∀ k, db₂.file? k =
      if k = lease.subjectId then (db₁.file? k).map f else db₁.file? k) :
    Applies lease db db₂ j (e.andFile f hf) := by
  obtain ⟨files, rfl⟩ := hd
  refine ⟨h.found, h.job, h.task, fun k => ?_, h.artifacts⟩
  rw [hr, h.file]
  split
  · rw [Option.map_map]
    rfl
  · rfl

theorem setTask (h : Applies lease db db₁ j e) {t : BuildTask}
    (ht : db₁.task? lease.subjectId = some t) (f : BuildTask → BuildTask)
    (hf : ∀ t : BuildTask, t.Same (f t)) :
    Applies lease db (db₁.setTask (f t)) j (e.andTask f hf) := by
  refine h.mapTask f hf ⟨_, rfl⟩ fun k => ?_
  have hid : (f t).id = lease.subjectId := (hf t).id.trans (task?_id ht)
  rw [Database.task?_setTask, hid]
  split
  · next hk =>
    subst hk
    rw [ht, Option.map_some, Option.map_some]
  · rfl

theorem setFile (h : Applies lease db db₁ j e) {r : RequirementFile}
    (hr : db₁.file? lease.subjectId = some r) (f : RequirementFile → RequirementFile)
    (hf : ∀ r : RequirementFile, r.Same (f r)) :
    Applies lease db (db₁.setFile (f r)) j (e.andFile f hf) := by
  refine h.mapFile f hf ⟨_, rfl⟩ fun k => ?_
  have hid : (f r).id = lease.subjectId := (hf r).id.trans (file?_id hr)
  rw [Database.file?_setFile, hid]
  split
  · next hk =>
    subst hk
    rw [hr, Option.map_some, Option.map_some]
  · rfl

theorem insertArtifact (h : Applies lease db db₁ j e) {rows : Table ArtifactRow}
    {row : ArtifactRow} (hr : rows.rows = db₁.artifacts.rows ++ [row]) :
    Applies lease db { db₁ with artifacts := rows } j (e.andArtifact row) where
  found := h.found
  job := h.job
  task := h.task
  file := h.file
  artifacts := by
    show rows.rows = db.artifacts.rows ++ (e.artifacts ++ [row])
    rw [hr, h.artifacts, List.append_assoc]

end Applies

/-! ## Subject updates -/

/-- `_terminalize_subject` on the row of a task. -/
def BuildTask.terminalizedBy (jobType : JobType) (code message : String) (now : DateTime)
    (t : BuildTask) : BuildTask :=
  if jobType = .build ∧ t.status.isTerminal = false then t.terminalized code message now else t

/-- `_terminalize_subject` on the row of a file. -/
def RequirementFile.terminalizedBy (jobType : JobType) (message : String) (f : RequirementFile) :
    RequirementFile :=
  if jobType = .requirementParse ∧ f.parseStatus ≠ .parsed ∧ f.parseStatus ≠ .failed then
    f.terminalized message
  else f

/-- `_reset_subject_for_retry` on the row of a task. -/
def BuildTask.resetBy (lease : JobLease) (t : BuildTask) : BuildTask :=
  if lease.jobType = .build ∧ t.executionId = some lease.executionId then t.requeued else t

/-- `_reset_subject_for_retry` on the row of a file. -/
def RequirementFile.resetBy (lease : JobLease) (f : RequirementFile) : RequirementFile :=
  if lease.jobType = .requirementParse ∧ f.parseStatus = .parsing then f.requeued else f

theorem BuildTask.terminalizedBy_same (jobType : JobType) (code message : String)
    (now : DateTime) (t : BuildTask) : t.Same (t.terminalizedBy jobType code message now) := by
  unfold BuildTask.terminalizedBy
  split
  · exact ⟨rfl, rfl, rfl, rfl, rfl, rfl, rfl⟩
  · exact BuildTask.Same.refl t

theorem RequirementFile.terminalizedBy_same (jobType : JobType) (message : String)
    (f : RequirementFile) : f.Same (f.terminalizedBy jobType message) := by
  unfold RequirementFile.terminalizedBy
  split
  · exact ⟨rfl, rfl, rfl⟩
  · exact RequirementFile.Same.refl f

theorem BuildTask.resetBy_same (lease : JobLease) (t : BuildTask) : t.Same (t.resetBy lease) := by
  unfold BuildTask.resetBy
  split
  · exact ⟨rfl, rfl, rfl, rfl, rfl, rfl, rfl⟩
  · exact BuildTask.Same.refl t

theorem RequirementFile.resetBy_same (lease : JobLease) (f : RequirementFile) :
    f.Same (f.resetBy lease) := by
  unfold RequirementFile.resetBy
  split
  · exact ⟨rfl, rfl, rfl⟩
  · exact RequirementFile.Same.refl f

namespace Effect

/-- The effect `e` followed by `_terminalize_subject`. -/
def andTerminalize (e : Effect) (jobType : JobType) (code message : String) (now : DateTime) :
    Effect :=
  (e.andTask (BuildTask.terminalizedBy jobType code message now)
    (BuildTask.terminalizedBy_same jobType code message now)).andFile
      (RequirementFile.terminalizedBy jobType message)
      (RequirementFile.terminalizedBy_same jobType message)

/-- The effect `e` followed by `_reset_subject_for_retry`. -/
def andReset (e : Effect) (lease : JobLease) : Effect :=
  (e.andTask (BuildTask.resetBy lease) (BuildTask.resetBy_same lease)).andFile
    (RequirementFile.resetBy lease) (RequirementFile.resetBy_same lease)

end Effect

namespace Applies

variable {lease : JobLease} {db db₁ : Database} {j : BuildJob} {e : Effect}

/-- A function that is the identity on rows of the subject's table leaves lookups alone. -/
theorem map_lookup_self {α : Type} {f : α → α} (hf : ∀ a, f a = a) (o : Option α) {c : Prop}
    [Decidable c] : o = if c then o.map f else o := by
  have hid : f = id := funext hf
  rw [hid, Option.map_id_apply, ite_self]

theorem terminalize (h : Applies lease db db₁ j e) (code message : String) (now : DateTime) :
    Applies lease db
      (terminalizeSubject db₁ lease.jobType lease.subjectId now code message) j
      (e.andTerminalize lease.jobType code message now) := by
  unfold terminalizeSubject Effect.andTerminalize
  cases hjt : lease.jobType with
  | build =>
      refine (h.mapTask _ _ (Database.updateTask_getD_frame _ _) fun k => ?_).mapFile _ _
        ⟨_, rfl⟩ fun k => ?_
      · refine (Database.task?_updateTask_getD (by intro _; rfl) k).trans ?_
        congr 2
        funext t
        unfold BuildTask.terminalizedBy
        cases t.status.isTerminal <;> simp
      · refine map_lookup_self (fun r => ?_) _
        unfold RequirementFile.terminalizedBy
        rw [if_neg (by rintro ⟨hc, -⟩; cases hc)]
  | requirementParse =>
      refine (h.mapTask _ _ ⟨_, rfl⟩ fun k => ?_).mapFile _ _
        (Database.updateFile_getD_frame _ _) fun k => ?_
      · refine map_lookup_self (fun t => ?_) _
        unfold BuildTask.terminalizedBy
        rw [if_neg (by rintro ⟨hc, -⟩; cases hc)]
      · refine (Database.file?_updateFile_getD (by intro _; rfl) k).trans ?_
        congr 2
        funext r
        unfold RequirementFile.terminalizedBy
        cases r.parseStatus <;> simp

theorem reset (h : Applies lease db db₁ j e) :
    Applies lease db (resetSubjectForRetry db₁ lease) j (e.andReset lease) := by
  unfold resetSubjectForRetry Effect.andReset
  cases hjt : lease.jobType with
  | build =>
      refine (h.mapTask _ _ (Database.updateTask_getD_frame _ _) fun k => ?_).mapFile _ _
        ⟨_, rfl⟩ fun k => ?_
      · refine (Database.task?_updateTask_getD (by intro _; rfl) k).trans ?_
        congr 2
        funext t
        unfold BuildTask.resetBy
        simp [hjt]
      · refine map_lookup_self (fun r => ?_) _
        unfold RequirementFile.resetBy
        rw [if_neg (by rintro ⟨hc, -⟩; rw [hjt] at hc; cases hc)]
  | requirementParse =>
      refine (h.mapTask _ _ ⟨_, rfl⟩ fun k => ?_).mapFile _ _
        (Database.updateFile_getD_frame _ _) fun k => ?_
      · refine map_lookup_self (fun t => ?_) _
        unfold BuildTask.resetBy
        rw [if_neg (by rintro ⟨hc, -⟩; rw [hjt] at hc; cases hc)]
      · refine (Database.file?_updateFile_getD (by intro _; rfl) k).trans ?_
        congr 2
        funext r
        unfold RequirementFile.resetBy
        simp [hjt]

end Applies

/-! ## Commits -/

/-- A transaction committed a result, or it left the database as it was. -/
theorem Txn.commit_cases {α : Type} (txn : Txn α) (db : Database) :
    (∃ a, txn db = .ok (a, txn.commit db)) ∨ txn.commit db = db := by
  unfold Txn.commit
  cases h : txn db with
  | error e => exact Or.inr rfl
  | ok r => exact Or.inl ⟨r.1, rfl⟩

theorem Txn.commit_of_ok {α : Type} {txn : Txn α} {db db' : Database} {a : α}
    (h : txn db = .ok (a, db')) : txn.commit db = db' := by
  unfold Txn.commit
  rw [h]

theorem Txn.commit_of_error {α : Type} {txn : Txn α} {db : Database} {e : RepositoryError}
    (h : txn db = .error e) : txn.commit db = db := by
  unfold Txn.commit
  rw [h]

theorem insertArtifact_eq_some {table rows : Table ArtifactRow} {row : ArtifactRow}
    (h : JobRepository.insertArtifact table row = some rows) : rows.rows = table.rows ++ [row] := by
  unfold JobRepository.insertArtifact at h
  split at h
  · cases h
  · exact (Table.insert?_eq_some h).2

/-! ## Audit writes -/

section Audit

variable {repo : JobRepository} {lease : JobLease} {now : DateTime} {db db' : Database}

/-- `_append_log` writes to `build_logs` only. -/
theorem appendLogRow_ok {stage level message : String} {context : Option Json} {rowId : Uuid}
    {n : Nat} (h : repo.appendLogRow lease stage level message context rowId now db = .ok (n, db')) :
    ∃ logs, db' = { db with buildLogs := logs } := by
  unfold JobRepository.appendLogRow at h
  split at h
  · cases h
  · split at h
    · cases h
    · split at h
      · cases h
      · split at h
        · cases h
        · cases h
          exact ⟨_, rfl⟩

/-- `persist_resolution` writes to `resolved_packages` and `build_logs` only. -/
theorem persistResolution_ok {resolution : ResolutionResult} {uuids : Nat → Uuid} {u : Unit}
    (h : repo.persistResolution lease resolution uuids now db = .ok (u, db')) :
    owns db lease now = true ∧
      ∃ packages logs, db' = { db with resolvedPackages := packages, buildLogs := logs } := by
  unfold JobRepository.persistResolution at h
  split at h
  · cases h
  · split at h
    · split at h
      · next howns =>
        split at h
        · cases h
        · split at h
          · cases h
          · next hlog =>
            cases h
            obtain ⟨logs, rfl⟩ := appendLogRow_ok hlog
            exact ⟨howns, _, logs, rfl⟩
      · cases h
    · cases h

/-- `persist_package_results` writes to `resolved_packages` only. -/
theorem persistPackageResults_ok {resolution : ResolutionResult} {wheels : List DownloadedWheel}
    {validation : StaticValidationReport} {failures : List (String × String)} {u : Unit}
    (h : repo.persistPackageResults lease resolution wheels validation failures now db =
      .ok (u, db')) :
    ∃ packages, db' = { db with resolvedPackages := packages } := by
  unfold JobRepository.persistPackageResults at h
  split at h
  · split at h
    · cases h
      exact ⟨_, rfl⟩
    · cases h
  · cases h

end Audit

end WheelForge.Jobs
